import Bpftime.Jit.ControlFlow

/-!
# Targets of jumps and calls

Which programs the compiler accepts, when their instructions are acceptable one by one.
-/

namespace Bpftime.Jit

open Ir Option List EbpfInst Isa Except Nat

variable {cfg : Config} {insts : List EbpfInst} {blockBegin : ℕ → Bool} {inst : EbpfInst} {pc : ℕ}

section Loop

variable {σ : Type} {n : ℕ} {body : ℕ → σ → Except Failure σ}

lemma forUint16_diverges (hn : 2^16 ≤ n) (hbody : ∀ i st, i < 2^16 → ∃ st', body i st = .ok st')
    (rounds i : ℕ) (hi : i < 2^16) (st : σ) : forUint16 n body rounds i st = .error .diverges := by
  induction rounds generalizing i st with
  | zero => rfl
  | succ rounds ih =>
    obtain ⟨st', hst'⟩ := hbody i st hi
    rw [forUint16, if_pos (by omega), hst']
    exact ih _ (mod_lt _ (by norm_num)) _

lemma forUint16_error {bad : ℕ} {err : Failure} (hbad : bad < n) (hbad' : bad < 2^16)
    (hbody : ∀ i st, i < bad → ∃ st', body i st = .ok st')
    (herr : ∀ st, body bad st = .error err) {rounds i : ℕ} (hi : i ≤ bad) (hrounds : bad - i < rounds)
    (st : σ) : forUint16 n body rounds i st = .error err := by
  induction rounds generalizing i st with
  | zero => omega
  | succ rounds ih =>
    rw [forUint16, if_pos (by omega)]
    rcases hi.eq_or_lt with rfl | hlt
    · rw [herr]
    · obtain ⟨st', hst'⟩ := hbody i st hlt
      rw [hst', mod_eq_of_lt (by omega)]
      exact ih (by omega) (by omega) st'

end Loop

/-- The unconditional jump by `imm` at a position leaves the program. -/
def WildImmJmp (insts : List EbpfInst) (i : ℕ) : Prop :=
  ∃ inst ∈ insts[i]?, inst.isImmJmp = true ∧ ¬ InRange insts (inst.target i false)

instance (insts : List EbpfInst) : DecidablePred (WildImmJmp insts) := fun i =>
  decidable_of_iff (insts[i]?.any fun inst => inst.isImmJmp ∧ ¬ InRange insts (inst.target i false)) <| by
    simp [WildImmJmp, Option.any_eq_true]

variable {i rounds currBB stop : ℕ} {t : ℤ}

lemma markBlocks_of_wild (h : WildImmJmp insts i) (marks : ℕ → Bool) :
    markBlocks insts i marks = .error .outOfBounds := by
  obtain ⟨inst, hinst, himm, hrange⟩ := h
  simp only [markBlocks, mem_def.mp hinst, himm, if_true, if_neg hrange]

lemma exists_markBlocks (hi : i < insts.length) (h : ¬ WildImmJmp insts i)
    (marks : ℕ → Bool) : ∃ marks', markBlocks insts i marks = .ok marks' := by
  have hinst := getElem?_eq_getElem hi
  simp only [markBlocks, hinst]
  by_cases himm : insts[i].isImmJmp = true
  · have hrange : InRange insts (insts[i].target i false) := by
      by_contra hrange
      exact h ⟨_, hinst, himm, hrange⟩
    rw [if_pos himm, if_pos hrange]
    exact ⟨_, rfl⟩
  · rw [if_neg himm]
    by_cases hjmp : insts[i].isJmp = true ∧ InRange insts (insts[i].target i true)
    · exact ⟨_, if_pos hjmp⟩
    · exact ⟨_, if_neg hjmp⟩

/-- No position that the first pass comes to has such a jump. -/
def NoWildImmJmp (insts : List EbpfInst) : Prop := ∀ i < 2^16, ¬ WildImmJmp insts i

lemma splitBlocks_of_wild (h : ¬ NoWildImmJmp insts) : splitBlocks insts = .error .outOfBounds := by
  obtain ⟨i, hi, hwild⟩ : ∃ i < 2^16, WildImmJmp insts i := by simpa [NoWildImmJmp] using h
  -- The first of these jumps ends the pass.
  obtain ⟨bad, ⟨hbad, hbadlt⟩, hmin⟩ : ∃ bad, (WildImmJmp insts bad ∧ bad < 2^16) ∧
      ∀ j < bad, ¬ WildImmJmp insts j := by
    refine ⟨Nat.find ⟨i, hwild⟩, ⟨Nat.find_spec ⟨i, hwild⟩, ?_⟩, fun j hj => Nat.find_min _ hj⟩
    exact (Nat.find_min' ⟨i, hwild⟩ hwild).trans_lt hi
  have hlt : bad < insts.length := by
    obtain ⟨inst, hinst, -⟩ := hbad
    exact (List.getElem?_eq_some_iff.mp hinst).1
  exact forUint16_error hlt hbadlt (fun j st hj => exists_markBlocks (by omega) (hmin j hj) st)
    (fun st => markBlocks_of_wild hbad st) (Nat.zero_le _) (by omega) _

lemma splitBlocks_of_long (hn : 2^16 ≤ insts.length) (h : NoWildImmJmp insts) :
    splitBlocks insts = .error .diverges :=
  forUint16_diverges hn (fun i st hi => exists_markBlocks (by omega) (h i hi) st) _ _ (by norm_num) _

lemma exists_splitBlocks (hn : insts.length < 2^16) (h : NoWildImmJmp insts) :
    ∃ marks : ℕ → Bool, splitBlocks insts = .ok marks ∧ ∀ p, marks p = true ↔ Marked insts p := by
  refine forUint16_ends (P := fun i (marks : ℕ → Bool) => ∀ p, marks p = true ↔ MarkedBy insts i p)
    (fun i marks hi hmarks => ?_) hn (Nat.zero_le _) (by omega) markedBy_zero
  have hinst := getElem?_eq_getElem hi
  have hspec := markBlocks_spec hinst hmarks
  rwa [if_neg fun hwild => h i (by omega) ⟨_, hinst, hwild⟩] at hspec

/-! ## The instruction loop -/

variable {blocks : ℕ → Block} {c : Case} {e : JitEmit (Option (Term Label))} {cs : Block}

lemma exists_emitLoop_iff (hpc : IsStart insts pc) (hrounds : insts.length - pc < rounds) :
    (∃ blocks', emitLoop cfg insts blockBegin rounds pc currBB blocks = .ok blocks') ↔
    ∀ q inst, pc ≤ q → IsStart insts q → insts[q]? = some inst → ∃ e,
    emitAt cfg insts blockBegin q inst = .ok e := by
  induction rounds generalizing pc currBB blocks with
  | zero => omega
  | succ rounds ih =>
    rw [emitLoop]
    cases hinst : insts[pc]? with
    | none =>
      have hend : insts.length ≤ pc := List.getElem?_eq_none_iff.mp hinst
      refine iff_of_true ⟨_, rfl⟩ fun q inst hq _ hinst' => ?_
      have := (List.getElem?_eq_some_iff.mp hinst').1
      omega
    | some inst =>
      have hlt : pc < insts.length := (List.getElem?_eq_some_iff.mp hinst).1
      have hfound : ¬ (blockBegin pc = true ∧ ¬ instBlocks insts blockBegin pc = true) := by
        simp +contextual [instBlocks, hlt]
      simp only [if_neg hfound]
      have hnext := lt_next inst pc
      cases hemit : emitAt cfg insts blockBegin pc inst with
      | error err =>
        refine iff_of_false (by simp) fun h => ?_
        obtain ⟨e, he⟩ := h pc inst le_rfl hpc hinst
        rw [hemit] at he
        cases he
      | ok e =>
        rw [ih (hpc.next hinst) (by omega)]
        constructor
        · intro h q inst' hq hstart hinst'
          rcases hq.eq_or_lt with rfl | hlt'
          · rw [hinst, some.injEq] at hinst'
            exact ⟨e, hinst' ▸ hemit⟩
          · exact h q inst' (hpc.next_le hinst hstart hlt') hstart hinst'
        · intro h q inst' hq
          exact h q inst' (by omega)

def branchTarget (inst : EbpfInst) (pc : ℕ) : Option ℤ :=
  if inst.isLocalCall then some (pc + 1 + inst.imm.toInt) else Isa.jumpTarget inst pc

def blkId (target : ℤ) : ℕ := (target % 2^16).toNat

lemma jmpDstBlkId_eq_blkId (inst : EbpfInst) (pc : ℕ) (useOffset : Bool) :
    inst.jmpDstBlkId pc useOffset = blkId (inst.target pc useOffset) := by
  have hid := jmpDstBlkId_eq inst pc useOffset
  rw [blkId]
  omega

/-- The instruction would compile if every position had a block. -/
def Acceptable (cfg : Config) (pc : ℕ) (next : Option EbpfInst) (inst : EbpfInst) : Prop :=
  (inst.emit cfg (fun _ => true) (fun _ => true) pc next).isOk = true

lemma isOk_iff {ε α : Type} {x : Except ε α} : x.isOk = true ↔ ∃ a, x = .ok a := by
  refine ⟨exists_of_isOk, ?_⟩
  rintro ⟨a, rfl⟩
  rfl

section IsOk

variable {α β : Type}

lemma isOk_bind_ok (x : Except Failure α) (f : α → β) :
    (x >>= fun a => (ok (f a) : Except Failure β)).isOk = x.isOk := by
  cases x <;> rfl

lemma isOk_ite {p : Prop} [Decidable p] (a : α) (err : Failure) :
    (if p then ok a else .error err : Except Failure α).isOk = decide p := by
  split_ifs with h
  all_goals simp [h, isOk, Except.toBool]

end IsOk

variable {ib rb : ℕ → Bool} {next : Option EbpfInst}

lemma isOk_loadJmpDstBlock (ib : ℕ → Bool) (useOffset : Bool) :
    (inst.loadJmpDstBlock ib pc useOffset).isOk = ib (blkId (inst.target pc useOffset)) := by
  rw [loadJmpDstBlock, ← jmpDstBlkId_eq_blkId]
  simp only [isOk_ite, Bool.decide_eq_true]

lemma isOk_localJmpDstAndNextBlk (ib : ℕ → Bool) : (inst.localJmpDstAndNextBlk ib pc).isOk =
    (ib (blkId (inst.target pc true)) && ib ((pc + 1) % 2^16)) := by
  rw [← isOk_loadJmpDstBlock ib true, localJmpDstAndNextBlk, loadJmpNextBlock]
  generalize (pc + 1) % 2^16 = q
  cases inst.loadJmpDstBlock ib pc true with
  | error err => rfl
  | ok l => cases ib q <;> simp [isOk, Except.toBool, Bind.bind, Except.bind, pure, Except.pure]

lemma isOk_condJmp (ib : ℕ → Bool) (f : JitValue → JitValue → JitEmit JitValue) :
    (inst.emitCondJmpWithDstAndSrc ib pc f).isOk = (inst.localJmpDstAndNextBlk ib pc).isOk := by
  rw [emitCondJmpWithDstAndSrc]
  cases inst.localJmpDstAndNextBlk ib pc <;> rfl

lemma isOk_jset (ib : ℕ → Bool) : (inst.emitJset ib pc).isOk = (inst.localJmpDstAndNextBlk ib pc).isOk := by
  rw [emitJset]
  cases inst.localJmpDstAndNextBlk ib pc <;> rfl

lemma isOk_localCall (ib rb : ℕ → Bool) : (inst.emitLocalCall ib rb pc).isOk =
    (rb (pc + 1) && ib (blkId (inst.target pc false))) := by
  rw [← isOk_loadJmpDstBlock ib false, emitLocalCall]
  cases rb (pc + 1) with
  | false => rfl
  | true => cases inst.loadJmpDstBlock ib pc false <;> rfl

lemma branchTarget_of_not_call (hcase : inst.case = some c) (hc : c ≠ .call) (pc : ℕ) :
    inst.isLocalCall = false ∧ branchTarget inst pc = jumpTarget inst pc := by
  have hlocal : inst.isLocalCall = false := by simp [isLocalCall, hcase, hc]
  exact ⟨hlocal, by simp [branchTarget, hlocal]⟩

lemma isOk_emitCase_iff (hcase : inst.case = some c) : (inst.emitCase cfg ib rb pc next c).isOk =
    true ↔ (inst.emitCase cfg (fun _ => true) (fun _ => true) pc next c).isOk = true ∧
    (∀ t ∈ branchTarget inst pc, ib (blkId t) = true) ∧ (inst.isLocalCall = true →
    rb (pc + 1) = true) ∧ (kind inst = .cond → ib ((pc + 1) % 2^16) = true) := by
  have hkind := kind_of_case hcase
  by_cases hcall : c = .call
  · subst hcall
    simp only [emitCase]
    by_cases hsrc : inst.src = 1
    · have hlocal : inst.isLocalCall = true := by simp [isLocalCall, hcase, hsrc]
      have htarget : branchTarget inst pc = some (inst.target pc false) := by
        rw [branchTarget, if_pos hlocal]
        rfl
      simp [hsrc, isOk_localCall, htarget, hlocal, hkind, Case.kind, and_comm]
    · have hlocal : inst.isLocalCall = false := by simpa [isLocalCall, hcase] using hsrc
      have htarget : branchTarget inst pc = none := by
        simp [branchTarget, hlocal, jumpTarget, hkind, Case.kind]
      rw [if_neg hsrc, if_neg hsrc]
      simp [htarget, hlocal, hkind, Case.kind]
  · obtain ⟨hlocal, htarget⟩ := branchTarget_of_not_call hcase hcall pc
    have htrue : inst.target pc true = pc + 1 + inst.offset.toInt := rfl
    have hja : ∀ ib rb, (inst.emitCase cfg ib rb pc next .ja).isOk =
        ib (blkId (pc + 1 + inst.offset.toInt)) := fun ib rb =>
        (isOk_bind_ok _ _).trans (isOk_loadJmpDstBlock ib true)
    have hjaImm : ∀ ib rb, (inst.emitCase cfg ib rb pc next .jaImm).isOk =
        ib (blkId (pc + 1 + inst.imm.toInt)) := fun ib rb =>
        (isOk_bind_ok _ _).trans (isOk_loadJmpDstBlock ib false)
    rw [htarget, hlocal, jumpTarget, hkind]
    cases c with
    | call => exact absurd rfl hcall
    | ja => simp [hja, Case.kind]
    | jaImm => simp [hjaImm, Case.kind]
    | jcc pred => simp [emitCase, isOk_condJmp, isOk_localJmpDstAndNextBlk, Case.kind, htrue]
    | jset => simp [emitCase, isOk_jset, isOk_localJmpDstAndNextBlk, Case.kind, htrue]
    | _ => simp [emitCase, Case.kind]

lemma isOk_emit_iff : (inst.emit cfg ib rb pc next).isOk = true ↔
    Acceptable cfg pc next inst ∧ (∀ t ∈ branchTarget inst pc, ib (blkId t) = true) ∧
    (inst.isLocalCall = true → rb (pc + 1) = true) ∧ (kind inst = .cond → ib ((pc + 1) % 2^16) = true) := by
  cases hcase : inst.case with
  | none =>
    have hfail : ∀ ib rb, (inst.emit cfg ib rb pc next).isOk = false := by
      intro ib rb
      rw [EbpfInst.emit, hcase]
      split_ifs <;> rfl
    simp [Acceptable, hfail]
  | some c =>
    have hemit : ∀ ib rb, (inst.emit cfg ib rb pc next).isOk = true ↔
        (inst.dst.toNat ≤ 10 ∧ inst.src.toNat ≤ 10) ∧ (inst.emitCase cfg ib rb pc next c).isOk = true := by
      intro ib rb
      simp only [isOk_iff, emit_eq_ok_iff, hcase, some.injEq]
      constructor
      · rintro ⟨e, hregs, c', rfl, he⟩
        exact ⟨hregs, e, he⟩
      · rintro ⟨hregs, e, he⟩
        exact ⟨e, hregs, c, rfl, he⟩
    rw [Acceptable, hemit, hemit, isOk_emitCase_iff hcase]
    exact and_assoc.symm

/-! ## The check of the module -/

lemma isJmp_of_kind (h : kind inst ≠ .plain) (h' : kind inst ≠ .wide) : inst.isJmp = true := by
  have htable : ∀ o : BitVec 8, (o &&& 0x07 == clsJmp || o &&& 0x07 == clsJmp32) =
      decide (o.toNat % 8 = 5 ∨ o.toNat % 8 = 6) := by decide +kernel
  rw [isJmp, htable, decide_eq_true_eq]
  by_contra hcls
  change ¬ (cls inst = 5 ∨ cls inst = 6) at hcls
  rw [kind, if_neg hcls] at h h'
  split_ifs at h h' <;> simp_all

lemma isJmp_of_result (hemit : inst.emit cfg ib rb pc next = .ok e) (hres : e.result ≠ none) :
    inst.isJmp = true := by
  refine isJmp_of_kind (fun hk => ?_) (fun hk => ?_)
  · exact hres (straight_of_emit hemit (.inl hk)).1
  · exact hres (straight_of_emit hemit (.inr hk)).1

lemma result_isSome (hemit : inst.emit cfg ib rb pc next = .ok e)
    (hkind : kind inst = .exit ∨ kind inst = .ja) : e.result.isSome = true := by
  obtain ⟨-, c, hcase, hemit⟩ := emit_eq_ok_iff.mp hemit
  rw [kind_of_case hcase] at hkind
  cases c with
  | exit =>
    cases hemit
    rfl
  | ja =>
    obtain ⟨l, -, he⟩ := bind_eq_ok_iff.mp hemit
    cases he
    rfl
  | _ => simp [Case.kind] at hkind

lemma next_of_isJmp (hcase : inst.case = some c) (hjmp : inst.isJmp = true) : inst.next pc = pc + 1 := by
  have htable : ∀ o : BitVec 8, (o &&& 0x07 == clsJmp || o &&& 0x07 == clsJmp32) = true →
      ∀ e ∈ switchTable.find? fun e => o ∈ e.2, e.1 ≠ .lddw := by decide +kernel
  obtain ⟨e, he, rfl⟩ := map_eq_some_iff.mp hcase
  rw [EbpfInst.next, hcase, if_neg]
  simpa using htable inst.opcode hjmp e he

lemma marked_succ (hinst : insts[pc]? = some inst) (hjmp : inst.isJmp = true)
    (hlt : pc + 1 < insts.length) : Marked insts (pc + 1) := by
  refine .inr (.inl ⟨by omega, hlt, ?_⟩)
  simp [hinst, hjmp]

/-- A program whose instructions are acceptable one by one, and which ends by an exit or a jump. -/
structure WellFormed (cfg : Config) (insts : List EbpfInst) : Prop where
  acceptable : ∀ pc inst, IsStart insts pc → insts[pc]? = some inst → Acceptable cfg pc insts[pc + 1]? inst
  last : ∃ inst ∈ insts.getLast?, Isa.kind inst = .exit ∨ Isa.kind inst = .ja

lemma WellFormed.slot (hwf : WellFormed cfg insts) (hpc : IsStart insts pc)
    (hwide : isWide insts pc = true) : ∃ slot, insts[pc + 1]? = some slot ∧ slot.opcode = 0 := by
  obtain ⟨inst, hinst, hcase⟩ : ∃ inst, insts[pc]? = some inst ∧ inst.case = some .lddw := by
    cases hinst : insts[pc]? with
    | none => simp [isWide, hinst] at hwide
    | some inst => exact ⟨inst, rfl, by simpa [isWide, hinst] using hwide⟩
  obtain ⟨e, he⟩ := isOk_iff.mp (hwf.acceptable pc inst hpc hinst)
  obtain ⟨-, c, hcase', he⟩ := emit_eq_ok_iff.mp he
  rw [hcase, some.injEq] at hcase'
  subst hcase'
  obtain ⟨e', he', -⟩ := map_eq_ok_iff.mp he
  cases hnext : insts[pc + 1]? with
  | none => simp [hnext, emitLddw] at he'
  | some slot =>
    refine ⟨slot, rfl, ?_⟩
    simp only [hnext, emitLddw] at he'
    split_ifs at he' with hslot
    simp only [isLddwSlot, Bool.and_eq_true, beq_iff_eq] at hslot
    exact hslot.1.1.1

lemma isStart_or_slot {q : ℕ} (hq : q ≤ insts.length) :
    IsStart insts q ∨ (0 < q ∧ IsStart insts (q - 1) ∧ isWide insts (q - 1) = true) := by
  induction q with
  | zero => exact .inl .zero
  | succ q ih =>
    rcases ih (by omega) with hstart | ⟨hpos, hstart, hwide⟩
    · cases hwide : isWide insts q with
      | true => exact .inr ⟨by omega, hstart, hwide⟩
      | false => exact .inl ((isStart_iff _).mpr (.inr (.inl ⟨by omega, hstart, by omega, hwide⟩)))
    · exact .inl ((isStart_iff _).mpr (.inr (.inr ⟨by omega, hstart, hwide⟩)))

lemma WellFormed.isStart (hwf : WellFormed cfg insts) (hinst : insts[pc]? = some inst)
    (hop : inst.opcode ≠ 0) : IsStart insts pc := by
  have hlt : pc < insts.length := (List.getElem?_eq_some_iff.mp hinst).1
  rcases isStart_or_slot hlt.le with hstart | ⟨hpos, hstart, hwide⟩
  · exact hstart
  · obtain ⟨slot, hslot, hzero⟩ := hwf.slot hstart hwide
    rw [Nat.sub_add_cancel hpos, hinst, some.injEq] at hslot
    exact absurd (hslot ▸ hzero) hop

lemma WellFormed.next_lt (hwf : WellFormed cfg insts) (hpc : IsStart insts pc)
    (hinst : insts[pc]? = some inst)
    (hemit : inst.emit cfg ib rb pc insts[pc + 1]? = .ok e) (hres : e.result = none) :
    inst.next pc < insts.length := by
  obtain ⟨lastInst, hlast, hkind⟩ := hwf.last
  rw [mem_def, getLast?_eq_getElem?] at hlast
  have hlt : pc < insts.length := (List.getElem?_eq_some_iff.mp hinst).1
  rw [next_eq_of_isWide hinst]
  by_contra hge
  split_ifs at hge with hwide
  · -- The second half of a wide instruction would be the last instruction.
    obtain ⟨slot, hslot, hzero⟩ := hwf.slot hpc hwide
    have hslotlt : pc + 1 < insts.length := (List.getElem?_eq_some_iff.mp hslot).1
    rw [show insts.length - 1 = pc + 1 by omega, hslot, some.injEq] at hlast
    subst hlast
    have hplain : kind slot = .plain := by simp [kind, cls, hzero, opLddw]
    simp [hplain] at hkind
  · rw [show insts.length - 1 = pc by omega, hinst, some.injEq] at hlast
    subst hlast
    have hsome := result_isSome hemit hkind
    simp [hres] at hsome

lemma Straight.term_dropLast (hmarks : ∀ p, blockBegin p = true ↔ Marked insts p)
    (h : Straight cfg insts blockBegin pc cs stop) : ∀ c ∈ cs.dropLast, c.term = none := by
  induction h with
  | last _ _ _ => simp
  | @cons pc stop inst e cs hinst hemit hmark hcs ih =>
    intro c hc
    rw [dropLast_cons_of_ne_nil hcs.ne_nil, mem_cons] at hc
    rcases hc with rfl | hc
    · change e.result = none
      by_contra hres
      -- The position behind a jump would be marked.
      have hjmp := isJmp_of_result hemit hres
      obtain ⟨-, c, hcase, -⟩ := emit_eq_ok_iff.mp hemit
      have hnext : inst.next pc = pc + 1 := next_of_isJmp hcase hjmp
      have hlt : inst.next pc < insts.length := by
        cases hcs with
        | last hinst' _ _ | cons hinst' _ _ _ => exact (List.getElem?_eq_some_iff.mp hinst').1
      rw [hnext] at hmark hlt
      rw [(hmarks _).mpr (marked_succ hinst hjmp hlt)] at hmark
      cases hmark
    · exact ih c hc

lemma Straight.terminated_or_marked (hwf : WellFormed cfg insts)
    (hpc : IsStart insts pc) (h : Straight cfg insts blockBegin pc cs stop) :
    isTerminated cs = true ∨ (pc < stop ∧ blockBegin stop = true) := by
  induction h with
  | @last pc inst e hinst hemit hmark =>
    cases hres : e.result with
    | some t => exact .inl (by simp [isTerminated, chunkOf, hres])
    | none => exact .inr ⟨lt_next inst pc, hmark (hwf.next_lt hpc hinst hemit hres)⟩
  | @cons pc stop inst e cs hinst _ _ hcs ih =>
    rcases ih (hpc.next hinst) with hterm | ⟨hlt, hmark⟩
    · left
      change isTerminated ([chunkOf (some pc) e] ++ cs) = true
      rw [isTerminated_append hcs.ne_nil, hterm]
    · exact .inr ⟨(lt_next inst pc).trans hlt, hmark⟩

lemma nextBlock_isSome_iff {b : ℕ} (hlen : ∀ p, blockBegin p = true → p < insts.length) :
    (nextBlock insts blockBegin b).isSome = true ↔ ∃ j ≥ b, blockBegin j = true := by
  rw [nextBlock, find?_isSome]
  constructor
  · rintro ⟨j, -, hj⟩
    simp only [Bool.and_eq_true, decide_eq_true_eq] at hj
    exact ⟨j, hj.1, hj.2⟩
  · rintro ⟨j, hb, hj⟩
    exact ⟨j, mem_range.mpr (hlen j hj), by simp [hb, hj]⟩

lemma verifyBlock_linkBlock_iff {nextBlk : Option ℕ} (hcs : ∀ c ∈ cs.dropLast, c.term = none) :
    verifyBlock (linkBlock cs nextBlk) = true ↔ isTerminated cs = true ∨ nextBlk.isSome = true := by
  have hdrop : cs.dropLast.all (·.term.isNone) = true := by
    rw [List.all_eq_true]
    intro c hc
    rw [hcs c hc]
    rfl
  rw [linkBlock]
  cases hterm : isTerminated cs with
  | true => simp [verifyBlock, hterm, hdrop]
  | false =>
    cases nextBlk with
    | none => simp [verifyBlock, hterm]
    | some j =>
      refine iff_of_true ?_ (.inr rfl)
      -- The last chunk of the code has no terminator either.
      have hall : cs.all (·.term.isNone) = true := by
        rcases eq_nil_or_concat cs with rfl | ⟨pre, c, rfl⟩
        · rfl
        · simp_all [isTerminated]
      simp [verifyBlock, isTerminated, branchTo, hall]

/-! ## Accepted programs -/

/-- What the compiler wants of the targets, apart from the jumps by `imm` that the first pass
indexes its table by. -/
structure Accepts (insts : List EbpfInst) : Prop where
  short : insts.length < 2^16
  /-- The 16-bit number of every target is marked. -/
  found : ∀ pc inst t, IsStart insts pc → insts[pc]? = some inst → branchTarget inst pc = some t →
    Marked insts (blkId t)
  /-- The return address of every local call is registered. -/
  registered : ∀ pc inst, IsStart insts pc → insts[pc]? = some inst → inst.isLocalCall = true →
    0 < pc ∧ inst.opcode = opCall
  /-- The last marked position is a start. -/
  linked : ∀ q, Marked insts q → ¬ IsStart insts q → ∃ q' > q, Marked insts q'

lemma marked_lt (hpos : 0 < insts.length) {p : ℕ} (hp : Marked insts p) : p < insts.length := by
  rcases hp with rfl | ⟨-, hlt, -⟩ | ⟨-, -, -, -, -, -, hlt⟩
  · exact hpos
  · exact hlt
  · exact hlt

section

variable (hwf : WellFormed cfg insts)
include hwf

lemma WellFormed.length_pos : 0 < insts.length := by
  obtain ⟨inst, hinst, -⟩ := hwf.last
  rw [length_pos_iff]
  rintro rfl
  simp at hinst

lemma WellFormed.marked_succ (hinst : insts[pc]? = some inst)
    (hkind : kind inst = .cond ∨ kind inst = .call) : Marked insts (pc + 1) := by
  have hlt : pc < insts.length := (List.getElem?_eq_some_iff.mp hinst).1
  refine Jit.marked_succ hinst (isJmp_of_kind (by rcases hkind with h | h <;> simp [h])
    (by rcases hkind with h | h <;> simp [h])) ?_
  by_contra hge
  obtain ⟨lastInst, hlast, hlastKind⟩ := hwf.last
  rw [mem_def, getLast?_eq_getElem?, show insts.length - 1 = pc by omega, hinst,
    some.injEq] at hlast
  subst hlast
  rcases hkind with h | h <;> simp [h] at hlastKind

lemma WellFormed.exists_emitAt_iff (hshort : insts.length < 2^16)
    (hmarks : ∀ p, blockBegin p = true ↔ Marked insts p) (hpc : IsStart insts pc)
    (hinst : insts[pc]? = some inst) :
    (∃ e, emitAt cfg insts blockBegin pc inst = .ok e) ↔
    (∀ t ∈ branchTarget inst pc, Marked insts (blkId t)) ∧
    (inst.isLocalCall = true → 0 < pc ∧ inst.opcode = opCall) := by
  have hib : ∀ p, instBlocks insts blockBegin p = true ↔ Marked insts p := by
    intro p
    rw [instBlocks, Bool.and_eq_true, hmarks, decide_eq_true_eq]
    exact and_iff_right_of_imp (marked_lt hwf.length_pos)
  have hcond : kind inst = .cond → instBlocks insts blockBegin ((pc + 1) % 2^16) = true := by
    intro hk
    have hmarked := hwf.marked_succ hinst (.inl hk)
    have hlt := marked_lt hwf.length_pos hmarked
    rwa [mod_eq_of_lt (by omega), hib]
  have hret : inst.isLocalCall = true → (localFuncRetBlks insts blockBegin (pc + 1) = true ↔
      0 < pc ∧ inst.opcode = opCall) := by
    intro hlocal
    obtain ⟨hcase, hsrc⟩ := isLocalCall_iff.mp hlocal
    have hmarked := hwf.marked_succ hinst (.inr (kind_of_case hcase))
    simp [localFuncRetBlks, (hib _).mpr hmarked, hinst, hsrc]
  rw [emitAt, ← isOk_iff, isOk_emit_iff]
  constructor
  · rintro ⟨-, hfound, hreg, -⟩
    exact ⟨fun t ht => (hib _).mp (hfound t ht), fun hlocal => (hret hlocal).mp (hreg hlocal)⟩
  · rintro ⟨hfound, hreg⟩
    exact ⟨hwf.acceptable pc inst hpc hinst, fun t ht => (hib _).mpr (hfound t ht),
      fun hlocal => (hret hlocal).mpr (hreg hlocal), hcond⟩

lemma WellFormed.verifyModule_iff (hmarks : ∀ p, blockBegin p = true ↔ Marked insts p)
    (hspec : LoopSpec cfg insts blockBegin 0 0 (fun _ => []) blocks) :
    verifyModule insts blockBegin (moduleBlocks cfg insts blockBegin blocks) = true ↔
    ∀ q, Marked insts q → ¬ IsStart insts q → ∃ q' > q, Marked insts q' := by
  have hlen : ∀ p, blockBegin p = true → p < insts.length := fun p hp =>
      marked_lt hwf.length_pos ((hmarks p).mp hp)
  have hblock : ∀ q, blockBegin q = true → (verifyBlock (moduleBlocks cfg insts blockBegin blocks (.inst q)) = true ↔
        (¬ IsStart insts q → ∃ q' > q, Marked insts q')) := by
    intro q hq
    have hbehind : (nextBlock insts blockBegin (q + 1)).isSome = true ↔ ∃ q' > q, Marked insts q' := by
      rw [nextBlock_isSome_iff hlen]
      simp only [hmarks, ge_iff_le, succ_le_iff, gt_iff_lt]
    by_cases hstart : IsStart insts q
    · obtain ⟨stop, hcs⟩ := hspec.straight q (Nat.zero_le q) (hlen q hq) hq hstart
      rw [moduleBlocks, verifyBlock_linkBlock_iff (hcs.term_dropLast hmarks)]
      refine iff_of_true ?_ (fun h => absurd hstart h)
      rcases hcs.terminated_or_marked hwf hstart with hterm | ⟨hlt, hmark⟩
      · exact .inl hterm
      · exact .inr (hbehind.mpr ⟨stop, hlt, (hmarks stop).mp hmark⟩)
    · have hempty := hspec.empty q (Nat.zero_le q) fun h => hstart h.1
      rw [moduleBlocks, hempty, verifyBlock_linkBlock_iff (by simp), hbehind]
      simp [hstart, isTerminated]
  rw [verifyModule, List.all_eq_true]
  constructor
  · intro h q hq hstart
    have hmark := (hmarks q).mpr hq
    have hv := h q (mem_range.mpr (hlen q hmark))
    rw [hmark] at hv
    exact (hblock q hmark).mp (by simpa using hv) hstart
  · intro h q hq
    cases hmark : blockBegin q with
    | false => rfl
    | true => simpa using (hblock q hmark).mpr (h q ((hmarks q).mp hmark))

lemma generateModule_isOk_iff : (generateModule cfg insts).isOk = true ↔
    NoWildImmJmp insts ∧ Accepts insts := by
  have hne : insts ≠ [] := length_pos_iff.mp hwf.length_pos
  rw [generateModule, if_neg hne]
  by_cases hwild : NoWildImmJmp insts
  swap
  · rw [splitBlocks_of_wild hwild]
    exact iff_of_false (by simp [isOk, Except.toBool]) fun h => hwild h.1
  by_cases hshort : insts.length < 2^16
  swap
  · rw [splitBlocks_of_long (by omega) hwild]
    exact iff_of_false (by simp [isOk, Except.toBool]) fun h => hshort h.2.short
  obtain ⟨marks, hsplit, hmarks⟩ := exists_splitBlocks hshort hwild
  have hloop : (∃ blocks, emitLoop cfg insts marks (insts.length + 1) 0 0 (fun _ => []) =
      .ok blocks) ↔ _ := exists_emitLoop_iff .zero (by omega)
  have hemits : (∀ q inst, 0 ≤ q → IsStart insts q → insts[q]? = some inst →
      ∃ e, emitAt cfg insts marks q inst = .ok e) ↔
      (∀ pc inst t, IsStart insts pc → insts[pc]? = some inst → branchTarget inst pc = some t →
        Marked insts (blkId t)) ∧
      ∀ pc inst, IsStart insts pc → insts[pc]? = some inst → inst.isLocalCall = true →
        0 < pc ∧ inst.opcode = opCall := by
    constructor
    · intro h
      refine ⟨fun pc inst t hpc hinst ht => ?_, fun pc inst hpc hinst => ?_⟩
      · exact ((hwf.exists_emitAt_iff hshort hmarks hpc hinst).mp (h pc inst (Nat.zero_le _) hpc hinst)).1 t ht
      · exact ((hwf.exists_emitAt_iff hshort hmarks hpc hinst).mp (h pc inst (Nat.zero_le _) hpc hinst)).2
    · rintro ⟨hfound, hreg⟩ q inst - hq hinst
      exact (hwf.exists_emitAt_iff hshort hmarks hq hinst).mpr
        ⟨fun t ht => hfound q inst t hq hinst ht, hreg q inst hq hinst⟩
  simp only [hsplit]
  cases hblocks : emitLoop cfg insts marks (insts.length + 1) 0 0 (fun _ => []) with
  | error err =>
    refine iff_of_false (by simp [isOk, Except.toBool]) fun h => ?_
    obtain ⟨blocks, hok⟩ := hloop.mpr (hemits.mpr ⟨h.2.found, h.2.registered⟩)
    rw [hblocks] at hok
    cases hok
  | ok blocks =>
    obtain ⟨hfound, hreg⟩ := hemits.mp (hloop.mp ⟨blocks, hblocks⟩)
    have hspec := emitLoop_spec hblocks .zero (.inl ((hmarks 0).mpr (.inl rfl))) fun _ _ => rfl
    have hverify := hwf.verifyModule_iff hmarks hspec
    simp only [isOk_ite, decide_eq_true_eq]
    rw [hverify]
    exact ⟨fun h => ⟨hwild, hshort, hfound, hreg, h⟩, fun h => h.2.linked⟩

end

/-- The computation indexes nothing out of bounds. -/
def InBounds {α : Type} (x : Except Failure α) : Prop := x ≠ .error .outOfBounds

section InBounds

variable {α β : Type} {x : Except Failure α}

lemma inBounds_ok (a : α) : InBounds (.ok a) := by simp [InBounds]

lemma inBounds_error (e : CompileError) : InBounds (.error (.error e) : Except Failure α) := by
  simp [InBounds]

lemma InBounds.map (hx : InBounds x) (f : α → β) : InBounds (x.map f) := by
  cases x <;> simp_all [InBounds, Except.map]

lemma InBounds.bind {f : α → Except Failure β} (hx : InBounds x) (hf : ∀ a, InBounds (f a)) :
    InBounds (x >>= f) := by
  cases x with
  | error err => simpa [InBounds, Bind.bind, Except.bind] using hx
  | ok a => exact hf a

lemma InBounds.ite {p : Prop} [Decidable p] {y : Except Failure α} (hx : InBounds x)
    (hy : InBounds y) : InBounds (if p then x else y) := by
  split_ifs
  · exact hx
  · exact hy

end InBounds

lemma inBounds_loadJmpDstBlock (useOffset : Bool) : InBounds (inst.loadJmpDstBlock ib pc useOffset) :=
  (inBounds_ok _).ite (inBounds_error _)

lemma inBounds_localJmpDstAndNextBlk : InBounds (inst.localJmpDstAndNextBlk ib pc) :=
  (inBounds_loadJmpDstBlock true).bind fun _ =>
    InBounds.bind ((inBounds_ok _).ite (inBounds_error _)) fun _ => inBounds_ok _

lemma inBounds_mapVal (mapPtr : BitVec 64) (imm : BitVec 32) :
    InBounds (inst.emitMapVal cfg pc mapPtr imm) := by
  rw [emitMapVal]
  refine InBounds.ite ?_ ((inBounds_ok _).ite (inBounds_error _))
  cases cfg.map_val with
  | none => exact inBounds_error _
  | some f => exact inBounds_ok _

lemma inBounds_lddw : InBounds (inst.emitLddw cfg pc next) := by
  cases next with
  | none => exact inBounds_error _
  | some nextinst =>
    refine InBounds.ite ?_ (inBounds_error _)
    rw [emitLddwBySrc]
    split
    · exact inBounds_ok _
    · exact inBounds_ok _
    · exact inBounds_mapVal _ _
    · cases cfg.var_addr with
      | none => exact inBounds_error _
      | some f => exact inBounds_ok _
    · cases cfg.code_addr with
      | none => exact inBounds_error _
      | some f => exact inBounds_ok _
    · exact inBounds_ok _
    · exact inBounds_mapVal _ _
    · exact inBounds_ok _

lemma inBounds_atomic : InBounds inst.emitAtomic := by
  simp only [emitAtomic]
  exact (inBounds_ok _).ite ((inBounds_ok _).ite ((inBounds_ok _).ite ((inBounds_ok _).ite
    ((inBounds_ok _).ite ((inBounds_ok _).ite (inBounds_error _))))))

lemma inBounds_emit : InBounds (inst.emit cfg ib rb pc next) := by
  rw [EbpfInst.emit]
  refine (inBounds_error _).ite ?_
  cases inst.case with
  | none => exact inBounds_error _
  | some c =>
    cases c with
    | mov =>
      refine InBounds.map ?_ _
      rw [emitMov]
      refine InBounds.ite ?_ (inBounds_ok _)
      cases inst.movsxTy with
      | none => exact inBounds_error _
      | some ty => exact inBounds_ok _
    | endian =>
      refine InBounds.map (InBounds.bind ?_ fun _ => inBounds_ok _) _
      exact (inBounds_error _).ite (inBounds_ok _)
    | lddw => exact inBounds_lddw.map _
    | ja => exact (inBounds_loadJmpDstBlock true).bind fun _ => inBounds_ok _
    | jaImm => exact (inBounds_loadJmpDstBlock false).bind fun _ => inBounds_ok _
    | call =>
      refine InBounds.ite (InBounds.ite ?_ (by simp [InBounds])) ((inBounds_ok _).ite (inBounds_error _))
      exact (inBounds_loadJmpDstBlock false).bind fun _ => inBounds_ok _
    | jcc _ | jset => exact inBounds_localJmpDstAndNextBlk.bind fun _ => inBounds_ok _
    | atomic => exact inBounds_atomic.map _
    | _ => exact inBounds_ok _

lemma inBounds_emitLoop : InBounds (emitLoop cfg insts blockBegin rounds pc currBB blocks) := by
  induction rounds generalizing pc currBB blocks with
  | zero => simp [InBounds, emitLoop]
  | succ rounds ih =>
    rw [emitLoop]
    cases insts[pc]? with
    | none => exact inBounds_ok _
    | some inst =>
      refine (inBounds_error _).ite ?_
      have hemit : InBounds (emitAt cfg insts blockBegin pc inst) := inBounds_emit
      cases h : emitAt cfg insts blockBegin pc inst with
      | error err =>
        rw [h] at hemit
        simpa [InBounds] using hemit
      | ok e => exact ih

lemma generateModule_inBounds_iff (hne : insts ≠ []) : InBounds (generateModule cfg insts) ↔
    NoWildImmJmp insts := by
  rw [generateModule, if_neg hne]
  by_cases hwild : NoWildImmJmp insts
  swap
  · rw [splitBlocks_of_wild hwild]
    exact iff_of_false (by simp [InBounds]) hwild
  refine iff_of_true ?_ hwild
  by_cases hshort : insts.length < 2^16
  swap
  · rw [splitBlocks_of_long (by omega) hwild]
    simp [InBounds]
  obtain ⟨marks, hsplit, -⟩ := exists_splitBlocks hshort hwild
  simp only [hsplit]
  have hloop : InBounds (emitLoop cfg insts marks (insts.length + 1) 0 0 fun _ => []) := inBounds_emitLoop
  cases h : emitLoop cfg insts marks (insts.length + 1) 0 0 fun _ => [] with
  | error err =>
    rw [h] at hloop
    simpa [InBounds] using hloop
  | ok blocks => exact (inBounds_ok _).ite (inBounds_error _)

/-! ## The targets that are branched to -/

def branchDest : Term Label → Option Label
  | .br l => some l
  | .condBr _ l _ => some l
  | _ => none

lemma branchDest_of_emit (hemit : inst.emit cfg ib rb pc next = .ok e)
    (ht : branchTarget inst pc = some t) : e.result.bind branchDest = some (.inst (blkId t)) := by
  obtain ⟨-, c, hcase, hemit⟩ := emit_eq_ok_iff.mp hemit
  have hkind := kind_of_case hcase
  by_cases hcall : c = .call
  · subst hcall
    by_cases hsrc : inst.src = 1
    · rw [branchTarget, if_pos (isLocalCall_iff.mpr ⟨hcase, hsrc⟩), some.injEq] at ht
      subst ht
      rw [emitCase, if_pos hsrc, emitLocalCall] at hemit
      split_ifs at hemit
      obtain ⟨l, hl, he⟩ := bind_eq_ok_iff.mp hemit
      cases he
      obtain ⟨-, rfl⟩ := loadJmpDstBlock_eq_ok_iff.mp hl
      rw [jmpDstBlkId_eq_blkId]
      rfl
    · have hlocal : inst.isLocalCall = false := by simpa [isLocalCall, hcase] using hsrc
      simp [branchTarget, hlocal, jumpTarget, hkind, Case.kind] at ht
  · rw [(branchTarget_of_not_call hcase hcall pc).2, jumpTarget, hkind] at ht
    cases c with
    | call => exact absurd rfl hcall
    | ja | jaImm =>
      obtain ⟨l, hl, he⟩ := bind_eq_ok_iff.mp hemit
      cases he
      cases ht
      obtain ⟨-, rfl⟩ := loadJmpDstBlock_eq_ok_iff.mp hl
      rw [jmpDstBlkId_eq_blkId]
      rfl
    | jcc _ | jset =>
      obtain ⟨⟨l, l'⟩, hl, he⟩ := bind_eq_ok_iff.mp hemit
      cases he
      cases ht
      obtain ⟨l1, hdst, hrest⟩ := bind_eq_ok_iff.mp hl
      obtain ⟨l2, -, heq⟩ := bind_eq_ok_iff.mp hrest
      cases heq
      obtain ⟨-, rfl⟩ := loadJmpDstBlock_eq_ok_iff.mp hdst
      rw [jmpDstBlkId_eq_blkId]
      rfl
    | _ => simp [Case.kind] at ht

/-- Every jump and every local call leads to a start of an instruction in the program. -/
def BranchesOk (insts : List EbpfInst) : Prop :=
  ∀ pc inst target, IsStart insts pc → insts[pc]? = some inst →
    branchTarget inst pc = some target → InRange insts target ∧ IsStart insts target.toNat

instance (insts : List EbpfInst) : Decidable (BranchesOk insts) :=
  decidable_of_iff (∀ pc < insts.length, IsStart insts pc → ∀ inst ∈ insts[pc]?,
      ∀ target ∈ branchTarget inst pc, InRange insts target ∧ IsStart insts target.toNat) <| by
    constructor
    · intro h pc inst target hpc hinst htarget
      exact h pc (List.getElem?_eq_some_iff.mp hinst).1 hpc inst hinst target htarget
    · intro h pc _ hpc inst hinst target htarget
      exact h pc inst target hpc hinst htarget

instance (cfg : Config) (insts : List EbpfInst) : Decidable (WellFormed cfg insts) :=
  decidable_of_iff ((∀ pc < insts.length, IsStart insts pc → ∀ inst ∈ insts[pc]?,
      (inst.emit cfg (fun _ => true) (fun _ => true) pc insts[pc + 1]?).isOk = true) ∧
      insts.getLast?.any fun inst => Isa.kind inst = .exit ∨ Isa.kind inst = .ja) <| by
    constructor
    · rintro ⟨h, hlast⟩
      refine ⟨fun pc inst hpc hinst => ?_, ?_⟩
      · exact h pc (List.getElem?_eq_some_iff.mp hinst).1 hpc inst hinst
      · simpa [Option.any_eq_true] using hlast
    · rintro ⟨h, hlast⟩
      refine ⟨fun pc _ hpc inst hinst => h pc inst hpc hinst, ?_⟩
      simpa [Option.any_eq_true] using hlast

/-- The emitted function branches to the target of every jump and every local call. -/
def BranchesTo (insts : List EbpfInst) (m : Module) : Prop :=
  ∀ l c pc inst t, c ∈ m.blocks l → c.tag = some pc → insts[pc]? = some inst →
    branchTarget inst pc = some t →
    ∃ p : ℕ, c.term.bind branchDest = some (.inst p) ∧ (p : ℤ) = t

/-- The compiler accepts the program exactly if its targets are starts of instructions in it,
branches to these, and indexes no table outside the program. -/
def TargetsChecked (cfg : Config) (insts : List EbpfInst) : Prop :=
  ((generateModule cfg insts).isOk = true ↔ BranchesOk insts) ∧
  (∀ m, generateModule cfg insts = .ok m → BranchesTo insts m) ∧
  generateModule cfg insts ≠ .error .outOfBounds

lemma blkId_of_inRange (hshort : insts.length < 2^16) (h : InRange insts t) : (blkId t : ℤ) = t := by
  obtain ⟨hnonneg, hlt⟩ := h
  rw [blkId]
  omega

lemma WellFormed.noWildImmJmp (hwf : WellFormed cfg insts) (hok : BranchesOk insts) :
    NoWildImmJmp insts := by
  rintro i - ⟨inst, hinst, himm, hrange⟩
  have hop : inst.opcode = opJaImm := by simpa [isImmJmp] using himm
  have hstart := hwf.isStart (mem_def.mp hinst) (by rw [hop]; decide)
  have hcase : inst.case = some .jaImm := by
    rw [case, hop]
    rfl
  refine hrange (hok i inst _ hstart hinst ?_).1
  rw [(branchTarget_of_not_call hcase (by simp) i).2, jumpTarget, kind_of_case hcase]
  rfl

/-- The targets are checked right if the program is right and the compiler accepts it, or neither,
and no unconditional jump by `imm` leaves the program. -/
theorem targetsChecked_iff (hwf : WellFormed cfg insts) : TargetsChecked cfg insts ↔
    (BranchesOk insts ∧ Accepts insts) ∨ (¬ BranchesOk insts ∧ NoWildImmJmp insts ∧ ¬ Accepts insts) := by
  have hne : insts ≠ [] := length_pos_iff.mp hwf.length_pos
  have hbounds : InBounds (generateModule cfg insts) ↔ _ := generateModule_inBounds_iff hne
  have hisOk := generateModule_isOk_iff hwf
  rw [InBounds] at hbounds
  rw [TargetsChecked, hisOk, hbounds]
  constructor
  · rintro ⟨haccept, -, hwild⟩
    by_cases hok : BranchesOk insts
    · exact .inl ⟨hok, (haccept.mpr hok).2⟩
    · exact .inr ⟨hok, hwild, fun h => hok (haccept.mp ⟨hwild, h⟩)⟩
  · rintro (⟨hok, haccept⟩ | ⟨hbad, hwild, hreject⟩)
    · have hwild := hwf.noWildImmJmp hok
      refine ⟨iff_of_true ⟨hwild, haccept⟩ hok, fun m hm => ?_, hwild⟩
      -- A target in range is its own 16-bit number.
      obtain ⟨blockBegin, blocks, hcompiled⟩ := exists_compiled hm
      intro l c pc inst t hc htag hinst ht
      obtain ⟨inst', e, hinst', hemit, rfl⟩ := hcompiled.emitted_of_tag hc htag
      rw [hinst, some.injEq] at hinst'
      subst hinst'
      refine ⟨blkId t, branchDest_of_emit hemit ht, ?_⟩
      obtain ⟨-, c, hcase, -⟩ := emit_eq_ok_iff.mp hemit
      have hop : inst.opcode ≠ 0 := by
        intro h0
        have hnone : (switchTable.find? fun e => (0 : BitVec 8) ∈ e.2).map (·.1) = none := rfl
        rw [case, h0, hnone] at hcase
        cases hcase
      exact blkId_of_inRange haccept.short (hok pc inst t (hwf.isStart hinst hop) hinst ht).1
    · refine ⟨iff_of_false (fun h => hreject h.2) hbad, fun m hm => ?_, hwild⟩
      have := hisOk.mp (isOk_iff.mpr ⟨m, hm⟩)
      exact absurd this.2 hreject

/-- A local call behind another instruction, of a function behind an exit. -/
def callProgram : List EbpfInst := [⟨0xb7, 6, 0, 0, 0⟩, ⟨0x85, 0, 1, 0, 1⟩, exitInst, exitInst]

theorem targetsChecked_callProgram : TargetsChecked bareConfig callProgram := by
  have hwf : WellFormed bareConfig callProgram := by decide +kernel
  have hisOk : (generateModule bareConfig callProgram).isOk = true := by decide +kernel
  exact (targetsChecked_iff hwf).mpr (.inl ⟨by decide +kernel, ((generateModule_isOk_iff hwf).mp hisOk).2⟩)

def callFirst : List EbpfInst := [⟨0x85, 0, 1, 0, 1⟩, exitInst, exitInst]

def jumpIntoWide : List EbpfInst :=
  [⟨0x05, 0, 0, 1, 0⟩, ⟨0x18, 0, 0, 0, 0⟩, ⟨0, 0, 0, 0, 0⟩, ⟨0x05, 0, 0, 0, 0⟩, exitInst]

/-- A jump by `imm` that leaves the program. -/
def jumpOut : List EbpfInst := [⟨0x06, 0, 0, 0, 100⟩, exitInst]

/-- The compiler does not accept a local call at the first position, accepts a jump into a wide
instruction, and indexes its table out of bounds for a jump by `imm` out of the program. -/
theorem not_targetsChecked : (WellFormed bareConfig callFirst ∧ BranchesOk callFirst ∧
      (generateModule bareConfig callFirst).isOk = false) ∧
    (WellFormed bareConfig jumpIntoWide ∧ ¬ BranchesOk jumpIntoWide ∧
      (generateModule bareConfig jumpIntoWide).isOk = true) ∧
    WellFormed bareConfig jumpOut ∧ generateModule bareConfig jumpOut = .error .outOfBounds := by
  refine ⟨⟨by decide +kernel, by decide +kernel, by decide +kernel⟩,
    ⟨by decide +kernel, by decide +kernel, by decide +kernel⟩, by decide +kernel, ?_⟩
  rw [generateModule, if_neg (by decide), splitBlocks_of_wild]
  intro h
  exact h 0 (by norm_num) (by decide +kernel)

end Bpftime.Jit
