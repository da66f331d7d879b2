import Bpftime.Jit.Compiler

/-!
# The blocks of an accepted program

What the passes of the compiler do to a program that they accept.
-/

namespace Bpftime.Jit

open Ir EbpfInst Function

section Loop

variable {σ : Type} {n : ℕ} {body : ℕ → σ → Except Failure σ}

lemma forUint16_ne_ok (hn : 2^16 ≤ n) (rounds i : ℕ) (hi : i < 2^16) (st st' : σ) :
    forUint16 n body rounds i st ≠ .ok st' := by
  induction rounds generalizing i st with
  | zero => simp [forUint16]
  | succ rounds ih =>
    rw [forUint16, if_pos (by omega)]
    cases body i st with
    | error e => simp
    | ok st1 => exact ih _ (Nat.mod_lt _ (by norm_num)) _

variable {st : σ} {rounds i : ℕ} {P : ℕ → σ → Prop}

lemma forUint16_invariant {st' : σ} (hstep : ∀ i st st', i < n → P i st → body i st = .ok st' →
    P (i + 1) st')
    (hn : n < 2^16) (hi : i ≤ n) (hP : P i st) (hloop : forUint16 n body rounds i st = .ok st') :
    P n st' := by
  induction rounds generalizing i st with
  | zero => simp [forUint16] at hloop
  | succ rounds ih =>
    rw [forUint16] at hloop
    split_ifs at hloop with hlt
    · cases hbody : body i st with
      | error e => simp [hbody] at hloop
      | ok st1 =>
        -- Below `2^16` the counter does not wrap.
        rw [hbody, Nat.mod_eq_of_lt (by omega)] at hloop
        exact ih (by omega) (hstep i st st1 hlt hP hbody) hloop
    · cases hloop
      rw [show n = i by omega]
      exact hP

lemma forUint16_ends (hstep : ∀ i st, i < n → P i st → ∃ st', body i st = .ok st' ∧ P (i + 1) st')
    (hn : n < 2^16) (hi : i ≤ n) (hrounds : n - i < rounds) (hP : P i st) :
    ∃ st', forUint16 n body rounds i st = .ok st' ∧ P n st' := by
  induction rounds generalizing i st with
  | zero => omega
  | succ rounds ih =>
    rw [forUint16]
    split_ifs with hlt
    · obtain ⟨st1, hbody, hP1⟩ := hstep i st hlt hP
      rw [hbody, Nat.mod_eq_of_lt (by omega)]
      exact ih (by omega) (by omega) hP1
    · rw [show i = n by omega] at hP
      exact ⟨st, rfl, hP⟩

end Loop

variable {cfg : Config} {insts : List EbpfInst} {blockBegin : ℕ → Bool}

/-! ## The marks -/

def EbpfInst.jmpTarget (inst : EbpfInst) (pc : ℕ) : ℤ := inst.target pc (!inst.isImmJmp)

/-- The positions that the first `rounds` rounds of the first pass mark. -/
def MarkedBy (insts : List EbpfInst) (rounds p : ℕ) : Prop :=
  p = 0 ∨ (0 < p ∧ p < rounds ∧ insts[p - 1]?.any EbpfInst.isJmp = true) ∨
    ∃ i < rounds, ∃ inst, insts[i]? = some inst ∧ inst.isJmp = true ∧ inst.jmpTarget i = p ∧ p < insts.length

/-- The positions that the first pass marks. -/
def Marked (insts : List EbpfInst) (p : ℕ) : Prop := MarkedBy insts insts.length p

variable {inst : EbpfInst} {pc : ℕ} {c : Chunk Label Callee}

lemma isJmp_of_isImmJmp (h : inst.isImmJmp = true) : inst.isJmp = true := by
  have hop : inst.opcode = opJaImm := by simpa [isImmJmp] using h
  simp [isJmp, hop, opJaImm, clsJmp, clsJmp32]

variable {curr : EbpfInst} {i currBB : ℕ} {blocks' : ℕ → Block}

lemma markedBy_succ (hcurr : insts[i]? = some curr) (p : ℕ) : MarkedBy insts (i + 1) p ↔
    MarkedBy insts i p ∨ (p = i ∧ 0 < i ∧ insts[i - 1]?.any EbpfInst.isJmp = true) ∨
    (curr.isJmp = true ∧ curr.jmpTarget i = p ∧ p < insts.length) := by
  constructor
  · rintro (h | ⟨hpos, hlt, hjmp⟩ | ⟨j, hj, inst, hinst, hjmp, htarget, hlt⟩)
    · exact .inl (.inl h)
    · rcases Nat.lt_succ_iff_lt_or_eq.mp hlt with hlt | rfl
      · exact .inl (.inr (.inl ⟨hpos, hlt, hjmp⟩))
      · exact .inr (.inl ⟨rfl, hpos, hjmp⟩)
    · rcases Nat.lt_succ_iff_lt_or_eq.mp hj with hj | rfl
      · exact .inl (.inr (.inr ⟨j, hj, inst, hinst, hjmp, htarget, hlt⟩))
      · rw [hcurr, Option.some.injEq] at hinst
        subst hinst
        exact .inr (.inr ⟨hjmp, htarget, hlt⟩)
  · rintro ((h | ⟨hpos, hlt, hjmp⟩ | ⟨j, hj, h⟩) | ⟨rfl, hpos, hjmp⟩ | ⟨hjmp, htarget, hlt⟩)
    · exact .inl h
    · exact .inr (.inl ⟨hpos, by omega, hjmp⟩)
    · exact .inr (.inr ⟨j, by omega, h⟩)
    · exact .inr (.inl ⟨hpos, by omega, hjmp⟩)
    · exact .inr (.inr ⟨i, by omega, curr, hcurr, hjmp, htarget, hlt⟩)

lemma update_true_iff (marks : ℕ → Bool) (q p : ℕ) : update marks q true p = true ↔
    marks p = true ∨ p = q := by
  by_cases h : p = q
  · simp [h]
  · simp [h]

lemma InRange.eq_toNat_iff {target : ℤ} (h : InRange insts target) (p : ℕ) :
    p = target.toNat ↔ target = p ∧ p < insts.length := by
  obtain ⟨hnonneg, hlt⟩ := h
  omega

lemma markBlocks_spec (hcurr : insts[i]? = some curr)
    (hmarks : ∀ p, blockBegin p = true ↔ MarkedBy insts i p) :
    if curr.isImmJmp = true ∧ ¬ InRange insts (curr.target i false) then
    markBlocks insts i blockBegin = .error .outOfBounds
    else ∃ marks, markBlocks insts i blockBegin = .ok marks ∧ ∀ p, marks p = true ↔
      MarkedBy insts (i + 1) p := by
  simp only [markBlocks, hcurr]
  -- The mark behind a jump.
  generalize hmarks' : (if 0 < i ∧ insts[i - 1]?.any isJmp = true then
    update blockBegin i true else blockBegin) = marks'
  have hbehind : ∀ p, marks' p = true ↔ MarkedBy insts i p ∨
      (p = i ∧ 0 < i ∧ insts[i - 1]?.any isJmp = true) := by
    intro p
    rw [← hmarks', ← hmarks p]
    split_ifs with hjmp
    · simp [update_true_iff, hjmp]
    · simp [hjmp]
  -- The mark at the target.
  by_cases himm : curr.isImmJmp = true
  · by_cases hrange : InRange insts (curr.target i false)
    · rw [if_neg (by simp [hrange]), if_pos himm, if_pos hrange]
      refine ⟨_, rfl, fun p => ?_⟩
      rw [update_true_iff, hbehind, markedBy_succ hcurr, hrange.eq_toNat_iff, or_assoc]
      simp [isJmp_of_isImmJmp himm, jmpTarget, himm]
    · rw [if_pos ⟨himm, hrange⟩, if_pos himm, if_neg hrange]
  · rw [if_neg (by simp [himm]), if_neg himm]
    have htarget : curr.jmpTarget i = curr.target i true := by simp [jmpTarget, himm]
    by_cases hjmp : curr.isJmp = true ∧ InRange insts (curr.target i true)
    · rw [if_pos hjmp]
      refine ⟨_, rfl, fun p => ?_⟩
      rw [update_true_iff, hbehind, markedBy_succ hcurr, hjmp.2.eq_toNat_iff, or_assoc, htarget]
      simp [hjmp.1]
    · rw [if_neg hjmp]
      refine ⟨_, rfl, fun p => ?_⟩
      rw [hbehind, markedBy_succ hcurr, htarget, ← or_assoc]
      -- A target that is a position is in range.
      have hnone : ¬ (curr.isJmp = true ∧ curr.target i true = p ∧ p < insts.length) := by
        rintro ⟨hj, hp, hlt⟩
        exact hjmp ⟨hj, by omega, by omega⟩
      simp [hnone]

/-- Every unconditional jump by `imm` stays in the program. -/
def ImmJmpsInRange (insts : List EbpfInst) : Prop :=
  ∀ (i : ℕ) (inst : EbpfInst), insts[i]? = some inst → inst.isImmJmp = true →
    InRange insts (inst.target i false)

lemma markedBy_zero (p : ℕ) : update (fun _ => false) 0 true p = true ↔ MarkedBy insts 0 p := by
  simp [update_true_iff, MarkedBy]

lemma splitBlocks_ok (hsplit : splitBlocks insts = .ok blockBegin) :
    insts.length < 2^16 ∧ ImmJmpsInRange insts ∧ ∀ p, blockBegin p = true ↔ Marked insts p := by
  have hn : insts.length < 2^16 := by
    by_contra hn
    exact forUint16_ne_ok (by omega) _ _ (by norm_num) _ _ hsplit
  have hinv := forUint16_invariant (P := fun i marks => (∀ p, marks p = true ↔ MarkedBy insts i p) ∧
      ∀ j < i, ∀ inst : EbpfInst, insts[j]? = some inst → inst.isImmJmp = true →
        InRange insts (inst.target j false))
    (fun i marks marks' hlt hP hbody => ?_) hn (Nat.zero_le _)
    ⟨markedBy_zero, by simp⟩ hsplit
  · refine ⟨hn, fun i inst hinst himm => ?_, hinv.1⟩
    have hlt : i < insts.length := (List.getElem?_eq_some_iff.mp hinst).1
    exact hinv.2 i hlt inst hinst himm
  · obtain ⟨curr, hcurr⟩ : ∃ curr, insts[i]? = some curr := ⟨_, List.getElem?_eq_getElem hlt⟩
    have hspec := markBlocks_spec hcurr hP.1
    split_ifs at hspec with hbad
    · rw [hbody] at hspec
      cases hspec
    · obtain ⟨marks1, hok, hmarks1⟩ := hspec
      rw [hbody] at hok
      cases hok
      refine ⟨hmarks1, fun j hj inst hinst himm => ?_⟩
      rcases Nat.lt_succ_iff_lt_or_eq.mp hj with hj | rfl
      · exact hP.2 j hj inst hinst himm
      · rw [hcurr, Option.some.injEq] at hinst
        subst hinst
        by_contra hrange
        exact hbad ⟨himm, hrange⟩

/-- The positions at which an instruction starts, and the end of the program. -/
inductive IsStart (insts : List EbpfInst) : ℕ → Prop
  | zero : IsStart insts 0
  | next {pc : ℕ} {inst : EbpfInst} : IsStart insts pc → insts[pc]? = some inst → IsStart insts (inst.next pc)

lemma lt_next (inst : EbpfInst) (pc : ℕ) : pc < inst.next pc := by
  rw [next]
  split_ifs <;> omega

lemma IsStart.next_le {q : ℕ} (hpc : IsStart insts pc)
    (hinst : insts[pc]? = some inst) (hq : IsStart insts q) (hlt : pc < q) : inst.next pc ≤ q := by
  induction q using Nat.strong_induction_on generalizing pc inst with
  | _ q ih =>
    cases hq with
    | zero => omega
    | @next p inst' hp hinst' =>
      have hpq := lt_next inst' p
      rcases Nat.lt_trichotomy pc p with h | rfl | h
      · have := ih p hpq hpc hinst hp h
        omega
      · rw [hinst, Option.some.injEq] at hinst'
        rw [hinst']
      · -- The start `pc` would lie inside the instruction at `p`.
        have := ih pc hlt hp hinst' hpc h
        omega

def isWide (insts : List EbpfInst) (pc : ℕ) : Bool := insts[pc]?.any (·.case = some .lddw)

lemma next_eq_of_isWide (hinst : insts[pc]? = some inst) :
    inst.next pc = if isWide insts pc then pc + 2 else pc + 1 := by simp [isWide, hinst, next]

lemma isStart_iff (q : ℕ) : IsStart insts q ↔ q = 0 ∨
    (0 < q ∧ IsStart insts (q - 1) ∧ q - 1 < insts.length ∧ isWide insts (q - 1) = false) ∨
    (1 < q ∧ IsStart insts (q - 2) ∧ isWide insts (q - 2) = true) := by
  constructor
  · intro h
    cases h with
    | zero => exact .inl rfl
    | @next pc inst hpc hinst =>
      have hlt : pc < insts.length := (List.getElem?_eq_some_iff.mp hinst).1
      rw [next_eq_of_isWide hinst]
      cases hwide : isWide insts pc with
      | false => exact .inr (.inl ⟨by simp, hpc, hlt, hwide⟩)
      | true => exact .inr (.inr ⟨by simp, hpc, hwide⟩)
  · rintro (rfl | ⟨hpos, hq, hlt, hwide⟩ | ⟨hpos, hq, hwide⟩)
    · exact .zero
    · have hinst := List.getElem?_eq_getElem hlt
      have hnext := hq.next hinst
      rw [next_eq_of_isWide hinst, hwide] at hnext
      simpa [Nat.sub_add_cancel hpos] using hnext
    · obtain ⟨inst, hinst⟩ : ∃ inst, insts[q - 2]? = some inst := by
        cases hinst : insts[q - 2]? with
        | none => simp [isWide, hinst] at hwide
        | some inst => exact ⟨inst, rfl⟩
      have hnext := hq.next hinst
      rw [next_eq_of_isWide hinst, hwide] at hnext
      simpa [Nat.sub_add_cancel hpos] using hnext

instance decidableIsStart (insts : List EbpfInst) : DecidablePred (IsStart insts)
  | 0 => .isTrue .zero
  | 1 => decidable_of_iff (0 < insts.length ∧ isWide insts 0 = false) (by simp [isStart_iff 1, IsStart.zero])
  | q + 2 =>
    have := decidableIsStart insts (q + 1)
    have := decidableIsStart insts q
    decidable_of_iff ((IsStart insts (q + 1) ∧ q + 1 < insts.length ∧ isWide insts (q + 1) = false) ∨
      IsStart insts q ∧ isWide insts q = true) (by simp [isStart_iff (q + 2)])

/-! ## The code of a block -/

/-- The code of the instructions from the start `pc` up to the next marked start or the end, which
is `stop`. -/
inductive Straight (cfg : Config) (insts : List EbpfInst) (blockBegin : ℕ → Bool) : ℕ → Block → ℕ → Prop
  | last {pc : ℕ} {inst : EbpfInst} {e : JitEmit (Option (Term Label))} :
    insts[pc]? = some inst → emitAt cfg insts blockBegin pc inst = .ok e →
    (inst.next pc < insts.length → blockBegin (inst.next pc) = true) →
    Straight cfg insts blockBegin pc [chunkOf (some pc) e] (inst.next pc)
  | cons {pc stop : ℕ} {inst : EbpfInst} {e : JitEmit (Option (Term Label))} {cs : Block} :
    insts[pc]? = some inst → emitAt cfg insts blockBegin pc inst = .ok e →
    blockBegin (inst.next pc) = false → Straight cfg insts blockBegin (inst.next pc) cs stop →
    Straight cfg insts blockBegin pc (chunkOf (some pc) e :: cs) stop

/-- What the instruction loop has done when it ends, from the position `pc` and the current block
`currBB`. -/
structure LoopSpec (cfg : Config) (insts : List EbpfInst) (blockBegin : ℕ → Bool) (pc currBB : ℕ)
    (blocks blocks' : ℕ → Block) : Prop where
  /-- The blocks that begin at a start have their code. -/
  straight : ∀ b, pc ≤ b → b < insts.length → blockBegin b = true → IsStart insts b →
    ∃ stop, Straight cfg insts blockBegin b (blocks' b) stop
  /-- The others have none. -/
  empty : ∀ b, pc ≤ b → ¬ (IsStart insts b ∧ blockBegin b = true) → blocks' b = []
  /-- Earlier blocks but the current one are unchanged. -/
  unchanged : ∀ b < pc, b ≠ currBB → blocks' b = blocks b
  /-- The current block goes on up to the next marked start. -/
  current : currBB < pc → (pc < insts.length ∧ blockBegin pc = false ∧
      ∃ cs stop, Straight cfg insts blockBegin pc cs stop ∧ blocks' currBB = blocks currBB ++ cs) ∨
    ((pc < insts.length → blockBegin pc = true) ∧ blocks' currBB = blocks currBB)

lemma LoopSpec.round {cur : ℕ} {e : JitEmit (Option (Term Label))}
    {blocks : ℕ → Block} (hpc : IsStart insts pc) (hinst : insts[pc]? = some inst)
    (hemit : emitAt cfg insts blockBegin pc inst = .ok e)
    (hcurrBB : blockBegin pc = true ∨ currBB < pc) (hempty : ∀ b, pc ≤ b → blocks b = [])
    (hcur : cur = if blockBegin pc = true then pc else currBB)
    (hrest : LoopSpec cfg insts blockBegin (inst.next pc) cur
    (update blocks cur (blocks cur ++ [chunkOf (some pc) e])) blocks') :
    LoopSpec cfg insts blockBegin pc currBB blocks blocks' := by
  have hnext := lt_next inst pc
  have hle : cur ≤ pc := by
    rw [hcur]
    split_ifs with h
    · exact le_rfl
    · exact (hcurrBB.resolve_left h).le
  -- The code of the current block, from `pc` on.
  have hcode : ∃ cs stop, Straight cfg insts blockBegin pc cs stop ∧ blocks' cur = blocks cur ++ cs := by
    rcases hrest.current (by omega) with ⟨-, hmark, cs, stop, hcs, hblock⟩ | ⟨hmark, hblock⟩
    · refine ⟨_, stop, .cons hinst hemit hmark hcs, ?_⟩
      rw [hblock, update_self, List.append_assoc]
      rfl
    · refine ⟨_, _, .last hinst hemit hmark, ?_⟩
      rw [hblock, update_self]
  -- Blocks before the next position other than the current one.
  have hother : ∀ b < inst.next pc, b ≠ cur → blocks' b = blocks b := fun b hb hne => by
    rw [hrest.unchanged b hb hne, update_of_ne hne]
  constructor
  · intro b hb hlt hmark hstart
    rcases hb.eq_or_lt with rfl | hb
    · obtain ⟨cs, stop, hcs, hblock⟩ := hcode
      rw [if_pos hmark] at hcur
      subst hcur
      rw [hempty _ le_rfl, List.nil_append] at hblock
      exact ⟨stop, hblock ▸ hcs⟩
    · exact hrest.straight b (hpc.next_le hinst hstart hb) hlt hmark hstart
  · intro b hb hnot
    by_cases hbn : b < inst.next pc
    · have hne : b ≠ cur := by
        rintro rfl
        rw [show b = pc by omega] at hnot hcur
        rw [if_neg fun hmark => hnot ⟨hpc, hmark⟩] at hcur
        have := hcurrBB.resolve_left fun hmark => hnot ⟨hpc, hmark⟩
        omega
      rw [hother b hbn hne, hempty b hb]
    · exact hrest.empty b (by omega) hnot
  · intro b hb hne
    refine hother b (by omega) ?_
    rw [hcur]
    split_ifs
    · omega
    · exact hne
  · intro hlt
    by_cases hmark : blockBegin pc = true
    · rw [if_pos hmark] at hcur
      exact .inr ⟨fun _ => hmark, hother _ (by omega) (by omega)⟩
    · rw [if_neg hmark] at hcur
      subst hcur
      exact .inl ⟨(List.getElem?_eq_some_iff.mp hinst).1, by simpa using hmark, hcode⟩

lemma emitLoop_spec {rounds : ℕ} {blocks : ℕ → Block}
    (hloop : emitLoop cfg insts blockBegin rounds pc currBB blocks = .ok blocks')
    (hpc : IsStart insts pc) (hcurrBB : blockBegin pc = true ∨ currBB < pc)
    (hempty : ∀ b, pc ≤ b → blocks b = []) :
    LoopSpec cfg insts blockBegin pc currBB blocks blocks' := by
  induction rounds generalizing pc currBB blocks with
  | zero => simp [emitLoop] at hloop
  | succ rounds ih =>
    rw [emitLoop] at hloop
    cases hinst : insts[pc]? with
    | none =>
      simp only [hinst, Except.ok.injEq] at hloop
      subst hloop
      have hend : insts.length ≤ pc := List.getElem?_eq_none_iff.mp hinst
      exact ⟨fun b hb hlt => by omega, fun b hb _ => hempty b hb, fun _ _ _ => rfl,
        fun _ => .inr ⟨fun hlt => by omega, rfl⟩⟩
    | some inst =>
      simp only [hinst] at hloop
      have hfound : ¬ (blockBegin pc = true ∧ ¬ instBlocks insts blockBegin pc = true) := by
        simp +contextual [instBlocks, (List.getElem?_eq_some_iff.mp hinst).1]
      rw [if_neg hfound] at hloop
      cases hemit : emitAt cfg insts blockBegin pc inst with
      | error err => simp [hemit] at hloop
      | ok e =>
        simp only [hemit] at hloop
        have hnext := lt_next inst pc
        generalize hcur : (if blockBegin pc = true then pc else currBB) = cur at hloop
        have hle : cur ≤ pc := by
          rw [← hcur]
          split_ifs with h
          · exact le_rfl
          · exact (hcurrBB.resolve_left h).le
        refine LoopSpec.round hpc hinst hemit hcurrBB hempty hcur.symm
          (ih hloop (.next hpc hinst) (.inr (by omega)) fun b hb => ?_)
        rw [update_of_ne (by omega), hempty b (by omega)]

/-- What is known of a program that the compiler accepts, of the marks of its first pass, and of the
code of its blocks before they are linked. -/
structure Compiled (cfg : Config) (insts : List EbpfInst) (m : Module) (blockBegin : ℕ → Bool)
    (blocks : ℕ → Block) : Prop where
  nonempty : 0 < insts.length
  length_lt : insts.length < 2^16
  marked : ∀ p, blockBegin p = true ↔ Marked insts p
  straight : ∀ b < insts.length, blockBegin b = true → IsStart insts b →
    ∃ stop, Straight cfg insts blockBegin b (blocks b) stop
  empty : ∀ b, ¬ (IsStart insts b ∧ blockBegin b = true) → blocks b = []
  blocks_eq : m.blocks = moduleBlocks cfg insts blockBegin blocks
  verified : ∀ b < insts.length, blockBegin b = true → verifyBlock (m.blocks (.inst b)) = true

lemma exists_compiled {m : Module} (hm : generateModule cfg insts = .ok m) :
    ∃ blockBegin blocks, Compiled cfg insts m blockBegin blocks := by
  rw [generateModule] at hm
  split_ifs at hm with hnil
  cases hsplit : splitBlocks insts with
  | error err => simp [hsplit] at hm
  | ok blockBegin =>
    simp only [hsplit] at hm
    cases hloop : emitLoop cfg insts blockBegin (insts.length + 1) 0 0 fun _ => [] with
    | error err => simp [hloop] at hm
    | ok blocks =>
      simp only [hloop] at hm
      split_ifs at hm with hverify
      cases hm
      obtain ⟨hlt, -, hmarked⟩ := splitBlocks_ok hsplit
      have hspec := emitLoop_spec hloop .zero (.inl ((hmarked 0).mpr (.inl rfl))) fun _ _ => rfl
      refine ⟨blockBegin, blocks, List.length_pos_iff.mpr hnil, hlt, hmarked,
        fun b => hspec.straight b (Nat.zero_le b), fun b => hspec.empty b (Nat.zero_le b), rfl,
        fun b hb hmark => ?_⟩
      have hall := List.all_eq_true.mp hverify b (List.mem_range.mpr hb)
      simpa [hmark] using hall

namespace Compiled

variable {m : Module} {blocks : ℕ → Block}

lemma lt_length (hm : Compiled cfg insts m blockBegin blocks) {p : ℕ}
    (hp : blockBegin p = true) : p < insts.length := by
  rcases (hm.marked p).mp hp with rfl | ⟨-, hlt, -⟩ | ⟨-, -, -, -, -, -, hlt⟩
  · exact hm.nonempty
  · exact hlt
  · exact hlt

end Compiled

def Emitted (cfg : Config) (insts : List EbpfInst) (blockBegin : ℕ → Bool) (pc : ℕ)
    (c : Chunk Label Callee) : Prop :=
  ∃ inst e, insts[pc]? = some inst ∧ emitAt cfg insts blockBegin pc inst = .ok e ∧ c = chunkOf (some pc) e

lemma Straight.emitted {stop : ℕ} {cs : Block} (hcs : Straight cfg insts blockBegin pc cs stop)
    (hc : c ∈ cs) : ∃ q, Emitted cfg insts blockBegin q c := by
  induction hcs with
  | last hinst hemit _ => exact ⟨_, _, _, hinst, hemit, List.mem_singleton.mp hc⟩
  | cons hinst hemit _ _ ih =>
    rcases List.mem_cons.mp hc with rfl | hc
    · exact ⟨_, _, _, hinst, hemit, rfl⟩
    · exact ih hc

lemma mem_linkBlock {block : Block} {next : Option ℕ} (hc : c ∈ linkBlock block next) :
    c ∈ block ∨ c.tag = none := by
  rw [linkBlock] at hc
  split_ifs at hc
  · exact .inl hc
  · rcases List.mem_append.mp hc with hc | hc
    · exact .inl hc
    · cases next with
      | none => simp at hc
      | some b =>
        simp only [Option.map_some, Option.toList_some, List.mem_singleton] at hc
        exact .inr (by rw [hc, branchTo])

lemma Compiled.emitted_of_tag {m : Module} {blocks : ℕ → Block}
    (hm : Compiled cfg insts m blockBegin blocks) {l : Label} (hc : c ∈ m.blocks l)
    (htag : c.tag = some pc) :
    Emitted cfg insts blockBegin pc c := by
  rw [hm.blocks_eq] at hc
  cases l with
  | setup =>
    rcases mem_linkBlock hc with hc | hc
    · simp_all [chunkOf]
    · simp_all
  | exit | localRet => simp_all [moduleBlocks, chunkOf]
  | inst b =>
    rcases mem_linkBlock hc with hc | hc
    · by_cases hb : IsStart insts b ∧ blockBegin b = true
      · obtain ⟨stop, hcs⟩ := hm.straight b (hm.lt_length hb.2) hb.2 hb.1
        obtain ⟨q, inst, e, hinst, hemit, rfl⟩ := hcs.emitted hc
        simp only [chunkOf, Option.some.injEq] at htag
        subst htag
        exact ⟨inst, e, hinst, hemit, rfl⟩
      · simp [hm.empty b hb] at hc
    · simp_all

end Bpftime.Jit
