import Bpftime.Jit.Alu
import Bpftime.Jit.Frame
import Bpftime.Jit.Machine
import Bpftime.Jit.Positions

/-!
# Control flow

A run of an emitted function visits the instructions in the order of the machine of `Machine.lean`.
-/

namespace Bpftime.Jit

open Ir Traces Option EbpfInst Isa.Status Chunk Case Silent

def Case.kind : Case → Isa.Kind
  | .lddw => .wide
  | .ja => .ja
  | .jaImm => .jaImm
  | .call => .call
  | .exit => .exit
  | .jcc _ | .jset => .cond
  | _ => .plain

def Case.jmpCode : Case → Option ℕ
  | .jcc .eq => some 0x1
  | .jcc .ugt => some 0x2
  | .jcc .uge => some 0x3
  | .jset => some 0x4
  | .jcc .ne => some 0x5
  | .jcc .sgt => some 0x6
  | .jcc .sge => some 0x7
  | .jcc .ult => some 0xa
  | .jcc .ule => some 0xb
  | .jcc .slt => some 0xc
  | .jcc .sle => some 0xd
  | _ => none

lemma kind_of_case_table : ∀ o : BitVec 8, ∀ e ∈ switchTable.find? fun e => o ∈ e.2,
    Isa.kind ⟨o, 0, 0, 0, 0⟩ = e.1.kind ∧ e.1.jmpCode.all (· = o.toNat / 16) = true := by decide +kernel

variable {inst : EbpfInst} {c : Case} {s' : State} {array pc' : ℕ}

lemma kind_of_case (hc : inst.case = some c) : Isa.kind inst = c.kind := by
  obtain ⟨e, he, rfl⟩ := map_eq_some_iff.mp hc
  exact (kind_of_case_table inst.opcode e he).1

lemma code_of_jmpCode (hc : inst.case = some c) {n : ℕ} (hn : c.jmpCode = some n) : Isa.code inst = n := by
  obtain ⟨e, he, rfl⟩ := map_eq_some_iff.mp hc
  have hall := (kind_of_case_table inst.opcode e he).2
  rw [hn] at hall
  have hn' : n = inst.opcode.toNat / 16 := by simpa using hall
  exact hn'.symm

lemma isJmp32_eq (inst : EbpfInst) : inst.isJmp32 = decide (Isa.cls inst = 6) := by
  have htable : ∀ o : BitVec 8, (o &&& 0x07 == clsJmp32) = decide (o.toNat % 8 = 6) := by decide +kernel
  exact htable inst.opcode

/-! ## Comparisons -/

variable {k : Linkage} {env : List Val} {s : State}

def EbpfInst.jmpTy (inst : EbpfInst) : IntTy := cond inst.isJmp32 int32 int64

lemma jmpWidth_eq (inst : EbpfInst) : Isa.jmpWidth inst = inst.jmpTy.width := by
  rw [jmpTy, isJmp32_eq, Isa.jmpWidth]
  by_cases h : Isa.cls inst = 6
  · simp [h, int32]
  · simp [h, int64]

lemma yields_jmpDst : Yields k.host env s inst.emitJmpLoadDst inst.jmpTy.ty
    (some (inst.jmpTy.val ((reg s inst.dst.toNat).setWidth _))) := by
  rw [emitJmpLoadDst, jmpTy]
  cases inst.isJmp32 with
  | false =>
    change Yields _ _ _ _ _ (some (.i64 ((reg s inst.dst.toNat).setWidth 64)))
    rw [BitVec.setWidth_eq]
    exact yields_reg64 _
  | true => exact yields_reg32 _

lemma yields_jmpSrc : Yields k.host env s inst.emitJmpLoadSrc inst.jmpTy.ty
    (some (inst.jmpTy.val ((Isa.source inst (reg s inst.src.toNat)).setWidth _))) := by
  rw [emitJmpLoadSrc, jmpTy, Isa.source, ← isReg_eq]
  cases inst.isJmp32 with
  | false =>
    change Yields _ _ _ _ .i64 (some (.i64 (BitVec.setWidth 64 _)))
    rw [BitVec.setWidth_eq]
    cases inst.isReg with
    | false => exact yields_pure (.int64 _)
    | true => exact yields_reg64 _
  | true =>
    change Yields _ _ _ _ .i32 (some (.i32 (BitVec.setWidth 32 _)))
    cases inst.isReg with
    | false =>
      simp only [Bool.false_eq_true, if_false, setWidth_signExtend_self]
      exact yields_pure (.int32 _)
    | true => exact yields_reg32 _

lemma jmpZero_holds : inst.jmpZero.Holds k.host env inst.jmpTy.ty (inst.jmpTy.val 0) := by
  rw [jmpZero, jmpTy]
  cases inst.isJmp32 with
  | false => exact .int64 _
  | true => exact .int32 _

lemma taken_eq (inst : EbpfInst) (d x : BitVec 64) : Isa.taken inst d x =
    Isa.compare (Isa.code inst) (d.setWidth inst.jmpTy.width)
    ((Isa.source inst x).setWidth inst.jmpTy.width) := by
  rw [← jmpWidth_eq]
  rfl

lemma ends_compare {f : JitValue → JitValue → JitEmit (Option (Term Label))}
    {o : Option (Next Label)}
    (hf : ∀ env src dst, src.Holds k.host env inst.jmpTy.ty
        (inst.jmpTy.val ((Isa.source inst (reg s inst.src.toNat)).setWidth _)) →
      dst.Holds k.host env inst.jmpTy.ty
        (inst.jmpTy.val ((reg s inst.dst.toNat).setWidth _)) →
      Ends k.host env s (f src dst) o s) :
    Ends k.host env s (do
      let src ← inst.emitJmpLoadSrc
      let dst ← inst.emitJmpLoadDst
      f src dst) o s :=
  yields_jmpSrc.ends fun src _ hsrc => yields_jmpDst.ends fun dst vals hdst =>
    hf _ src dst (hsrc.mono vals) hdst

variable {pred : Pred} {l : Label} {useOffset : Bool}

lemma compare_eq_eval {w : ℕ} (hc : inst.case = some (.jcc pred))
    (d x : BitVec w) : Isa.compare (Isa.code inst) d x = pred.eval d x := by
  cases pred <;> (rw [code_of_jmpCode hc rfl]; rfl)

lemma ends_jcc (hc : inst.case = some (.jcc pred)) (l l' : Label) : Ends k.host env s (do
      let src ← inst.emitJmpLoadSrc
      let dst ← inst.emitJmpLoadDst
      let cond ← createICmp pred dst src
      pure (some (.condBr cond.operand l l')))
      (some (.goto (if Isa.taken inst (reg s inst.dst.toNat) (reg s inst.src.toNat) then l
        else l'))) s := by
  refine ends_compare fun env src dst hsrc hdst => ?_
  rw [taken_eq, compare_eq_eval hc]
  exact (inst.jmpTy.yields_icmp pred hdst hsrc).ends fun c _ hcond => ends_condBr hcond l l'

lemma ends_jset (hc : inst.case = some .jset) (l l' : Label) : Ends k.host env s (do
      let src ← inst.emitJmpLoadSrc
      let dst ← inst.emitJmpLoadDst
      let both ← createBinOp .and dst src
      let cond ← createICmp .ne both inst.jmpZero
      pure (some (.condBr cond.operand l l')))
      (some (.goto (if Isa.taken inst (reg s inst.dst.toNat) (reg s inst.src.toNat) then l
        else l'))) s := by
  refine ends_compare fun env src dst hsrc hdst => ?_
  rw [taken_eq, code_of_jmpCode hc rfl]
  refine (inst.jmpTy.yields_binOp .and hdst hsrc).ends fun both _ hboth => ?_
  exact (inst.jmpTy.yields_icmp .ne hboth jmpZero_holds).ends fun c _ hcond =>
    ends_condBr hcond l l'

lemma jmpDstBlkId_eq (inst : EbpfInst) (pc : ℕ) (useOffset : Bool) :
    (inst.jmpDstBlkId pc useOffset : ℤ) = inst.target pc useOffset % 2^16 := by
  rw [jmpDstBlkId, target, BitVec.toNat_add, BitVec.toNat_ofNat]
  cases useOffset with
  | true =>
    have hoffset := BitVec.toInt_eq_toNat_cond inst.offset
    simp only [if_true]
    split_ifs at hoffset <;> omega
  | false =>
    have himm := BitVec.toInt_eq_toNat_cond inst.imm
    simp only [Bool.false_eq_true, if_false, BitVec.toNat_setWidth]
    split_ifs at himm <;> omega

variable {cfg : Config} {insts : List EbpfInst} {blockBegin : ℕ → Bool} {blocks : ℕ → Block}
variable {m : Module} {pc : ℕ}

lemma loadJmpDstBlock_eq_ok_iff {instBlocks : ℕ → Bool} :
    inst.loadJmpDstBlock instBlocks pc useOffset = .ok l ↔
    instBlocks (inst.jmpDstBlkId pc useOffset) = true ∧
    l = .inst (inst.jmpDstBlkId pc useOffset) := by
  rw [loadJmpDstBlock]
  split_ifs with h
  · simp [h, eq_comm]
  · simp [h]

lemma loadJmpNextBlock_eq_ok_iff {instBlocks : ℕ → Bool} : loadJmpNextBlock instBlocks pc = .ok l ↔
    instBlocks ((pc + 1) % 2^16) = true ∧ l = .inst ((pc + 1) % 2^16) := by
  simp only [loadJmpNextBlock]
  generalize (pc + 1) % 2^16 = q
  split_ifs with h
  · simp [h, eq_comm]
  · simp [h]

/-- Every jump of the program leads to a start of an instruction in the program. -/
def JumpsOk (insts : List EbpfInst) : Prop :=
  ∀ pc inst target, IsStart insts pc → insts[pc]? = some inst →
    Isa.jumpTarget inst pc = some target → InRange insts target ∧ IsStart insts target.toNat

instance (insts : List EbpfInst) : Decidable (JumpsOk insts) :=
  decidable_of_iff (∀ pc < insts.length, IsStart insts pc → ∀ inst ∈ insts[pc]?,
      ∀ target ∈ Isa.jumpTarget inst pc, InRange insts target ∧ IsStart insts target.toNat) <| by
    constructor
    · intro h pc inst target hpc hinst htarget
      exact h pc (List.getElem?_eq_some_iff.mp hinst).1 hpc inst hinst target htarget
    · intro h pc _ hpc inst hinst target htarget
      exact h pc inst target hpc hinst htarget

lemma Compiled.jmpDstBlkId_of_inRange (hm : Compiled cfg insts m blockBegin blocks)
    (hrange : InRange insts (inst.target pc useOffset)) :
    inst.jmpDstBlkId pc useOffset = (inst.target pc useOffset).toNat := by
  have hid := jmpDstBlkId_eq inst pc useOffset
  have hlen := hm.length_lt
  obtain ⟨hnonneg, hlt⟩ := hrange
  omega

/-- A run of the emitted function comes to where the machine is. -/
def Follows (cfg : Config) (insts : List EbpfInst) (m : Module) (blockBegin : ℕ → Bool)
    (blocks : ℕ → Block) (k : Linkage) : Isa.Status → Status Label Callee → Prop
  | .fetch pc s, t => ∃ rest, m.Passes k t (.running rest s) ∧ At cfg insts blockBegin blocks pc rest
  | .returned v s, t => m.Passes k t (.returned (.i64 v) s)
  | .stuck, t => m.Passes k t .stuck

namespace Compiled

section

variable (hm : Compiled cfg insts m blockBegin blocks)
include hm

lemma follows_block {p : ℕ} (hmark : blockBegin p = true) (hstart : IsStart insts p) :
    Follows cfg insts m blockBegin blocks k (.fetch p s) (.running (m.blocks (.inst p)) s) :=
  ⟨_, .refl _, hm.at_block hmark hstart⟩

lemma follows_jump {useOffset : Bool} (hrange : InRange insts (inst.target pc useOffset))
    (hstart : IsStart insts (inst.target pc useOffset).toNat)
    (hmark : instBlocks insts blockBegin (inst.jmpDstBlkId pc useOffset) = true) :
    Follows cfg insts m blockBegin blocks k (.jump (inst.target pc useOffset) s)
    (.running (m.blocks (.inst (inst.jmpDstBlkId pc useOffset))) s) := by
  rw [jump, if_pos hrange.1, hm.jmpDstBlkId_of_inRange hrange]
  rw [hm.jmpDstBlkId_of_inRange hrange, instBlocks, Bool.and_eq_true] at hmark
  exact hm.follows_block hmark.2 hstart

lemma passes_exit : m.Passes k (.running (m.blocks .exit) s) (.returned (.i64 (reg s 0)) s) := by
  have hends : Ends k.host [] s emitExitBlock (some (.ret (.i64 (reg s 0)))) s :=
    (yields_reg64 0).ends fun v vals hv => ends_ret hv
  rw [hm.blocks_eq]
  refine head rfl ?_
  change m.Passes k (exec k.host m.blocks (chunkOf none emitExitBlock) [] s) _
  rw [chunkOf, hends.chunk_exec]
  exact .refl _

end

end Compiled

/-! ## One instruction -/

lemma straight_of_emit {ib rb : ℕ → Bool} {next : Option EbpfInst}
    {e : JitEmit (Option (Term Label))} (hemit : inst.emit cfg ib rb pc next = .ok e)
    (hkind : Isa.kind inst = .plain ∨ Isa.kind inst = .wide) : e.result = none ∧
    inst.emit cfg (fun _ => false) (fun _ => false) pc next = .ok e := by
  obtain ⟨hregs, c, hcase, hemit⟩ := emit_eq_ok_iff.mp hemit
  rw [kind_of_case hcase] at hkind
  rw [emit_eq_ok_iff]
  cases c with
  | alu _ | neg | store _ | loadX _ => exact ⟨by cases hemit; rfl, hregs, _, hcase, hemit⟩
  | mov | endian | lddw | atomic =>
    refine ⟨?_, hregs, _, hcase, hemit⟩
    obtain ⟨e', -, rfl⟩ := map_eq_ok_iff.mp hemit
    rfl
  | _ => simp [Case.kind] at hkind

lemma next_eq (hcase : inst.case = some c) (pc : ℕ) :
    inst.next pc = if Isa.kind inst = .wide then pc + 2 else pc + 1 := by
  rw [EbpfInst.next, kind_of_case hcase, hcase]
  cases c <;> simp [Case.kind]

lemma ends_extFuncCall {e : JitEmit (Option (Term Label))} (hemit : inst.emitExtFuncCall cfg = .ok e) :
    Ends k.host [] s e (if inst.imm = 12 then some (.goto .exit) else none)
    (Isa.callHelper k inst.imm s) := by
  rw [emitExtFuncCall] at hemit
  by_cases hext : inst.imm ∈ cfg.extFuncs
  swap
  · rw [if_neg hext] at hemit
    cases hemit
  rw [if_pos hext, Except.ok.injEq] at hemit
  subst hemit
  refine (yields_reg64 1).ends fun a1 _ h1 => (yields_reg64 2).ends fun a2 _ h2 =>
    (yields_reg64 3).ends fun a3 _ h3 => (yields_reg64 4).ends fun a4 _ h4 =>
    (yields_reg64 5).ends fun a5 _ h5 => ?_
  -- The arguments still hold when the call executes.
  refine ends_bind (exec_createCall _ (.cons ⟨_, (((h1.mono _).mono _).mono _).mono _⟩
    (.cons ⟨_, ((h2.mono _).mono _).mono _⟩ (.cons ⟨_, (h3.mono _).mono _⟩
      (.cons ⟨_, h4.mono _⟩ (.cons ⟨_, h5⟩ .nil)))))) ?_
  refine (leaves_storeReg (Value.Holds.last _ _) 0).ends fun _ vals => ?_
  split_ifs
  · exact ends_br _
  · exact ends_none

lemma ends_exit (s : State) : Ends k.host env s emitExit
    (some (.goto (if reg s 12 == 0 then .exit else .localRet))) s := by
  refine (yields_reg64 12).ends fun v _ hv => ?_
  exact (int64.yields_icmp .eq hv (.int64 0)).ends fun c _ hc => ends_condBr hc _ _

namespace Compiled

variable {rest : Block} {e : JitEmit (Option (Term Label))}

lemma follows_straight (hemit : emitAt cfg insts blockBegin pc inst = .ok e)
    (hkind : Isa.kind inst = .plain ∨ Isa.kind inst = .wide)
    (hfall : e.result = none → ∀ s', Follows cfg insts m blockBegin blocks k
    (.fetch (inst.next pc) s') (.running rest s')) : Follows cfg insts m blockBegin blocks k
    ((Isa.dataEffect cfg k insts pc inst s).elim .stuck (.fetch (inst.next pc)))
    (exec k.host m.blocks (chunkOf (some pc) e) rest s) := by
  obtain ⟨hres, hsame⟩ := straight_of_emit hemit hkind
  have heffect : Isa.dataEffect cfg k insts pc inst s = (execCode k.host [] s e.code).map (·.2) := by
    simp only [Isa.dataEffect, hsame]
  rw [chunkOf, chunk_exec_of_result_none hres, ← heffect]
  cases Isa.dataEffect cfg k insts pc inst s with
  | none => exact refl _
  | some s' => exact hfall hres s'

variable {l : Label}

lemma follows_br (hm : Compiled cfg insts m blockBegin blocks) {useOffset : Bool}
    (hload : inst.loadJmpDstBlock (instBlocks insts blockBegin) pc useOffset = .ok l)
    (htarget : InRange insts (inst.target pc useOffset) ∧ IsStart insts (inst.target pc useOffset).toNat) :
    Follows cfg insts m blockBegin blocks k (.jump (inst.target pc useOffset) s)
    (exec k.host m.blocks (chunkOf (some pc) (pure (some (.br l)))) rest s) := by
  obtain ⟨hmark, rfl⟩ := loadJmpDstBlock_eq_ok_iff.mp hload
  rw [chunkOf, (ends_br _).chunk_exec]
  exact hm.follows_jump htarget.1 htarget.2 hmark

lemma exists_ends_cond {c : Case} (hcase : inst.case = some c) (hkind : c.kind = .cond)
    {ib rb : ℕ → Bool} {next : Option EbpfInst} (hemit : inst.emitCase cfg ib rb pc next c = .ok e) :
    ∃ l l', inst.localJmpDstAndNextBlk ib pc = .ok (l, l') ∧ Ends k.host [] s e (some (.goto
    (if Isa.taken inst (reg s inst.dst.toNat) (reg s inst.src.toNat) then l else l'))) s := by
  cases c with
  | jcc pred =>
    obtain ⟨⟨l, l'⟩, hl, he⟩ := bind_eq_ok_iff.mp hemit
    cases he
    exact ⟨l, l', hl, ends_jcc hcase l l'⟩
  | jset =>
    obtain ⟨⟨l, l'⟩, hl, he⟩ := bind_eq_ok_iff.mp hemit
    cases he
    exact ⟨l, l', hl, ends_jset hcase l l'⟩
  | _ => simp [Case.kind] at hkind

section

variable (hm : Compiled cfg insts m blockBegin blocks)
include hm

lemma follows_cond (hlt : pc < insts.length) {l' : Label}
    (hblk : inst.localJmpDstAndNextBlk (instBlocks insts blockBegin) pc = .ok (l, l'))
    (htarget : InRange insts (inst.target pc true) ∧ IsStart insts (inst.target pc true).toNat)
    (hnext : IsStart insts (pc + 1)) {t : Bool}
    (hends : Ends k.host [] s e (some (.goto (if t then l else l'))) s) :
    Follows cfg insts m blockBegin blocks k (if t then .jump (inst.target pc true) s else .fetch (pc + 1) s)
    (exec k.host m.blocks (chunkOf (some pc) e) rest s) := by
  have hlen := hm.length_lt
  obtain ⟨l1, hdst, hblk⟩ := bind_eq_ok_iff.mp hblk
  obtain ⟨l2, hnextBlk, heq⟩ := bind_eq_ok_iff.mp hblk
  cases heq
  obtain ⟨hmark, rfl⟩ := loadJmpDstBlock_eq_ok_iff.mp hdst
  obtain ⟨hmark', rfl⟩ := loadJmpNextBlock_eq_ok_iff.mp hnextBlk
  -- The next position is below `2^16`, so its number does not wrap.
  rw [Nat.mod_eq_of_lt (by omega), instBlocks, Bool.and_eq_true] at hmark'
  rw [chunkOf, hends.chunk_exec, Nat.mod_eq_of_lt (by omega)]
  cases t with
  | true => exact hm.follows_jump htarget.1 htarget.2 hmark
  | false => exact hm.follows_block hmark'.2 hnext

lemma follows_helper (hemit : inst.emitExtFuncCall cfg = .ok e)
    (hfall : e.result = none → ∀ s', Follows cfg insts m blockBegin blocks k (.fetch (pc + 1) s') (.running rest s')) :
    Follows cfg insts m blockBegin blocks k (if inst.imm = 12 then .returned (Isa.helperResult k inst.imm s).1
    (Isa.callHelper k inst.imm s) else .fetch (pc + 1) (Isa.callHelper k inst.imm s))
    (exec k.host m.blocks (chunkOf (some pc) e) rest s) := by
  have hends := ends_extFuncCall (k := k) (s := s) hemit
  rw [chunkOf, hends.chunk_exec]
  by_cases himm : inst.imm = 12
  · rw [if_pos himm, if_pos himm]
    have hexit := hm.passes_exit (k := k) (s := Isa.callHelper k inst.imm s)
    rw [Isa.callHelper, reg_setLocal, if_pos rfl] at hexit
    exact hexit
  · rw [if_neg himm] at hends
    rw [if_neg himm, if_neg himm]
    exact hfall hends.result_eq_none _

lemma follows_execInst (hjumps : JumpsOk insts)
    (hat : At cfg insts blockBegin blocks pc rest) (hinst : insts[pc]? = some inst)
    (hlocal : inst.isLocalCall = false) (hexit : Isa.kind inst ≠ .exit) :
    Follows cfg insts m blockBegin blocks k (Isa.execInst cfg k insts pc inst s)
    (m.next k (.running rest s)) := by
  obtain ⟨inst', e, rest', hinst', hemit, rfl, hfall⟩ := hm.at_head hat
  rw [hinst, some.injEq] at hinst'
  subst hinst'
  obtain ⟨-, c, hcase, hemitCase⟩ := emit_eq_ok_iff.mp hemit
  have hkind := kind_of_case hcase
  have hnext := next_eq hcase pc
  have hstart := hat.1.next hinst
  have htarget := hjumps pc inst
  change Follows _ _ _ _ _ _ _ (exec k.host m.blocks (chunkOf (some pc) e) rest' s)
  simp only [Isa.execInst]
  cases hk : Isa.kind inst with
  | plain =>
    have h := follows_straight (s := s) hemit (.inl hk) fun hres s' => hfall hres k s'
    simpa [hnext, hk] using h
  | wide =>
    have h := follows_straight (s := s) hemit (.inr hk) fun hres s' => hfall hres k s'
    simpa [hnext, hk] using h
  | exit => exact absurd hk hexit
  | ja =>
    obtain rfl : c = .ja := by cases c <;> simp_all [Case.kind]
    obtain ⟨l, hl, he⟩ := bind_eq_ok_iff.mp hemitCase
    cases he
    exact hm.follows_br hl (htarget _ hat.1 hinst (by rw [Isa.jumpTarget, hk]; rfl))
  | jaImm =>
    obtain rfl : c = .jaImm := by cases c <;> simp_all [Case.kind]
    obtain ⟨l, hl, he⟩ := bind_eq_ok_iff.mp hemitCase
    cases he
    exact hm.follows_br hl (htarget _ hat.1 hinst (by rw [Isa.jumpTarget, hk]; rfl))
  | cond =>
    obtain ⟨l, l', hblk, hends⟩ := exists_ends_cond (k := k) (s := s) hcase (hkind.symm.trans hk) hemitCase
    rw [hnext, hk] at hstart
    exact hm.follows_cond (List.getElem?_eq_some_iff.mp hinst).1 hblk
      (htarget _ hat.1 hinst (by rw [Isa.jumpTarget, hk]; rfl)) hstart hends
  | call =>
    obtain rfl : c = .call := by cases c <;> simp_all [Case.kind]
    have hsrc : inst.src ≠ 1 := by simpa [isLocalCall, hcase] using hlocal
    rw [emitCase, if_neg hsrc] at hemitCase
    rw [hnext, hk] at hfall
    simp only [hsrc, if_false]
    exact hm.follows_helper hemitCase fun hres s' => hfall hres k s'

lemma follows_exit (hat : At cfg insts blockBegin blocks pc rest) (hinst : insts[pc]? = some inst)
    (hexit : Isa.kind inst = .exit) (hcnt : reg s 12 = 0) :
    Follows cfg insts m blockBegin blocks k (.returned (reg s 0) s) (m.next k (.running rest s)) := by
  obtain ⟨inst', e, rest', hinst', hemit, rfl, -⟩ := hm.at_head hat
  rw [hinst, some.injEq] at hinst'
  subst hinst'
  obtain ⟨-, c, hcase, hemitCase⟩ := emit_eq_ok_iff.mp hemit
  rw [kind_of_case hcase] at hexit
  obtain rfl : c = .exit := by cases c <;> simp_all [Case.kind]
  cases hemitCase
  change Follows _ _ _ _ _ _ _ (exec k.host m.blocks (chunkOf (some pc) emitExit) rest' s)
  rw [chunkOf, (ends_exit s).chunk_exec, if_pos (by rw [hcnt]; rfl)]
  exact hm.passes_exit

end

end Compiled

lemma dataEffect_locals (hnot : array ∉ inst.dests) (hlocal : inst.isLocalCall = false)
    (heffect : Isa.dataEffect cfg k insts pc inst s = some s') : s'.locals array = s.locals array := by
  rw [Isa.dataEffect] at heffect
  cases hemit : inst.emit cfg (fun _ => false) (fun _ => false) pc insts[pc + 1]? with
  | error err => simp [hemit] at heffect
  | ok e =>
    simp only [hemit] at heffect
    obtain ⟨r, hexec, rfl⟩ := map_eq_some_iff.mp heffect
    exact (uses_of_emit hemit hlocal).code_locals hexec hnot

lemma callHelper_locals {idx : BitVec 32} (hne : array ≠ 0) :
    (Isa.callHelper k idx s).locals array = s.locals array := by
      rw [Isa.callHelper, setLocal_locals_of_ne _ _ _ hne]

lemma jump_eq_at_iff {target : ℤ} : jump target s = .fetch pc' s' ↔ target = pc' ∧ s' = s := by
  rw [jump]
  split_ifs with h
  · rw [fetch.injEq]
    constructor
    · rintro ⟨rfl, rfl⟩
      exact ⟨by omega, rfl⟩
    · rintro ⟨rfl, rfl⟩
      exact ⟨by simp, rfl⟩
  · refine iff_of_false (by simp) ?_
    rintro ⟨rfl, -⟩
    omega

lemma elim_eq_at_iff {o : Option State} {p : ℕ} : o.elim stuck (.fetch p) = .fetch pc' s' ↔
    o = some s' ∧ p = pc' := by
  cases o with
  | none => simp
  | some t => simp [and_comm]

lemma execInst_locals (hcase : inst.case = some c) (hnot : array ∉ inst.dests)
    (hlocal : inst.isLocalCall = false)
    (hexec : Isa.execInst cfg k insts pc inst s = .fetch pc' s') : s'.locals array = s.locals array := by
  have hkind := kind_of_case hcase
  simp only [Isa.execInst] at hexec
  cases hk : Isa.kind inst with
  | plain | wide =>
    simp only [hk, elim_eq_at_iff] at hexec
    exact dataEffect_locals hnot hlocal hexec.1
  | ja | jaImm =>
    simp only [hk, jump_eq_at_iff] at hexec
    rw [hexec.2]
  | cond =>
    simp only [hk] at hexec
    split_ifs at hexec
    · rw [(jump_eq_at_iff.mp hexec).2]
    · cases hexec
      rfl
  | exit => simp [hk] at hexec
  | call =>
    obtain rfl : c = .call := by cases c <;> simp_all [Case.kind]
    simp only [hk] at hexec
    split_ifs at hexec
    cases hexec
    exact callHelper_locals (by simpa [dests_eq hcase, caseDests] using hnot)

lemma leaves_setup (cfg : Config) (k : Linkage) (env : List Val) (s : State) :
    Leaves k.host env s (emitSetup cfg) (some (Isa.initial cfg k s)) := by
  have hbegin : ∀ env, stackBegin.Holds k.host env .ptr (.ptr k.stackBegin) := fun _ => ⟨rfl, fun _ => rfl⟩
  have harg0 : ∀ env, Value.Holds k.host env ⟨.ptr, .arg .ptr 0⟩ .ptr (.ptr k.mem) := fun _ =>
      ⟨rfl, fun _ => rfl⟩
  have harg1 : ∀ env, Value.Holds k.host env ⟨.i64, .arg .i64 1⟩ .i64 (.i64 k.mem_len) := fun _ =>
      ⟨rfl, fun _ => rfl⟩
  refine (yields_gep 8 (hbegin _) (.int32 _)).leaves fun v vals hv => ?_
  refine Leaves.bind (leaves_storePtr hv 10) fun _ _ => ?_
  refine Leaves.bind (leaves_storeReg (.int64 0) 12) fun _ _ => ?_
  rw [Isa.initial]
  split_ifs
  · exact Leaves.bind (leaves_storePtr (harg0 _) 1) fun _ _ => leaves_storeReg (harg1 _) 2
  · exact leaves_pure _

namespace Compiled

lemma follows_start (hm : Compiled cfg insts m blockBegin blocks) (k : Linkage) (s : State) :
    Follows cfg insts m blockBegin blocks k (.fetch 0 (Isa.initial cfg k s)) (m.start s) := by
  have hmark : blockBegin 0 = true := (hm.marked 0).mpr (.inl rfl)
  have hnext : nextBlock insts blockBegin 0 = some 0 :=
    nextBlock_eq_some_iff.mpr ⟨hm.nonempty, le_rfl, hmark, fun q _ hq => by omega⟩
  have hsetup : m.blocks .setup = [chunkOf none (EbpfInst.straight (emitSetup cfg)), branchTo 0] := by
    rw [hm.blocks_eq, moduleBlocks, hnext]
    rfl
  have hcode := leaves_nil_iff.mp (leaves_straight (leaves_setup cfg k [] s))
  refine ⟨_, ?_, hm.at_block hmark .zero⟩
  rw [Module.start, hsetup]
  refine head rfl ?_
  change m.Passes k (Chunk.exec k.host m.blocks (chunkOf none (EbpfInst.straight (emitSetup cfg))) [branchTo 0] s) _
  rw [chunkOf, chunk_exec_of_result_none rfl, hcode]
  exact head rfl (.refl _)

lemma simulates (hm : Compiled cfg insts m blockBegin blocks) (hjumps : JumpsOk insts)
    (hlocal : ∀ inst ∈ insts, inst.isLocalCall = false) (k : Linkage) :
    Simulates (next cfg k insts) visiting (m.next k) Status.visiting
    fun st t => Follows cfg insts m blockBegin blocks k st t ∧ ∀ pc s, st = .fetch pc s → reg s 12 = 0 := by
  rintro st t ⟨hfollows, hcnt⟩
  cases st with
  | fetch pc s =>
    obtain ⟨rest, hpasses, hat⟩ := hfollows
    obtain ⟨inst, e, rest', hinst, hemit, hrest, -⟩ := hm.at_head hat
    obtain ⟨-, c, hcase, -⟩ := emit_eq_ok_iff.mp hemit
    have hlocal := hlocal inst (List.mem_of_getElem? hinst)
    have hstep : next cfg k insts (.fetch pc s) = Isa.execInst cfg k insts pc inst s := by
      simp only [Isa.Status.next, hinst]
    refine ⟨_, hpasses, by rw [hrest]; rfl, ?_, ?_⟩
    · rw [hstep]
      by_cases hexit : Isa.kind inst = .exit
      · rw [Isa.execInst, hexit]
        exact hm.follows_exit hat hinst hexit (hcnt pc s rfl)
      · exact hm.follows_execInst hjumps hat hinst hlocal hexit
    · intro pc' s' hs'
      rw [hstep] at hs'
      have hkeep := execInst_locals hcase (notMem_dests hemit (by norm_num : 10 < 12)) hlocal hs'
      rw [reg, hkeep]
      exact hcnt pc s rfl
  | returned _ _ | stuck => exact ⟨_, hfollows, rfl, .refl _, by simp [Isa.Status.next]⟩

end Compiled

/-- A run stands where the machine is, in the same state. -/
def Agrees : Isa.Status → Status Label Callee → Prop
  | .fetch pc s, t => ∃ c rest, t = .running (c :: rest) s ∧ c.tag = some pc
  | .returned v s, t => t = .returned (.i64 v) s
  | .stuck, t => t = .stuck

lemma Follows.exists_agrees (hm : Compiled cfg insts m blockBegin blocks) {st : Isa.Status}
    {t : Status Label Callee} (h : Follows cfg insts m blockBegin blocks k st t) :
    ∃ t', m.Passes k t t' ∧ Agrees st t' := by
  cases st with
  | fetch pc s =>
    obtain ⟨rest, hpasses, hat⟩ := h
    obtain ⟨inst, e, rest', -, -, rfl, -⟩ := hm.at_head hat
    exact ⟨_, hpasses, _, _, rfl, rfl⟩
  | returned _ _ | stuck => exact ⟨_, h, rfl⟩

/-- The emitted function of a program without local calls, whose jumps lead to starts of
instructions, visits the instructions in the order of the instruction set: after any number of steps
of the machine, the function comes to the same point having visited the same instructions, and it
never visits anything else. -/
theorem controlFlow_simulates (hgen : generateModule cfg insts = .ok m)
    (hlocal : ∀ inst ∈ insts, inst.isLocalCall = false) (hjumps : JumpsOk insts) (k : Linkage) (s : State) :
    (∀ n, ∃ n' ≥ n, (m.run k n' s).1 = (run cfg k insts n (.fetch 0 (Isa.initial cfg k s))).1 ∧
      Agrees (run cfg k insts n (.fetch 0 (Isa.initial cfg k s))).2 (m.run k n' s).2) ∧
    ∀ n', ∃ n ≤ n', (run cfg k insts n (.fetch 0 (Isa.initial cfg k s))).1 = (m.run k n' s).1 := by
  obtain ⟨blockBegin, blocks, hm⟩ := exists_compiled hgen
  have hsim := hm.simulates hjumps hlocal k
  have hcnt : reg (Isa.initial cfg k s) 12 = 0 := by
    rw [Isa.initial]
    split_ifs <;> simp
  have hstart := hm.follows_start k s
  constructor
  · intro n
    obtain ⟨n', hn', hshown, hR⟩ := hsim.match_run ⟨hstart, by rintro pc s' ⟨⟩; exact hcnt⟩ n
    obtain ⟨t', ⟨j, hj⟩, hagrees⟩ := hR.1.exists_agrees hm
    -- The run goes on to the point where the machine is, and visits nothing on the way.
    have hrun : m.run k (n' + j) s = ((m.run k n' s).1, t') := by
      simp only [Module.run, Status.run, trace_add]
      rw [hj, List.append_nil]
    rw [run]
    refine ⟨n' + j, by omega, ?_, ?_⟩
    · rw [hrun, ← hshown]
      rfl
    · rw [hrun]
      exact hagrees
  · intro n'
    refine hsim.match_shown ?_ ⟨hstart, by rintro pc s' ⟨⟩; exact hcnt⟩ n'
    intro st
    cases st <;> simp [visiting]

/-- A loop: `r0` gets a wide constant, and the program exits if it is zero or starts again. -/
def loopProgram : List EbpfInst :=
  [⟨0x18, 0, 0, 0, 1⟩, ⟨0, 0, 0, 0, 0⟩, ⟨0x15, 0, 0, 1, 0⟩, ⟨0x05, 0, 0, -4, 0⟩, exitInst]

/-- The loop is accepted, and its function visits what the machine visits. -/
theorem controlFlow_simulates_loop : ∃ m, generateModule bareConfig loopProgram = .ok m ∧
    (∀ s n, ∃ n' ≥ n, (m.run bareLinkage n' s).1 = (run bareConfig bareLinkage
      loopProgram n (.fetch 0 (Isa.initial bareConfig bareLinkage s))).1) ∧
    ∀ s n', ∃ n ≤ n', (run bareConfig bareLinkage loopProgram n
      (.fetch 0 (Isa.initial bareConfig bareLinkage s))).1 = (m.run bareLinkage n' s).1 := by
  have hok : (generateModule bareConfig loopProgram).isOk = true := by decide +kernel
  obtain ⟨m, hm⟩ := exists_of_isOk hok
  have hsim := controlFlow_simulates hm (by decide +kernel) (by decide +kernel) bareLinkage
  refine ⟨m, hm, fun s n => ?_, fun s => (hsim s).2⟩
  obtain ⟨n', hn', hvisits, -⟩ := (hsim s).1 n
  exact ⟨n', hn', hvisits⟩

end Bpftime.Jit
