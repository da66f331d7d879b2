import Bpftime.Ir.Divisions
import Bpftime.Jit.Alu

/-!
# Divisions in emitted code

The case of `EBPF_OP_DIV_IMM` compares the divisor with zero and the case of a signed division looks
for the overflow, but both only select afterwards: the division is executed in any case.
-/

namespace Bpftime.Jit

open Ir EbpfInst BitVec

variable {k : Linkage} {env : List Val} {s : State} {inst : EbpfInst}

section

variable (inst : EbpfInst)

lemma undivided_dest : (inst.emitLoadALUDest false).Undivided := by
  unfold emitLoadALUDest
  split_ifs
  all_goals exact undivided_load _ _

lemma undivided_source : inst.emitLoadALUSource.Undivided := by
  unfold emitLoadALUSource
  split_ifs
  · exact undivided_load _ _
  · exact undivided_pure _
  · exact (undivided_load _ _).bind fun v => undivided_cast _ _ _
  · exact undivided_pure _

lemma undivided_storeResult (v : JitValue) : (inst.emitStoreALUResult v).Undivided := by
  unfold emitStoreALUResult
  split_ifs
  · exact undivided_store _ _
  · exact (undivided_cast _ _ _).bind fun w => undivided_store _ _

lemma undivided_sdivisor (v : JitValue) : (inst.emitSDivisor v).Undivided := by
  unfold emitSDivisor
  split_ifs
  · exact (undivided_cast _ _ _).bind fun w => undivided_cast _ _ _
  · exact undivided_pure _

lemma undivided_sdividend (v : JitValue) : (inst.emitSDividend v).Undivided := by
  unfold emitSDividend
  split_ifs
  · exact undivided_cast _ _ _
  · exact undivided_pure _

end

section Operations

variable {dv sv : JitValue} {a b : BitVec inst.intTy.width}

section

variable (ha : dv.Holds k.host env inst.intTy.ty (inst.intTy.val a))
  (hb : sv.Holds k.host env inst.intTy.ty (inst.intTy.val b))
include ha hb

lemma divisions_sdiv :
    (inst.emitSDiv dv sv).divisions k.host env s = [⟨.sdiv, inst.intTy.val a, inst.intTy.val b⟩] := by
  refine (IntTy.yields_icmp .eq ha getIntMin_holds).divisions (undivided_icmp _ _ _) fun isMin v1 hmin => ?_
  refine (IntTy.yields_icmp .eq (hb.mono v1) (getInt_holds (-1))).divisions (undivided_icmp _ _ _)
    fun isMinusOne v2 hone => ?_
  refine (yields_binOp .and (hmin.mono v2) hone).divisions (undivided_binOp rfl _ _) fun overflow v3 hover => ?_
  rw [divisions_bind_undivided fun quotient => undivided_select _ _ _]
  exact divisions_binOp rfl (((ha.mono v1).mono v2).mono v3) (((hb.mono v1).mono v2).mono v3)

lemma divisions_div : (inst.emitDiv dv sv).divisions k.host env s =
    if inst.offset = 1 then [⟨.sdiv, inst.intTy.val a, inst.intTy.val (low b)⟩]
    else [⟨.udiv, inst.intTy.val a, inst.intTy.val b⟩] := by
  refine (yields_isZero hb).divisions (undivided_icmp _ _ _) fun isZero v1 hzero => ?_
  rw [divisions_bind_undivided fun result => undivided_select _ _ _, emitQuotient]
  split_ifs
  · exact (yields_sdivisor (hb.mono v1)).divisions (undivided_sdivisor _ _) fun t v2 ht =>
      divisions_sdiv ((ha.mono v1).mono v2) ht
  · exact divisions_binOp rfl (ha.mono v1) (hb.mono v1)

lemma divisions_mod : (inst.emitMod dv sv).divisions k.host env s =
    if inst.offset = 1 then [⟨.srem, inst.intTy.val a, inst.intTy.val (low b)⟩]
    else [⟨.urem, inst.intTy.val a, inst.intTy.val b⟩] := by
  refine (yields_isZero hb).divisions (undivided_icmp _ _ _) fun isZero v1 hzero => ?_
  rw [divisions_bind_undivided fun result => undivided_select _ _ _, emitRemainder]
  split_ifs
  · refine (yields_sdividend (ha.mono v1)).divisions (undivided_sdividend _ _) fun d v2 hd => ?_
    refine (yields_sdivisor ((hb.mono v1).mono v2)).divisions (undivided_sdivisor _ _) fun t v3 ht => ?_
    exact divisions_binOp rfl (hd.mono v3) ht
  · exact divisions_binOp rfl (ha.mono v1) (hb.mono v1)

end

lemma divisions_aluWith {func : JitValue → JitValue → JitEmit JitValue} {ds : List Division}
    (hfunc : ∀ env (dv sv : JitValue),
    dv.Holds k.host env inst.intTy.ty (inst.intTy.val (inst.operand (reg s inst.dst.toNat))) →
    sv.Holds k.host env inst.intTy.ty (inst.intTy.val (inst.operand (Isa.source inst (reg s inst.src.toNat)))) →
    (func dv sv).divisions k.host env s = ds) : (inst.emitALUWithDstAndSrc func).divisions k.host env s = ds := by
  refine yields_dest.divisions (undivided_dest _) fun dv v1 hd => ?_
  refine yields_source.divisions (undivided_source _) fun sv v2 hs => ?_
  rw [divisions_bind_undivided fun result => undivided_storeResult _ _]
  exact hfunc _ dv sv (hd.mono v2) hs

lemma undefined_val {op : BinOp} : Division.Undefined ⟨op, inst.intTy.val a, inst.intTy.val b⟩ ↔
    op.Undefined a b := by
  revert a b
  rw [intTy]
  cases inst.isAlu64 with
  | false | true => exact fun {a b} => Iff.rfl

end Operations

/-- The operands of a division or a remainder for which it is defined. -/
def DivisionDefined (inst : EbpfInst) (d s : BitVec 64) : Prop :=
  let a := d.setWidth (Isa.width inst)
  let b := (Isa.source inst s).setWidth (Isa.width inst)
  if inst.offset = 1 then ¬SDivUndefined a (low b) else b ≠ 0

instance (inst : EbpfInst) (d s : BitVec 64) : Decidable (DivisionDefined inst d s) := by
  unfold DivisionDefined
  infer_instance

lemma forall_ite_singleton_iff {p : Prop} [Decidable p] {d d' : Division} :
    (∀ x ∈ (if p then [d] else [d']), ¬x.Undefined) ↔ if p then ¬d.Undefined else ¬d'.Undefined := by
  split_ifs <;> simp

lemma divisions_emit_iff {cfg : Config} {ib rb : ℕ → Bool} {pc : ℕ} {next : Option EbpfInst}
    {e : JitEmit (Option (Term Label))} (halu : Isa.IsAlu inst)
    (hdiv : Isa.code inst = 0x3 ∨ Isa.code inst = 0x9)
    (hemit : inst.emit cfg ib rb pc next = .ok e) : (∀ d ∈ e.divisions k.host env s, ¬d.Undefined) ↔
    DivisionDefined inst (reg s inst.dst.toNat) (reg s inst.src.toNat) := by
  obtain ⟨-, c, hcase, hemit⟩ := emit_eq_ok_iff.mp hemit
  have hcode := aluCode_of_case halu hcase
  rw [DivisionDefined, width_eq]
  cases c with
  | alu op =>
    cases hemit
    have hop : op.code = Isa.code inst := Option.some.inj hcode
    rw [straight, divisions_bind_undivided fun _ => undivided_pure _]
    rcases hdiv with hdiv | hdiv
    · obtain rfl : op = .div := by
        rw [hdiv] at hop
        cases op <;> first | rfl | cases hop
      have hdivisions : (inst.emitALUWithDstAndSrc (inst.emitAluOp .div)).divisions k.host env s = _ :=
        divisions_aluWith fun env dv sv => divisions_div
      rw [hdivisions, forall_ite_singleton_iff, undefined_val, undefined_val]
      rfl
    · obtain rfl : op = .mod := by
        rw [hdiv] at hop
        cases op <;> first | rfl | cases hop
      have hdivisions : (inst.emitALUWithDstAndSrc (inst.emitAluOp .mod)).divisions k.host env s = _ :=
        divisions_aluWith fun env dv sv => divisions_mod
      rw [hdivisions, forall_ite_singleton_iff, undefined_val, undefined_val]
      rfl
  | _ => rcases hdiv with hdiv | hdiv <;> rw [hdiv] at hcode <;> simp [Case.aluCode] at hcode

/-- The chunk of a division or a remainder in an accepted program, run from any state, executes no
division that is left undefined exactly when the operands are in `DivisionDefined`. -/
theorem no_undefined_division_iff {cfg : Config} {insts : List EbpfInst} {m : Module}
    (hm : generateModule cfg insts = .ok m) {l : Label} {c : Chunk Label Callee}
    (hc : c ∈ m.blocks l) {pc : ℕ}
    (htag : c.tag = some pc) {inst : EbpfInst} (hinst : insts[pc]? = some inst) (halu : Isa.IsAlu inst)
    (hdiv : Isa.code inst = 0x3 ∨ Isa.code inst = 0x9) (k : Linkage) (s : State) :
    (∀ d ∈ execDivisions k.host [] s c.code, ¬d.Undefined) ↔
      DivisionDefined inst (reg s inst.dst.toNat) (reg s inst.src.toNat) := by
  obtain ⟨blockBegin, blocks, hcompiled⟩ := exists_compiled hm
  obtain ⟨inst', e, hinst', hemit, rfl⟩ := hcompiled.emitted_of_tag hc htag
  rw [hinst, Option.some.injEq] at hinst'
  subst hinst'
  have hiff : (∀ d ∈ e.divisions k.host [] s, ¬d.Undefined) ↔ _ := divisions_emit_iff halu hdiv hemit
  exact hiff

/-- The signed division of -7 by 2 is defined. -/
theorem no_undefined_division_sdiv : ∃ m c, generateModule bareConfig [sdivInst, exitInst] = .ok m ∧
    c ∈ m.blocks (.inst 0) ∧ c.tag = some 0 ∧
    ∀ d ∈ execDivisions bareLinkage.host [] (twoRegs (-7) 2) c.code, ¬d.Undefined := by
  have hsome : (firstChunk [sdivInst, exitInst]).map (·.tag) = some (some 0) := rfl
  obtain ⟨m, c, hm, hmem, htag⟩ := exists_of_firstChunk hsome
  exact ⟨m, c, hm, hmem, htag,
    (no_undefined_division_iff hm hmem htag rfl (by decide) (by decide) bareLinkage _).mpr (by decide)⟩

/-- The code of `7 / 0` executes the division by zero, and that of the signed division of the
smallest number by -1 the one that overflows. -/
theorem undefined_division_executed :
    (∃ m c, generateModule bareConfig [divInst, exitInst] = .ok m ∧ c ∈ m.blocks (.inst 0) ∧
      c.tag = some 0 ∧ ∃ d ∈ execDivisions bareLinkage.host [] (twoRegs 7 0) c.code, d.Undefined) ∧
    ∃ m c, generateModule bareConfig [sdivInst, exitInst] = .ok m ∧ c ∈ m.blocks (.inst 0) ∧ c.tag = some 0 ∧
      ∃ d ∈ execDivisions bareLinkage.host [] (twoRegs (intMin 64) (-1)) c.code, d.Undefined := by
  constructor
  · have hrun : (firstChunk [divInst, exitInst]).map (fun c =>
        (c.tag, execDivisions bareLinkage.host [] (twoRegs 7 0) c.code)) =
          some (some 0, [⟨.udiv, .i64 7, .i64 0⟩]) := rfl
    obtain ⟨m, c, hm, hmem, hrun⟩ := exists_of_firstChunk hrun
    obtain ⟨htag, hds⟩ := Prod.mk.inj hrun
    refine ⟨m, c, hm, hmem, htag, ?_⟩
    rw [hds]
    exact ⟨_, List.mem_singleton_self _, rfl⟩
  · have hrun : (firstChunk [sdivInst, exitInst]).map (fun c =>
        (c.tag, execDivisions bareLinkage.host [] (twoRegs (intMin 64) (-1)) c.code)) =
          some (some 0, [⟨.sdiv, .i64 (intMin 64), .i64 (-1)⟩]) := rfl
    obtain ⟨m, c, hm, hmem, hrun⟩ := exists_of_firstChunk hrun
    obtain ⟨htag, hds⟩ := Prod.mk.inj hrun
    refine ⟨m, c, hm, hmem, htag, ?_⟩
    rw [hds]
    exact ⟨_, List.mem_singleton_self _, Or.inr ⟨rfl, rfl⟩⟩

end Bpftime.Jit
