import Bpftime.Lib.Division
import Bpftime.Jit.Blocks
import Bpftime.Jit.Isa
import Bpftime.Jit.Registers

/-!
# Arithmetic

The code that the compiler emits for an arithmetic instruction, against the instruction set.
-/

namespace Bpftime.Jit

open BitVec (eq_of_toInt_eq isLt ofInt ofInt_ofNat ofNat setWidth setWidth_eq signExtend toInt toInt_inj toInt_srem toNat toNat_ofNat)
open Ir Option List Nat EbpfInst Isa BinOp Yields Bytes CastOp

def AluOp.code : AluOp → ℕ
  | .add => 0x0
  | .sub => 0x1
  | .mul => 0x2
  | .div => 0x3
  | .or => 0x4
  | .and => 0x5
  | .lsh => 0x6
  | .rsh => 0x7
  | .mod => 0x9
  | .xor => 0xa
  | .arsh => 0xc

/-- The operation that a case of the switch stands for, if it is an arithmetic one. -/
def Case.aluCode : Case → Option ℕ
  | .alu op => some op.code
  | .neg => some 0x8
  | .mov => some 0xb
  | .endian => some 0xd
  | _ => none

lemma aluCode_of_case_table : ∀ o : BitVec 8, o.toNat % 8 = 4 ∨ o.toNat % 8 = 7 →
    ∀ e ∈ switchTable.find? fun e => o ∈ e.2, e.1.aluCode = some (o.toNat / 16) := by decide +kernel

lemma aluCode_of_case {inst : EbpfInst} (halu : IsAlu inst) {c : Case}
    (hc : inst.case = some c) : c.aluCode = some (code inst) := by
  obtain ⟨e, he, rfl⟩ := map_eq_some_iff.mp hc
  exact aluCode_of_case_table inst.opcode halu e he

lemma isAlu64_eq (inst : EbpfInst) : inst.isAlu64 = decide (cls inst = 7) := by
  have htable : ∀ o : BitVec 8, (o &&& 0x07 == clsAlu64) = decide (o.toNat % 8 = 7) := by decide +kernel
  exact htable inst.opcode

lemma isReg_eq (inst : EbpfInst) : inst.isReg = fromReg inst := by
  have htable : ∀ o : BitVec 8, (o &&& 0x08 == srcReg) = decide (o.toNat / 8 % 2 = 1) := by decide +kernel
  exact htable inst.opcode

variable {k : Linkage} {env : List Val} {s : State} {inst : EbpfInst}

def EbpfInst.intTy (inst : EbpfInst) : IntTy := cond inst.isAlu64 int64 int32

lemma width_eq (inst : EbpfInst) : width inst = inst.intTy.width := by
  rw [intTy, isAlu64_eq, width]
  by_cases h : cls inst = 7
  · simp [h, int64]
  · simp [h, int32]

def EbpfInst.operand (inst : EbpfInst) (x : BitVec 64) : BitVec inst.intTy.width := x.setWidth _

lemma yields_dest : Yields k.host env s (inst.emitLoadALUDest false) inst.intTy.ty
    (some (inst.intTy.val (inst.operand (reg s inst.dst.toNat)))) := by
  rw [emitLoadALUDest, operand, intTy]
  cases inst.isAlu64 with
  | false => exact yields_reg32 _
  | true =>
    change Yields _ _ _ _ _ (some (.i64 ((reg s inst.dst.toNat).setWidth 64)))
    rw [setWidth_eq]
    exact yields_reg64 _

lemma setWidth_signExtend_self (x : BitVec 32) : (x.signExtend 64).setWidth 32 = x := by
  ext i hi
  simp [BitVec.getLsbD_signExtend, hi]
  omega

lemma yields_source : Yields k.host env s inst.emitLoadALUSource inst.intTy.ty
    (some (inst.intTy.val (inst.operand (source inst (reg s inst.src.toNat))))) := by
  rw [emitLoadALUSource, operand, intTy, source, ← isReg_eq]
  cases inst.isAlu64 with
  | false =>
    change Yields _ _ _ _ .i32 (some (.i32 (setWidth 32 _)))
    cases inst.isReg with
    | false =>
      simp only [Bool.false_eq_true, if_false, setWidth_signExtend_self]
      exact yields_pure (.int32 _)
    | true => exact (yields_reg64 _).bind fun v vals hv => yields_cast .trunc hv (by decide)
  | true =>
    change Yields _ _ _ _ .i64 (some (.i64 (setWidth 64 _)))
    rw [setWidth_eq]
    cases inst.isReg with
    | false => exact yields_pure (.int64 _)
    | true => exact yields_reg64 _

lemma getInt_holds (x : ℤ) : (inst.getInt x).Holds k.host env inst.intTy.ty
    (inst.intTy.val (BitVec.ofInt _ x)) := by
  rw [getInt, intTy]
  cases inst.isAlu64 with
  | false => exact .int32 _
  | true => exact .int64 _

lemma getIntMin_holds : inst.getIntMin.Holds k.host env inst.intTy.ty
    (inst.intTy.val (BitVec.intMin _)) := by
  rw [getIntMin, intTy]
  cases inst.isAlu64 with
  | false => exact .int32 _
  | true => exact .int64 _

variable {v : JitValue} {y : Val} {pc : ℕ} {ys : List (BitVec 64)}

lemma leaves_storeResult {x : BitVec inst.intTy.width}
    (hv : v.Holds k.host env inst.intTy.ty (inst.intTy.val x)) :
    Leaves k.host env s (inst.emitStoreALUResult v)
    (some (s.setLocal inst.dst.toNat 0 (x.setWidth 64))) := by
  revert x
  rw [emitStoreALUResult, intTy]
  cases inst.isAlu64 with
  | false =>
    intro x hv
    exact (yields_cast .zext hv (by decide)).leaves fun w vals hw => leaves_storeReg hw _
  | true =>
    intro x hv
    rw [show setWidth 64 x = x from setWidth_eq x]
    exact leaves_storeReg hv _

section Operations

variable {dv sv : JitValue} {a b : BitVec inst.intTy.width}

lemma yields_shift (op : BinOp) (ha : dv.Holds k.host env inst.intTy.ty (inst.intTy.val a))
    (hb : sv.Holds k.host env inst.intTy.ty (inst.intTy.val b)) :
    Yields k.host env s (inst.emitShift op dv sv) inst.intTy.ty
    ((op.eval a (b % BitVec.ofNat _ inst.intTy.width)).map inst.intTy.val) := by
  have hwidth : (if inst.isAlu64 = true then getInt64 64 else getInt32 32 : JitValue).Holds k.host
      env inst.intTy.ty (inst.intTy.val (ofNat _ inst.intTy.width)) := by
    rw [intTy]
    cases inst.isAlu64 with
    | false => exact .int32 _
    | true => exact .int64 _
  have hrem := IntTy.yields_binOp (F := Callee) (s := s) .urem hb hwidth
  have hne : ofNat inst.intTy.width inst.intTy.width ≠ 0 := by
    intro h
    have htoNat := congrArg toNat h
    simp only [toNat_ofNat, mod_eq_of_lt Nat.lt_two_pow_self] at htoNat
    exact inst.intTy.pos.ne' (by simpa using htoNat)
  rw [BinOp.eval, if_neg hne] at hrem
  exact hrem.bind fun amount vals hamount => IntTy.yields_binOp op (ha.mono vals) hamount

lemma toNat_umod_width (b : BitVec inst.intTy.width) :
    (b % BitVec.ofNat _ inst.intTy.width).toNat = b.toNat % inst.intTy.width := by
  rw [BitVec.toNat_umod, toNat_ofNat, mod_eq_of_lt Nat.lt_two_pow_self]

lemma yields_aluOp (op : AluOp) (hdiv : op ≠ .div) (hmod : op ≠ .mod)
    (ha : dv.Holds k.host env inst.intTy.ty (inst.intTy.val a))
    (hb : sv.Holds k.host env inst.intTy.ty (inst.intTy.val b)) :
    Yields k.host env s (inst.emitAluOp op dv sv) inst.intTy.ty
    (some (inst.intTy.val (aluOp op.code inst.offset a b))) := by
  have hlt : b.toNat % inst.intTy.width < inst.intTy.width := mod_lt _ inst.intTy.pos
  cases op with
  | add => exact IntTy.yields_binOp .add ha hb
  | sub => exact IntTy.yields_binOp .sub ha hb
  | mul => exact IntTy.yields_binOp .mul ha hb
  | div => exact absurd rfl hdiv
  | or => exact IntTy.yields_binOp .or ha hb
  | and => exact IntTy.yields_binOp .and ha hb
  | lsh =>
    have hshift := yields_shift (s := s) .shl ha hb
    rw [eval, toNat_umod_width, if_pos hlt] at hshift
    exact hshift
  | rsh =>
    have hshift := yields_shift (s := s) .lshr ha hb
    rw [eval, toNat_umod_width, if_pos hlt] at hshift
    exact hshift
  | mod => exact absurd rfl hmod
  | xor => exact IntTy.yields_binOp .xor ha hb
  | arsh =>
    have hshift := yields_shift (s := s) .ashr ha hb
    rw [eval, toNat_umod_width, if_pos hlt] at hshift
    exact hshift

/-! ## Division -/

def low {w : ℕ} (b : BitVec w) : BitVec w := (b.setWidth 32).signExtend w

lemma yields_sdivisor (hb : sv.Holds k.host env inst.intTy.ty (inst.intTy.val b)) :
    Yields k.host env s (inst.emitSDivisor sv) inst.intTy.ty (some (inst.intTy.val (low b))) := by
  revert b
  rw [emitSDivisor, intTy]
  cases inst.isAlu64 with
  | false =>
    intro b hb
    have hlow : low b = b := by
      rw [low, show setWidth 32 b = b from setWidth_eq b]
      exact BitVec.signExtend_eq b
    rw [hlow]
    exact yields_pure hb
  | true =>
    intro b hb
    exact (yields_cast .trunc hb (by decide)).bind fun v vals hv => yields_cast .sext hv (by decide)

lemma yields_sdiv (ha : dv.Holds k.host env inst.intTy.ty (inst.intTy.val a))
    (hb : sv.Holds k.host env inst.intTy.ty (inst.intTy.val b)) :
    Yields k.host env s (inst.emitSDiv dv sv) inst.intTy.ty ((sdiv.eval a b).map inst.intTy.val) := by
  refine (IntTy.yields_icmp .eq ha getIntMin_holds).bind fun isMin v1 hmin => ?_
  refine (IntTy.yields_icmp .eq (hb.mono v1) (getInt_holds (-1))).bind fun isMinusOne v2 hone => ?_
  refine (yields_binOp .and (hmin.mono v2) hone).bind fun overflow v3 hover => ?_
  have hdiv := IntTy.yields_binOp (F := Callee) (s := s) .sdiv (((ha.mono v1).mono v2).mono v3)
    (((hb.mono v1).mono v2).mono v3)
  rw [BinOp.eval] at hdiv ⊢
  split_ifs at hdiv ⊢ with hun
  · exact hdiv.bind_none
  · refine hdiv.bind fun quotient v4 hq => ?_
    have hselect := yields_select (F := Callee) (s := s) (hover.mono v4) getIntMin_holds hq
    -- The overflow that the code selects on has been excluded.
    have hno : (Pred.eq.eval a (BitVec.intMin _) && Pred.eq.eval b (ofInt _ (-1))) = false := by
      rw [SDivUndefined, not_or] at hun
      by_contra hover
      simp only [Bool.not_eq_false, Bool.and_eq_true, Pred.eval, beq_iff_eq, BitVec.ofInt_neg] at hover
      exact hun.2 ⟨hover.1, by simpa using hover.2⟩
    rwa [hno] at hselect

variable {r : Option (BitVec inst.intTy.width)}

lemma yields_selectAfter {e : JitEmit JitValue} {c z : JitValue} {t : Bool}
    (he : Yields k.host env s e inst.intTy.ty (r.map inst.intTy.val))
    (hc : c.Holds k.host env .i1 (.i1 t)) (hz : z.Holds k.host env inst.intTy.ty (inst.intTy.val a)) :
    Yields k.host env s (e >>= createSelect c z) inst.intTy.ty
    ((r.map fun x => if t then a else x).map inst.intTy.val) := by
  cases r with
  | none => exact bind_none he
  | some x =>
    refine bind he fun v vals hv => ?_
    have hselect := yields_select (F := Callee) (s := s) (hc.mono vals) (hz.mono vals) hv
    cases t <;> exact hselect

def divResult {w : ℕ} (offset : BitVec 16) (a b : BitVec w) : Option (BitVec w) :=
  (if offset = 1 then sdiv.eval a (low b) else udiv.eval a b).map fun q => if b == 0 then 0 else q

def modResult {w : ℕ} (offset : BitVec 16) (a b : BitVec w) : Option (BitVec w) :=
  (if offset = 1 then srem.eval a (low b) else urem.eval a b).map fun r => if b == 0 then a else r

lemma yields_isZero (hb : sv.Holds k.host env inst.intTy.ty (inst.intTy.val b)) :
    Yields k.host env s (createICmp .eq sv (inst.getInt 0)) .i1 (some (.i1 (b == 0))) := by
  have hcmp := IntTy.yields_icmp (F := Callee) (s := s) .eq hb (getInt_holds 0)
  rwa [ofInt_ofNat] at hcmp

section

variable (ha : dv.Holds k.host env inst.intTy.ty (inst.intTy.val a))
include ha

lemma yields_div (hb : sv.Holds k.host env inst.intTy.ty (inst.intTy.val b)) :
    Yields k.host env s (inst.emitDiv dv sv) inst.intTy.ty ((divResult inst.offset a b).map inst.intTy.val) := by
  refine (yields_isZero hb).bind fun isZero v1 hzero => ?_
  have hanswer : (inst.getInt 0).Holds k.host (env ++ v1) inst.intTy.ty (inst.intTy.val 0) := by
    rw [show (0 : BitVec inst.intTy.width) = ofInt _ 0 from (ofInt_ofNat _ 0).symm]
    exact getInt_holds 0
  refine yields_selectAfter ?_ hzero hanswer
  rw [emitQuotient]
  split_ifs with hoff
  · exact (yields_sdivisor (hb.mono v1)).bind fun t v2 ht => yields_sdiv ((ha.mono v1).mono v2) ht
  · exact IntTy.yields_binOp .udiv (ha.mono v1) (hb.mono v1)

lemma yields_sdividend : Yields k.host env s (inst.emitSDividend dv) inst.intTy.ty
    (some (inst.intTy.val a)) := by
  revert a
  rw [emitSDividend, intTy]
  cases inst.isAlu64 with
  | false => exact fun ha => yields_pure ha
  | true => exact fun ha => yields_cast_self .sext ha

lemma yields_mod (hb : sv.Holds k.host env inst.intTy.ty (inst.intTy.val b)) :
    Yields k.host env s (inst.emitMod dv sv) inst.intTy.ty ((modResult inst.offset a b).map inst.intTy.val) := by
  refine (yields_isZero hb).bind fun isZero v1 hzero => ?_
  refine yields_selectAfter ?_ hzero (ha.mono v1)
  rw [emitRemainder]
  split_ifs with hoff
  · refine (yields_sdividend (ha.mono v1)).bind fun d v2 hd => ?_
    refine (yields_sdivisor ((hb.mono v1).mono v2)).bind fun t v3 ht => ?_
    exact IntTy.yields_binOp .srem (hd.mono v3) ht
  · exact IntTy.yields_binOp .urem (ha.mono v1) (hb.mono v1)

end

lemma leaves_aluWith {func : JitValue → JitValue → JitEmit JitValue}
    (hfunc : ∀ env (dv sv : JitValue), dv.Holds k.host env inst.intTy.ty
    (inst.intTy.val (inst.operand (reg s inst.dst.toNat))) → sv.Holds k.host env inst.intTy.ty
    (inst.intTy.val (inst.operand (source inst (reg s inst.src.toNat)))) →
    Yields k.host env s (func dv sv) inst.intTy.ty (r.map inst.intTy.val)) :
    Leaves k.host env s (inst.emitALUWithDstAndSrc func)
    (r.map fun x => s.setLocal inst.dst.toNat 0 (x.setWidth 64)) := by
  refine yields_dest.leaves fun dv v1 hd => ?_
  refine yields_source.leaves fun sv v2 hs => ?_
  have hr := hfunc _ dv sv (hd.mono v2) hs
  cases r with
  | none => exact leaves_none hr
  | some x => exact leaves hr fun v v3 hv => leaves_storeResult hv

end Operations

lemma leaves_neg : Leaves k.host env s inst.emitNeg
    (some (s.setLocal inst.dst.toNat 0 ((-inst.operand (reg s inst.dst.toNat)).setWidth 64))) := by
  refine yields_dest.leaves fun dv v1 hd => ?_
  have hsub := IntTy.yields_binOp (F := Callee) (s := s) .sub (getInt_holds 0) hd
  rw [BinOp.eval, ofInt_ofNat, BitVec.zero_sub] at hsub
  exact leaves hsub fun v v2 hv => leaves_storeResult hv

variable {ty : Ty} {e : JitEmit Unit} {d x : BitVec 64}

lemma yields_narrow {sv : JitValue} {ty' : Ty} {x z : Val}
    (hsv : sv.Holds k.host env ty x) (hty : (if inst.isAlu64 then .i64 else .i32) = ty)
    (hne : ty ≠ ty') (htrunc : trunc.apply ty' x = some y) (hsext : sext.apply ty y = some z) :
    Yields k.host env s (inst.emitMovsx ty' sv) ty (some z) := by
  have hlow := yields_cast (F := Callee) (s := s) .trunc hsv hne
  rw [htrunc] at hlow
  refine hlow.bind fun v1 vals1 h1 => (yields_cast_self .sext h1).bind fun v2 vals2 h2 => ?_
  have hback := yields_cast (F := Callee) (s := s) .sext h2 hne.symm
  rwa [hty, ← hsext]

lemma yields_movsx {sv : JitValue} {b : BitVec inst.intTy.width} (hty : inst.movsxTy = some ty)
    (hb : sv.Holds k.host env inst.intTy.ty (inst.intTy.val b)) :
    Yields k.host env s (inst.emitMovsx ty sv) inst.intTy.ty
    (some (inst.intTy.val ((b.setWidth inst.offset.toNat).signExtend _))) := by
  have hcases : inst.offset = 8 ∧ ty = .i8 ∨ inst.offset = 16 ∧ ty = .i16 ∨ inst.offset = 32 ∧ ty =
      .i32 := by
    rw [movsxTy] at hty
    split_ifs at hty <;> simp_all
  revert b
  cases h64 : inst.isAlu64 with
  | true =>
    rw [intTy, h64]
    intro b hb
    rcases hcases with ⟨hoff, rfl⟩ | ⟨hoff, rfl⟩ | ⟨hoff, rfl⟩ <;> rw [hoff]
    all_goals exact yields_narrow hb (by rw [h64]; rfl) (by decide) rfl rfl
  | false =>
    rw [intTy, h64]
    intro b hb
    rcases hcases with ⟨hoff, rfl⟩ | ⟨hoff, rfl⟩ | ⟨hoff, rfl⟩ <;> rw [hoff]
    · exact yields_narrow hb (by rw [h64]; rfl) (by decide) rfl rfl
    · exact yields_narrow hb (by rw [h64]; rfl) (by decide) rfl rfl
    · -- Here nothing is converted.
      have hself : signExtend 32 (setWidth 32 b) = b := by
        rw [show setWidth 32 b = b from setWidth_eq b]
        exact BitVec.signExtend_eq b
      change Yields _ _ _ _ _ (some (.i32 (signExtend 32 (setWidth 32 b))))
      rw [hself, emitMovsx, h64]
      refine (yields_cast_self .trunc hb).bind fun v1 vals1 h1 => ?_
      exact (yields_cast_self .sext h1).bind fun v2 vals2 h2 => yields_cast_self .sext h2

lemma leaves_mov (hmov : inst.emitMov pc = .ok e) : Leaves k.host env s e
    (some (s.setLocal inst.dst.toNat 0 ((aluOp 0xb inst.offset (inst.operand (reg s inst.dst.toNat))
    (inst.operand (source inst (reg s inst.src.toNat)))).setWidth 64))) := by
  rw [emitMov] at hmov
  by_cases hoff : inst.offset = 0
  · rw [if_neg (not_not.mpr hoff), Except.ok.injEq] at hmov
    subst hmov
    refine yields_source.leaves fun sv v1 hs => ?_
    rw [aluOp, if_pos hoff]
    exact leaves_storeResult hs
  · rw [if_pos hoff] at hmov
    cases hty : inst.movsxTy with
    | none => simp [hty] at hmov
    | some ty =>
      simp only [hty, Except.ok.injEq] at hmov
      subst hmov
      refine yields_source.leaves fun sv v1 hs => ?_
      rw [aluOp, if_neg hoff]
      exact (yields_movsx hty hs).leaves fun v v2 hv => leaves_storeResult hv

/-! ## Byte swaps -/

lemma yields_byte {dv : JitValue} (hd : dv.Holds k.host env .i64 (.i64 d)) {shift : ℕ}
    (hshift : shift < 64) :
    Yields k.host env s (emitByte dv shift) .i64 (some (.i64 (d >>> shift &&& 0xff))) := by
  have hlshr := yields_binOp (F := Callee) (s := s) .lshr hd (.int64 (ofNat 64 shift))
  have hamount : (ofNat 64 shift).toNat = shift := by
    rw [toNat_ofNat]
    omega
  rw [BinOp.apply, BinOp.eval, hamount, if_pos hshift] at hlshr
  exact bind hlshr fun v vals hv => yields_binOp .and hv (.int64 0xff)

lemma exec_emitBytes {dv : JitValue} (hd : dv.Holds k.host env .i64 (.i64 d))
    (shifts : List ℕ) (hshifts : ∀ shift ∈ shifts, shift < 64) :
    ∃ vs vals, (emitBytes dv shifts).exec k.host env s = some (vs, env ++ vals, s) ∧
    Forall₂ (fun (v : JitValue) shift =>
    v.Holds k.host (env ++ vals) .i64 (.i64 (d >>> shift &&& 0xff))) vs shifts := by
  induction shifts generalizing env with
  | nil => exact ⟨[], [], by simp [emitBytes], .nil⟩
  | cons shift shifts ih =>
    obtain ⟨v, vals1, hexec, hv⟩ := yields_byte (s := s) hd (hshifts shift mem_cons_self)
    obtain ⟨vs, vals2, hexecs, hvs⟩ := ih (hd.mono vals1) fun shift h => hshifts shift (mem_cons_of_mem _ h)
    refine ⟨v :: vs, vals1 ++ vals2, ?_, ?_⟩
    · simp [emitBytes, hexec, hexecs]
    · rw [← List.append_assoc]
      exact .cons (hv.mono vals2) hvs

def merge (x : BitVec 64) (ys : List (BitVec 64)) : BitVec 64 := ys.foldl (fun acc y => acc <<< 8 ||| y) x

lemma yields_merge {last : JitValue} {x : BitVec 64} (hx : last.Holds k.host env .i64 (.i64 x))
    {vs : List JitValue} {ys : List (BitVec 64)}
    (hvs : Forall₂ (fun (v : JitValue) y => v.Holds k.host env .i64 (.i64 y)) vs ys) :
    Yields k.host env s (emitMerge last vs) .i64 (some (.i64 (merge x ys))) := by
  induction vs generalizing env last x ys with
  | nil =>
    cases hvs
    exact yields_pure hx
  | cons v vs ih =>
    cases hvs with
    | @cons _ y _ ys hv hvs =>
      have hshl := yields_binOp (F := Callee) (s := s) .shl hx (.int64 8)
      refine bind (x := .i64 (x <<< 8)) hshl fun v1 vals1 h1 => ?_
      have hor := yields_binOp (F := Callee) (s := s) .or h1 (hv.mono vals1)
      refine bind (x := .i64 (x <<< 8 ||| y)) hor fun v2 vals2 h2 => ?_
      exact ih h2 (hvs.imp fun v y hv => (hv.mono vals1).mono vals2)

lemma toNat_merge (ys : List (BitVec 64)) (x : BitVec 64) (hys : ∀ y ∈ ys, y.toNat < 256)
    (hx : (x.toNat + 1) * 256^ys.length ≤ 2^64) :
    (merge x ys).toNat = (ys.map BitVec.toNat).foldl (fun acc b => acc * 256 + b) x.toNat := by
  induction ys generalizing x with
  | nil => rfl
  | cons y ys ih =>
    have hy := hys y mem_cons_self
    rw [length_cons, pow_succ'] at hx
    have hpos : 0 < 256^ys.length := by positivity
    have hfit : (x.toNat + 1) * 256 ≤ 2^64 := by nlinarith
    have hstep : (x <<< 8 ||| y).toNat = x.toNat * 256 + y.toNat := by
      rw [BitVec.toNat_or, BitVec.toNat_shiftLeft, Nat.shiftLeft_eq, Nat.mod_eq_of_lt (by omega),
        mul_comm, ← two_pow_add_eq_or_of_lt (by omega)]
    rw [merge, foldl_cons, map_cons, foldl_cons, ← hstep]
    refine ih _ (fun y h => hys y (mem_cons_of_mem _ h)) ?_
    rw [hstep]
    calc (x.toNat * 256 + y.toNat + 1) * 256^ys.length
        ≤ ((x.toNat + 1) * 256) * 256^ys.length := Nat.mul_le_mul_right _ (by omega)
      _ = (x.toNat + 1) * (256 * 256^ys.length) := mul_assoc _ _ _
      _ ≤ 2^64 := hx

lemma toNat_byte (d : BitVec 64) (i : ℕ) : (d >>> (8 * i) &&& 0xff).toNat = d.toNat / 256^i % 256 := by
  rw [BitVec.toNat_and, BitVec.toNat_ushiftRight, shiftRight_eq_div_pow, pow_mul]
  exact and_two_pow_sub_one_eq_mod _ 8

lemma merge_bytes {n : ℕ} (hn : n < 8) {y : BitVec 64}
    (hys : (range (n + 1)).map (fun i => d >>> (8 * i) &&& 0xff) = y :: ys) :
    merge y ys = swapBytes (n + 1) d := by
  have hlt : ∀ z ∈ y :: ys, z.toNat < 256 := by
    rw [← hys]
    simp only [List.mem_map]
    rintro z ⟨i, -, rfl⟩
    rw [toNat_byte]
    exact Nat.mod_lt _ (by norm_num)
  have hlen : ys.length = n := by simpa using (congrArg length hys).symm
  have hfit : (y.toNat + 1) * 256^ys.length ≤ 2^64 := by
    calc (y.toNat + 1) * 256^ys.length
        ≤ 256 * 256^ys.length := Nat.mul_le_mul_right _ (hlt y mem_cons_self)
      _ = 256^(n + 1) := by rw [hlen, pow_succ']
      _ ≤ 256^8 := Nat.pow_le_pow_right (by norm_num) (by omega)
      _ = 2^64 := by norm_num
  have hnat : (merge y ys).toNat = ofBe ((List.range (n + 1)).map fun i => d.toNat / 256^i % 256) := by
    calc (merge y ys).toNat = ofBe ((y :: ys).map toNat) := by
          rw [toNat_merge ys y (fun z hz => hlt z (mem_cons_of_mem _ hz)) hfit, ofBe,
            List.map_cons, List.foldl_cons, zero_mul, zero_add]
      _ = _ := by
          rw [← hys, List.map_map]
          exact congrArg _ (map_congr_left fun i _ => toNat_byte d i)
  refine BitVec.eq_of_toNat_eq ?_
  rw [swapBytes, ofLe_reverse, map_toNat_toLe, toNat_ofNat, ← hnat,
    Nat.mod_eq_of_lt (isLt _)]

lemma yields_reverse {dv : JitValue} (hd : dv.Holds k.host env .i64 (.i64 d))
    {size : ℕ} (hpos : 8 ≤ size) (hle : size ≤ 64) : Yields k.host env s (emitReverse dv size) .i64
    (some (.i64 (swapBytes (size / 8) d))) := by
  obtain ⟨n, hn⟩ : ∃ n, size / 8 = n + 1 := ⟨size / 8 - 1, by omega⟩
  obtain ⟨vs, vals, hexec, hvs⟩ := exec_emitBytes (s := s) hd ((range (size / 8)).map (8 * ·))
    (by simp only [List.mem_map, List.mem_range]; omega)
  have hbytes : Forall₂ (fun (v : JitValue) y => v.Holds k.host (env ++ vals) .i64 (.i64 y)) vs
      ((range (n + 1)).map fun i => d >>> (8 * i) &&& 0xff) := by
    rw [hn] at hvs
    simpa only [forall₂_map_right_iff] using hvs
  generalize hys : (range (n + 1)).map (fun i => d >>> (8 * i) &&& 0xff) = bytes at hbytes
  clear hvs
  cases hbytes with
  | nil => simp at hys
  | @cons v y vs ys hv hvs =>
    obtain ⟨w, vals', hexec', hw⟩ := yields_merge (s := s) hv hvs
    rw [merge_bytes (by omega) hys, ← hn] at hw
    refine ⟨w, vals ++ vals', ?_, by simpa using hw⟩
    rw [emitReverse, exec_bind, hexec]
    simpa using hexec'

lemma leaves_storeResult64 (hv : v.Holds k.host env .i64 (.i64 x)) :
    Leaves k.host env s (inst.emitStoreALUResult v) (some (s.setLocal inst.dst.toNat 0 x)) := by
  rw [emitStoreALUResult]
  split_ifs
  · exact leaves_storeReg hv _
  · exact (yields_cast_self .zext hv).leaves fun w vals hw => leaves_storeReg hw _

lemma leaves_storeTrunc {dv : JitValue}
    (h64 : inst.isAlu64 = false) (hd : dv.Holds k.host env .i64 (.i64 d)) (hne : .i64 ≠ ty)
    (htrunc : trunc.apply ty (.i64 d) = some y) (hzext : zext.apply .i64 y = some (.i64 x)) :
    Leaves k.host env s (createCast .trunc dv ty >>= inst.emitStoreALUResult)
    (some (s.setLocal inst.dst.toNat 0 x)) := by
  have hlow := yields_cast (F := Callee) (s := s) .trunc hd hne
  rw [htrunc] at hlow
  refine hlow.leaves fun v vals hv => ?_
  have hwide := yields_cast (F := Callee) (s := s) .zext hv hne.symm
  rw [hzext] at hwide
  rw [emitStoreALUResult, h64]
  exact hwide.leaves fun w vals' hw => leaves_storeReg hw _

lemma leaves_endian (hend : inst.emitEndian = .ok e) : Leaves k.host env s e
    (some (s.setLocal inst.dst.toNat 0 (endian inst (reg s inst.dst.toNat)))) := by
  rw [emitEndian, emitALUEndianConversion] at hend
  split_ifs at hend with himm
  · cases hend
  cases hend
  have hdest : Yields k.host env s (inst.emitLoadALUDest true) .i64 (some (.i64 (reg s inst.dst.toNat))) := by
    rw [emitLoadALUDest, Bool.or_true]
    exact yields_reg64 _
  refine hdest.leaves fun dv vals hd => ?_
  -- The three sizes.
  have hsize : inst.imm = 16 ∨ inst.imm = 32 ∨ inst.imm = 64 := by tauto
  have hreverse : inst.needReverse = decide (cls inst = 7 ∨ fromReg inst = true) := by
    rw [needReverse, isAlu64_eq, isReg_eq]
    simp
  rw [emitConversion, endian]
  by_cases hrev : cls inst = 7 ∨ fromReg inst = true
  · rw [if_pos hrev, if_pos (by rw [hreverse]; exact decide_eq_true hrev)]
    have hrange : 8 ≤ inst.imm.toNat ∧ inst.imm.toNat ≤ 64 := by
      rcases hsize with h | h | h <;> rw [h] <;> decide
    exact (yields_reverse hd hrange.1 hrange.2).leaves fun v vals' hv => leaves_storeResult64 hv
  · have h64 : inst.isAlu64 = false := by
      rw [isAlu64_eq]
      simp [(not_or.mp hrev).1]
    rw [if_neg hrev, if_neg (by rw [hreverse]; simpa using hrev)]
    rcases hsize with h | h | h <;> rw [h]
    · exact leaves_storeTrunc h64 hd (by decide) rfl rfl
    · exact leaves_storeTrunc h64 hd (by decide) rfl rfl
    · refine (yields_pure hd).leaves fun v vals' hv => ?_
      change Leaves _ _ _ _ (some (s.setLocal _ 0 (((reg s _).setWidth 64).setWidth 64)))
      rw [setWidth_eq, setWidth_eq]
      exact leaves_storeResult64 hv

section Division

variable {w : ℕ} {offset : BitVec 16} {a b : BitVec w}

/-- The operands for which the code of a division is right. -/
def DivOk (offset : BitVec 16) (a b : BitVec w) : Prop :=
  if offset = 1 then
    ¬ SDivUndefined a (low b) ∧ (low b = b ∨ a.toInt.natAbs < (low b).toInt.natAbs)
  else b ≠ 0

/-- The operands for which the code of a remainder is right: if signed, the true remainder is also
one of the division by the low part of the divisor. -/
def ModOk (offset : BitVec 16) (a b : BitVec w) : Prop :=
  if offset = 1 then
    ¬ SDivUndefined a (low b) ∧ (a.toInt.tmod b.toInt).natAbs < (low b).toInt.natAbs ∧
      (low b).toInt ∣ a.toInt - a.toInt.tmod b.toInt
  else b ≠ 0

instance (offset : BitVec 16) (a b : BitVec w) : Decidable (DivOk offset a b) := by
  unfold DivOk
  infer_instance

instance (offset : BitVec 16) (a b : BitVec w) : Decidable (ModOk offset a b) := by
  unfold ModOk
  infer_instance

section

variable (hw : 32 ≤ w)
include hw

lemma toInt_low (b : BitVec w) : (low b).toInt = b.toInt.bmod (2^32) := by
  have hdvd : 2^32 ∣ 2^w := pow_dvd_pow 2 hw
  rw [low, BitVec.toInt_signExtend, BitVec.toInt_setWidth, Nat.min_eq_right hw, Int.bmod_bmod,
    BitVec.toInt_eq_toNat_bmod, Int.bmod_bmod_of_dvd hdvd]

lemma low_zero : low (0 : BitVec w) = 0 := by
  refine eq_of_toInt_eq ?_
  rw [toInt_low hw]
  simp

lemma low_neg_one : low (-1 : BitVec w) = -1 := by
  refine eq_of_toInt_eq ?_
  have hone : (-1 : BitVec w).toInt = -1 := by
    have hall := BitVec.toInt_allOnes (w := w)
    rw [if_pos (by omega)] at hall
    rw [← hall]
    exact congrArg toInt BitVec.neg_one_eq_allOnes
  rw [toInt_low hw, hone]
  rfl

lemma defined_of_low (h : ¬ SDivUndefined a (low b)) :
    (low b).toInt ≠ 0 ∧ b ≠ 0 ∧ (a ≠ BitVec.intMin w ∨ low b ≠ -1) ∧ (a ≠ BitVec.intMin w ∨ b ≠ -1) := by
  rw [SDivUndefined, not_or, not_and_or] at h
  refine ⟨fun h0 => h.1 (eq_of_toInt_eq (by simpa using h0)), ?_, h.2, h.2.imp_right ?_⟩
  · rintro rfl
    exact h.1 (low_zero hw)
  · rintro hlow rfl
    exact hlow (low_neg_one hw)

lemma divResult_eq_iff : divResult offset a b = some (aluOp 0x3 offset a b) ↔ DivOk offset a b := by
  rw [divResult, DivOk, aluOp]
  by_cases hoff : offset = 1
  · simp only [if_pos hoff, eval]
    by_cases hun : SDivUndefined a (low b)
    · simp [hun]
    · obtain ⟨hlow, hb, hmin, hmin'⟩ := defined_of_low hw hun
      have hiff := Division.tdiv_bmod_eq_iff (a := a.toInt) (b := b.toInt) (m := 2^32)
        (by norm_num) (by rwa [← toInt_low hw])
      rw [← toInt_low hw, ← BitVec.toInt_sdiv_of_ne_or_ne a _ hmin,
        ← BitVec.toInt_sdiv_of_ne_or_ne a b hmin', toInt_inj, toInt_inj] at hiff
      rw [if_neg hun, map_some, if_neg (by simpa using hb), if_neg hb, some.injEq, hiff]
      exact (and_iff_right hun).symm
  · simp only [if_neg hoff, eval]
    by_cases hb : b = 0
    · simp [hb]
    · rw [if_neg hb, map_some, if_neg (by simpa using hb), if_neg hb]
      exact iff_of_true rfl hb

lemma modResult_eq_iff : modResult offset a b = some (aluOp 0x9 offset a b) ↔ ModOk offset a b := by
  rw [modResult, ModOk, aluOp]
  by_cases hoff : offset = 1
  · simp only [if_pos hoff, eval]
    by_cases hun : SDivUndefined a (low b)
    · simp [hun]
    · obtain ⟨hlow, hb, -, -⟩ := defined_of_low hw hun
      have hiff := Division.tmod_eq_iff (a := a.toInt) (b := b.toInt) hlow
      rw [← toInt_srem, ← toInt_srem, toInt_inj, toInt_srem] at hiff
      rw [if_neg hun, map_some, if_neg (by simpa using hb), if_neg hb, some.injEq, hiff]
      exact (and_iff_right hun).symm
  · simp only [if_neg hoff, eval]
    by_cases hb : b = 0
    · simp [hb]
    · rw [if_neg hb, map_some, if_neg (by simpa using hb), if_neg hb]
      exact iff_of_true rfl hb

end

end Division

/-! ## Arithmetic of an accepted program -/

/-- The operands for which the code of an arithmetic instruction is right. -/
def AluOk (inst : EbpfInst) (d s : BitVec 64) : Prop :=
  let a := d.setWidth (Isa.width inst)
  let b := (Isa.source inst s).setWidth (Isa.width inst)
  (Isa.code inst = 0x3 → DivOk inst.offset a b) ∧ (Isa.code inst = 0x9 → ModOk inst.offset a b)

instance (inst : EbpfInst) (d s : BitVec 64) : Decidable (AluOk inst d s) := by
  unfold AluOk
  infer_instance

lemma leaves_straight {r : Option State} (he : Leaves k.host env s e r) :
    Leaves k.host env s (straight e) r := by
  rw [straight, Leaves, exec_bind]
  rw [Leaves] at he
  rw [← he]
  cases e.exec k.host env s <;> rfl

variable (k env s) in
lemma leaves_aluOp (op : AluOp) (hop : op.code = code inst) : ∃ r : Option
    (BitVec inst.intTy.width), Leaves k.host env s (inst.emitALUWithDstAndSrc (inst.emitAluOp op))
    (r.map fun x => s.setLocal inst.dst.toNat 0 (x.setWidth 64)) ∧
    (r = some (aluOp (code inst) inst.offset (inst.operand (reg s inst.dst.toNat))
    (inst.operand (source inst (reg s inst.src.toNat)))) ↔
    AluOk inst (reg s inst.dst.toNat) (reg s inst.src.toNat)) := by
  have hw : 32 ≤ inst.intTy.width := by
    rw [intTy]
    cases inst.isAlu64 <;> decide
  rw [AluOk, width_eq]
  by_cases hdiv : op = .div
  · subst hdiv
    refine ⟨_, leaves_aluWith fun env dv sv => yields_div, ?_⟩
    rw [← hop]
    exact (divResult_eq_iff hw).trans
      ⟨fun h => ⟨fun _ => h, fun hcode => absurd hcode (by decide)⟩, fun h => h.1 rfl⟩
  by_cases hmod : op = .mod
  · subst hmod
    refine ⟨_, leaves_aluWith fun env dv sv => yields_mod, ?_⟩
    rw [← hop]
    exact (modResult_eq_iff hw).trans
      ⟨fun h => ⟨fun hcode => absurd hcode (by decide), fun _ => h⟩, fun h => h.2 rfl⟩
  · refine ⟨some _, leaves_aluWith fun env dv sv => yields_aluOp op hdiv hmod, ?_⟩
    rw [← hop]
    refine iff_of_true rfl ⟨fun hcode => ?_, fun hcode => ?_⟩
    · exact absurd (by cases op <;> first | rfl | cases hcode) hdiv
    · exact absurd (by cases op <;> first | rfl | cases hcode) hmod

lemma setWidth_inj {x y : BitVec inst.intTy.width} (h : x.setWidth 64 = y.setWidth 64) : x = y := by
  have hw : inst.intTy.width ≤ 64 := by
    rw [intTy]
    cases inst.isAlu64 <;> decide
  have hpow := Nat.pow_le_pow_right (by norm_num : 0 < 2) hw
  have hnat := congrArg toNat h
  rw [BitVec.toNat_setWidth, BitVec.toNat_setWidth, mod_eq_of_lt (by omega), mod_eq_of_lt (by omega)] at hnat
  exact BitVec.eq_of_toNat_eq hnat

lemma alu_eq {s : BitVec 64} (hcode : code inst ≠ 0xd) :
    alu inst d s = (aluOp (code inst) inst.offset (inst.operand d)
    (inst.operand (source inst s))).setWidth 64 := by
  rw [alu, if_neg hcode, width_eq]
  rfl

lemma leaves_emit {cfg : Config} {ib rb : ℕ → Bool} {next : Option EbpfInst}
    {e : JitEmit (Option (Term Label))} (halu : IsAlu inst)
    (hemit : inst.emit cfg ib rb pc next = .ok e) : Leaves k.host env s e
    (some (s.setLocal inst.dst.toNat 0 (alu inst (reg s inst.dst.toNat) (reg s inst.src.toNat)))) ↔
    AluOk inst (reg s inst.dst.toNat) (reg s inst.src.toNat) := by
  obtain ⟨-, c, hcase, hemit⟩ := emit_eq_ok_iff.mp hemit
  have hcode := aluCode_of_case halu hcase
  -- The cases without a division are right for all operands.
  have hok : c.aluCode ≠ some 0x3 → c.aluCode ≠ some 0x9 →
      AluOk inst (reg s inst.dst.toNat) (reg s inst.src.toNat) := by
    rw [hcode]
    exact fun h3 h9 => ⟨fun h => absurd (congrArg some h) h3, fun h => absurd (congrArg some h) h9⟩
  cases c with
  | alu op =>
    cases hemit
    have hop : op.code = code inst := some.inj hcode
    obtain ⟨r, hleaves, hr⟩ := leaves_aluOp k env s op hop
    rw [← hr, alu_eq (by rw [← hop]; cases op <;> decide), Leaves,
      show Option.map _ _ = _ from leaves_straight hleaves]
    constructor
    · intro h
      obtain ⟨x, rfl, hx⟩ := map_eq_some_iff.mp h
      exact congrArg some (setWidth_inj (setLocal_inj hx))
    · rintro rfl
      rfl
  | neg =>
    cases hemit
    have hcode : code inst = 0x8 := (some.inj hcode).symm
    refine iff_of_true ?_ (hok (by decide) (by decide))
    rw [alu_eq (by rw [hcode]; decide), hcode]
    exact leaves_straight leaves_neg
  | mov =>
    obtain ⟨e', he', rfl⟩ := map_eq_ok_iff.mp hemit
    have hcode : code inst = 0xb := (some.inj hcode).symm
    refine iff_of_true ?_ (hok (by decide) (by decide))
    rw [alu_eq (by rw [hcode]; decide), hcode]
    exact leaves_straight (leaves_mov he')
  | endian =>
    obtain ⟨e', he', rfl⟩ := map_eq_ok_iff.mp hemit
    have hcode : code inst = 0xd := (some.inj hcode).symm
    refine iff_of_true ?_ (hok (by decide) (by decide))
    rw [alu, if_pos hcode]
    exact leaves_straight (leaves_endian he')
  | _ => simp [Case.aluCode] at hcode

/-- The chunk of an arithmetic instruction in an accepted program, run from any state, leaves the
state with the destination register set to the value that the instruction set defines, exactly when
the operands are in `AluOk`. -/
theorem alu_correct_iff {cfg : Config} {insts : List EbpfInst} {m : Module}
    (hm : generateModule cfg insts = .ok m) {l : Label} {c : Chunk Label Callee}
    (hc : c ∈ m.blocks l) {pc : ℕ} (htag : c.tag = some pc) {inst : EbpfInst}
    (hinst : insts[pc]? = some inst) (halu : Isa.IsAlu inst) (k : Linkage) (s : State) :
    (execCode k.host [] s c.code).map (·.2) = some (s.setLocal inst.dst.toNat 0
          (Isa.alu inst (reg s inst.dst.toNat) (reg s inst.src.toNat))) ↔
      AluOk inst (reg s inst.dst.toNat) (reg s inst.src.toNat) := by
  obtain ⟨blockBegin, blocks, hcompiled⟩ := exists_compiled hm
  obtain ⟨inst', e, hinst', hemit, rfl⟩ := hcompiled.emitted_of_tag hc htag
  rw [hinst, some.injEq] at hinst'
  subst hinst'
  rw [← leaves_emit (k := k) halu hemit, leaves_nil_iff]
  rfl

def twoRegs (r0 r1 : BitVec 64) : State where
  locals a _ := if a = 0 then r0 else if a = 1 then r1 else 0
  mem _ := 0

/-- The signed division `r0 /= r1`. -/
def sdivInst : EbpfInst := ⟨0x3f, 0, 1, 1, 0⟩

/-- The signed division of -7 by 2 sets the destination to -3. -/
theorem alu_correct_sdiv : ∃ m c, generateModule bareConfig [sdivInst, exitInst] = .ok m ∧
    c ∈ m.blocks (.inst 0) ∧
    (execCode bareLinkage.host [] (twoRegs (-7) 2) c.code).map (·.2) =
    some ((twoRegs (-7) 2).setLocal 0 0 (-3)) := by
  have hsome : (firstChunk [sdivInst, exitInst]).map (·.tag) = some (some 0) := rfl
  obtain ⟨m, c, hm, hmem, htag⟩ := exists_of_firstChunk hsome
  exact ⟨m, c, hm, hmem, (alu_correct_iff hm hmem htag rfl (by decide) bareLinkage _).mpr (by decide)⟩

/-- The division `r0 /= r1` without sign. -/
def divInst : EbpfInst := ⟨0x3f, 0, 1, 0, 0⟩

/-- A division by zero is undefined in the emitted code, where the instruction set defines 0. A
signed division of `2^33` by `2^32 + 1` divides by the low half of the divisor, which is 1. -/
theorem not_alu_correct : (∃ m c, generateModule bareConfig [divInst, exitInst] = .ok m ∧
    c ∈ m.blocks (.inst 0) ∧
      c.tag = some 0 ∧ execCode bareLinkage.host [] (twoRegs 7 0) c.code = none ∧ Isa.alu divInst 7 0 = 0) ∧
    (∃ m c, generateModule bareConfig [sdivInst, exitInst] = .ok m ∧ c ∈ m.blocks (.inst 0) ∧
    c.tag = some 0 ∧
      (execCode bareLinkage.host [] (twoRegs 0x200000000 0x100000001) c.code).map
        (fun r => reg r.2 0) = some 0x200000000 ∧ Isa.alu sdivInst 0x200000000 0x100000001 = 1) := by
  constructor
  · have hrun : (firstChunk [divInst, exitInst]).map (fun c =>
        (c.tag, (execCode bareLinkage.host [] (twoRegs 7 0) c.code).isNone)) = some (some 0, true) := rfl
    obtain ⟨m, c, hm, hmem, hrun⟩ := exists_of_firstChunk hrun
    rw [Prod.mk.injEq, isNone_iff_eq_none] at hrun
    exact ⟨m, c, hm, hmem, hrun.1, hrun.2, by decide⟩
  · have hrun : (firstChunk [sdivInst, exitInst]).map (fun c =>
        (c.tag, (execCode bareLinkage.host [] (twoRegs 0x200000000 0x100000001) c.code).map
          fun r => reg r.2 0)) = some (some 0, some 0x200000000) := rfl
    obtain ⟨m, c, hm, hmem, hrun⟩ := exists_of_firstChunk hrun
    rw [Prod.mk.injEq] at hrun
    exact ⟨m, c, hm, hmem, hrun.1, hrun.2, by decide⟩

end Bpftime.Jit
