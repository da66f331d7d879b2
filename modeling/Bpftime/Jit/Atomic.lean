import Bpftime.Jit.Alu

/-!
# Atomic instructions

What an atomic instruction does to the memory and the registers by the instruction set, and when the
emitted code does that.
-/

namespace Bpftime.Jit

open Ir BitVec EbpfInst Isa Option Nat Prod

namespace Isa

def IsAtomic (inst : EbpfInst) : Prop := inst.opcode = 0xc3 ∨ inst.opcode = 0xdb

instance (inst : EbpfInst) : Decidable (IsAtomic inst) := inferInstanceAs (Decidable (_ ∨ _))

def atomicWidth (inst : EbpfInst) : ℕ := if inst.opcode.toNat / 8 % 4 = 3 then 64 else 32

def atomicAddr (inst : EbpfInst) (s : State) : BitVec 64 := reg s inst.dst.toNat + inst.offset.signExtend 64

def atomicOld (inst : EbpfInst) (s : State) : BitVec (atomicWidth inst) :=
  BitVec.ofNat _ (s.mem.read (atomicAddr inst s) (atomicWidth inst / 8))

/-- What an atomic operation other than a compare and exchange leaves in memory, by the operation in
the high half of the immediate's byte. -/
def atomicNew {w : ℕ} (op : ℕ) (old x : BitVec w) : BitVec w :=
  match op with
  | 0x0 => old + x
  | 0x4 => old ||| x
  | 0x5 => old &&& x
  | 0xa => old ^^^ x
  | _ => x

def atomicStore (inst : EbpfInst) (s : State) (x : BitVec (atomicWidth inst)) : State :=
  { s with mem := s.mem.write (atomicAddr inst s) (atomicWidth inst / 8) x.toNat }

def atomic (inst : EbpfInst) (s : State) : State :=
  let old := atomicOld inst s
  let x := (reg s inst.src.toNat).setWidth (atomicWidth inst)
  if inst.imm = 0xf1 then
    let s' := if old = (reg s 0).setWidth (atomicWidth inst) then atomicStore inst s x else s
    s'.setLocal 0 0 (old.setWidth 64)
  else
    let s' := atomicStore inst s (atomicNew (inst.imm.toNat / 16) old x)
    if inst.imm &&& 1 = 1 then s'.setLocal inst.src.toNat 0 (old.setWidth 64) else s'

end Isa

/-- The states in which the code of an atomic instruction does what the instruction set says. -/
def AtomicOk (inst : EbpfInst) (s : State) : Prop :=
  inst.imm = 0xf1 ∨
  ((Isa.atomicAddr inst s).toNat % 32 = 0 ∧
    -- The low half of the register is replaced.
    (inst.imm &&& 1 = 1 → inst.imm ≠ 0xe1 → Isa.atomicWidth inst = 32 →
      (reg s inst.src.toNat).toNat < 2^32) ∧
    -- The register is left alone.
    (inst.imm = 0xe1 → reg s inst.src.toNat = (Isa.atomicOld inst s).setWidth 64))

/-! ## The emitted code -/

section Emitted

variable {inst : EbpfInst} {k : Linkage} {env : List Val} {s : State}

def rmwTy (is64 : Bool) : IntTy := cond is64 int64 int32

def rmwOld (is64 : Bool) (s : State) (a : BitVec 64) : BitVec (rmwTy is64).width :=
  BitVec.ofNat _ (s.mem.read a ((rmwTy is64).width / 8))

def rmwStore (is64 : Bool) (s : State) (a : BitVec 64) (x : BitVec (rmwTy is64).width) : State :=
  { s with mem := s.mem.write a ((rmwTy is64).width / 8) x.toNat }

lemma rmwOp_exec (is64 : Bool) (op : RmwOp) (align : ℕ) (a : BitVec 64) (x : BitVec (rmwTy is64).width) :
    op.exec s align a ((rmwTy is64).val x) = if a.toNat % align = 0 then
    some ((rmwTy is64).val (rmwOld is64 s a), rmwStore is64 s a (op.eval (rmwOld is64 s a) x))
    else none := by
  cases is64 <;> rfl

variable {v : JitValue} {ty : Ty} {p : JitValue} {a : BitVec 64} {x : Val}

lemma exec_createAtomicRMW (op : RmwOp) (align : ℕ) (hp : p.Holds k.host env .ptr (.ptr a))
    (hv : v.Holds k.host env ty x) : (createAtomicRMW op p v align : JitEmit JitValue).exec k.host env s =
    (op.exec s align a x).map fun r => (⟨ty, .tmp env.length⟩, env ++ [r.1], r.2) := by
  rw [createAtomicRMW, exec_emit, hv.ty_eq]
  simp [Instr.exec, hp.eval_self, hv.eval_self]

lemma exec_createAtomicCmpXchg (align : Option ℕ) {c : JitValue}
    {y : Val} (hp : p.Holds k.host env .ptr (.ptr a)) (hc : c.Holds k.host env ty x)
    (hv : v.Holds k.host env ty y) :
    (createAtomicCmpXchg p c v align : JitEmit JitValue).exec k.host env s =
    (cmpxchgExec s (align.getD ty.bytes) a x y).map fun r =>
    (⟨.i1, .tmp env.length⟩, env ++ [r.1], r.2) := by
  rw [createAtomicCmpXchg, exec_emit, hv.ty_eq]
  simp [Instr.exec, hp.eval_self, hc.eval_self, hv.eval_self]

lemma yields_atomicOperand (is64 : Bool) : Yields k.host env s (inst.emitAtomicOperand is64) (rmwTy is64).ty
    (some ((rmwTy is64).val ((reg s inst.src.toNat).setWidth _))) := by
  rw [emitAtomicOperand]
  cases is64 with
  | true =>
    change Yields _ _ _ _ .i64 (some (.i64 ((reg s inst.src.toNat).setWidth 64)))
    rw [setWidth_eq]
    exact yields_reg64 _
  | false => exact (yields_reg64 _).bind fun v _ hv => yields_cast .trunc hv (by decide)

def fetched (is64 : Bool) (r : BitVec 64) (x : BitVec (rmwTy is64).width) : BitVec 64 :=
  cond is64 (x.setWidth 64) (r >>> 32 <<< 32 ||| x.setWidth 64)

lemma leaves_storeFetched (is64 : Bool) {x : BitVec (rmwTy is64).width}
    (hv : v.Holds k.host env (rmwTy is64).ty ((rmwTy is64).val x)) (i : ℕ) :
    Leaves k.host env s (createStore v (regs i)) (some (s.setLocal i 0 (fetched is64 (reg s i) x))) := by
  cases is64 with
  | true =>
    change Leaves _ _ _ _ (some (s.setLocal i 0 (setWidth 64 x)))
    rw [show setWidth 64 x = x from setWidth_eq x]
    exact leaves_storeReg hv i
  | false => exact leaves_storeReg32 hv i

/-- The state that an atomic operation leaves if the address is aligned. -/
def rmwState (inst : EbpfInst) (op : RmwOp) (is64 is_fetch : Bool) (s : State) : State :=
  let a := reg s inst.dst.toNat + inst.offset.signExtend 64
  let old := rmwOld is64 s a
  let s' := rmwStore is64 s a (op.eval old ((reg s inst.src.toNat).setWidth _))
  if is_fetch then s'.setLocal inst.src.toNat 0 (fetched is64 (reg s inst.src.toNat) old) else s'

lemma leaves_atomicBinOp (op : RmwOp) (is64 is_fetch : Bool) :
    Leaves k.host env s (inst.emitAtomicBinOp op is64 is_fetch)
    (if (reg s inst.dst.toNat + inst.offset.signExtend 64).toNat % 32 = 0 then
    some (rmwState inst op is64 is_fetch s) else none) := by
  refine (yields_addr inst inst.dst.toNat).leaves fun p vals hp => ?_
  refine (yields_atomicOperand is64).leaves fun v vals' hv => ?_
  rw [Leaves, exec_bind, exec_createAtomicRMW op 32 (hp.mono _) hv, rmwOp_exec]
  by_cases haligned : (reg s inst.dst.toNat + inst.offset.signExtend 64).toNat % 32 = 0
  · rw [if_pos haligned, if_pos haligned, rmwState]
    change Leaves k.host (env ++ vals ++ vals' ++ [_]) _ _ _
    split_ifs
    · exact leaves_storeFetched is64 (Value.Holds.last _ _) _
    · exact leaves_pure _
  · rw [if_neg haligned, if_neg haligned]
    rfl

def cmpXchgState (inst : EbpfInst) (is64 : Bool) (s : State) : State :=
  let a := reg s inst.dst.toNat + inst.offset.signExtend 64
  let old := rmwOld is64 s a
  let s' := if old = (reg s 0).setWidth _ then
    rmwStore is64 s a ((reg s inst.src.toNat).setWidth _) else s
  s'.setLocal 0 0 (old.setWidth 64)

lemma leaves_cmpXchg (is64 : Bool) (haligned :
    (reg s inst.dst.toNat + inst.offset.signExtend 64).toNat % ((rmwTy is64).width / 8) = 0) :
    Leaves k.host env s (inst.emitCmpXchg is64) (some (cmpXchgState inst is64 s)) := by
  have hreg : ∀ env i, Yields k.host env s (createLoad (rmwTy is64).ty (regs i)) (rmwTy is64).ty
      (some ((rmwTy is64).val ((reg s i).setWidth _))) := fun env i => by
    cases is64 with
    | true =>
      change Yields _ _ _ _ .i64 (some (.i64 ((reg s i).setWidth 64)))
      rw [setWidth_eq]
      exact yields_reg64 _
    | false => exact yields_reg32 _
  have hty : (if is64 then Ty.i64 else Ty.i32) = (rmwTy is64).ty := by cases is64 <;> rfl
  generalize ha : reg s inst.dst.toNat + inst.offset.signExtend 64 = a at haligned
  have hload : s.load k.host (rmwTy is64).ty (rmwTy is64).ty.abiAlign (.ptr a) =
      some ((rmwTy is64).val (rmwOld is64 s a)) := by
    cases is64 with
    | true =>
      change a.toNat % 8 = 0 at haligned
      change (if a.toNat % 4 = 0 then _ else _) = _
      rw [if_pos (by omega)]
      rfl
    | false =>
      change a.toNat % 4 = 0 at haligned
      change (if a.toNat % 4 = 0 then _ else _) = _
      rw [if_pos haligned]
      rfl
  have hexec : ∀ x y : BitVec (rmwTy is64).width,
      cmpxchgExec s ((none : Option ℕ).getD (rmwTy is64).ty.bytes) a ((rmwTy is64).val x)
        ((rmwTy is64).val y) =
      some (.unit, if rmwOld is64 s a = x then rmwStore is64 s a y else s) := fun x y => by
    cases is64 with
    | true | false => exact if_pos haligned
  rw [emitCmpXchg]
  simp only [hty]
  refine (yields_addr inst inst.dst.toNat).leaves fun p vals hp => ?_
  rw [ha] at hp
  have hbefore : Yields k.host (env ++ vals) s (createLoad (rmwTy is64).ty p) (rmwTy is64).ty
      (some ((rmwTy is64).val (rmwOld is64 s a))) := by
    rw [← hload]
    exact yields_load hp
  refine hbefore.leaves fun old vals1 hold => (hreg _ 0).leaves fun c vals2 hc => ?_
  refine (hreg _ inst.src.toNat).leaves fun v vals3 hv => ?_
  rw [Leaves, exec_bind, exec_createAtomicCmpXchg none (((hp.mono _).mono _).mono _) (hc.mono _) hv, hexec]
  change Leaves k.host (env ++ vals ++ vals1 ++ vals2 ++ vals3 ++ [Val.unit]) _ _ _
  have hold' := ((hold.mono vals2).mono vals3).mono [Val.unit]
  generalize env ++ vals ++ vals1 ++ vals2 ++ vals3 ++ [Val.unit] = env' at hold' ⊢
  rw [cmpXchgState, ha]
  generalize (if rmwOld is64 s a = (reg s 0).setWidth _ then
    rmwStore is64 s a ((reg s inst.src.toNat).setWidth _) else s) = s'
  cases is64 with
  | true =>
    rw [show setWidth 64 (rmwOld true s a) = rmwOld true s a from setWidth_eq _]
    exact (yields_cast_self .zext hold').leaves fun w _ hw => leaves_storeReg hw 0
  | false => exact (yields_cast .zext hold' (by decide)).leaves fun w _ hw => leaves_storeReg hw 0

end Emitted

/-! ## Correctness -/

lemma eq_setLocal_iff (s : State) (i : ℕ) (x : BitVec 64) : s = s.setLocal i 0 x ↔ reg s i = x := by
  constructor
  · intro h
    have hreg := congrArg (reg · i) h
    simpa using hreg
  · rintro rfl
    ext a j <;> simp [State.setLocal, reg]

lemma fetched_eq_iff (r : BitVec 64) (x : BitVec 32) :
    r >>> 32 <<< 32 ||| x.setWidth 64 = x.setWidth 64 ↔ r.toNat < 2^32 := by
  have hx := x.isLt
  have hr := r.isLt
  have hhigh : (r >>> 32 <<< 32).toNat = (r.toNat / 2^32) <<< 32 := by
    rw [toNat_shiftLeft, toNat_ushiftRight, shiftRight_eq_div_pow, mod_eq_of_lt]
    rw [Nat.shiftLeft_eq]
    omega
  have hlow : (x.setWidth 64).toNat = x.toNat := by
    rw [toNat_setWidth]
    exact mod_eq_of_lt (by omega)
  rw [← toNat_inj, toNat_or, hhigh, hlow, ← Nat.shiftLeft_add_eq_or_of_lt hx, Nat.shiftLeft_eq]
  omega

section Correct

variable {inst : EbpfInst} {s : State}

abbrev EbpfInst.isAtomic64 (inst : EbpfInst) : Bool := inst.opcode == atomicOpcode64

lemma case_of_isAtomic (h : IsAtomic inst) : inst.case = some .atomic := by
  rw [case]
  rcases h with h | h <;> rw [h] <;> decide +kernel

lemma width_of_isAtomic (h : IsAtomic inst) : (rmwTy inst.isAtomic64).width = atomicWidth inst := by
  rw [isAtomic64, atomicWidth]
  rcases h with h | h <;> rw [h] <;> rfl

variable {op : RmwOp}

section

variable (h : Isa.IsAtomic inst)
include h

lemma atomic_eq (hne : inst.imm ≠ 0xf1)
    (hop : ∀ {w : ℕ} (old x : BitVec w), atomicNew (inst.imm.toNat / 16) old x = op.eval old x) :
    atomic inst s = if inst.imm &&& 1 = 1 then
    (rmwState inst op inst.isAtomic64 false s).setLocal inst.src.toNat 0
    ((rmwOld inst.isAtomic64 s (atomicAddr inst s)).setWidth 64)
    else rmwState inst op inst.isAtomic64 false s := by
  have hwidth := width_of_isAtomic h
  simp only [atomic, if_neg hne, hop, atomicOld, atomicStore]
  generalize atomicWidth inst = w at hwidth
  subst hwidth
  rfl

lemma atomicOld_eq : (atomicOld inst s).setWidth 64 =
    (rmwOld inst.isAtomic64 s (atomicAddr inst s)).setWidth 64 := by
  have hwidth := width_of_isAtomic h
  rw [atomicOld]
  generalize atomicWidth inst = w at hwidth
  subst hwidth
  rfl

lemma cmpXchg_eq (himm : inst.imm = 0xf1) : atomic inst s = cmpXchgState inst inst.isAtomic64 s := by
  have hwidth := width_of_isAtomic h
  have hcond : atomicOld inst s = (reg s 0).setWidth _ ↔
      rmwOld inst.isAtomic64 s (atomicAddr inst s) = (reg s 0).setWidth _ := by
    rw [atomicOld]
    generalize atomicWidth inst = w at hwidth
    subst hwidth
    rfl
  have hstore : atomicStore inst s ((reg s inst.src.toNat).setWidth _) =
      rmwStore inst.isAtomic64 s (atomicAddr inst s) ((reg s inst.src.toNat).setWidth _) := by
    rw [atomicStore]
    generalize atomicWidth inst = w at hwidth
    subst hwidth
    rfl
  simp only [atomic, if_pos himm, atomicOld_eq h, hcond, hstore]
  rfl

lemma rmwState_eq_iff (hne : inst.imm ≠ 0xf1)
    (hop : ∀ {w : ℕ} (old x : BitVec w), atomicNew (inst.imm.toNat / 16) old x = op.eval old x) :
    rmwState inst op inst.isAtomic64 inst.isFetch s = atomic inst s ↔
    (inst.imm &&& 1 = 1 → atomicWidth inst = 32 → (reg s inst.src.toNat).toNat < 2^32) := by
  rw [atomic_eq h hne hop, isFetch]
  by_cases hfetch : inst.imm &&& 1 = 1
  · have hfetch' : (inst.imm &&& 0x01 == 0x01) = true := by simpa using hfetch
    have hset : ∀ x y : BitVec 64, ((rmwState inst op inst.isAtomic64 false s).setLocal
        inst.src.toNat 0 x = (rmwState inst op inst.isAtomic64 false s).setLocal
        inst.src.toNat 0 y) ↔ x = y := fun x y => ⟨setLocal_inj, fun hxy => by rw [hxy]⟩
    rw [if_pos hfetch, hfetch']
    simp only [hfetch, true_imp_iff]
    change ((rmwState inst op inst.isAtomic64 false s).setLocal inst.src.toNat 0
      (fetched _ (reg s inst.src.toNat) (rmwOld _ s (atomicAddr inst s))) = _) ↔ _
    rw [hset, ← width_of_isAtomic h]
    cases inst.isAtomic64 with
    | true => exact iff_of_true rfl (by simp [rmwTy, int64])
    | false =>
      have hiff := fetched_eq_iff (reg s inst.src.toNat) (rmwOld false s (atomicAddr inst s))
      exact hiff.trans ⟨fun hlt _ => hlt, fun himp => himp rfl⟩
  · have hfetch' : (inst.imm &&& 0x01 == 0x01) = false := by simpa using hfetch
    rw [if_neg hfetch, hfetch']
    exact iff_of_true rfl fun h => absurd h hfetch

lemma xchgState_eq_iff (himm : inst.imm = 0xe1) :
    rmwState inst .xchg inst.isAtomic64 false s = atomic inst s ↔
    reg s inst.src.toNat = (atomicOld inst s).setWidth 64 := by
  have hop : ∀ {w : ℕ} (old x : BitVec w),
      atomicNew (inst.imm.toNat / 16) old x = RmwOp.eval .xchg old x := fun old x => by
    rw [himm]
    rfl
  rw [atomic_eq h (by rw [himm]; decide) hop, if_pos (by rw [himm]; decide), eq_setLocal_iff, atomicOld_eq h]
  rfl

end

variable {k : Linkage} {env : List Val} {e : JitEmit Unit}

lemma leaves_straight_iff {r : Option State} : Leaves k.host env s (straight e) r ↔
    Leaves k.host env s e r := by
  have hleaves : Leaves k.host env s (straight e) _ := leaves_straight rfl
  rw [Leaves] at hleaves ⊢
  rw [hleaves]
  rfl

lemma leaves_atomicBinOp_iff {is_fetch : Bool} {t : State} :
    Leaves k.host env s (inst.emitAtomicBinOp op inst.isAtomic64 is_fetch) (some t) ↔
    (atomicAddr inst s).toNat % 32 = 0 ∧ rmwState inst op inst.isAtomic64 is_fetch s = t := by
  have hleaves : Leaves k.host env s (inst.emitAtomicBinOp op inst.isAtomic64 is_fetch) _ :=
    leaves_atomicBinOp op inst.isAtomic64 is_fetch
  rw [Leaves] at hleaves ⊢
  rw [hleaves, atomicAddr]
  split_ifs with haligned
  · rw [some.injEq, and_iff_right haligned]
  · exact iff_of_false (by simp) fun h => haligned h.1

lemma leaves_emitAtomic_iff (h : IsAtomic inst) (he : inst.emitAtomic = .ok e)
    (haligned : (atomicAddr inst s).toNat % (atomicWidth inst / 8) = 0) :
    Leaves k.host env s e (some (atomic inst s)) ↔ AtomicOk inst s := by
  -- The operations other than the exchanges differ in what they compute only.
  have hrmw : ∀ {op : RmwOp}, inst.imm ≠ 0xe1 → inst.imm ≠ 0xf1 → (∀ {w : ℕ} (old x : BitVec w),
        atomicNew (inst.imm.toNat / 16) old x = op.eval old x) →
      (Leaves k.host env s (inst.emitAtomicBinOp op inst.isAtomic64 inst.isFetch)
        (some (atomic inst s)) ↔ AtomicOk inst s) := by
    intro op hne hne' hop
    rw [leaves_atomicBinOp_iff, rmwState_eq_iff h hne' hop, AtomicOk, or_iff_right hne']
    simp only [hne, ne_eq, not_false_iff, true_imp_iff, false_imp_iff, and_true]
  rw [emitAtomic] at he
  split_ifs at he with hadd hand hor hxor hxchg hcmp <;> cases he
  · rcases hadd with himm | himm <;>
      exact hrmw (by rw [himm]; decide) (by rw [himm]; decide) fun old x => by rw [himm]; rfl
  · rcases hand with himm | himm <;>
      exact hrmw (by rw [himm]; decide) (by rw [himm]; decide) fun old x => by rw [himm]; rfl
  · rcases hor with himm | himm <;>
      exact hrmw (by rw [himm]; decide) (by rw [himm]; decide) fun old x => by rw [himm]; rfl
  · rcases hxor with himm | himm <;>
      exact hrmw (by rw [himm]; decide) (by rw [himm]; decide) fun old x => by rw [himm]; rfl
  · rw [leaves_atomicBinOp_iff, xchgState_eq_iff h hxchg, AtomicOk]
    simp [hxchg]
  · rw [cmpXchg_eq h hcmp]
    refine iff_of_true (leaves_cmpXchg _ ?_) (.inl hcmp)
    rw [width_of_isAtomic h]
    exact haligned

end Correct

/-- The chunk of an atomic instruction in an accepted program, run from any state in which the
address is naturally aligned, leaves the state that the instruction set defines exactly when the
state is in `AtomicOk`. -/
theorem atomic_correct_iff {cfg : Config} {insts : List EbpfInst} {m : Module}
    (hm : generateModule cfg insts = .ok m) {l : Label} {c : Chunk Label Callee}
    (hc : c ∈ m.blocks l) {pc : ℕ} (htag : c.tag = some pc) {inst : EbpfInst}
    (hinst : insts[pc]? = some inst) (hatomic : Isa.IsAtomic inst) (k : Linkage) (s : State)
    (haligned : (Isa.atomicAddr inst s).toNat % (Isa.atomicWidth inst / 8) = 0) :
    (execCode k.host [] s c.code).map (·.2) = some (Isa.atomic inst s) ↔ AtomicOk inst s := by
  obtain ⟨blockBegin, blocks, hcompiled⟩ := exists_compiled hm
  obtain ⟨inst', e, hinst', hemit, rfl⟩ := hcompiled.emitted_of_tag hc htag
  rw [hinst, some.injEq] at hinst'
  subst hinst'
  obtain ⟨-, c, hcase, hemit⟩ := emit_eq_ok_iff.mp hemit
  rw [case_of_isAtomic hatomic, some.injEq] at hcase
  subst hcase
  obtain ⟨e', he', rfl⟩ := map_eq_ok_iff.mp hemit
  have hiff : Leaves k.host [] s e' (some (atomic inst s)) ↔ AtomicOk inst s :=
    leaves_emitAtomic_iff hatomic he' haligned
  rw [← hiff, ← leaves_straight_iff, leaves_nil_iff]
  rfl

/-- The addition of `r1` to the 64-bit number at `r0`. -/
def atomicAdd : EbpfInst := ⟨0xdb, 0, 1, 0, 0⟩

/-- The addition at an address that is a multiple of 32. -/
theorem atomic_correct_add : ∃ m c, generateModule bareConfig [atomicAdd, exitInst] = .ok m ∧
    c ∈ m.blocks (.inst 0) ∧ (execCode bareLinkage.host [] (twoRegs 0x40 5) c.code).map (·.2) =
      some (Isa.atomic atomicAdd (twoRegs 0x40 5)) := by
  have hsome : (firstChunk [atomicAdd, exitInst]).map (·.tag) = some (some 0) := rfl
  obtain ⟨m, c, hm, hmem, htag⟩ := exists_of_firstChunk hsome
  refine ⟨m, c, hm, hmem, (atomic_correct_iff hm hmem htag rfl (by decide) bareLinkage _ (by decide)).mpr ?_⟩
  exact .inr ⟨by decide, fun h => absurd h (by decide), fun h => absurd h (by decide)⟩

/-- The exchange of `r1` with the 64-bit number at `r0`. -/
def atomicXchg : EbpfInst := ⟨0xdb, 0, 1, 0, 0xe1⟩

/-- The addition of `r1` to the 32-bit number at `r0`, which goes to `r1`. -/
def atomicFetchAdd32 : EbpfInst := ⟨0xc3, 0, 1, 0, 1⟩

/-- The addition at address 8 is undefined in the emitted code. The exchange leaves `r1` alone where
it should get the old value 0, and the addition with fetch leaves the high half of `r1` alone. -/
theorem not_atomic_correct : (∃ m c, generateModule bareConfig [atomicAdd, exitInst] = .ok m ∧
    c ∈ m.blocks (.inst 0) ∧
      c.tag = some 0 ∧ execCode bareLinkage.host [] (twoRegs 8 5) c.code = none ∧
      (Isa.atomicAddr atomicAdd (twoRegs 8 5)).toNat % 8 = 0) ∧
    (∃ m c, generateModule bareConfig [atomicXchg, exitInst] = .ok m ∧ c ∈ m.blocks (.inst 0) ∧
    c.tag = some 0 ∧
      (execCode bareLinkage.host [] (twoRegs 0x40 5) c.code).map (fun r => reg r.2 1) = some 5 ∧
      reg (Isa.atomic atomicXchg (twoRegs 0x40 5)) 1 = 0) ∧
    (∃ m c, generateModule bareConfig [atomicFetchAdd32, exitInst] = .ok m ∧
    c ∈ m.blocks (.inst 0) ∧ c.tag = some 0 ∧
      (execCode bareLinkage.host [] (twoRegs 0x40 0x100000000) c.code).map (fun r => reg r.2 1) =
      some 0x100000000 ∧
      reg (Isa.atomic atomicFetchAdd32 (twoRegs 0x40 0x100000000)) 1 = 0) := by
  refine ⟨?_, ?_, ?_⟩
  · have hrun : (firstChunk [atomicAdd, exitInst]).map (fun c =>
        (c.tag, (execCode bareLinkage.host [] (twoRegs 8 5) c.code).isNone)) = some (some 0, true) := rfl
    obtain ⟨m, c, hm, hmem, hrun⟩ := exists_of_firstChunk hrun
    rw [Prod.mk.injEq, Option.isNone_iff_eq_none] at hrun
    exact ⟨m, c, hm, hmem, hrun.1, hrun.2, by decide⟩
  · have hrun : (firstChunk [atomicXchg, exitInst]).map (fun c =>
        (c.tag, (execCode bareLinkage.host [] (twoRegs 0x40 5) c.code).map
          fun r => reg r.2 1)) = some (some 0, some 5) := rfl
    obtain ⟨m, c, hm, hmem, hrun⟩ := exists_of_firstChunk hrun
    rw [Prod.mk.injEq] at hrun
    exact ⟨m, c, hm, hmem, hrun.1, hrun.2, by decide +kernel⟩
  · have hrun : (firstChunk [atomicFetchAdd32, exitInst]).map (fun c =>
        (c.tag, (execCode bareLinkage.host [] (twoRegs 0x40 0x100000000) c.code).map
          fun r => reg r.2 1)) = some (some 0, some 0x100000000) := rfl
    obtain ⟨m, c, hm, hmem, hrun⟩ := exists_of_firstChunk hrun
    rw [Prod.mk.injEq] at hrun
    exact ⟨m, c, hm, hmem, hrun.1, hrun.2, by decide +kernel⟩

end Bpftime.Jit
