import Bpftime.Ir.Access
import Bpftime.Jit.Registers

/-!
# What the code of an instruction reads and writes

The code of an instruction other than a local call writes at most one register (`EbpfInst.dests`),
and does not access the call stack.
-/

namespace Bpftime.Jit

open Ir EbpfInst Except

/-- The registers that the code of a case may write, local calls apart. -/
def EbpfInst.caseDests (inst : EbpfInst) : Case → List ℕ
  | .alu _ | .neg | .mov | .endian | .loadX _ | .lddw => [inst.dst.toNat]
  | .atomic =>
    if inst.imm = 0xf1 then [0]
    else if inst.isFetch ∧ inst.imm ≠ 0xe1 then [inst.src.toNat]
    else []
  | .call => [0]
  | _ => []

/-- The registers that the code of an instruction may write, local calls apart. -/
def EbpfInst.dests (inst : EbpfInst) : List ℕ := (inst.case.map inst.caseDests).getD []

variable {c : Case} {array : ℕ} {ib rb : ℕ → Bool}

lemma dests_eq {inst : EbpfInst} (hcase : inst.case = some c) : inst.dests = inst.caseDests c := by
  rw [dests, hcase]
  rfl

lemma eq_of_mem_caseDests {inst : EbpfInst} (h : array ∈ inst.caseDests c) :
    array = inst.dst.toNat ∨ array = inst.src.toNat ∨ array = 0 := by
  cases c <;> simp only [caseDests] at h
  case atomic => split_ifs at h <;> simp_all
  all_goals simp_all

lemma notMem_dests {inst : EbpfInst} {cfg : Config} {pc : ℕ}
    {next : Option EbpfInst} {e : JitEmit (Option (Term Label))}
    (hemit : inst.emit cfg ib rb pc next = .ok e) (harray : 10 < array) : array ∉ inst.dests := by
  obtain ⟨hregs, c, hcase, -⟩ := emit_eq_ok_iff.mp hemit
  rw [dests_eq hcase]
  intro h
  have := eq_of_mem_caseDests h
  omega

/-! ## Arithmetic -/

section Emitters

variable {inst : EbpfInst} {R W : ℕ → Prop} (hd : R inst.dst.toNat) (hs : R inst.src.toNat)
variable {u v : JitValue} {i pc : ℕ} {e : JitEmit Unit} {cfg : Config}

lemma uses_loadReg (ty : Ty) (hi : R i) :
    Uses R W Value.Plain (createLoad ty (regs i) : JitEmit JitValue) := uses_load ty hi

include hs in
lemma uses_source : Uses R W Value.Plain inst.emitLoadALUSource := by
  rw [emitLoadALUSource]
  split_ifs
  · exact uses_loadReg _ hs
  · exact uses_pure trivial
  · exact (uses_loadReg _ hs).bind fun _ hv => uses_cast _ hv _
  · exact uses_pure trivial

include hd in
lemma uses_dest (always64 : Bool) : Uses R W Value.Plain (inst.emitLoadALUDest always64) := by
  rw [emitLoadALUDest]
  split_ifs
  all_goals exact uses_loadReg _ hd

lemma uses_storeReg (hi : W i) (hv : v.Plain) :
    Uses R W (fun _ => True) (createStore v (regs i) : JitEmit Unit) := uses_store hv hi

lemma uses_storeResult (hw : W inst.dst.toNat) (hv : v.Plain) :
    Uses R W (fun _ => True) (inst.emitStoreALUResult v) := by
  rw [emitStoreALUResult]
  split_ifs
  · exact uses_storeReg hw hv
  · exact (uses_cast _ hv _).bind fun _ hv' => uses_storeReg hw hv'

lemma getInt_plain (x : ℤ) : (inst.getInt x).Plain := by
  rw [getInt]
  split_ifs <;> trivial

lemma getIntMin_plain : inst.getIntMin.Plain := by
  rw [getIntMin]
  split_ifs <;> trivial

lemma uses_sdivisor (hv : v.Plain) : Uses R W Value.Plain (inst.emitSDivisor v) := by
  rw [emitSDivisor]
  split_ifs
  · exact (uses_cast _ hv _).bind fun _ hw => uses_cast _ hw _
  · exact uses_pure hv

lemma uses_sdividend (hv : v.Plain) : Uses R W Value.Plain (inst.emitSDividend v) := by
  rw [emitSDividend]
  split_ifs
  · exact uses_cast _ hv _
  · exact uses_pure hv

lemma uses_quotient (hu : u.Plain) (hv : v.Plain) : Uses R W Value.Plain (inst.emitQuotient u v) := by
  rw [emitQuotient]
  split_ifs
  · refine (uses_sdivisor hv).bind fun t ht => ?_
    exact (uses_icmp _ hu getIntMin_plain).bind fun _ h1 =>
      (uses_icmp _ ht (getInt_plain _)).bind fun _ h2 => (uses_binOp _ h1 h2).bind fun _ h3 =>
        (uses_binOp _ hu ht).bind fun _ h4 => uses_select h3 getIntMin_plain h4
  · exact uses_binOp _ hu hv

lemma uses_remainder (hu : u.Plain) (hv : v.Plain) : Uses R W Value.Plain (inst.emitRemainder u v) := by
  rw [emitRemainder]
  split_ifs
  · exact (uses_sdividend hu).bind fun _ h1 => (uses_sdivisor hv).bind fun _ h2 => uses_binOp _ h1 h2
  · exact uses_binOp _ hu hv

lemma uses_shift (op : BinOp) (hu : u.Plain) (hv : v.Plain) :
    Uses R W Value.Plain (inst.emitShift op u v) := by
  refine (uses_binOp _ hv ?_).bind fun _ hw => uses_binOp _ hu hw
  split_ifs <;> trivial

lemma uses_aluOp (op : AluOp) (hu : u.Plain) (hv : v.Plain) :
    Uses R W Value.Plain (inst.emitAluOp op u v) := by
  cases op with
  | div =>
    exact (uses_icmp _ hv (getInt_plain _)).bind fun _ h1 => (uses_quotient hu hv).bind
      fun _ h2 => uses_select h1 (getInt_plain _) h2
  | mod =>
    exact (uses_icmp _ hv (getInt_plain _)).bind fun _ h1 => (uses_remainder hu hv).bind
      fun _ h2 => uses_select h1 hu h2
  | lsh | rsh | arsh => exact uses_shift _ hu hv
  | _ => exact uses_binOp _ hu hv

include hs in
lemma uses_mov (hw : W inst.dst.toNat) (he : inst.emitMov pc = .ok e) : Uses R W (fun _ => True) e := by
  rw [emitMov] at he
  by_cases hoff : inst.offset ≠ 0
  · rw [if_pos hoff] at he
    cases hty : inst.movsxTy with
    | none => simp [hty] at he
    | some ty =>
      simp only [hty, ok.injEq] at he
      subst he
      refine (uses_source hs).bind fun v hv => Uses.bind ?_ fun w hw' => uses_storeResult hw hw'
      exact (uses_cast _ hv _).bind fun _ h1 => (uses_cast _ h1 _).bind fun _ h2 => uses_cast _ h2 _
  · rw [if_neg hoff, ok.injEq] at he
    subst he
    exact (uses_source hs).bind fun v hv => uses_storeResult hw hv

lemma uses_bytes (hv : v.Plain) (shifts : List ℕ) :
    Uses R W (fun vs => ∀ w ∈ vs, w.Plain) (emitBytes v shifts) := by
  induction shifts with
  | nil => exact uses_pure (by simp)
  | cons shift shifts ih =>
    have hbyte : Uses R W Value.Plain (emitByte v shift) :=
      (uses_binOp _ hv (by trivial)).bind fun _ hw => uses_binOp _ hw (by trivial)
    exact hbyte.bind fun w hw => ih.bind fun ws hws => uses_pure (by simpa using ⟨hw, hws⟩)

lemma uses_merge (hv : v.Plain) {vs : List JitValue} (hvs : ∀ w ∈ vs, w.Plain) :
    Uses R W Value.Plain (emitMerge v vs) := by
  induction vs generalizing v with
  | nil => exact uses_pure hv
  | cons w vs ih =>
    have hw : w.Plain := hvs w (by simp)
    exact (uses_binOp _ hv (by trivial)).bind fun _ h1 => (uses_binOp _ h1 hw).bind fun _ h2 =>
      ih h2 fun x hx => hvs x (by simp [hx])

lemma uses_conversion (hv : v.Plain) : Uses R W Value.Plain (inst.emitConversion v) := by
  rw [emitConversion]
  split_ifs
  · refine (uses_bytes hv _).bind fun bytes hbytes => ?_
    cases bytes with
    | nil => exact uses_pure hv
    | cons w ws => exact uses_merge (hbytes w (by simp)) fun x hx => hbytes x (by simp [hx])
  · exact uses_cast _ hv _
  · exact uses_cast _ hv _
  · exact uses_pure hv

include hd in
lemma uses_endian (hw : W inst.dst.toNat) (he : inst.emitEndian = .ok e) : Uses R W (fun _ => True) e := by
  rw [emitEndian, emitALUEndianConversion] at he
  split_ifs at he
  · cases he
  · cases he
    exact (uses_dest hd true).bind fun v hv => (uses_conversion hv).bind fun w hw' => uses_storeResult hw hw'

lemma uses_addr (hi : R i) : Uses R W Value.Plain (inst.emitAddr i) :=
  (uses_loadReg _ hi).bind fun _ hv => uses_gep _ hv (by trivial)

lemma within_of_plain {A : ℕ → Prop} (hv : v.Plain) : v.operand.Within A := by
  obtain ⟨ty, o⟩ := v
  cases o with
  | const x => cases x with
    | cell array j => exact hv.elim
    | _ => trivial
  | _ => trivial

include hd hs in
lemma uses_emitStore (ty : Ty) : Uses R W (fun _ => True) (inst.emitStore ty) := by
  have hsrc : Uses R W Value.Plain inst.emitStoreLoadingSrc := by
    rw [emitStoreLoadingSrc]
    split_ifs
    · exact uses_loadReg _ hs
    · exact uses_pure trivial
  exact hsrc.bind fun _ h1 => (uses_cast _ h1 _).bind fun _ h2 => (uses_addr hd).bind fun _ h3 =>
    uses_store h2 (within_of_plain h3)

include hs in
lemma uses_loadX (hw : W inst.dst.toNat) (ty : Ty) : Uses R W (fun _ => True) (inst.emitLoadX ty) :=
  (uses_addr hs).bind fun _ h1 => (uses_load _ (within_of_plain h1)).bind fun _ h2 =>
    (uses_cast _ h2 _).bind fun _ h3 => uses_storeReg hw h3

lemma uses_mapVal (hw : W inst.dst.toNat) {mapPtr : BitVec 64}
    {imm : BitVec 32} (he : inst.emitMapVal cfg pc mapPtr imm = .ok e) : Uses R W (fun _ => True) e := by
  rw [emitMapVal] at he
  split_ifs at he
  · cases hval : cfg.map_val with
    | none => simp [hval] at he
    | some map_val =>
      simp only [hval, ok.injEq] at he
      subst he
      exact uses_storeReg hw trivial
  · cases he
    exact (uses_call _ (by simp [getInt64, Operand.Within])).bind fun _ h1 =>
      (uses_binOp _ h1 (by trivial)).bind fun _ h2 => uses_storeReg hw h2

lemma uses_lddw (hw : W inst.dst.toNat) {next : Option EbpfInst}
    (he : inst.emitLddw cfg pc next = .ok e) : Uses R W (fun _ => True) e := by
  have hconst : ∀ x, Uses R W (fun _ => True) (inst.emitConst x) := fun x => uses_storeReg hw trivial
  cases next with
  | none => cases he
  | some next =>
    rw [emitLddw] at he
    split_ifs at he
    rw [emitLddwBySrc] at he
    split at he
    · cases he; exact hconst _
    · cases he; exact hconst _
    · exact uses_mapVal hw he
    · split at he
      · cases he
      · cases he; exact hconst _
    · split at he
      · cases he
      · cases he; exact hconst _
    · cases he; exact hconst _
    · exact uses_mapVal hw he
    · cases he; exact uses_pure trivial

include hd hs in
lemma uses_atomicBinOp (op : RmwOp) (is64 : Bool) {is_fetch : Bool}
    (hw : is_fetch = true → W inst.src.toNat) :
    Uses R W (fun _ => True) (inst.emitAtomicBinOp op is64 is_fetch) := by
  have hoperand : Uses R W Value.Plain (inst.emitAtomicOperand is64) := by
    rw [emitAtomicOperand]
    split_ifs
    · exact uses_loadReg _ hs
    · exact (uses_loadReg _ hs).bind fun _ hv => uses_cast _ hv _
  refine (uses_addr hd).bind fun _ h1 => hoperand.bind fun _ h2 =>
    (uses_atomicRMW _ h1 h2 _).bind fun v hv => ?_
  split_ifs with hfetch
  · exact uses_storeReg (hw hfetch) hv
  · exact uses_pure trivial

include hd hs in
lemma uses_cmpXchg (hr : R 0) (hw : W 0) (is64 : Bool) : Uses R W (fun _ => True) (inst.emitCmpXchg is64) :=
  (uses_addr hd).bind fun _ h1 => (uses_load _ (within_of_plain h1)).bind fun _ h2 =>
    (uses_loadReg _ hr).bind fun _ h3 => (uses_loadReg _ hs).bind fun _ h4 =>
      (uses_atomicCmpXchg h1 h3 h4 _).bind fun _ _ => (uses_cast _ h2 _).bind fun _ h5 => uses_storeReg hw h5

include hd hs in
lemma uses_atomic (hr : R 0) (hcase : inst.case = some .atomic)
    (he : inst.emitAtomic = .ok e) : Uses R (· ∈ inst.dests) (fun _ => True) e := by
  rw [dests_eq hcase, caseDests]
  -- An operation other than the exchanges writes its source register if it fetches.
  have hfetch : inst.imm ≠ 0xe1 → inst.imm ≠ 0xf1 → inst.isFetch = true → inst.src.toNat ∈
      (if inst.imm = 0xf1 then [0] else if inst.isFetch = true ∧ inst.imm ≠ 0xe1 then
        [inst.src.toNat] else []) := by
    intro he1 hf1 hfetch
    rw [if_neg hf1, if_pos ⟨hfetch, he1⟩]
    simp
  rw [emitAtomic] at he
  split_ifs at he with hadd hand hor hxor hxchg hcmp
  · cases he
    exact uses_atomicBinOp hd hs _ _ (hfetch (by rcases hadd with h | h <;> rw [h] <;> decide)
      (by rcases hadd with h | h <;> rw [h] <;> decide))
  · cases he
    exact uses_atomicBinOp hd hs _ _ (hfetch (by rcases hand with h | h <;> rw [h] <;> decide)
      (by rcases hand with h | h <;> rw [h] <;> decide))
  · cases he
    exact uses_atomicBinOp hd hs _ _ (hfetch (by rcases hor with h | h <;> rw [h] <;> decide)
      (by rcases hor with h | h <;> rw [h] <;> decide))
  · cases he
    exact uses_atomicBinOp hd hs _ _ (hfetch (by rcases hxor with h | h <;> rw [h] <;> decide)
      (by rcases hxor with h | h <;> rw [h] <;> decide))
  · cases he
    exact uses_atomicBinOp hd hs _ _ (by simp)
  · cases he
    exact uses_cmpXchg hd hs hr (by rw [if_pos hcmp]; simp) _

include hd hs in
lemma uses_jmpOperands {f : JitValue → JitValue → JitEmit (Option (Term Label))}
    (hf : ∀ src dst, src.Plain → dst.Plain → Uses R W (fun _ => True) (f src dst)) :
    Uses R W (fun _ => True) (do
      let src ← inst.emitJmpLoadSrc
      let dst ← inst.emitJmpLoadDst
      f src dst) := by
  have hsrc : Uses R W Value.Plain inst.emitJmpLoadSrc := by
    rw [emitJmpLoadSrc]
    split_ifs
    · exact uses_loadReg _ hs
    · exact uses_pure trivial
    · exact uses_loadReg _ hs
    · exact uses_pure trivial
  have hdst : Uses R W Value.Plain inst.emitJmpLoadDst := by
    rw [emitJmpLoadDst]
    split_ifs
    all_goals exact uses_loadReg _ hd
  exact hsrc.bind fun src h1 => hdst.bind fun dst h2 => hf src dst h1 h2

lemma jmpZero_plain : inst.jmpZero.Plain := by
  rw [jmpZero]
  split_ifs <;> trivial

lemma uses_extFuncCall (hr : ∀ i, 1 ≤ i → i ≤ 5 → R i) (hw : W 0)
    {e : JitEmit (Option (Term Label))} (he : inst.emitExtFuncCall cfg = .ok e) :
    Uses R W (fun _ => True) e := by
  rw [emitExtFuncCall] at he
  by_cases hext : inst.imm ∈ cfg.extFuncs
  swap
  · rw [if_neg hext] at he
    cases he
  rw [if_pos hext, ok.injEq] at he
  subst he
  have hload : ∀ i, 1 ≤ i → i ≤ 5 →
      Uses R W Value.Plain (createLoad .i64 (regs i) : JitEmit JitValue) := fun i h1 h5 =>
      uses_loadReg _ (hr i h1 h5)
  refine (hload 1 (by omega) (by omega)).bind fun _ h1 => (hload 2 (by omega) (by omega)).bind
    fun _ h2 => (hload 3 (by omega) (by omega)).bind fun _ h3 => (hload 4 (by omega)
    (by omega)).bind fun _ h4 => (hload 5 (by omega) (by omega)).bind fun _ h5 => ?_
  refine (uses_call _ ?_).bind fun v hv => (uses_storeReg hw hv).bind fun _ _ => uses_pure trivial
  simpa using ⟨h1, h2, h3, h4, h5⟩

lemma uses_exit (hr : R 12) : Uses R W (fun _ => True) emitExit :=
  (uses_loadReg _ hr).bind fun _ h1 => (uses_icmp _ h1 (by trivial)).bind fun _ _ => uses_pure trivial

lemma uses_straight (he : Uses R W (fun _ => True) e) :
    Uses R W (fun _ => True) (straight e) := he.bind fun _ _ => uses_pure trivial

end Emitters

def EbpfInst.isLocalCall (inst : EbpfInst) : Bool := inst.case = some .call ∧ inst.src = 1

variable {inst : EbpfInst}

lemma isLocalCall_iff : inst.isLocalCall = true ↔ inst.case = some .call ∧ inst.src = 1 := by
  simp [isLocalCall]

lemma uses_of_emit {cfg : Config} {pc : ℕ} {next : Option EbpfInst}
    {e : JitEmit (Option (Term Label))} (hemit : inst.emit cfg ib rb pc next = .ok e)
    (hlocal : inst.isLocalCall = false) : Uses (· ≠ 11) (· ∈ inst.dests) (fun _ => True) e := by
  obtain ⟨⟨hdst, hsrc⟩, c, hcase, hemit⟩ := emit_eq_ok_iff.mp hemit
  have hd : inst.dst.toNat ≠ 11 := by omega
  have hs : inst.src.toNat ≠ 11 := by omega
  have hw : inst.caseDests c = [inst.dst.toNat] → inst.dst.toNat ∈ inst.dests := by
    intro h
    simp [dests_eq hcase, h]
  cases c with
  | alu op =>
    cases hemit
    exact uses_straight ((uses_dest hd false).bind fun _ h1 => (uses_source hs).bind fun _ h2 =>
      (uses_aluOp op h1 h2).bind fun _ h3 => uses_storeResult (hw rfl) h3)
  | neg =>
    cases hemit
    exact uses_straight ((uses_dest hd false).bind fun _ h1 =>
      (uses_binOp _ (getInt_plain _) h1).bind fun _ h2 => uses_storeResult (hw rfl) h2)
  | mov =>
    obtain ⟨e', he', rfl⟩ := map_eq_ok_iff.mp hemit
    exact uses_straight (uses_mov hs (hw rfl) he')
  | endian =>
    obtain ⟨e', he', rfl⟩ := map_eq_ok_iff.mp hemit
    exact uses_straight (uses_endian hd (hw rfl) he')
  | store ty =>
    cases hemit
    exact uses_straight (uses_emitStore hd hs ty)
  | loadX ty =>
    cases hemit
    exact uses_straight (uses_loadX hs (hw rfl) ty)
  | lddw =>
    obtain ⟨e', he', rfl⟩ := map_eq_ok_iff.mp hemit
    exact uses_straight (uses_lddw (hw rfl) he')
  | ja | jaImm =>
    obtain ⟨l, -, he⟩ := bind_eq_ok_iff.mp hemit
    cases he
    exact uses_pure trivial
  | call =>
    have hsrc : inst.src ≠ 1 := by simpa [isLocalCall, hcase] using hlocal
    rw [emitCase, if_neg hsrc] at hemit
    exact uses_extFuncCall (fun i _ _ => by omega) (by simp [dests_eq hcase, caseDests]) hemit
  | exit =>
    cases hemit
    exact uses_exit (by norm_num)
  | jcc pred =>
    obtain ⟨⟨l, l'⟩, -, he⟩ := bind_eq_ok_iff.mp hemit
    cases he
    exact uses_jmpOperands hd hs fun _ _ h1 h2 => (uses_icmp _ h2 h1).bind fun _ _ => uses_pure trivial
  | jset =>
    obtain ⟨⟨l, l'⟩, -, he⟩ := bind_eq_ok_iff.mp hemit
    cases he
    exact uses_jmpOperands hd hs fun _ _ h1 h2 => (uses_binOp _ h2 h1).bind fun _ h3 =>
      (uses_icmp _ h3 jmpZero_plain).bind fun _ _ => uses_pure trivial
  | atomic =>
    obtain ⟨e', he', rfl⟩ := map_eq_ok_iff.mp hemit
    exact uses_straight (uses_atomic hd hs (by norm_num) hcase he')

end Bpftime.Jit
