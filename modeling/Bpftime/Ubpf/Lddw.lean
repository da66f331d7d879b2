import Bpftime.Ubpf.Model
import Bpftime.Jit.Registers

/-!
# Wide loads in both machines

`load_code` of the ubpf machine rewrites a wide load into one of a number, and the LLVM compiler
emits the store of that number.
-/

namespace Bpftime.Ubpf

open BitVec

open Jit (EbpfInst opCall opLddw Config Failure)

structure LddwHelpers where
  map_by_fd : BitVec 32 → BitVec 64
  map_by_idx : BitVec 32 → BitVec 64
  map_val : BitVec 64 → BitVec 64
  var_addr : BitVec 32 → BitVec 64
  code_addr : BitVec 32 → BitVec 64

namespace LddwHelpers

variable (H : LddwHelpers)

structure InUbpf {α : Type} (vm : UbpfVm α) : Prop where
  map_by_fd : vm.map_by_fd = some H.map_by_fd
  map_by_idx : vm.map_by_idx = some H.map_by_idx
  map_val : vm.map_val = some H.map_val
  var_addr : vm.var_addr = some H.var_addr
  code_addr : vm.code_addr = some H.code_addr

/-- The compiler has these functions, and looks the values of maps up itself. -/
structure InLlvm (cfg : Config) : Prop where
  map_by_fd : cfg.map_by_fd = some H.map_by_fd
  map_by_idx : cfg.map_by_idx = some H.map_by_idx
  map_val : cfg.map_val = some H.map_val
  var_addr : cfg.var_addr = some H.var_addr
  code_addr : cfg.code_addr = some H.code_addr
  patch_map_val_at_compile_time : cfg.patch_map_val_at_compile_time = true

def value (inst next : EbpfInst) : BitVec 64 :=
  match inst.src.toNat with
  | 0 => next.imm ++ inst.imm
  | 1 => H.map_by_fd inst.imm
  | 2 => H.map_val (H.map_by_fd inst.imm) + next.imm.signExtend 64
  | 3 => H.var_addr inst.imm
  | 4 => H.code_addr inst.imm
  | 5 => H.map_by_idx inst.imm
  | _ => H.map_val (H.map_by_idx inst.imm) + next.imm.signExtend 64

variable {H} {α : Type} {vm : UbpfVm α} {cfg : Config} {inst next : EbpfInst} {pc : ℕ}

lemma src_cases (hsrc : inst.src.toNat ≤ 6) :
    inst.src.toNat = 0 ∨ inst.src.toNat = 1 ∨ inst.src.toNat = 2 ∨ inst.src.toNat = 3 ∨
      inst.src.toNat = 4 ∨ inst.src.toNat = 5 ∨ inst.src.toNat = 6 := by omega

lemma InUbpf.lddwImm_eq (h : H.InUbpf vm) (hsrc : inst.src.toNat ≤ 6) :
    vm.lddwImm pc inst next = .ok (H.value inst next) := by
  unfold UbpfVm.lddwImm value
  rcases src_cases hsrc with hs | hs | hs | hs | hs | hs | hs <;>
    simp [hs, h.map_by_fd, h.map_by_idx, h.map_val, h.var_addr, h.code_addr]

lemma lddwImm_eq_error (hsrc : 6 < inst.src.toNat) :
    vm.lddwImm pc inst next = .error (.lddwSrc inst.src pc) := by
  unfold UbpfVm.lddwImm
  split <;> first | omega | rfl

lemma InLlvm.emitLddwBySrc_eq (h : H.InLlvm cfg) (hsrc : inst.src.toNat ≤ 6) :
    inst.emitLddwBySrc cfg pc next = .ok (inst.emitConst (H.value inst next)) := by
  unfold EbpfInst.emitLddwBySrc value
  rcases src_cases hsrc with hs | hs | hs | hs | hs | hs | hs <;>
    simp [hs, EbpfInst.mapRef, EbpfInst.emitMapVal, h.map_by_fd, h.map_by_idx, h.map_val,
      h.var_addr, h.code_addr, h.patch_map_val_at_compile_time]

lemma emitLddwBySrc_eq_pure (hsrc : 6 < inst.src.toNat) :
    inst.emitLddwBySrc cfg pc next = .ok (pure ()) := by
  unfold EbpfInst.emitLddwBySrc
  split <;> first | omega | rfl

end LddwHelpers

lemma emit_lddw {inst next : EbpfInst} {cfg : Config} {instBlocks localFuncRetBlks : ℕ → Bool}
    {pc : ℕ} (hop : inst.opcode = opLddw) (hslot : next.isLddwSlot = true)
    (hdst : inst.dst.toNat ≤ 10) (hsrc : inst.src.toNat ≤ 10) :
    inst.emit cfg instBlocks localFuncRetBlks pc (some next) =
    (inst.emitLddwBySrc cfg pc next).map EbpfInst.straight := by
  have hcase : inst.case = some .lddw := by
    unfold EbpfInst.case
    rw [hop]
    decide
  unfold EbpfInst.emit
  rw [if_neg (by omega), hcase]
  simp only [EbpfInst.emitCase, EbpfInst.emitLddw, hslot, if_true]

lemma append_halves (x : BitVec 64) : (x >>> 32).setWidth 32 ++ x.setWidth 32 = x := by
  ext i hi
  simp only [getElem_append, getElem_setWidth, getLsbD_ushiftRight]
  split_ifs with h
  · exact getLsbD_eq_getElem hi
  · rw [← getLsbD_eq_getElem]
    congr 1
    omega

/-! ## Agreement -/

/-- A wide load is accepted: it can be rewritten, and ubpf finds nothing wrong with the result. -/
def UbpfVm.AcceptsLddw {α : Type} (vm : UbpfVm α) (pc : ℕ) (inst next : EbpfInst) : Prop :=
  ∃ inst' next', vm.patchLddw pc inst next = .ok (inst', next') ∧
    checkLddw pc inst' (some next') = .ok () ∧ checkRegisters (pc + 1) inst' false = .ok ()

/-- The machines agree on the wide load at `pc`: one accepts it when the other does, the rewritten
program loads there what the emitted code stores, and the rewriting leaves every other instruction
but calls and wide loads as it is. -/
structure LddwAgrees {α : Type} (vm : UbpfVm α) (cfg : Config) (instBlocks localFuncRetBlks : ℕ → Bool)
    (insns : List EbpfInst) (pc : ℕ) (inst next : EbpfInst) : Prop where
  accepts : vm.AcceptsLddw pc inst next ↔
    ∃ e, inst.emit cfg instBlocks localFuncRetBlks pc (some next) = .ok e
  loads : ∀ out e, vm.patchCode insns 0 = .ok out →
    inst.emit cfg instBlocks localFuncRetBlks pc (some next) = .ok e →
      ∃ inst' next', out[pc]? = some inst' ∧ out[pc + 1]? = some next' ∧
        inst'.opcode = opLddw ∧ inst'.dst = inst.dst ∧ inst'.src = 0 ∧ next'.isLddwSlot = true ∧
          ∀ (k : Jit.Linkage) (s : Ir.State),
            Ir.Leaves k.host [] s e (some (s.setLocal inst.dst.toNat 0 (next'.imm ++ inst'.imm)))
  unchanged : ∀ out, vm.patchCode insns 0 = .ok out → ∀ i x, isStart insns i = true →
    insns[i]? = some x → x.opcode ≠ opCall → x.opcode ≠ opLddw → out[i]? = some x

variable {α : Type} {vm : UbpfVm α} {cfg : Config} {instBlocks localFuncRetBlks : ℕ → Bool}
variable {insns : List EbpfInst} {pc : ℕ} {inst next : EbpfInst} {H : LddwHelpers} {out : List EbpfInst}

lemma patchCode_unchanged (hload : vm.patchCode insns 0 = .ok out) {i : ℕ}
    {x : EbpfInst} (hstart : isStart insns i = true) (hget : insns[i]? = some x)
    (hcall : x.opcode ≠ opCall) (hlddw : x.opcode ≠ opLddw) : out[i]? = some x := by
  cases patchFrom_eq_ok hload hstart hget with
  | call _ hop => exact absurd hop hcall
  | lddw _ _ _ hop => exact absurd hop hlddw
  | same _ _ hout => exact hout

lemma LddwHelpers.InUbpf.acceptsLddw_iff (h : H.InUbpf vm) (hslot : next.isLddwSlot = true)
    (hle : inst.src.toNat ≤ 6) : vm.AcceptsLddw pc inst next ↔ inst.dst.toNat ≤ 9 := by
  have hopcode : next.opcode = 0 := by
    simp only [EbpfInst.isLddwSlot, Bool.and_eq_true, beq_iff_eq] at hslot
    exact hslot.1.1.1
  unfold UbpfVm.AcceptsLddw UbpfVm.patchLddw
  rw [h.lddwImm_eq hle]
  constructor
  · rintro ⟨inst', next', hpatch, -, hreg⟩
    cases hpatch
    by_contra hgt
    simp [checkRegisters, show 9 < inst.dst.toNat by omega] at hreg
  · intro hdst
    refine ⟨_, _, rfl, ?_, ?_⟩
    · simp [checkLddw, hopcode]
    · simp [checkRegisters, show ¬ 9 < inst.dst.toNat by omega]

lemma UbpfVm.AcceptsLddw.src_le (haccept : vm.AcceptsLddw pc inst next) : inst.src.toNat ≤ 6 := by
  obtain ⟨inst', next', hpatch, -⟩ := haccept
  by_contra hgt
  rw [UbpfVm.patchLddw, LddwHelpers.lddwImm_eq_error (by omega)] at hpatch
  cases hpatch

lemma LddwHelpers.loads_same (hubpf : H.InUbpf vm) (hstart : isStart insns pc = true)
    (hinst : insns[pc]? = some inst) (hop : inst.opcode = opLddw)
    (hnext : insns[pc + 1]? = some next) (hslot : next.isLddwSlot = true)
    (hle : inst.src.toNat ≤ 6) (hload : vm.patchCode insns 0 = .ok out) :
    ∃ inst' next', out[pc]? = some inst' ∧ out[pc + 1]? = some next' ∧ inst'.opcode = opLddw ∧
    inst'.dst = inst.dst ∧ inst'.src = 0 ∧ next'.isLddwSlot = true ∧ next'.imm ++ inst'.imm =
    H.value inst next := by
  cases patchFrom_eq_ok hload hstart hinst with
  | call _ hop' => exact absurd (hop ▸ hop') (by decide)
  | same _ hlddw => exact absurd hop hlddw
  | lddw next0 inst' next' _ hnext0 hpatch hout hout' =>
    rw [hnext] at hnext0
    cases hnext0
    rw [UbpfVm.patchLddw, hubpf.lddwImm_eq hle] at hpatch
    cases hpatch
    exact ⟨_, _, hout, hout', hop, rfl, rfl, hslot, append_halves _⟩

/-- The machines agree on a wide load exactly when it names a register that there is not, or its
source register is one of 0 to 6 and its destination is not the frame pointer. -/
theorem lddwAgrees_iff (hubpf : H.InUbpf vm) (hllvm : H.InLlvm cfg)
    (hstart : isStart insns pc = true) (hinst : insns[pc]? = some inst) (hop : inst.opcode = opLddw)
    (hnext : insns[pc + 1]? = some next) (hslot : next.isLddwSlot = true) :
    LddwAgrees vm cfg instBlocks localFuncRetBlks insns pc inst next ↔
      (10 < inst.dst.toNat ∨ 10 < inst.src.toNat) ∨ inst.src.toNat ≤ 6 ∧ inst.dst.toNat ≤ 9 := by
  by_cases hreg : 10 < inst.dst.toNat ∨ 10 < inst.src.toNat
  · -- Both refuse it.
    have hrefused : ∀ e, inst.emit cfg instBlocks localFuncRetBlks pc (some next) ≠ .ok e := fun e he => by
      rw [EbpfInst.emit, if_pos hreg] at he
      cases he
    refine iff_of_true ⟨iff_of_false (fun haccept => ?_) (not_exists.mpr hrefused),
      fun _ e _ he => absurd he (hrefused e), fun out hload i x => patchCode_unchanged hload⟩ (Or.inl hreg)
    have hle := haccept.src_le
    have hdst := (hubpf.acceptsLddw_iff hslot hle).mp haccept
    omega
  rw [or_iff_right hreg]
  obtain ⟨hdst, hsrc⟩ : inst.dst.toNat ≤ 10 ∧ inst.src.toNat ≤ 10 := by omega
  have hemit : inst.emit cfg instBlocks localFuncRetBlks pc (some next) =
      (inst.emitLddwBySrc cfg pc next).map EbpfInst.straight := emit_lddw hop hslot hdst hsrc
  by_cases hle : inst.src.toNat ≤ 6
  · rw [hllvm.emitLddwBySrc_eq hle] at hemit
    constructor
    · intro hagree
      exact ⟨hle, (hubpf.acceptsLddw_iff hslot hle).mp (hagree.accepts.mpr ⟨_, hemit⟩)⟩
    · intro hboth
      have haccept : vm.AcceptsLddw pc inst next := (hubpf.acceptsLddw_iff hslot hle).mpr hboth.2
      refine ⟨iff_of_true haccept ⟨_, hemit⟩, ?_, fun out hload i x => patchCode_unchanged hload⟩
      intro out e hload he
      rw [hemit] at he
      cases he
      obtain ⟨inst', next', hout, hout', hop', hdst', hsrc', hslot', himm⟩ :=
        LddwHelpers.loads_same hubpf hstart hinst hop hnext hslot hle hload
      refine ⟨inst', next', hout, hout', hop', hdst', hsrc', hslot', fun k s => ?_⟩
      rw [himm]
      exact (Jit.leaves_storeReg (.int64 _) _).bind fun _ _ => Ir.leaves_pure none
  · -- The compiler accepts the load, and ubpf does not.
    refine iff_of_false (fun hagree => ?_) fun hboth => hle hboth.1
    rw [LddwHelpers.emitLddwBySrc_eq_pure (by omega)] at hemit
    exact hle (hagree.accepts.mpr ⟨_, hemit⟩).src_le

/-- A wide load into register 1. -/
def wideLoad (src : BitVec 4) : EbpfInst := { opcode := opLddw, dst := 1, src, offset := 0, imm := 5 }

def wideSlot : EbpfInst := { opcode := 0, dst := 0, src := 0, offset := 0, imm := 0xfffffff8 }

def someHelpers : LddwHelpers where
  map_by_fd fd := 0x10000 + fd.setWidth 64
  map_by_idx idx := 0x20000 + idx.setWidth 64
  map_val map := map + 0x100
  var_addr id := 0x30000 + id.setWidth 64
  code_addr id := 0x40000 + id.setWidth 64

def someVm : UbpfVm Unit where
  helper_id_map := ∅
  next_helper_id := 1
  map_by_fd := some someHelpers.map_by_fd
  map_by_idx := some someHelpers.map_by_idx
  map_val := some someHelpers.map_val
  var_addr := some someHelpers.var_addr
  code_addr := some someHelpers.code_addr
  ext_funcs _ := none

def someConfig : Config where
  extFuncs := []
  mapValHelper := false
  patch_map_val_at_compile_time := true
  main_func_with_arguments := true
  map_by_fd := some someHelpers.map_by_fd
  map_by_idx := some someHelpers.map_by_idx
  map_val := some someHelpers.map_val
  var_addr := some someHelpers.var_addr
  code_addr := some someHelpers.code_addr

/-- The machines agree on the load of a place in a map's value. -/
theorem lddwAgrees_map_value : LddwAgrees someVm someConfig (fun _ => false) (fun _ => false)
    [wideLoad 2, wideSlot] 0
      (wideLoad 2) wideSlot :=
  (lddwAgrees_iff (H := someHelpers) ⟨rfl, rfl, rfl, rfl, rfl⟩ ⟨rfl, rfl, rfl, rfl, rfl, rfl⟩
    (by decide) rfl rfl rfl (by decide)).mpr (by decide)

/-- A load with source register 7 is refused by ubpf, and accepted by the compiler, which emits
nothing for it. -/
theorem wideLoad_seven_accepted_by_llvm_only :
    someVm.loadCode [wideLoad 7, wideSlot] 0 = .error (.lddwSrc 7 0) ∧
      (wideLoad 7).emit someConfig (fun _ => false) (fun _ => false) 0 (some wideSlot) =
        .ok (EbpfInst.straight (pure ())) := by
  constructor
  · rfl
  · rfl

end Bpftime.Ubpf
