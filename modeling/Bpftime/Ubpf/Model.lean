import Bpftime.Jit.Inst
import Mathlib.Data.List.AList

/-!
# The ubpf virtual machine

`bpftime_ubpf_vm` of `vm/compat/ubpf-vm/compat_ubpf.cpp`.
-/

namespace Bpftime.Ubpf

open List

open Jit (EbpfInst opCall opLddw aluOpcodes jmpOpcodes)

/-- `MAX_EXT_FUNCS` -/
def maxExtFuncs : ℕ := 64
/-- `UBPF_MAX_INSTS` -/
def ubpfMaxInsts : ℕ := 65536

/-- A `bpftime_ubpf_vm`, with functions of type `α`. -/
structure UbpfVm (α : Type) where
  /-- bpftime's number of a helper, and ubpf's. -/
  helper_id_map : AList fun _ : BitVec 64 => BitVec 64
  next_helper_id : BitVec 64
  map_by_fd : Option (BitVec 32 → BitVec 64)
  map_by_idx : Option (BitVec 32 → BitVec 64)
  map_val : Option (BitVec 64 → BitVec 64)
  var_addr : Option (BitVec 32 → BitVec 64)
  code_addr : Option (BitVec 32 → BitVec 64)
  /-- The slots of the machine `ubpf_vm`, of which some are null. -/
  ext_funcs : Fin maxExtFuncs → Option α

/-- The errors of `ubpf_load`, with the position of the instruction. -/
inductive UbpfError where
  | tooManyInstructions
  | endianImmediate (pc : ℕ)
  | lddwSource (pc : ℕ)
  | lddwIncomplete (pc : ℕ)
  | infiniteLoop (pc : ℕ)
  | jumpOutOfBounds (pc : ℕ)
  | jumpToMiddle (pc : ℕ)
  | callImmediate (pc : ℕ)
  | callNonexistent (imm : BitVec 32) (pc : ℕ)
  | callLocal (pc : ℕ) (target : ℤ)
  | callBtf (pc : ℕ)
  | callType (pc : ℕ)
  | unknownOpcode (opcode : BitVec 8) (pc : ℕ)
  | sourceRegister (pc : ℕ)
  | destinationRegister (pc : ℕ)
deriving DecidableEq

def UbpfError.message : UbpfError → String
  | .tooManyInstructions => "too many instructions (max " ++ toString ubpfMaxInsts ++ ")"
  | .endianImmediate pc => "invalid endian immediate at PC " ++ toString pc
  | .lddwSource pc => "invalid source register for LDDW at PC " ++ toString pc
  | .lddwIncomplete pc => "incomplete lddw at PC " ++ toString pc
  | .infiniteLoop pc => "infinite loop at PC " ++ toString pc
  | .jumpOutOfBounds pc => "jump out of bounds at PC " ++ toString pc
  | .jumpToMiddle pc => "jump to middle of lddw at PC " ++ toString pc
  | .callImmediate pc => "invalid call immediate at PC " ++ toString pc
  | .callNonexistent imm pc => "call to nonexistent function " ++ toString imm.toNat ++ " at PC " ++ toString pc
  | .callLocal pc target =>
    "call to local function (at PC " ++ toString pc ++ ") is out of bounds (target: " ++ toString target ++ ")"
  | .callBtf pc => "call to external function by BTF ID (at PC " ++ toString pc ++ ") is not supported"
  | .callType pc => "call (at PC " ++ toString pc ++ ") contains invalid type value"
  | .unknownOpcode opcode pc => "unknown opcode 0x" ++ opcode.toHex ++ " at PC " ++ toString pc
  | .sourceRegister pc => "invalid source register at PC " ++ toString pc
  | .destinationRegister pc => "invalid destination register at PC " ++ toString pc

/-- The errors of `load_code`. -/
inductive LoadError where
  | codeLength
  | callImmediate (pc : ℕ)
  | callNonexistent (imm : BitVec 32) (pc : ℕ)
  | lddwLast (pc : ℕ)
  | lddwHelper (helpers : String) (pc : ℕ)
  | lddwSrc (src : BitVec 4) (pc : ℕ)
  | ubpf (e : UbpfError)
deriving DecidableEq

/-- What `get_error_message` returns behind an error. -/
def LoadError.message : LoadError → String
  | .codeLength => "Length of code must be a multiple of 8"
  | .callImmediate pc => "invalid call immediate at PC " ++ toString pc
  | .callNonexistent imm pc => "call to nonexistent function " ++ toString imm.toInt ++ " at PC " ++ toString pc
  | .lddwLast pc => "Unable to patch lddw instructions at " ++ toString pc ++ ", it's the last instruction"
  | .lddwHelper helpers pc => "Unable to patch lddw instruction at " ++ toString pc ++ ", " ++ helpers ++ " not defined"
  | .lddwSrc src pc =>
    "Unable to patch lddw instruction at " ++ toString pc ++ ", unsupported src_reg " ++ toString src.toNat
  | .ubpf e => e.message

/-- What `load_code` returns for an error: -1, or `-EINVAL`. -/
def LoadError.code : LoadError → ℤ
  | .codeLength => -1
  | .ubpf _ => -1
  | _ => -22

namespace UbpfVm

variable {α : Type} (vm : UbpfVm α)

/-- `ubpf_register` -/
def ubpfRegister (idx : BitVec 32) (fn : Option α) : ℤ × UbpfVm α :=
  if h : idx.toNat < maxExtFuncs then
    (0, { vm with ext_funcs := Function.update vm.ext_funcs ⟨idx.toNat, h⟩ fn })
  else (-1, vm)

/-- `register_external_function`. -/
def registerExternalFunction (index : BitVec 64) (fn : Option α) : ℤ × UbpfVm α :=
  let next_id := vm.next_helper_id
  { vm with
    next_helper_id := next_id + 1
    helper_id_map := vm.helper_id_map.insert index next_id }.ubpfRegister (next_id.setWidth 32) fn

def patchCall (pc : ℕ) (inst : EbpfInst) : Except LoadError EbpfInst :=
  match vm.helper_id_map.lookup (inst.imm.signExtend 64) with
  | some id => .ok { inst with imm := id.setWidth 32 }
  | none =>
    if 64 ≤ inst.imm.toInt then .error (.callImmediate pc)
    else .error (.callNonexistent inst.imm pc)

def lddwImm (pc : ℕ) (inst next : EbpfInst) : Except LoadError (BitVec 64) :=
  match inst.src.toNat with
  | 0 => .ok (next.imm ++ inst.imm)
  | 1 =>
    match vm.map_by_fd with
    | none => .error (.lddwHelper "map_by_fd" pc)
    | some map_by_fd => .ok (map_by_fd inst.imm)
  | 2 =>
    match vm.map_by_fd, vm.map_val with
    | some map_by_fd, some map_val => .ok (map_val (map_by_fd inst.imm) + next.imm.signExtend 64)
    | _, _ => .error (.lddwHelper "map_by_fd or map_val" pc)
  | 3 =>
    match vm.var_addr with
    | none => .error (.lddwHelper "var_addr" pc)
    | some var_addr => .ok (var_addr inst.imm)
  | 4 =>
    match vm.code_addr with
    | none => .error (.lddwHelper "code_addr" pc)
    | some code_addr => .ok (code_addr inst.imm)
  | 5 =>
    match vm.map_by_idx with
    | none => .error (.lddwHelper "map_by_idx" pc)
    | some map_by_idx => .ok (map_by_idx inst.imm)
  | 6 =>
    match vm.map_by_idx, vm.map_val with
    | some map_by_idx, some map_val => .ok (map_val (map_by_idx inst.imm) + next.imm.signExtend 64)
    | _, _ => .error (.lddwHelper "map_by_idx or map_val" pc)
  | _ => .error (.lddwSrc inst.src pc)

def loadNumber (inst next : EbpfInst) (imm : BitVec 64) : EbpfInst × EbpfInst :=
  ({ inst with imm := imm.setWidth 32, src := 0 }, { next with imm := (imm >>> 32).setWidth 32 })

def patchLddw (pc : ℕ) (inst next : EbpfInst) : Except LoadError (EbpfInst × EbpfInst) :=
  (vm.lddwImm pc inst next).map (loadNumber inst next)

/-- The loop of `load_code` over the instructions from `pc` on. -/
def patchFrom : ℕ → List EbpfInst → Except LoadError (List EbpfInst)
  | _, [] => .ok []
  | pc, [inst] =>
    if inst.opcode = opCall then (vm.patchCall pc inst).map fun inst' => [inst']
    else if inst.opcode = opLddw then .error (.lddwLast pc)
    else .ok [inst]
  | pc, inst :: next :: rest =>
    if inst.opcode = opCall then do
      let inst' ← vm.patchCall pc inst
      let rest' ← patchFrom (pc + 1) (next :: rest)
      return inst' :: rest'
    else if inst.opcode = opLddw then do
      let (inst', next') ← vm.patchLddw pc inst next
      let rest' ← patchFrom (pc + 2) rest
      return inst' :: next' :: rest'
    else do
      let rest' ← patchFrom (pc + 1) (next :: rest)
      return inst :: rest'

/-- `load_code` up to the call of `ubpf_load`: the program that it is given. -/
def patchCode (insns : List EbpfInst) (trailing : ℕ) : Except LoadError (List EbpfInst) :=
  if trailing % 8 ≠ 0 then .error .codeLength else vm.patchFrom 0 insns

end UbpfVm

/-- The groups of cases in the switch of `validate`. -/
inductive Kind where
  | plain
  | endian
  | store
  | lddw
  | jump
  | call
deriving DecidableEq

def kinds : List (Kind × List (BitVec 8)) :=
  [(.plain, [0x00, 0x10, 0x20, 0x30, 0x40, 0x50, 0x60, 0x70, 0x90, 0xa0, 0xb0, 0xc0].flatMap aluOpcodes),
    (.plain, [0x84, 0x87]), (.endian, [0xd4, 0xdc]), (.plain, [0x61, 0x69, 0x71, 0x79]),
    (.store, [0x62, 0x6a, 0x72, 0x7a, 0x63, 0x6b, 0x73, 0x7b]), (.lddw, [opLddw]), (.jump, [0x05]),
    (.jump, [0x10, 0x20, 0x30, 0x40, 0x50, 0x60, 0x70, 0xa0, 0xb0, 0xc0, 0xd0].flatMap jmpOpcodes),
    (.call, [opCall]), (.plain, [0x95])]

def kindOf (opcode : BitVec 8) : Option Kind := (kinds.find? fun e => opcode ∈ e.2).map (·.1)

def checkEndian (i : ℕ) (inst : EbpfInst) : Except UbpfError Unit :=
  if inst.imm ≠ 16 ∧ inst.imm ≠ 32 ∧ inst.imm ≠ 64 then .error (.endianImmediate i) else .ok ()

def checkLddw (i : ℕ) (inst : EbpfInst) (next : Option EbpfInst) : Except UbpfError Unit :=
  if inst.src ≠ 0 then .error (.lddwSource i)
  else
    match next with
    | none => .error (.lddwIncomplete i)
    | some next => if next.opcode ≠ 0 then .error (.lddwIncomplete i) else .ok ()

def checkJump (insts : List EbpfInst) (i : ℕ) (inst : EbpfInst) : Except UbpfError Unit :=
  if inst.offset = -1 then .error (.infiniteLoop i)
  else
    let new_pc : ℤ := i + 1 + inst.offset.toInt
    if new_pc < 0 then .error (.jumpOutOfBounds i)
    else
      match insts[new_pc.toNat]? with
      | none => .error (.jumpOutOfBounds i)
      | some target => if target.opcode = 0 then .error (.jumpToMiddle i) else .ok ()

def checkRegisters (i : ℕ) (inst : EbpfInst) (store : Bool) : Except UbpfError Unit :=
  if 10 < inst.src.toNat then .error (.sourceRegister i)
  else if 9 < inst.dst.toNat ∧ ¬ (store ∧ inst.dst.toNat = 10) then .error (.destinationRegister i)
  else .ok ()

namespace UbpfVm

variable {α : Type} (vm : UbpfVm α)

/-- The function in a slot, if the slot is one of the table and not null. -/
def slot (idx : BitVec 32) : Option α := if h :
    idx.toNat < maxExtFuncs then vm.ext_funcs ⟨idx.toNat, h⟩ else none

/-- A call: of a function of the table, or of a function of the program. -/
def checkCall (num_insts i : ℕ) (inst : EbpfInst) : Except UbpfError Unit :=
  match inst.src.toNat with
  | 0 =>
    if inst.imm.toInt < 0 ∨ maxExtFuncs ≤ inst.imm.toInt then .error (.callImmediate i)
    else if vm.slot inst.imm = none then .error (.callNonexistent inst.imm i)
    else .ok ()
  | 1 =>
    let call_target : ℤ := i + (inst.imm.toInt + 1)
    if call_target < 0 ∨ num_insts < call_target then .error (.callLocal i call_target) else .ok ()
  | 2 => .error (.callBtf i)
  | _ => .error (.callType i)

/-- One turn of the loop of `validate`. A wide load has moved `i` on when its registers are
checked. -/
def checkInst (insts : List EbpfInst) (i : ℕ) (inst : EbpfInst) : Except UbpfError Unit := do
  match kindOf inst.opcode with
  | none => throw (.unknownOpcode inst.opcode i)
  | some .plain => pure ()
  | some .endian => checkEndian i inst
  | some .store => pure ()
  | some .lddw => checkLddw i inst insts[i + 1]?
  | some .jump => checkJump insts i inst
  | some .call => vm.checkCall insts.length i inst
  checkRegisters (if kindOf inst.opcode = some .lddw then i + 1 else i) inst (kindOf inst.opcode = some .store)

/-- The loop of `validate` over the instructions from `i` on. -/
def validateFrom (insts : List EbpfInst) : ℕ → List EbpfInst → Except UbpfError Unit
  | _, [] => .ok ()
  | i, [inst] => vm.checkInst insts i inst
  | i, inst :: next :: rest => do
    vm.checkInst insts i inst
    if inst.opcode = opLddw then validateFrom insts (i + 2) rest
    else validateFrom insts (i + 1) (next :: rest)

/-- `ubpf_load` on a machine with no code: the instructions that it keeps. -/
def ubpfLoad (insns : List EbpfInst) : Except UbpfError (List EbpfInst) :=
  let insts := insns.take (insns.length * 8 % 2^32 / 8)
  if ubpfMaxInsts ≤ insts.length then .error .tooManyInstructions
  else (vm.validateFrom insts 0 insts).map fun _ => insts

/-- `load_code`: the program that the machine then has. -/
def loadCode (insns : List EbpfInst) (trailing : ℕ) : Except LoadError (List EbpfInst) := do
  let out ← vm.patchCode insns trailing
  (vm.ubpfLoad out).mapError .ubpf

end UbpfVm

/-! ## Where instructions start -/

/-- An instruction starts at a position: it is not the second half of a wide load. -/
def isStart : List EbpfInst → ℕ → Bool
  | [], _ => false
  | _ :: _, 0 => true
  | [_], _ + 1 => false
  | inst :: next :: rest, k + 1 =>
    if inst.opcode = opLddw then
      match k with
      | 0 => false
      | k + 1 => isStart rest k
    else isStart (next :: rest) k

variable {inst inst' : EbpfInst} {insns out : List EbpfInst} {k : ℕ}

lemma isStart_succ {next : EbpfInst} {rest : List EbpfInst} (h : inst.opcode ≠ opLddw) (k : ℕ) :
    isStart (inst :: next :: rest) (k + 1) = isStart (next :: rest) k := by
  cases k <;> simp [isStart, h]

lemma isStart_cons_congr {next : EbpfInst} {rest : List EbpfInst}
    (h : inst.opcode ≠ opLddw) (h' : inst'.opcode ≠ opLddw)
    (hsame : ∀ k, isStart insns k = isStart (next :: rest) k) (k : ℕ) :
    isStart (inst' :: insns) k = isStart (inst :: next :: rest) k := by
  cases k with
  | zero => rfl
  | succ k =>
    cases insns with
    | nil => exact absurd (hsame 0) (by simp [isStart])
    | cons next' rest' => rw [isStart_succ h', isStart_succ h, hsame]

lemma isStart_take {n : ℕ} (h : k < n) : isStart (insns.take n) k = isStart insns k := by
  induction insns, k using isStart.induct generalizing n with
  | case1 k => simp
  | case2 _ _ | case3 _ _ =>
    obtain ⟨n, rfl⟩ := Nat.exists_eq_add_of_lt h
    simp [isStart]
  | case4 inst next rest hlddw =>
    match n with
    | n + 2 => simp [isStart, hlddw]
  | case5 inst next rest hlddw k ih =>
    match n with
    | n + 2 =>
      rw [take_succ_cons, take_succ_cons, isStart, isStart, if_pos hlddw, if_pos hlddw]
      exact ih (by omega)
  | case6 inst next rest k hlddw ih =>
    match n with
    | n + 2 =>
      rw [take_succ_cons, take_succ_cons, isStart_succ hlddw, isStart_succ hlddw,
        ← take_succ_cons]
      exact ih (by omega)

variable {γ ε β : Type} {x : Except ε β} {c : γ}

lemma bind_eq_ok {f : β → Except ε γ} : (x >>= f) = .ok c ↔ ∃ b, x = .ok b ∧ f b = .ok c := by
  cases x with
  | error _ | ok _ => simp [Bind.bind, Except.bind]

lemma map_eq_ok {f : β → γ} : x.map f = .ok c ↔ ∃ b, x = .ok b ∧ f b = c := by
  cases x with
  | error _ | ok _ => simp [Except.map]

variable {α : Type} {vm : UbpfVm α} {pc : ℕ}

lemma opcode_patchCall (h : vm.patchCall pc inst = .ok inst') : inst'.opcode = inst.opcode := by
  unfold UbpfVm.patchCall at h
  split at h
  · cases h
    rfl
  · split_ifs at h

lemma opcode_patchLddw {next : EbpfInst} {p : EbpfInst × EbpfInst}
    (h : vm.patchLddw pc inst next = .ok p) : p.1.opcode = inst.opcode := by
  unfold UbpfVm.patchLddw at h
  obtain ⟨imm, -, rfl⟩ := map_eq_ok.mp h
  rfl

/-- The rewriting of the instruction at a start. -/
inductive PatchedAt (vm : UbpfVm α) (pc : ℕ) (insns out : List EbpfInst) (k : ℕ) (inst : EbpfInst) : Prop
  | call (inst' : EbpfInst) (hop : inst.opcode = opCall) (hpatch : vm.patchCall (pc + k) inst = .ok inst')
      (hout : out[k]? = some inst')
  | lddw (next inst' next' : EbpfInst) (hop : inst.opcode = opLddw) (hnext : insns[k + 1]? = some next)
      (hpatch : vm.patchLddw (pc + k) inst next = .ok (inst', next')) (hout : out[k]? = some inst')
      (hout' : out[k + 1]? = some next')
  | same (hcall : inst.opcode ≠ opCall) (hlddw : inst.opcode ≠ opLddw) (hout : out[k]? = some inst)

lemma PatchedAt.cons {x y : EbpfInst}
    (h : PatchedAt vm (pc + 1) insns out k inst) : PatchedAt vm pc (x :: insns) (y :: out) (k + 1) inst := by
  have hpc : pc + (k + 1) = pc + 1 + k := by omega
  cases h with
  | call inst' hop hpatch hout => exact .call inst' hop (hpc ▸ hpatch) hout
  | lddw next inst' next' hop hnext hpatch hout hout' =>
    exact .lddw next inst' next' hop hnext (hpc ▸ hpatch) hout hout'
  | same hcall hlddw hout => exact .same hcall hlddw hout

lemma patchFrom_eq_ok (h : vm.patchFrom pc insns = .ok out) (hstart : isStart insns k = true)
    (hget : insns[k]? = some inst) : PatchedAt vm pc insns out k inst := by
  induction pc, insns using UbpfVm.patchFrom.induct generalizing out k with
  | case1 pc => simp [isStart] at hstart
  | case2 pc inst0 hcall =>
    cases k with
    | succ k => simp [isStart] at hstart
    | zero =>
      cases hget
      rw [UbpfVm.patchFrom, if_pos hcall] at h
      obtain ⟨inst', hp, rfl⟩ := map_eq_ok.mp h
      exact .call inst' hcall hp rfl
  | case3 pc inst0 hcall hlddw =>
    rw [UbpfVm.patchFrom, if_neg hcall, if_pos hlddw] at h
    cases h
  | case4 pc inst0 hcall hlddw =>
    cases k with
    | succ k => simp [isStart] at hstart
    | zero =>
      cases hget
      rw [UbpfVm.patchFrom, if_neg hcall, if_neg hlddw] at h
      cases h
      exact .same hcall hlddw rfl
  | case5 pc inst0 next rest hcall ih =>
    rw [UbpfVm.patchFrom, if_pos hcall, bind_eq_ok] at h
    obtain ⟨inst', hp, h⟩ := h
    obtain ⟨out', hrest, heq⟩ := bind_eq_ok.mp h
    cases heq
    cases k with
    | zero =>
      cases hget
      exact .call inst' hcall hp rfl
    | succ k =>
      have hlddw : inst0.opcode ≠ opLddw := by
        rw [hcall]
        decide
      rw [isStart_succ hlddw] at hstart
      exact (ih hrest hstart hget).cons
  | case6 pc inst0 next rest hcall hlddw ih =>
    rw [UbpfVm.patchFrom, if_neg hcall, if_pos hlddw, bind_eq_ok] at h
    obtain ⟨⟨inst', next'⟩, hp, h⟩ := h
    obtain ⟨out', hrest, heq⟩ := bind_eq_ok.mp h
    cases heq
    match k with
    | 0 =>
      cases hget
      exact .lddw next inst' next' hlddw rfl hp rfl rfl
    | 1 => simp [isStart, hlddw] at hstart
    | k + 2 =>
      rw [isStart, if_pos hlddw] at hstart
      exact (ih hrest hstart hget).cons.cons
  | case7 pc inst0 next rest hcall hlddw ih =>
    rw [UbpfVm.patchFrom, if_neg hcall, if_neg hlddw, bind_eq_ok] at h
    obtain ⟨out', hrest, heq⟩ := h
    cases heq
    cases k with
    | zero =>
      cases hget
      exact .same hcall hlddw rfl
    | succ k =>
      rw [isStart_succ hlddw] at hstart
      exact (ih hrest hstart hget).cons

lemma isStart_patchFrom (h : vm.patchFrom pc insns = .ok out) (k : ℕ) : isStart out k = isStart insns k := by
  induction pc, insns using UbpfVm.patchFrom.induct generalizing out k with
  | case1 pc =>
    cases h
    rfl
  | case2 pc inst hcall =>
    rw [UbpfVm.patchFrom, if_pos hcall] at h
    obtain ⟨inst', hp, rfl⟩ := map_eq_ok.mp h
    cases k <;> rfl
  | case3 pc inst hcall hlddw =>
    rw [UbpfVm.patchFrom, if_neg hcall, if_pos hlddw] at h
    cases h
  | case4 pc inst hcall hlddw =>
    rw [UbpfVm.patchFrom, if_neg hcall, if_neg hlddw] at h
    cases h
    rfl
  | case5 pc inst next rest hcall ih =>
    rw [UbpfVm.patchFrom, if_pos hcall, bind_eq_ok] at h
    obtain ⟨inst', hp, h⟩ := h
    obtain ⟨out', hrest, heq⟩ := bind_eq_ok.mp h
    cases heq
    have hop := opcode_patchCall hp
    have hlddw : inst.opcode ≠ opLddw := by
      rw [hcall]
      decide
    exact isStart_cons_congr hlddw (hop ▸ hlddw) (ih hrest) k
  | case6 pc inst next rest hcall hlddw ih =>
    rw [UbpfVm.patchFrom, if_neg hcall, if_pos hlddw, bind_eq_ok] at h
    obtain ⟨⟨inst', next'⟩, hp, h⟩ := h
    obtain ⟨out', hrest, heq⟩ := bind_eq_ok.mp h
    cases heq
    have hlddw' : inst'.opcode = opLddw := opcode_patchLddw hp ▸ hlddw
    match k with
    | 0 => rfl
    | 1 => simp [isStart, hlddw, hlddw']
    | k + 2 =>
      rw [isStart, isStart, if_pos hlddw, if_pos hlddw']
      exact ih hrest k
  | case7 pc inst next rest hcall hlddw ih =>
    rw [UbpfVm.patchFrom, if_neg hcall, if_neg hlddw, bind_eq_ok] at h
    obtain ⟨out', hrest, heq⟩ := h
    cases heq
    exact isStart_cons_congr hlddw hlddw (ih hrest) k

lemma checkInst_of_validateFrom {insts : List EbpfInst} {i : ℕ} (h : vm.validateFrom insts i insns = .ok ())
    (hstart : isStart insns k = true) (hget : insns[k]? = some inst) :
    vm.checkInst insts (i + k) inst = .ok () := by
  induction i, insns using UbpfVm.validateFrom.induct generalizing k with
  | case1 i => simp [isStart] at hstart
  | case2 i inst0 =>
    cases k with
    | succ k => simp [isStart] at hstart
    | zero =>
      cases hget
      exact h
  | case3 i inst0 next rest ihWide ih =>
    rw [UbpfVm.validateFrom, bind_eq_ok] at h
    obtain ⟨u, hcheck, hrest⟩ := h
    by_cases hlddw : inst0.opcode = opLddw
    · rw [if_pos hlddw] at hrest
      match k with
      | 0 =>
        cases hget
        exact hcheck
      | 1 => simp [isStart, hlddw] at hstart
      | k + 2 =>
        rw [isStart, if_pos hlddw] at hstart
        rw [show i + (k + 2) = i + 2 + k by omega]
        exact ihWide hrest hstart hget
    · rw [if_neg hlddw] at hrest
      cases k with
      | zero =>
        cases hget
        exact hcheck
      | succ k =>
        rw [isStart_succ hlddw] at hstart
        rw [show i + (k + 1) = i + 1 + k by omega]
        exact ih hrest hstart hget

lemma loadCode_eq_ok {loaded : List EbpfInst} {trailing : ℕ} (h : vm.loadCode insns trailing = .ok loaded)
    (hstart : isStart insns k = true) (hget : insns[k]? = some inst) (hget' : loaded[k]? = some inst') :
    vm.checkInst loaded k inst' = .ok () ∧ ∃ out, vm.patchCode insns trailing = .ok out ∧ out[k]? =
    some inst' ∧
    PatchedAt vm 0 insns out k inst := by
  obtain ⟨out, hpatch, hload⟩ := bind_eq_ok.mp h
  have hpatch' := hpatch
  unfold UbpfVm.patchCode at hpatch'
  split_ifs at hpatch'
  cases hubpf : vm.ubpfLoad out with
  | error e => simp [hubpf, Except.mapError] at hload
  | ok out' =>
    rw [hubpf] at hload
    cases hload
    unfold UbpfVm.ubpfLoad at hubpf
    dsimp only at hubpf
    split_ifs at hubpf with hmax
    obtain ⟨u, hvalid, rfl⟩ := map_eq_ok.mp hubpf
    have hget'' := hget'
    rw [getElem?_take] at hget''
    split_ifs at hget'' with hlt
    have hstart' : isStart (out.take (out.length * 8 % 2^32 / 8)) k = true := by
      rw [isStart_take hlt, isStart_patchFrom hpatch', hstart]
    have hcheck := checkInst_of_validateFrom hvalid hstart' hget'
    rw [Nat.zero_add] at hcheck
    exact ⟨hcheck, out, hpatch, hget'', patchFrom_eq_ok hpatch' hstart hget⟩

end Bpftime.Ubpf
