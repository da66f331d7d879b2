import Bpftime.Jit.Emit

/-!
# The compiler

`generateModule` of `compiler.cpp` for the host target: the pass that splits the program into
blocks, the loop that emits the instructions, the links between blocks, and the check of the module.
-/

namespace Bpftime.Jit

open Ir Function Option

abbrev Block := List (Chunk Label Callee)

/-! ## The loops over instructions -/

/-- A loop `for (uint16_t i = 0; i < n; i++)`. -/
def forUint16 {σ : Type} (n : ℕ) (body : ℕ → σ → Except Failure σ) : ℕ → ℕ → σ → Except Failure σ
  | 0, _, _ => .error .diverges
  | rounds + 1, i, st =>
    if i < n then
      match body i st with
      | .error e => .error e
      | .ok st' => forUint16 n body rounds ((i + 1) % 2^16) st'
    else .ok st

def EbpfInst.target (inst : EbpfInst) (pc : ℕ) (useOffset : Bool) : ℤ :=
  pc + 1 + if useOffset then inst.offset.toInt else inst.imm.toInt

def InRange (insts : List EbpfInst) (target : ℤ) : Prop := 0 ≤ target ∧ target < insts.length

instance (insts : List EbpfInst) (target : ℤ) : Decidable (InRange insts target) :=
  inferInstanceAs (Decidable (_ ∧ _))

def markBlocks (insts : List EbpfInst) (i : ℕ) (blockBegin : ℕ → Bool) : Except Failure (ℕ → Bool) :=
  match insts[i]? with
  | none => .error .outOfBounds
  | some curr =>
    let blockBegin :=
      if 0 < i ∧ insts[i - 1]?.any EbpfInst.isJmp then update blockBegin i true
      else blockBegin
    if curr.isImmJmp then
      let target := curr.target i false
      if InRange insts target then .ok (update blockBegin target.toNat true)
      else .error .outOfBounds
    else
      let target := curr.target i true
      if curr.isJmp ∧ InRange insts target then
        .ok (update blockBegin target.toNat true)
      else .ok blockBegin

def splitBlocks (insts : List EbpfInst) : Except Failure (ℕ → Bool) :=
  forUint16 insts.length (markBlocks insts) (2^16 + 1) 0 (update (fun _ => false) 0 true)

/-- The keys of `instBlocks`. -/
def instBlocks (insts : List EbpfInst) (blockBegin : ℕ → Bool) (i : ℕ) : Bool :=
  i < insts.length && blockBegin i

/-- The keys of `localFuncRetBlks`. -/
def localFuncRetBlks (insts : List EbpfInst) (blockBegin : ℕ → Bool) (i : ℕ) : Bool :=
  instBlocks insts blockBegin i && decide (1 < i) &&
    insts[i - 1]?.any fun prev => prev.opcode == opCall && prev.src == 1

def EbpfInst.next (inst : EbpfInst) (pc : ℕ) : ℕ := if inst.case = some .lddw then pc + 2 else pc + 1

/-- The code for the instruction at `pc`. -/
def emitAt (cfg : Config) (insts : List EbpfInst) (blockBegin : ℕ → Bool) (pc : ℕ)
    (inst : EbpfInst) : Except Failure (JitEmit (Option (Term Label))) :=
  inst.emit cfg (instBlocks insts blockBegin) (localFuncRetBlks insts blockBegin) pc insts[pc + 1]?

def chunkOf (tag : Option ℕ) (e : JitEmit (Option (Term Label))) : Chunk Label Callee :=
  ⟨tag, e.code, e.result⟩

/-- The instruction loop, from the position `pc` with the current block `currBB`. -/
def emitLoop (cfg : Config) (insts : List EbpfInst) (blockBegin : ℕ → Bool) :
    ℕ → ℕ → ℕ → (ℕ → Block) → Except Failure (ℕ → Block)
  | 0, _, _, _ => .error .diverges
  | rounds + 1, pc, currBB, blocks =>
    match insts[pc]? with
    | none => .ok blocks
    | some inst =>
      if blockBegin pc ∧ ¬ instBlocks insts blockBegin pc then .error (.error (.noBlock pc))
      else
        let currBB := if blockBegin pc then pc else currBB
        match emitAt cfg insts blockBegin pc inst with
        | .error e => .error e
        | .ok e =>
          emitLoop cfg insts blockBegin rounds (inst.next pc) currBB
            (update blocks currBB (blocks currBB ++ [chunkOf (some pc) e]))

/-- The block behind a position in `allBlocks`. -/
def nextBlock (insts : List EbpfInst) (blockBegin : ℕ → Bool) (b : ℕ) : Option ℕ :=
  (List.range insts.length).find? fun i => decide (b ≤ i) && blockBegin i

def branchTo (b : ℕ) : Chunk Label Callee := ⟨none, [], some (.br (.inst b))⟩

def isTerminated (block : Block) : Bool := block.getLast?.any (·.term.isSome)

/-- A block without a terminator linked to the next block, if there is one. -/
def linkBlock (block : Block) (next : Option ℕ) : Block :=
  if isTerminated block then block else block ++ (next.map branchTo).toList

def emitSetup (cfg : Config) : JitEmit Unit := do
  let stackEnd ← createGEP 8 stackBegin (getInt32 (BitVec.ofNat 32 (stackSize * maxLocalFuncDepth)))
  createStore stackEnd (regs 10)
  createStore (getInt64 0) callItemCnt
  if cfg.main_func_with_arguments then
    createStore ⟨.ptr, .arg .ptr 0⟩ (regs 1)
    createStore ⟨.i64, .arg .i64 1⟩ (regs 2)

def emitExitBlock : JitEmit (Option (Term Label)) := do
  let r0 ← createLoad .i64 (regs 0)
  pure (some (.ret r0.operand))

def retDests (insts : List EbpfInst) (blockBegin : ℕ → Bool) : List Label :=
  ((List.range insts.length).filter (localFuncRetBlks insts blockBegin)).map .inst

/-- The blocks of the emitted function, from the code of the instructions. -/
def moduleBlocks (cfg : Config) (insts : List EbpfInst) (blockBegin : ℕ → Bool)
    (blocks : ℕ → Block) : Label → Block
  | .setup => linkBlock [chunkOf none (EbpfInst.straight (emitSetup cfg))] (nextBlock insts blockBegin 0)
  | .inst b => linkBlock (blocks b) (nextBlock insts blockBegin (b + 1))
  | .exit => [chunkOf none emitExitBlock]
  | .localRet => [chunkOf none (EbpfInst.emitLocalRet (retDests insts blockBegin))]

/-- The check of a block by `verifyModule`: one terminator, at the end. -/
def verifyBlock (block : Block) : Bool := isTerminated block && block.dropLast.all (·.term.isNone)

/-- `verifyModule`, for the blocks of instructions. -/
def verifyModule (insts : List EbpfInst) (blockBegin : ℕ → Bool) (blocks : Label → Block) : Bool :=
  (List.range insts.length).all fun i => !blockBegin i || verifyBlock (blocks (.inst i))

structure Module where
  blocks : Label → Block

/-- `llvm_bpf_jit_context::generateModule` -/
def generateModule (cfg : Config) (insts : List EbpfInst) : Except Failure Module :=
  if insts = [] then .error (.error .noInstructions)
  else
    match splitBlocks insts with
    | .error e => .error e
    | .ok blockBegin =>
      match emitLoop cfg insts blockBegin (insts.length + 1) 0 0 fun _ => [] with
      | .error e => .error e
      | .ok blocks =>
        let blocks := moduleBlocks cfg insts blockBegin blocks
        if verifyModule insts blockBegin blocks then .ok ⟨blocks⟩
        else .error (.error .invalidModule)

/-- What an emitted function is linked and called with. -/
structure Linkage where
  blockAddr : Label → BitVec 64
  /-- The blocks of instructions have addresses of their own. -/
  blockAddr_inj : ∀ i j, i < 2^16 → j < 2^16 → blockAddr (.inst i) = blockAddr (.inst j) → i = j
  /-- The address of the data stack. -/
  stackBegin : BitVec 64
  mem : BitVec 64
  mem_len : BitVec 64
  call : Callee → List Val → Mem → BitVec 64 × Mem

def Linkage.host (k : Linkage) : Host Label Callee where
  labelAddr := k.blockAddr
  length := arrayLength
  frame _ := k.stackBegin
  arg i := if i = 0 then k.mem else k.mem_len
  call := k.call

def reg (s : State) (i : ℕ) : BitVec 64 := s.locals i 0

def Module.start (m : Module) (s : State) : Status Label Callee := .running (m.blocks .setup) s

/-- A run of `n` chunks of an emitted function. -/
def Module.run (m : Module) (k : Linkage) (n : ℕ) (s : State) : List ℕ × Status Label Callee :=
  (m.start s).run k.host m.blocks n

def bareConfig : Config where
  extFuncs := []
  mapValHelper := false
  patch_map_val_at_compile_time := true
  main_func_with_arguments := true
  map_by_fd := none
  map_by_idx := none
  map_val := none
  var_addr := none
  code_addr := none

/-- Blocks at their positions, and a data stack at `2^20`. -/
def bareLinkage : Linkage where
  blockAddr
    | .inst pc => BitVec.ofNat 64 pc
    | _ => 0
  blockAddr_inj i j hi hj h := by
    have hnat := congrArg BitVec.toNat h
    simp only [BitVec.toNat_ofNat] at hnat
    omega
  stackBegin := 0x100000
  mem := 0
  mem_len := 0
  call _ _ mem := (0, mem)

/-- The instruction `EBPF_OP_EXIT`. -/
def exitInst : EbpfInst := ⟨0x95, 0, 0, 0, 0⟩

/-- The function of a program that is accepted in the plain environment. -/
def bareModule (insts : List EbpfInst) : Module :=
  (generateModule bareConfig insts).toOption.getD ⟨fun _ => []⟩

lemma generateModule_eq_bareModule (insts : List EbpfInst)
    (h : (generateModule bareConfig insts).isOk = true) :
    generateModule bareConfig insts = .ok (bareModule insts) := by
  rw [bareModule]
  cases hgen : generateModule bareConfig insts with
  | error e => simp [hgen, Except.isOk, Except.toBool] at h
  | ok m => rfl

def returnedValue : Status Label Callee → Option Val
  | .returned v _ => some v
  | _ => none

def zeroState : State := ⟨fun _ _ => 0, fun _ => 0⟩

lemma exists_of_isOk {ε α : Type} {x : Except ε α} (h : x.isOk = true) : ∃ a, x = .ok a := by
  cases x with
  | error e => cases h
  | ok a => exact ⟨a, rfl⟩

def firstChunk (insts : List EbpfInst) : Option (Chunk Label Callee) :=
  (generateModule bareConfig insts).toOption.bind fun m => (m.blocks (.inst 0)).head?

lemma exists_of_firstChunk {α : Type} {f : Chunk Label Callee → α} {a : α} {insts : List EbpfInst}
    (h : (firstChunk insts).map f = some a) :
    ∃ m c, generateModule bareConfig insts = .ok m ∧ c ∈ m.blocks (.inst 0) ∧ f c = a := by
  obtain ⟨c, hfirst, ha⟩ := map_eq_some_iff.mp h
  obtain ⟨m, hm, hc⟩ := bind_eq_some_iff.mp hfirst
  cases hgen : generateModule bareConfig insts with
  | error e => simp [hgen, Except.toOption] at hm
  | ok m' =>
    simp only [hgen, Except.toOption, some.injEq] at hm
    subst hm
    exact ⟨m', c, rfl, List.mem_of_mem_head? hc, ha⟩

end Bpftime.Jit
