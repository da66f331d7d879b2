import Bpftime.Jit.Compiler
import Bpftime.Jit.Isa

/-!
# A machine for eBPF programs

The order in which the instruction set executes the instructions of a program without local calls.
-/

namespace Bpftime.Jit.Isa

open Ir

variable (cfg : Config) (k : Linkage) (insts : List EbpfInst)

/-- The state that the code of an instruction leaves, if it is defined. -/
def dataEffect (pc : ℕ) (inst : EbpfInst) (s : State) : Option State :=
  match inst.emit cfg (fun _ => false) (fun _ => false) pc insts[pc + 1]? with
  | .error _ => none
  | .ok e => (execCode k.host [] s e.code).map (·.2)

def helperResult (idx : BitVec 32) (s : State) : BitVec 64 × Mem :=
  k.call (.helper idx) [.i64 (reg s 1), .i64 (reg s 2), .i64 (reg s 3), .i64 (reg s 4), .i64 (reg s 5)] s.mem

def callHelper (idx : BitVec 32) (s : State) : State :=
  { s with mem := (helperResult k idx s).2 }.setLocal 0 0 (helperResult k idx s).1

inductive Status where
  /-- The machine is to execute the instruction at `pc`. -/
  | fetch (pc : ℕ) (s : State)
  | returned (v : BitVec 64) (s : State)
  | stuck

def Status.jump (target : ℤ) (s : State) : Status := if 0 ≤ target then .fetch target.toNat s else .stuck

/-- The machine behind the instruction at `pc`. -/
def execInst (pc : ℕ) (inst : EbpfInst) (s : State) : Status :=
  match kind inst with
  | .ja => .jump (pc + 1 + inst.offset.toInt) s
  | .jaImm => .jump (pc + 1 + inst.imm.toInt) s
  | .cond =>
    if taken inst (reg s inst.dst.toNat) (reg s inst.src.toNat) then
      .jump (pc + 1 + inst.offset.toInt) s
    else .fetch (pc + 1) s
  | .call =>
    -- Local calls are not part of this machine.
    if inst.src = 1 then .stuck
    else if inst.imm = 12 then .returned (helperResult k inst.imm s).1 (callHelper k inst.imm s)
    else .fetch (pc + 1) (callHelper k inst.imm s)
  | .exit => .returned (reg s 0) s
  | .wide => (dataEffect cfg k insts pc inst s).elim .stuck (.fetch (pc + 2))
  | .plain => (dataEffect cfg k insts pc inst s).elim .stuck (.fetch (pc + 1))

def Status.next : Status → Status
  | .fetch pc s =>
    match insts[pc]? with
    | none => .stuck
    | some inst => execInst cfg k insts pc inst s
  | st => st

def Status.visiting : Status → List ℕ
  | .fetch pc _ => [pc]
  | _ => []

/-- A run of `n` steps: the instructions visited, and the state in the end. -/
def Status.run (n : ℕ) (st : Status) : List ℕ × Status :=
  Traces.trace (Status.next cfg k insts) Status.visiting n st

/-- The state in which a program starts: the frame pointer at the end of the data stack, and the
arguments if the function takes them. -/
def initial (s : State) : State :=
  let s := (s.setLocal 10 0 (k.stackBegin + BitVec.ofNat 64 (8 * (stackSize * maxLocalFuncDepth))))
    |>.setLocal 12 0 0
  if cfg.main_func_with_arguments then (s.setLocal 1 0 k.mem).setLocal 2 0 k.mem_len else s

end Bpftime.Jit.Isa
