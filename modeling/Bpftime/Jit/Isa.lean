import Bpftime.Jit.Inst
import Bpftime.Lib.Bytes

/-!
# The eBPF instruction set: arithmetic and jumps

What an arithmetic instruction writes to its destination register, and where a jump leads, from the
fields of the instruction set and not from the cases of the compiler.
-/

namespace Bpftime.Jit.Isa

def cls (inst : EbpfInst) : ℕ := inst.opcode.toNat % 8

def code (inst : EbpfInst) : ℕ := inst.opcode.toNat / 16

def fromReg (inst : EbpfInst) : Bool := inst.opcode.toNat / 8 % 2 = 1

def IsAlu (inst : EbpfInst) : Prop := cls inst = 4 ∨ cls inst = 7

instance (inst : EbpfInst) : Decidable (IsAlu inst) := inferInstanceAs (Decidable (_ ∨ _))

def width (inst : EbpfInst) : ℕ := if cls inst = 7 then 64 else 32

/-- The operations on `w` bits. -/
def aluOp {w : ℕ} (code : ℕ) (offset : BitVec 16) (d s : BitVec w) : BitVec w :=
  match code with
  | 0x0 => d + s
  | 0x1 => d - s
  | 0x2 => d * s
  | 0x3 => if s = 0 then 0 else if offset = 1 then d.sdiv s else d / s
  | 0x4 => d ||| s
  | 0x5 => d &&& s
  | 0x6 => d <<< (s.toNat % w)
  | 0x7 => d >>> (s.toNat % w)
  | 0x8 => -d
  | 0x9 => if s = 0 then d else if offset = 1 then d.srem s else d % s
  | 0xa => d ^^^ s
  | 0xb => if offset = 0 then s else (s.setWidth offset.toNat).signExtend w
  | 0xc => d.sshiftRight (s.toNat % w)
  | _ => d

/-- The low `n` bytes in reverse order. -/
def swapBytes (n : ℕ) (x : BitVec 64) : BitVec 64 :=
  BitVec.ofNat 64 (Bytes.ofLe (Bytes.toLe n x.toNat).reverse)

def endian (inst : EbpfInst) (d : BitVec 64) : BitVec 64 :=
  if cls inst = 7 ∨ fromReg inst then swapBytes (inst.imm.toNat / 8) d
  else (d.setWidth inst.imm.toNat).setWidth 64

def source (inst : EbpfInst) (s : BitVec 64) : BitVec 64 :=
  if fromReg inst then s else inst.imm.signExtend 64

/-- The value of the destination register after an arithmetic instruction, from the values of the
destination and source registers. -/
def alu (inst : EbpfInst) (d s : BitVec 64) : BitVec 64 :=
  if code inst = 0xd then endian inst d
  else
    let w := width inst
    (aluOp (code inst) inst.offset (d.setWidth w) ((source inst s).setWidth w)).setWidth 64

/-- The kinds of instructions that differ in where the program goes on. -/
inductive Kind where
  | plain
  /-- An instruction of two slots. -/
  | wide
  | ja
  | jaImm
  | cond
  | call
  | exit
deriving DecidableEq

def kind (inst : EbpfInst) : Kind :=
  if cls inst = 5 ∨ cls inst = 6 then
    match code inst with
    | 0x0 => if cls inst = 5 then .ja else .jaImm
    | 0x8 => .call
    | 0x9 => .exit
    | _ => .cond
  else if inst.opcode = opLddw then .wide
  else .plain

/-- The comparisons on `w` bits. -/
def compare {w : ℕ} (code : ℕ) (d s : BitVec w) : Bool :=
  match code with
  | 0x1 => d == s
  | 0x2 => s.ult d
  | 0x3 => s.ule d
  | 0x4 => d &&& s != 0
  | 0x5 => d != s
  | 0x6 => s.slt d
  | 0x7 => s.sle d
  | 0xa => d.ult s
  | 0xb => d.ule s
  | 0xc => d.slt s
  | 0xd => d.sle s
  | _ => false

def jmpWidth (inst : EbpfInst) : ℕ := if cls inst = 6 then 32 else 64

/-- A conditional jump is taken, from the values of the destination and source registers. -/
def taken (inst : EbpfInst) (d s : BitVec 64) : Bool :=
  compare (code inst) (d.setWidth (jmpWidth inst)) ((source inst s).setWidth (jmpWidth inst))

/-- The target of a jump at `pc`. -/
def jumpTarget (inst : EbpfInst) (pc : ℕ) : Option ℤ :=
  match kind inst with
  | .ja => some (pc + 1 + inst.offset.toInt)
  | .jaImm => some (pc + 1 + inst.imm.toInt)
  | .cond => some (pc + 1 + inst.offset.toInt)
  | _ => none

end Bpftime.Jit.Isa
