import Bpftime.Ir.Syntax

/-!
# eBPF instructions as the compiler classifies them

The instruction record and the opcodes of `ebpf_inst.h`, and the cases of the switch over opcodes in
`generateModule`.
-/

namespace Bpftime.Jit

open Ir (Ty Pred)

/-- The record `ebpf_inst`. -/
structure EbpfInst where
  opcode : BitVec 8
  dst : BitVec 4
  src : BitVec 4
  offset : BitVec 16
  imm : BitVec 32
deriving DecidableEq

/-- `EBPF_CLS_ALU` -/
def clsAlu : BitVec 8 := 0x04
/-- `EBPF_CLS_JMP` -/
def clsJmp : BitVec 8 := 0x05
/-- `EBPF_CLS_JMP32` -/
def clsJmp32 : BitVec 8 := 0x06
/-- `EBPF_CLS_ALU64` -/
def clsAlu64 : BitVec 8 := 0x07
/-- `EBPF_CLS_STX` -/
def clsStx : BitVec 8 := 0x03
/-- `EBPF_SRC_IMM` -/
def srcImm : BitVec 8 := 0x00
/-- `EBPF_SRC_REG` -/
def srcReg : BitVec 8 := 0x08

/-- `EBPF_OP_JA_IMM` -/
def opJaImm : BitVec 8 := 0x06
/-- `EBPF_OP_CALL` -/
def opCall : BitVec 8 := 0x85
/-- `EBPF_OP_LDDW` -/
def opLddw : BitVec 8 := 0x18
/-- `EBPF_ATOMIC_OPCODE_64` -/
def atomicOpcode64 : BitVec 8 := 0xdb

def aluOpcodes (op : BitVec 8) : List (BitVec 8) :=
  [clsAlu64 ||| srcImm ||| op, clsAlu ||| srcImm ||| op, clsAlu64 ||| srcReg ||| op,
    clsAlu ||| srcReg ||| op]

def jmpOpcodes (mode : BitVec 8) : List (BitVec 8) :=
  [clsJmp32 ||| srcImm ||| mode, clsJmp ||| srcImm ||| mode, clsJmp32 ||| srcReg ||| mode,
    clsJmp ||| srcReg ||| mode]

/-- The arithmetic operations that `emitALUWithDstAndSrc` emits. -/
inductive AluOp where
  | add
  | sub
  | mul
  | div
  | or
  | and
  | lsh
  | rsh
  | mod
  | xor
  | arsh
deriving DecidableEq, Repr

inductive Case where
  | alu (op : AluOp)
  | neg
  | mov
  | endian
  | store (ty : Ty)
  | loadX (ty : Ty)
  | lddw
  | ja
  | jaImm
  | call
  | exit
  | jcc (pred : Pred)
  | jset
  | atomic
deriving DecidableEq, Repr

def switchTable : List (Case × List (BitVec 8)) :=
  [(.alu .add, aluOpcodes 0x00), (.alu .sub, aluOpcodes 0x10), (.alu .mul, aluOpcodes 0x20),
    (.alu .div, aluOpcodes 0x30), (.alu .or, aluOpcodes 0x40), (.alu .and, aluOpcodes 0x50),
    (.alu .lsh, aluOpcodes 0x60), (.alu .rsh, aluOpcodes 0x70),
    (.neg, [clsAlu ||| 0x80, clsAlu64 ||| 0x80]),
    (.alu .mod, aluOpcodes 0x90), (.alu .xor, aluOpcodes 0xa0), (.mov, aluOpcodes 0xb0),
    (.alu .arsh, aluOpcodes 0xc0),
    (.endian, [clsAlu ||| srcImm ||| 0xd0, clsAlu ||| srcReg ||| 0xd0, clsAlu64 ||| srcImm ||| 0xd0]),
    (.store .i8, [0x72, 0x73]), (.store .i16, [0x6a, 0x6b]), (.store .i32, [0x62, 0x63]),
    (.store .i64, [0x7a, 0x7b]),
    (.loadX .i8, [0x71]), (.loadX .i16, [0x69]), (.loadX .i32, [0x61]), (.loadX .i64, [0x79]),
    (.lddw, [opLddw]), (.ja, [0x05]), (.jaImm, [opJaImm]), (.call, [opCall, opCall ||| 0x8]),
    (.exit, [0x95]),
    (.jcc .eq, jmpOpcodes 0x10), (.jcc .ugt, jmpOpcodes 0x20), (.jcc .uge, jmpOpcodes 0x30),
    (.jset, jmpOpcodes 0x40), (.jcc .ne, jmpOpcodes 0x50), (.jcc .sgt, jmpOpcodes 0x60),
    (.jcc .sge, jmpOpcodes 0x70), (.jcc .ult, jmpOpcodes 0xa0), (.jcc .ule, jmpOpcodes 0xb0),
    (.jcc .slt, jmpOpcodes 0xc0), (.jcc .sle, jmpOpcodes 0xd0),
    (.atomic, [0xc3, atomicOpcode64])]

instance decidableMemOpcodes (opcode : BitVec 8) (opcodes : List (BitVec 8)) :
    Decidable (opcode ∈ opcodes) :=
  inferInstance

namespace EbpfInst

def case (inst : EbpfInst) : Option Case := (switchTable.find? fun e => inst.opcode ∈ e.2).map (·.1)

/-- `is_jmp` -/
def isJmp (inst : EbpfInst) : Bool := inst.opcode &&& 0x07 == clsJmp || inst.opcode &&& 0x07 == clsJmp32

/-- `is_imm_jmp` -/
def isImmJmp (inst : EbpfInst) : Bool := inst.opcode == opJaImm

/-- `is_alu64` -/
def isAlu64 (inst : EbpfInst) : Bool := inst.opcode &&& 0x07 == clsAlu64

def isReg (inst : EbpfInst) : Bool := inst.opcode &&& 0x08 == srcReg

end EbpfInst

end Bpftime.Jit
