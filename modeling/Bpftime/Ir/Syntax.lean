import Mathlib.Tactic

/-!
# A fragment of the LLVM intermediate representation: syntax

Functions with integer arithmetic, loads and stores, atomic operations, calls, and branches, as the
LLVM language reference has them.
-/

namespace Bpftime.Ir

inductive Ty where
  | i1
  | i8
  | i16
  | i32
  | i64
  | ptr
deriving DecidableEq, Repr

def Ty.bits : Ty → ℕ
  | .i1 => 1
  | .i8 => 8
  | .i16 => 16
  | .i32 => 32
  | .i64 => 64
  | .ptr => 64

def Ty.bytes (ty : Ty) : ℕ := (ty.bits + 7) / 8

def Ty.abiAlign : Ty → ℕ
  | .i1 => 1
  | .i8 => 1
  | .i16 => 2
  | .i32 => 4
  | .i64 => 4
  | .ptr => 8

inductive Val where
  | i1 (b : Bool)
  | i8 (x : BitVec 8)
  | i16 (x : BitVec 16)
  | i32 (x : BitVec 32)
  | i64 (x : BitVec 64)
  | ptr (a : BitVec 64)
  | cell (array : ℕ) (index : BitVec 64)
deriving DecidableEq

inductive Operand (L : Type) where
  | const (v : Val)
  /-- The value of an earlier instruction of the chunk. -/
  | tmp (n : ℕ)
  /-- The address of a block. -/
  | label (l : L)
  /-- The address of a local array in the flat memory. -/
  | frame (n : ℕ)
  /-- An argument of the function. -/
  | arg (ty : Ty) (n : ℕ)

inductive BinOp where
  | add
  | sub
  | mul
  | udiv
  | sdiv
  | urem
  | srem
  | and
  | or
  | xor
  | shl
  | lshr
  | ashr
deriving DecidableEq, Repr

inductive Pred where
  | eq
  | ne
  | ugt
  | uge
  | ult
  | ule
  | sgt
  | sge
  | slt
  | sle
deriving DecidableEq, Repr

inductive CastOp where
  | trunc
  | zext
  | sext
deriving DecidableEq, Repr

inductive RmwOp where
  | add
  | and
  | or
  | xor
  | xchg
deriving DecidableEq, Repr

inductive Instr (L F : Type) where
  | load (ty : Ty) (align : ℕ) (p : Operand L)
  | store (align : ℕ) (v p : Operand L)
  | bin (op : BinOp) (x y : Operand L)
  | icmp (pred : Pred) (x y : Operand L)
  | select (c x y : Operand L)
  | cast (op : CastOp) (ty : Ty) (x : Operand L)
  /-- The address of an element, from a pointer and an index in elements of `size` bytes. -/
  | gep (size : ℕ) (p i : Operand L)
  | call (f : F) (args : List (Operand L))
  | atomicrmw (op : RmwOp) (align : ℕ) (p v : Operand L)
  | cmpxchg (align : ℕ) (p cmp new : Operand L)

inductive Term (L : Type) where
  | br (l : L)
  | condBr (c : Operand L) (t f : L)
  | indirectBr (p : Operand L) (dests : List L)
  | ret (v : Operand L)

structure Chunk (L F : Type) where
  tag : Option ℕ
  code : List (Instr L F)
  term : Option (Term L)

end Bpftime.Ir
