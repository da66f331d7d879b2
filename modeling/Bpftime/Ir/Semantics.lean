import Bpftime.Ir.Syntax
import Bpftime.Lib.Traces

/-!
# A fragment of the LLVM intermediate representation: meaning

A program state has the local arrays and a flat memory.
-/

namespace Bpftime.Ir

open Function

/-- A signed division by zero, or one that overflows. -/
def SDivUndefined {w : ℕ} (x y : BitVec w) : Prop := y = 0 ∨ (x = BitVec.intMin w ∧ y = -1)

instance {w : ℕ} (x y : BitVec w) : Decidable (SDivUndefined x y) := inferInstanceAs (Decidable (_ ∨ _))

def BinOp.eval {w : ℕ} (op : BinOp) (x y : BitVec w) : Option (BitVec w) :=
  match op with
  | .add => some (x + y)
  | .sub => some (x - y)
  | .mul => some (x * y)
  | .udiv => if y = 0 then none else some (x / y)
  | .sdiv => if SDivUndefined x y then none else some (x.sdiv y)
  | .urem => if y = 0 then none else some (x % y)
  | .srem => if SDivUndefined x y then none else some (x.srem y)
  | .and => some (x &&& y)
  | .or => some (x ||| y)
  | .xor => some (x ^^^ y)
  | .shl => if y.toNat < w then some (x <<< y.toNat) else none
  | .lshr => if y.toNat < w then some (x >>> y.toNat) else none
  | .ashr => if y.toNat < w then some (x.sshiftRight y.toNat) else none

def BinOp.apply (op : BinOp) : Val → Val → Option Val
  | .i1 x, .i1 y => if op = .and then some (.i1 (x && y)) else none
  | .i8 x, .i8 y => (op.eval x y).map .i8
  | .i16 x, .i16 y => (op.eval x y).map .i16
  | .i32 x, .i32 y => (op.eval x y).map .i32
  | .i64 x, .i64 y => (op.eval x y).map .i64
  | _, _ => none

def Pred.eval {w : ℕ} (pred : Pred) (x y : BitVec w) : Bool :=
  match pred with
  | .eq => x == y
  | .ne => x != y
  | .ugt => y.ult x
  | .uge => y.ule x
  | .ult => x.ult y
  | .ule => x.ule y
  | .sgt => y.slt x
  | .sge => y.sle x
  | .slt => x.slt y
  | .sle => x.sle y

def Pred.apply (pred : Pred) : Val → Val → Option Val
  | .i32 x, .i32 y => some (.i1 (pred.eval x y))
  | .i64 x, .i64 y => some (.i1 (pred.eval x y))
  | _, _ => none

def Val.select : Val → Val → Val → Option Val
  | .i1 c, x, y => some (if c then x else y)
  | _, _, _ => none

def CastOp.into {w : ℕ} (op : CastOp) (ty : Ty) (x : BitVec w) : Option Val :=
  let bits := fun w' : ℕ => match op with
    | .trunc => x.setWidth w'
    | .zext => x.setWidth w'
    | .sext => x.signExtend w'
  match ty with
  | .i8 => some (.i8 (bits 8))
  | .i16 => some (.i16 (bits 16))
  | .i32 => some (.i32 (bits 32))
  | .i64 => some (.i64 (bits 64))
  | _ => none

def CastOp.apply (op : CastOp) (ty : Ty) : Val → Option Val
  | .i8 x => op.into ty x
  | .i16 x => op.into ty x
  | .i32 x => op.into ty x
  | .i64 x => op.into ty x
  | _ => none

/-- What an atomic operation stores, from the old value and its operand. -/
def RmwOp.eval {w : ℕ} (op : RmwOp) (old x : BitVec w) : BitVec w :=
  match op with
  | .add => old + x
  | .and => old &&& x
  | .or => old ||| x
  | .xor => old ^^^ x
  | .xchg => x

abbrev Mem := BitVec 64 → BitVec 8

/-- The number in `n` bytes, the least significant one first. -/
def Mem.read (mem : Mem) (a : BitVec 64) : ℕ → ℕ
  | 0 => 0
  | n + 1 => (mem a).toNat + 256 * Mem.read mem (a + 1) n

/-- The memory with the low `n` bytes of a number stored. -/
def Mem.write (mem : Mem) (a : BitVec 64) : ℕ → ℕ → Mem
  | 0, _ => mem
  | n + 1, x => update (Mem.write mem (a + 1) n (x / 256)) a (BitVec.ofNat 8 x)

def Ty.ofBits (ty : Ty) (x : ℕ) : Option Val :=
  match ty with
  | .i1 => none
  | .i8 => some (.i8 (BitVec.ofNat 8 x))
  | .i16 => some (.i16 (BitVec.ofNat 16 x))
  | .i32 => some (.i32 (BitVec.ofNat 32 x))
  | .i64 => some (.i64 (BitVec.ofNat 64 x))
  | .ptr => some (.ptr (BitVec.ofNat 64 x))

def Val.toBytes : Val → Option (ℕ × ℕ)
  | .i1 _ => none
  | .i8 x => some (1, x.toNat)
  | .i16 x => some (2, x.toNat)
  | .i32 x => some (4, x.toNat)
  | .i64 x => some (8, x.toNat)
  | .ptr a => some (8, a.toNat)
  | .cell _ _ => none

/-- A read of an element of a local array, of its low bits when the type is narrower. -/
def Ty.ofCell (ty : Ty) (x : BitVec 64) : Option Val :=
  match ty with
  | .i1 => none
  | .i8 => some (.i8 (x.setWidth 8))
  | .i16 => some (.i16 (x.setWidth 16))
  | .i32 => some (.i32 (x.setWidth 32))
  | .i64 => some (.i64 x)
  | .ptr => some (.ptr x)

/-- The element of a local array after a write, of its low bits when the value is narrower. -/
def Val.intoCell (old : BitVec 64) : Val → Option (BitVec 64)
  | .i1 _ => none
  | .i8 x => some (old >>> 8 <<< 8 ||| x.setWidth 64)
  | .i16 x => some (old >>> 16 <<< 16 ||| x.setWidth 64)
  | .i32 x => some (old >>> 32 <<< 32 ||| x.setWidth 64)
  | .i64 x => some x
  | .ptr a => some a
  | .cell _ _ => none

/-- A program state. -/
@[ext]
structure State where
  /-- The elements of the local arrays. -/
  locals : ℕ → ℕ → BitVec 64
  mem : Mem

/-- The state with an element of a local array replaced. -/
def State.setLocal (s : State) (array index : ℕ) (x : BitVec 64) : State :=
  { s with locals := update s.locals array (update (s.locals array) index x) }

structure Host (L F : Type) where
  /-- The addresses of the blocks. -/
  labelAddr : L → BitVec 64
  /-- The lengths of the local arrays that the function keeps to itself. -/
  length : ℕ → ℕ
  /-- The addresses of the local arrays in the flat memory. -/
  frame : ℕ → BitVec 64
  /-- The bits of the arguments. -/
  arg : ℕ → BitVec 64
  /-- The external functions. They return a 64-bit number, and may change the memory. -/
  call : F → List Val → Mem → BitVec 64 × Mem

variable {L F : Type} [DecidableEq L]

def State.load (h : Host L F) (s : State) (ty : Ty) (align : ℕ) : Val → Option Val
  | .ptr a => if a.toNat % align = 0 then ty.ofBits (s.mem.read a ty.bytes) else none
  | .cell array i => if i.toNat < h.length array then ty.ofCell (s.locals array i.toNat) else none
  | _ => none

def State.store (h : Host L F) (s : State) (align : ℕ) (v : Val) : Val → Option State
  | .ptr a =>
    if a.toNat % align = 0 then v.toBytes.map fun b => { s with mem := s.mem.write a b.1 b.2 }
    else none
  | .cell array i =>
    if i.toNat < h.length array then
      (v.intoCell (s.locals array i.toNat)).map fun x => s.setLocal array i.toNat x
    else none
  | _ => none

/-! ## Execution -/

def Operand.eval (h : Host L F) (env : List Val) : Operand L → Option Val
  | .const v => some v
  | .tmp n => env[n]?
  | .label l => some (.ptr (h.labelAddr l))
  | .frame n => some (.ptr (h.frame n))
  | .arg ty n => ty.ofCell (h.arg n)

def Val.unit : Val := .i1 false

def Val.gep (size : ℕ) : Val → Val → Option Val
  | .ptr a, .i64 i => some (.ptr (a + BitVec.ofNat 64 size * i))
  | .ptr a, .i32 i => some (.ptr (a + BitVec.ofNat 64 size * i.signExtend 64))
  | .cell array j, .i64 i => if size = 8 then some (.cell array (j + i)) else none
  | _, _ => none

def RmwOp.exec (op : RmwOp) (s : State) (align : ℕ) (a : BitVec 64) : Val → Option (Val × State)
  | .i32 x =>
    if a.toNat % align = 0 then
      let old := BitVec.ofNat 32 (s.mem.read a 4)
      some (.i32 old, { s with mem := s.mem.write a 4 (op.eval old x).toNat })
    else none
  | .i64 x =>
    if a.toNat % align = 0 then
      let old := BitVec.ofNat 64 (s.mem.read a 8)
      some (.i64 old, { s with mem := s.mem.write a 8 (op.eval old x).toNat })
    else none
  | _ => none

def cmpxchgExec (s : State) (align : ℕ) (a : BitVec 64) : Val → Val → Option (Val × State)
  | .i32 cmp, .i32 new =>
    if a.toNat % align = 0 then
      some (.unit, if BitVec.ofNat 32 (s.mem.read a 4) = cmp then
        { s with mem := s.mem.write a 4 new.toNat } else s)
    else none
  | .i64 cmp, .i64 new =>
    if a.toNat % align = 0 then
      some (.unit, if BitVec.ofNat 64 (s.mem.read a 8) = cmp then
        { s with mem := s.mem.write a 8 new.toNat } else s)
    else none
  | _, _ => none

def Instr.exec (h : Host L F) (env : List Val) (s : State) : Instr L F → Option (Val × State)
  | .load ty align p => do
    let p ← p.eval h env
    return (← s.load h ty align p, s)
  | .store align v p => do
    let v ← v.eval h env
    let p ← p.eval h env
    return (.unit, ← s.store h align v p)
  | .bin op x y => do
    let x ← x.eval h env
    let y ← y.eval h env
    return (← op.apply x y, s)
  | .icmp pred x y => do
    let x ← x.eval h env
    let y ← y.eval h env
    return (← pred.apply x y, s)
  | .select c x y => do
    let c ← c.eval h env
    let x ← x.eval h env
    let y ← y.eval h env
    return (← c.select x y, s)
  | .cast op ty x => do
    let x ← x.eval h env
    return (← op.apply ty x, s)
  | .gep size p i => do
    let p ← p.eval h env
    let i ← i.eval h env
    return (← p.gep size i, s)
  | .call f args => do
    let args ← args.mapM (·.eval h env)
    let r := h.call f args s.mem
    return (.i64 r.1, { s with mem := r.2 })
  | .atomicrmw op align p v => do
    let p ← p.eval h env
    let v ← v.eval h env
    match p with
    | .ptr a => op.exec s align a v
    | _ => none
  | .cmpxchg align p cmp new => do
    let p ← p.eval h env
    let cmp ← cmp.eval h env
    let new ← new.eval h env
    match p with
    | .ptr a => cmpxchgExec s align a cmp new
    | _ => none

/-- Straight-line code: the values of its instructions behind those of `env`, and the state. -/
def execCode (h : Host L F) : List Val → State → List (Instr L F) → Option (List Val × State)
  | env, s, [] => some (env, s)
  | env, s, i :: is =>
    match i.exec h env s with
    | none => none
    | some (v, s') => execCode h (env ++ [v]) s' is

inductive Next (L : Type) where
  | goto (l : L)
  | ret (v : Val)
deriving DecidableEq

def Term.exec (h : Host L F) (env : List Val) : Term L → Option (Next L)
  | .br l => some (.goto l)
  | .condBr c t f =>
    match c.eval h env with
    | some (.i1 b) => some (.goto (if b then t else f))
    | _ => none
  | .indirectBr p dests =>
    match p.eval h env with
    | some (.ptr a) => (dests.find? fun l => h.labelAddr l = a).map .goto
    | _ => none
  | .ret v => (v.eval h env).map .ret

inductive Status (L F : Type) where
  /-- The chunks that follow in the current block, and the state. -/
  | running (rest : List (Chunk L F)) (s : State)
  | returned (v : Val) (s : State)
  /-- The run met something undefined. -/
  | stuck

/-- The execution of a chunk in a function with the given blocks, before the chunks `rest`. -/
def Chunk.exec (h : Host L F) (blocks : L → List (Chunk L F)) (c : Chunk L F)
    (rest : List (Chunk L F)) (s : State) : Status L F :=
  match execCode h [] s c.code with
  | none => .stuck
  | some (env, s') =>
    match c.term with
    | none => .running rest s'
    | some t =>
      match t.exec h env with
      | none => .stuck
      | some (.goto l) => .running (blocks l) s'
      | some (.ret v) => .returned v s'

def Status.next (h : Host L F) (blocks : L → List (Chunk L F)) : Status L F → Status L F
  | .running (c :: rest) s => c.exec h blocks rest s
  | .running [] _ => .stuck
  | .returned v s => .returned v s
  | .stuck => .stuck

def Status.visiting : Status L F → List ℕ
  | .running (c :: _) _ => c.tag.toList
  | _ => []

/-- A run of `n` chunks: the tags that it visits, and how far it comes. -/
def Status.run (h : Host L F) (blocks : L → List (Chunk L F)) (n : ℕ) (st : Status L F) :
    List ℕ × Status L F :=
  Traces.trace (Status.next h blocks) Status.visiting n st

end Bpftime.Ir
