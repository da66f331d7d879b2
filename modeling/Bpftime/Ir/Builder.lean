import Bpftime.Ir.Semantics

/-!
# The instruction builder

A builder appends instructions to the code of a chunk, and hands out their values.
-/

namespace Bpftime.Ir

open List

variable {L F : Type} {α β : Type}

structure Value (L : Type) where
  ty : Ty
  operand : Operand L

def Emit (L F α : Type) := ℕ → α × List (Instr L F)

namespace Emit

def pure (a : α) : Emit L F α := fun _ => (a, [])

def bind (e : Emit L F α) (f : α → Emit L F β) : Emit L F β := fun n =>
  let r := e n
  let r' := f r.1 (n + r.2.length)
  (r'.1, r.2 ++ r'.2)

instance : Monad (Emit L F) where
  pure := Emit.pure
  bind := Emit.bind

def code (e : Emit L F α) : List (Instr L F) := (e 0).2

def result (e : Emit L F α) : α := (e 0).1

end Emit

def emit (ty : Ty) (i : Instr L F) : Emit L F (Value L) := fun n => (⟨ty, .tmp n⟩, [i])

def getInt32 (x : BitVec 32) : Value L := ⟨.i32, .const (.i32 x)⟩

def getInt64 (x : BitVec 64) : Value L := ⟨.i64, .const (.i64 x)⟩

def createLoad (ty : Ty) (p : Value L) : Emit L F (Value L) := emit ty (.load ty ty.abiAlign p.operand)

def createStore (v p : Value L) : Emit L F Unit := do
  let _ ← emit .i1 (.store v.ty.abiAlign v.operand p.operand)

def createBinOp (op : BinOp) (x y : Value L) : Emit L F (Value L) := emit x.ty (.bin op x.operand y.operand)

def createICmp (pred : Pred) (x y : Value L) : Emit L F (Value L) :=
  emit .i1 (.icmp pred x.operand y.operand)

def createSelect (c x y : Value L) : Emit L F (Value L) := emit x.ty (.select c.operand x.operand y.operand)

def createCast (op : CastOp) (x : Value L) (ty : Ty) : Emit L F (Value L) :=
  if x.ty = ty then pure x else emit ty (.cast op ty x.operand)

def createGEP (size : ℕ) (p i : Value L) : Emit L F (Value L) := emit .ptr (.gep size p.operand i.operand)

def createCall (f : F) (args : List (Value L)) : Emit L F (Value L) :=
  emit .i64 (.call f (args.map (·.operand)))

def createAtomicRMW (op : RmwOp) (p v : Value L) (align : ℕ) : Emit L F (Value L) :=
  emit v.ty (.atomicrmw op align p.operand v.operand)

def createAtomicCmpXchg (p cmp new : Value L) (align : Option ℕ) : Emit L F (Value L) :=
  emit .i1 (.cmpxchg (align.getD new.ty.bytes) p.operand cmp.operand new.operand)

section Exec

variable (h : Host L F)

lemma execCode_append (env : List Val) (s : State) (c c' : List (Instr L F)) : execCode h env s
    (c ++ c') = (execCode h env s c).bind fun r => execCode h r.1 r.2 c' := by
  induction c generalizing env s with
  | nil => rfl
  | cons i is ih =>
    simp only [cons_append, execCode]
    cases i.exec h env s with
    | none => rfl
    | some r => exact ih _ _

lemma length_of_execCode {env env' : List Val} {s s' : State} {c : List (Instr L F)}
    (hc : execCode h env s c = some (env', s')) : env'.length = env.length + c.length := by
  induction c generalizing env s with
  | nil =>
    simp only [execCode, Option.some.injEq, Prod.mk.injEq] at hc
    simp [hc.1]
  | cons i is ih =>
    simp only [execCode] at hc
    cases hi : i.exec h env s with
    | none => simp [hi] at hc
    | some r =>
      simp only [hi] at hc
      have hlen := ih hc
      simp only [length_append, length_cons, length_nil] at hlen ⊢
      omega

/-- The execution of what a computation emits, after code with the values `env`. -/
def Emit.exec (e : Emit L F α) (env : List Val) (s : State) : Option (α × List Val × State) :=
  let r := e env.length
  (execCode h env s r.2).map fun x => (r.1, x)

@[simp] lemma exec_pure (a : α) (env : List Val) (s : State) :
    (pure a : Emit L F α).exec h env s = some (a, env, s) := rfl

@[simp]
lemma exec_bind (e : Emit L F α) (f : α → Emit L F β) (env : List Val) (s : State) :
    (e >>= f).exec h env s = (e.exec h env s).bind fun r => (f r.1).exec h r.2.1 r.2.2 := by
  change (e.bind f).exec h env s = _
  simp only [Emit.bind, Emit.exec, execCode_append]
  cases hc : execCode h env s (e env.length).2 with
  | none => simp
  | some r =>
    -- The numbers of the later values start behind the values of the first part.
    have hlen := length_of_execCode h hc
    simp [hlen]

lemma exec_emit (ty : Ty) (i : Instr L F) (env : List Val) (s : State) : (emit ty i).exec h env s =
    (i.exec h env s).map fun r => (⟨ty, .tmp env.length⟩, env ++ [r.1], r.2) := by
  simp only [emit, Emit.exec, execCode]
  cases i.exec h env s <;> simp

lemma execCode_code (e : Emit L F α) (s : State) :
    (execCode h [] s e.code).map (fun x => (e.result, x)) = e.exec h [] s := rfl

end Exec

end Bpftime.Ir
