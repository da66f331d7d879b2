import Bpftime.Ir.Rules

/-!
# Divisions that code executes

`execDivisions` lists the divisions and remainders that straight-line code executes, with the values
that they are executed on, up to where the code is undefined.
-/

namespace Bpftime.Ir

open List

variable {L F α β : Type} {h : Host L F} {env : List Val} {s : State}

/-- The operations whose result the language reference leaves undefined for some operands. -/
def BinOp.isDivision : BinOp → Bool
  | .udiv => true
  | .sdiv => true
  | .urem => true
  | .srem => true
  | _ => false

/-- The operands for which it does: a zero divisor, and for signed ones the overflow. -/
def BinOp.Undefined {w : ℕ} (op : BinOp) (x y : BitVec w) : Prop :=
  match op with
  | .udiv => y = 0
  | .urem => y = 0
  | .sdiv => SDivUndefined x y
  | .srem => SDivUndefined x y
  | _ => False

structure Division where
  op : BinOp
  x : Val
  y : Val
deriving DecidableEq

def Division.Undefined (d : Division) : Prop :=
  match d.x, d.y with
  | .i8 x, .i8 y => d.op.Undefined x y
  | .i16 x, .i16 y => d.op.Undefined x y
  | .i32 x, .i32 y => d.op.Undefined x y
  | .i64 x, .i64 y => d.op.Undefined x y
  | _, _ => False

def Instr.isDivision : Instr L F → Bool
  | .bin op _ _ => op.isDivision
  | _ => false

def Instr.division (h : Host L F) (env : List Val) : Instr L F → Option Division
  | .bin op x y => if op.isDivision then (x.eval h env).bind fun x => (y.eval h env).map fun y => ⟨op, x, y⟩ else none
  | _ => none

def execDivisions (h : Host L F) : List Val → State → List (Instr L F) → List Division
  | _, _, [] => []
  | env, s, i :: is =>
    (i.division h env).toList ++ match i.exec h env s with
      | none => []
      | some (v, s') => execDivisions h (env ++ [v]) s' is

lemma Instr.division_eq_none {i : Instr L F} (hi : i.isDivision = false) : i.division h env = none := by
  cases i with
  | bin op x y => exact if_neg (by rw [show op.isDivision = false from hi]; decide)
  | _ => rfl

lemma execDivisions_append (env : List Val) (s : State) (c c' : List (Instr L F)) :
    execDivisions h env s (c ++ c') = execDivisions h env s c ++
    ((execCode h env s c).elim [] fun r => execDivisions h r.1 r.2 c') := by
  induction c generalizing env s with
  | nil => rfl
  | cons i is ih =>
    simp only [cons_append, execDivisions, execCode]
    cases i.exec h env s with
    | none => simp
    | some r => rw [append_assoc, ← ih]

lemma execDivisions_eq_nil {c : List (Instr L F)} (hc : ∀ i ∈ c, i.isDivision = false)
    (env : List Val) (s : State) :
    execDivisions h env s c = [] := by
  induction c generalizing env s with
  | nil => rfl
  | cons i is ih =>
    rw [execDivisions, Instr.division_eq_none (hc i mem_cons_self)]
    cases i.exec h env s with
    | none => rfl
    | some r => exact ih (fun j hj => hc j (mem_cons_of_mem _ hj)) _ _

/-- The divisions that emitted code executes behind code with the values `env`. -/
def Emit.divisions (h : Host L F) (e : Emit L F α) (env : List Val) (s : State) : List Division :=
  execDivisions h env s (e env.length).2

def Emit.Undivided (e : Emit L F α) : Prop := ∀ n, ∀ i ∈ (e n).2, i.isDivision = false

lemma divisions_bind (e : Emit L F α) (f : α → Emit L F β) (env : List Val) (s : State) :
    (e >>= f).divisions h env s = e.divisions h env s ++
    ((e.exec h env s).elim [] fun r => (f r.1).divisions h r.2.1 r.2.2) := by
  change (e.bind f).divisions h env s = _
  simp only [Emit.bind, Emit.divisions, Emit.exec, execDivisions_append]
  cases hc : execCode h env s (e env.length).2 with
  | none => simp
  | some r =>
    have hlen := length_of_execCode h hc
    simp [hlen]

section Undivided

variable {e : Emit L F α} {f : α → Emit L F β}

lemma Emit.Undivided.divisions (he : e.Undivided) (env : List Val) (s : State) : e.divisions h env s = [] :=
  execDivisions_eq_nil (he _) env s

lemma undivided_pure (a : α) : (pure a : Emit L F α).Undivided := fun _ _ hi => absurd hi not_mem_nil

lemma Emit.Undivided.bind (he : e.Undivided) (hf : ∀ a, (f a).Undivided) : (e >>= f).Undivided := by
  intro n i hi
  change i ∈ (e.bind f n).2 at hi
  rcases mem_append.mp hi with hi | hi
  · exact he n i hi
  · exact hf _ _ i hi

variable {ty : Ty}

lemma undivided_emit {i : Instr L F} (hi : i.isDivision = false) : (emit ty i).Undivided := by
  intro n j hj
  obtain rfl := mem_singleton.mp hj
  exact hi

lemma undivided_load (ty : Ty) (p : Value L) : (createLoad ty p : Emit L F (Value L)).Undivided :=
  undivided_emit rfl

lemma undivided_store (v p : Value L) : (createStore v p : Emit L F Unit).Undivided :=
  (undivided_emit rfl).bind fun _ => undivided_pure _

lemma undivided_icmp (pred : Pred) (x y : Value L) : (createICmp pred x y : Emit L F (Value L)).Undivided :=
  undivided_emit rfl

lemma undivided_select (c x y : Value L) : (createSelect c x y : Emit L F (Value L)).Undivided :=
  undivided_emit rfl

lemma undivided_cast (op : CastOp) (x : Value L) (ty : Ty) :
    (createCast op x ty : Emit L F (Value L)).Undivided := by
  unfold createCast
  split_ifs
  · exact undivided_pure x
  · exact undivided_emit rfl

variable {op : BinOp} {x : Val}

lemma undivided_binOp (hop : op.isDivision = false) (x y : Value L) :
    (createBinOp op x y : Emit L F (Value L)).Undivided := undivided_emit hop

lemma divisions_bind_undivided (hf : ∀ a, (f a).Undivided) (env : List Val) (s : State) :
    (e >>= f).divisions h env s = e.divisions h env s := by
  rw [divisions_bind]
  cases e.exec h env s with
  | none => exact append_nil _
  | some r => rw [Option.elim_some, (hf _).divisions, append_nil]

lemma Yields.divisions {e : Emit L F (Value L)} {f : Value L → Emit L F β} {ds : List Division}
    (hy : Yields h env s e ty (some x)) (he : e.Undivided)
    (hf : ∀ v vals, v.Holds h (env ++ vals) ty x → (f v).divisions h (env ++ vals) s = ds) :
    (e >>= f).divisions h env s = ds := by
  obtain ⟨v, vals, hexec, hv⟩ := hy
  rw [divisions_bind, he.divisions, hexec]
  exact hf v vals hv

lemma divisions_binOp (hop : op.isDivision = true) {a b : Value L} {y : Val}
    (ha : a.Holds h env ty x) (hb : b.Holds h env ty y) :
    (createBinOp op a b : Emit L F (Value L)).divisions h env s = [⟨op, x, y⟩] := by
  have hdivision : Instr.division h env (.bin op a.operand b.operand : Instr L F) = some ⟨op, x, y⟩ := by
    rw [Instr.division, if_pos hop, ha.eval_self, hb.eval_self]
    rfl
  change execDivisions h env s [.bin op a.operand b.operand] = _
  rw [execDivisions, hdivision]
  cases Instr.exec h env s (.bin op a.operand b.operand : Instr L F) <;> rfl

end Undivided

end Bpftime.Ir
