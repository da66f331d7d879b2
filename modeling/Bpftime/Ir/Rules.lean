import Bpftime.Ir.Builder

/-!
# Rules for emitted code

What a computation with a builder makes the emitted code compute.
-/

namespace Bpftime.Ir

open Option Instr Term Chunk

variable {L F α : Type} {h : Host L F} {env : List Val} {s s' : State}

/-- The value has a type and is known, and stays so when more instructions follow. -/
structure Value.Holds (h : Host L F) (env : List Val) (v : Value L) (ty : Ty) (x : Val) : Prop where
  ty_eq : v.ty = ty
  eval : ∀ rest, v.operand.eval h (env ++ rest) = some x

namespace Value.Holds

variable {v : Value L} {ty : Ty} {x : Val}

lemma mono (hv : v.Holds h env ty x) (vals : List Val) : v.Holds h (env ++ vals) ty x where
  ty_eq := hv.ty_eq
  eval rest := by rw [List.append_assoc]; exact hv.eval _

lemma eval_self (hv : v.Holds h env ty x) : v.operand.eval h env = some x := by simpa using hv.eval []

lemma last (ty : Ty) (x : Val) : (⟨ty, .tmp env.length⟩ : Value L).Holds h (env ++ [x]) ty x where
  ty_eq := rfl
  eval rest := by simp [Operand.eval]

lemma const (ty : Ty) (x : Val) : (⟨ty, .const x⟩ : Value L).Holds h env ty x where
  ty_eq := rfl
  eval _ := rfl

lemma int32 (x : BitVec 32) : (getInt32 x : Value L).Holds h env .i32 (.i32 x) := const _ _

lemma int64 (x : BitVec 64) : (getInt64 x : Value L).Holds h env .i64 (.i64 x) := const _ _

end Value.Holds

/-! ## Code that computes a value -/

/-- The code computes a value of type `ty`, or is undefined if there is none. -/
def Yields (h : Host L F) (env : List Val) (s : State) (e : Emit L F (Value L)) (ty : Ty) : Option Val → Prop
  | some x => ∃ v vals, e.exec h env s = some (v, env ++ vals, s) ∧ v.Holds h (env ++ vals) ty x
  | none => e.exec h env s = none

section Yields

variable {e : Emit L F (Value L)} {f : Value L → Emit L F (Value L)} {ty ty' : Ty} {x y c : Val}
variable {v p a b : Value L} {r : Option Val}

lemma yields_pure (hv : v.Holds h env ty x) : Yields h env s (pure v) ty (some x) :=
  ⟨v, [], by simp, by simpa using hv⟩

lemma Yields.bind (he : Yields h env s e ty (some x))
    (hf : ∀ v vals, v.Holds h (env ++ vals) ty x → Yields h (env ++ vals) s (f v) ty' r) :
    Yields h env s (e >>= f) ty' r := by
  obtain ⟨v, vals, hexec, hv⟩ := he
  have hr := hf v vals hv
  cases r with
  | none =>
    change (e >>= f).exec h env s = none
    rw [exec_bind, hexec]
    exact hr
  | some y =>
    obtain ⟨w, vals', hexec', hw⟩ := hr
    refine ⟨w, vals ++ vals', ?_, by simpa using hw⟩
    rw [exec_bind, hexec]
    simpa using hexec'

lemma Yields.bind_none (he : Yields h env s e ty none) : Yields h env s (e >>= f) ty' none := by
  change (e >>= f).exec h env s = none
  rw [exec_bind, show e.exec h env s = none from he]
  rfl

lemma yields_emit {i : Instr L F} (hi : i.exec h env s = r.map fun x => (x, s)) :
    Yields h env s (emit ty i) ty r := by
  cases r with
  | none =>
    change (emit ty i).exec h env s = none
    rw [exec_emit, hi]
    rfl
  | some x => exact ⟨_, [x], by rw [exec_emit, hi]; rfl, Value.Holds.last ty x⟩

lemma yields_load (hp : p.Holds h env .ptr x) :
    Yields h env s (createLoad ty p) ty (s.load h ty ty.abiAlign x) := by
  refine yields_emit ?_
  simp only [Instr.exec, hp.eval_self, bind_eq_bind, bind_some]
  cases s.load h ty ty.abiAlign x <;> rfl

lemma yields_binOp (op : BinOp) (ha : a.Holds h env ty x) (hb : b.Holds h env ty y) :
    Yields h env s (createBinOp op a b) ty (op.apply x y) := by
  rw [createBinOp, ha.ty_eq]
  refine yields_emit ?_
  simp only [Instr.exec, ha.eval_self, hb.eval_self, bind_eq_bind, bind_some]
  cases op.apply x y <;> rfl

lemma yields_icmp (pred : Pred) (ha : a.Holds h env ty x) (hb : b.Holds h env ty y) :
    Yields h env s (createICmp pred a b) .i1 (pred.apply x y) := by
  refine yields_emit ?_
  simp only [Instr.exec, ha.eval_self, hb.eval_self, bind_eq_bind, bind_some]
  cases pred.apply x y <;> rfl

lemma yields_select {t : Bool} (hv : v.Holds h env .i1 (.i1 t)) (ha : a.Holds h env ty x)
    (hb : b.Holds h env ty y) :
    Yields h env s (createSelect v a b) ty (some (if t then x else y)) := by
  rw [createSelect, ha.ty_eq]
  refine yields_emit ?_
  simp [Instr.exec, hv.eval_self, ha.eval_self, hb.eval_self, Val.select]

lemma yields_cast (op : CastOp) (ha : a.Holds h env ty x) (hne : ty ≠ ty') :
    Yields h env s (createCast op a ty') ty' (op.apply ty' x) := by
  rw [createCast, if_neg (by rw [ha.ty_eq]; exact hne)]
  refine yields_emit ?_
  simp only [Instr.exec, ha.eval_self, bind_eq_bind, bind_some]
  cases op.apply ty' x <;> rfl

lemma yields_cast_self (op : CastOp) (ha : a.Holds h env ty x) :
    Yields h env s (createCast op a ty) ty (some x) := by
  rw [createCast, if_pos ha.ty_eq]
  exact yields_pure ha

lemma yields_gep (size : ℕ) (ha : a.Holds h env .ptr x) (hb : b.Holds h env ty y) :
    Yields h env s (createGEP size a b) .ptr (x.gep size y) := by
  refine yields_emit ?_
  simp only [Instr.exec, ha.eval_self, hb.eval_self, bind_eq_bind, bind_some]
  cases x.gep size y <;> rfl

end Yields

structure IntTy where
  width : ℕ
  ty : Ty
  val : BitVec width → Val
  pos : 0 < width
  bin : ∀ (op : BinOp) x y, op.apply (val x) (val y) = (op.eval x y).map val
  icmp : ∀ (pred : Pred) x y, pred.apply (val x) (val y) = some (.i1 (pred.eval x y))

def int32 : IntTy := ⟨32, .i32, .i32, by norm_num, fun _ _ _ => rfl, fun _ _ _ => rfl⟩

def int64 : IntTy := ⟨64, .i64, .i64, by norm_num, fun _ _ _ => rfl, fun _ _ _ => rfl⟩

section IntTy

variable {I : IntTy} {x y : BitVec I.width} {a b : Value L}

lemma IntTy.yields_binOp (op : BinOp) (ha : a.Holds h env I.ty (I.val x))
    (hb : b.Holds h env I.ty (I.val y)) :
    Yields h env s (createBinOp op a b) I.ty ((op.eval x y).map I.val) := by
  rw [← I.bin]
  exact Ir.yields_binOp op ha hb

lemma IntTy.yields_icmp (pred : Pred) (ha : a.Holds h env I.ty (I.val x))
    (hb : b.Holds h env I.ty (I.val y)) :
    Yields h env s (createICmp pred a b) .i1 (some (.i1 (pred.eval x y))) := by
  rw [← I.icmp]
  exact Ir.yields_icmp pred ha hb

end IntTy

/-- The code leaves the state `s'`, or is undefined if there is none. -/
def Leaves (h : Host L F) (env : List Val) (s : State) (e : Emit L F α) (r : Option State) : Prop :=
  (e.exec h env s).map (·.2.2) = r

section Leaves

variable {β : Type} {e : Emit L F (Value L)} {ty : Ty} {x y : Val} {v p : Value L}
variable {r : Option State}

lemma leaves_nil_iff {e : Emit L F α} : Leaves h [] s e r ↔ (execCode h [] s e.code).map (·.2) = r := by
  rw [Leaves, ← execCode_code, map_map]
  rfl

lemma leaves_pure (a : α) : Leaves h env s (pure a : Emit L F α) (some s) := rfl

lemma Yields.leaves {f : Value L → Emit L F β} (he : Yields h env s e ty (some x))
    (hf : ∀ v vals, v.Holds h (env ++ vals) ty x → Leaves h (env ++ vals) s (f v) r) :
    Leaves h env s (e >>= f) r := by
  obtain ⟨v, vals, hexec, hv⟩ := he
  rw [Leaves, exec_bind, hexec]
  exact hf v vals hv

lemma Yields.leaves_none {f : Value L → Emit L F β} (he : Yields h env s e ty none) :
    Leaves h env s (e >>= f) none := by
  rw [Leaves, exec_bind, show e.exec h env s = none from he]
  rfl

lemma exec_createStore (hv : v.Holds h env ty x) (hp : p.Holds h env .ptr y) :
    (createStore v p : Emit L F Unit).exec h env s =
    (s.store h ty.abiAlign x y).map fun s' => ((), env ++ [.unit], s') := by
  rw [createStore, exec_bind, exec_emit]
  simp only [Instr.exec, hv.eval_self, hp.eval_self, hv.ty_eq, bind_eq_bind, bind_some]
  cases s.store h ty.abiAlign x y <;> rfl

lemma leaves_store (hv : v.Holds h env ty x) (hp : p.Holds h env .ptr y) :
    Leaves h env s (createStore v p) (s.store h ty.abiAlign x y) := by
  rw [Leaves, exec_createStore hv hp]
  cases s.store h ty.abiAlign x y <;> rfl

lemma exists_append_of_execCode {env env' : List Val} {c : List (Instr L F)}
    (hc : execCode h env s c = some (env', s')) : ∃ vals, env' = env ++ vals := by
  induction c generalizing env s with
  | nil =>
    simp only [execCode, some.injEq, Prod.mk.injEq] at hc
    exact ⟨[], by simp [hc.1]⟩
  | cons i is ih =>
    simp only [execCode] at hc
    cases hi : i.exec h env s with
    | none => simp [hi] at hc
    | some r =>
      simp only [hi] at hc
      obtain ⟨vals, rfl⟩ := ih hc
      exact ⟨r.1 :: vals, by simp⟩

lemma Leaves.exists_exec {e : Emit L F α} (he : Leaves h env s e (some s')) :
    ∃ a vals, e.exec h env s = some (a, env ++ vals, s') := by
  obtain ⟨⟨a, env', t⟩, hexec, rfl⟩ := map_eq_some_iff.mp he
  obtain ⟨⟨env1, t1⟩, hcode, heq⟩ := map_eq_some_iff.mp hexec
  obtain ⟨vals, rfl⟩ := exists_append_of_execCode hcode
  cases heq
  exact ⟨_, vals, hexec⟩

lemma Leaves.bind {e : Emit L F α} {f : α → Emit L F β} (he : Leaves h env s e (some s'))
    (hf : ∀ a vals, Leaves h (env ++ vals) s' (f a) r) : Leaves h env s (e >>= f) r := by
  obtain ⟨a, vals, hexec⟩ := he.exists_exec
  rw [Leaves, exec_bind, hexec]
  exact hf a vals

lemma Leaves.bind_none {e : Emit L F α} {f : α → Emit L F β} (he : Leaves h env s e none) :
    Leaves h env s (e >>= f) none := by
  rw [Leaves, exec_bind, map_eq_none_iff.mp he]
  rfl

end Leaves

/-- The code leaves the state `s'`, and its terminator leads to `o`, or there is no terminator. -/
def Ends (h : Host L F) (env : List Val) (s : State) (e : Emit L F (Option (Term L)))
    (o : Option (Next L)) (s' : State) : Prop :=
  ∃ t env', e.exec h env s = some (t, env', s') ∧
    t.elim (some none) (fun t => (t.exec h env').map some) = some o

section Ends

variable {e : Emit L F (Value L)} {ty : Ty} {x : Val} {o : Option (Next L)} {s1 : State}

lemma ends_bind {e : Emit L F α} {f : α → Emit L F (Option (Term L))} {a : α} {env1 : List Val}
    (he : e.exec h env s = some (a, env1, s1)) (hf : Ends h env1 s1 (f a) o s') :
    Ends h env s (e >>= f) o s' := by
  obtain ⟨t, env', hexec', ht⟩ := hf
  exact ⟨t, env', by rw [exec_bind, he]; exact hexec', ht⟩

lemma Yields.ends {f : Value L → Emit L F (Option (Term L))} (he : Yields h env s e ty (some x))
    (hf : ∀ v vals, v.Holds h (env ++ vals) ty x → Ends h (env ++ vals) s (f v) o s') :
    Ends h env s (e >>= f) o s' := by
  obtain ⟨v, vals, hexec, hv⟩ := he
  exact ends_bind hexec (hf v vals hv)

lemma Leaves.ends {e : Emit L F α} {f : α → Emit L F (Option (Term L))}
    (he : Leaves h env s e (some s1)) (hf : ∀ a vals, Ends h (env ++ vals) s1 (f a) o s') :
    Ends h env s (e >>= f) o s' := by
  obtain ⟨a, vals, hexec⟩ := he.exists_exec
  exact ends_bind hexec (hf a vals)

lemma exec_createCall (g : F) {args : List (Value L)} {xs : List Val}
    (hargs : List.Forall₂ (fun v x => ∃ ty, v.Holds h env ty x) args xs) :
    (createCall g args).exec h env s = some (⟨.i64, .tmp env.length⟩,
    env ++ [.i64 (h.call g xs s.mem).1], { s with mem := (h.call g xs s.mem).2 }) := by
  have hxs : (args.map (·.operand)).mapM (·.eval h env) = some xs := by
    induction hargs with
    | nil => rfl
    | cons hv _ ih =>
      obtain ⟨ty, hv⟩ := hv
      simp [List.mapM_cons, hv.eval_self, ih]
  rw [createCall, exec_emit]
  simp [Instr.exec, hxs]

lemma ends_none : Ends h env s (pure none) none s := ⟨none, env, rfl, rfl⟩

lemma ends_br (l : L) : Ends h env s (pure (some (.br l))) (some (.goto l)) s := ⟨_, env, rfl, rfl⟩

lemma ends_condBr {c : Value L} {t : Bool} (hc : c.Holds h env .i1 (.i1 t)) (l l' : L) :
    Ends h env s (pure (some (.condBr c.operand l l'))) (some (.goto (if t then l else l'))) s := by
  refine ⟨_, env, rfl, ?_⟩
  change ((condBr c.operand l l').exec h env).map some = _
  simp [Term.exec, hc.eval_self]

lemma ends_ret {v : Value L} (hv : v.Holds h env ty x) :
    Ends h env s (pure (some (.ret v.operand))) (some (.ret x)) s := by
  refine ⟨_, env, rfl, ?_⟩
  change ((ret v.operand).exec h env).map some = _
  simp [Term.exec, hv.eval_self]

lemma ends_indirectBr {v : Value L} {a : BitVec 64} (hv : v.Holds h env .ptr (.ptr a))
    {dests : List L} {l : L} (hl : dests.find? (fun l => h.labelAddr l = a) = some l) :
    Ends h env s (pure (some (.indirectBr v.operand dests))) (some (.goto l)) s := by
  refine ⟨_, env, rfl, ?_⟩
  change ((indirectBr v.operand dests).exec h env).map some = _
  simp [Term.exec, hv.eval_self, hl]

def Next.status (blocks : L → List (Chunk L F)) (rest : List (Chunk L F)) (s : State) :
    Option (Next L) → Status L F
  | none => .running rest s
  | some (.goto l) => .running (blocks l) s
  | some (.ret v) => .returned v s

lemma Ends.chunk_exec {e : Emit L F (Option (Term L))} (he : Ends h [] s e o s')
    (tag : Option ℕ) (blocks : L → List (Chunk L F)) (rest : List (Chunk L F)) :
    exec h blocks ⟨tag, e.code, e.result⟩ rest s = Next.status blocks rest s' o := by
  obtain ⟨t, env', hexec, ht⟩ := he
  obtain ⟨⟨env1, t1⟩, hcode, heq⟩ := map_eq_some_iff.mp hexec
  cases heq
  have hcode : execCode h [] s e.code = some (env', s') := hcode
  simp only [Chunk.exec, hcode]
  change (e 0).1.elim _ _ = _ at ht
  rw [Emit.result]
  cases hres : (e 0).1 with
  | none =>
    simp only [hres, elim_none, some.injEq] at ht
    subst ht
    rfl
  | some t =>
    simp only [hres, elim_some] at ht
    obtain ⟨n, hn, rfl⟩ := map_eq_some_iff.mp ht
    simp only [hn]
    cases n <;> rfl

lemma Ends.result_eq_none {e : Emit L F (Option (Term L))} (he : Ends h [] s e none s') :
    e.result = none := by
  obtain ⟨t, env', hexec, ht⟩ := he
  obtain ⟨⟨env1, t1⟩, hcode, heq⟩ := map_eq_some_iff.mp hexec
  cases heq
  change (e 0).1.elim _ _ = _ at ht
  rw [Emit.result]
  cases hres : (e 0).1 with
  | none => rfl
  | some t => simp [hres] at ht

lemma chunk_exec_of_result_none {e : Emit L F (Option (Term L))} (hres : e.result = none)
    (tag : Option ℕ) (blocks : L → List (Chunk L F)) (rest : List (Chunk L F)) :
    exec h blocks ⟨tag, e.code, e.result⟩ rest s = match (execCode h [] s e.code).map (·.2) with
      | none => .stuck
      | some s' => .running rest s' := by
  simp only [Chunk.exec, hres]
  cases execCode h [] s e.code <;> rfl

end Ends

end Bpftime.Ir
