import Bpftime.Ir.Rules

/-!
# Accesses to local arrays

Which local arrays a piece of code reads and writes.
-/

namespace Bpftime.Ir

open Option Instr

variable {L F α β : Type} {h : Host L F} {env : List Val} {s s' : State} {r : Val × State} {align : ℕ}

variable {a : BitVec 64} {array : ℕ} {ty : Ty} {o : Operand L}

lemma RmwOp.exec_locals {op : RmwOp} {v : Val} (hr : op.exec s align a v = some r) :
    r.2.locals = s.locals := by
  cases v with
  | i32 _ | i64 _ =>
    simp only [RmwOp.exec] at hr
    split_ifs at hr
    cases hr
    rfl
  | _ => simp [RmwOp.exec] at hr

lemma cmpxchgExec_locals {cmp new : Val} (hr : cmpxchgExec s align a cmp new = some r) :
    r.2.locals = s.locals := by
  unfold cmpxchgExec at hr
  split at hr
  · split_ifs at hr <;> cases hr <;> rfl
  · split_ifs at hr <;> cases hr <;> rfl
  · cases hr

lemma exec_locals_of_not_store {i : Instr L F} (hi : ∀ align v p, i ≠ .store align v p)
    (hr : i.exec h env s = some r) : r.2.locals = s.locals := by
  cases i with
  | store align v p => exact absurd rfl (hi align v p)
  | atomicrmw op align p v =>
    simp only [exec, bind_eq_bind, bind_eq_some_iff] at hr
    obtain ⟨p, -, v, -, hr⟩ := hr
    cases p with
    | ptr a => exact RmwOp.exec_locals hr
    | _ => cases hr
  | cmpxchg align p cmp new =>
    simp only [exec, bind_eq_bind, bind_eq_some_iff] at hr
    obtain ⟨p, -, cmp, -, new, -, hr⟩ := hr
    cases p with
    | ptr a => exact cmpxchgExec_locals hr
    | _ => cases hr
  | _ =>
    -- The others return the state they got, or change its memory.
    simp only [exec, bind_eq_bind, bind_eq_some_iff, pure_def, some.injEq] at hr
    grind

lemma store_locals {v p : Val} (hp : ∀ i, p ≠ .cell array i)
    (hs : s.store h align v p = some s') : s'.locals array = s.locals array := by
  cases p with
  | ptr a =>
    simp only [State.store] at hs
    split_ifs at hs
    obtain ⟨b, -, rfl⟩ := map_eq_some_iff.mp hs
    rfl
  | cell array' i =>
    have hne : array ≠ array' := fun heq => hp i (by rw [heq])
    simp only [State.store] at hs
    split_ifs at hs
    obtain ⟨x, -, rfl⟩ := map_eq_some_iff.mp hs
    simp [State.setLocal, hne]
  | _ => cases hs

def Instr.touched (h : Host L F) (env : List Val) (i : Instr L F) : Option (ℕ × ℕ) :=
  let p := match i with
    | .load _ _ p => p.eval h env
    | .store _ _ p => p.eval h env
    | _ => none
  match p with
  | some (.cell array j) => some (array, j.toNat)
  | _ => none

/-- The elements of local arrays that code accesses, up to where it is undefined. -/
def execTouched (h : Host L F) : List Val → State → List (Instr L F) → List (ℕ × ℕ)
  | _, _, [] => []
  | env, s, i :: is =>
    (i.touched h env).toList ++ match i.exec h env s with
      | none => []
      | some (v, s') => execTouched h (env ++ [v]) s' is

lemma touched_lt {i : Instr L F} (hr : i.exec h env s = some r) {x : ℕ × ℕ}
    (hx : i.touched h env = some x) : x.2 < h.length x.1 := by
  cases i with
  | load ty align p =>
    simp only [exec, bind_eq_bind, bind_eq_some_iff] at hr
    obtain ⟨v, hv, w, hw, -⟩ := hr
    simp only [touched, hv] at hx
    cases v with
    | cell array j =>
      cases hx
      simp only [State.load] at hw
      split_ifs at hw with hlt
      exact hlt
    | _ => cases hx
  | store align v p =>
    simp only [exec, bind_eq_bind, bind_eq_some_iff] at hr
    obtain ⟨v, -, q, hq, s', hs, -⟩ := hr
    simp only [touched, hq] at hx
    cases q with
    | cell array j =>
      cases hx
      simp only [State.store] at hs
      split_ifs at hs with hlt
      exact hlt
    | _ => cases hx
  | _ => cases hx

lemma execTouched_lt {c : List (Instr L F)} {r : List Val × State}
    (hr : execCode h env s c = some r) : ∀ x ∈ execTouched h env s c, x.2 < h.length x.1 := by
  induction c generalizing env s with
  | nil => simp [execTouched]
  | cons i is ih =>
    intro x hx
    simp only [execCode] at hr
    cases hi : i.exec h env s with
    | none => simp [hi] at hr
    | some r' =>
      simp only [hi] at hr
      simp only [execTouched, hi, List.mem_append, mem_toList] at hx
      rcases hx with hx | hx
      · exact touched_lt hi hx
      · exact ih hr x hx

/-- The operand names no local array but those in `A`. -/
def Operand.Within (A : ℕ → Prop) : Operand L → Prop
  | .const (.cell array _) => A array
  | _ => True

abbrev Operand.Plain (o : Operand L) : Prop := o.Within fun _ => False

/-- The value is no pointer into a local array. -/
def Val.Plain : Val → Prop
  | .cell _ _ => False
  | _ => True

/-- An instruction that reads no local arrays but those in `R`, and writes none but those in `W`. -/
def Instr.Uses (R W : ℕ → Prop) : Instr L F → Prop
  | .load _ _ p => p.Within R
  | .store _ v p => v.Plain ∧ p.Within W
  | .bin _ x y => x.Plain ∧ y.Plain
  | .icmp _ x y => x.Plain ∧ y.Plain
  | .select c x y => c.Plain ∧ x.Plain ∧ y.Plain
  | .cast _ _ x => x.Plain
  | .gep _ p i => p.Plain ∧ i.Plain
  | .call _ args => ∀ a ∈ args, a.Plain
  | .atomicrmw _ _ p v => p.Plain ∧ v.Plain
  | .cmpxchg _ p cmp new => p.Plain ∧ cmp.Plain ∧ new.Plain

lemma plain_ofCell {x : BitVec 64} {v : Val} (hv : ty.ofCell x = some v) : v.Plain := by
  cases ty <;> simp only [Ty.ofCell, some.injEq, reduceCtorEq] at hv <;> subst hv <;> trivial

lemma plain_ofBits {x : ℕ} {v : Val} (hv : ty.ofBits x = some v) : v.Plain := by
  cases ty <;> simp only [Ty.ofBits, some.injEq, reduceCtorEq] at hv <;> subst hv <;> trivial

lemma within_of_eval {A : ℕ → Prop} (henv : ∀ v ∈ env, v.Plain) (ho : o.Within A) {j : BitVec 64}
    (hv : o.eval h env = some (.cell array j)) : A array := by
  cases o with
  | const v =>
    simp only [Operand.eval, some.injEq] at hv
    subst hv
    exact ho
  | tmp n => exact (henv _ (List.mem_of_getElem? hv)).elim
  | label _ | frame _ => cases hv
  | arg ty n => exact (plain_ofCell hv).elim

lemma plain_of_eval (henv : ∀ v ∈ env, v.Plain) (ho : o.Plain) {v : Val}
    (hv : o.eval h env = some v) : v.Plain := by
  cases v with
  | cell array j => exact within_of_eval henv ho hv
  | _ => trivial

/-! ## Soundness -/

section Sound

variable {R W : ℕ → Prop} {i : Instr L F}

lemma plain_into {w : ℕ} {op : CastOp} {ty : Ty} {x : BitVec w} {v : Val}
    (hv : op.into ty x = some v) : v.Plain := by
  cases ty <;> simp only [CastOp.into, some.injEq, reduceCtorEq] at hv <;> subst hv <;> trivial

/-- Instructions yield no pointers into local arrays. -/
lemma plain_of_exec (henv : ∀ v ∈ env, v.Plain) (hi : i.Uses R W) {r : Val × State}
    (hr : i.exec h env s = some r) : r.1.Plain := by
  cases i with
    simp only [exec, bind_eq_bind, bind_eq_some_iff, pure_def, some.injEq] at hr
  | load ty align p =>
    obtain ⟨q, -, v, hv, rfl⟩ := hr
    cases q with
    | ptr a =>
      simp only [State.load] at hv
      split_ifs at hv
      exact plain_ofBits hv
    | cell array j =>
      simp only [State.load] at hv
      split_ifs at hv
      exact plain_ofCell hv
    | _ => cases hv
  | store align v p =>
    obtain ⟨-, -, -, -, s', -, rfl⟩ := hr
    trivial
  | bin op x y =>
    obtain ⟨x, -, y, -, v, hv, rfl⟩ := hr
    unfold BinOp.apply at hv
    split at hv
    · split_ifs at hv
      cases hv
      trivial
    all_goals first
      | (obtain ⟨z, -, rfl⟩ := map_eq_some_iff.mp hv; trivial)
      | cases hv
  | icmp pred x y =>
    obtain ⟨x, -, y, -, v, hv, rfl⟩ := hr
    unfold Pred.apply at hv
    split at hv <;> cases hv <;> trivial
  | select c x y =>
    obtain ⟨c, -, x, hx, y, hy, v, hv, rfl⟩ := hr
    unfold Val.select at hv
    split at hv
    · cases hv
      split_ifs
      · exact plain_of_eval henv hi.2.1 hx
      · exact plain_of_eval henv hi.2.2 hy
    · cases hv
  | cast op ty x =>
    obtain ⟨x, -, v, hv, rfl⟩ := hr
    unfold CastOp.apply at hv
    split at hv
    all_goals first
      | exact plain_into hv
      | cases hv
  | gep size p i =>
    obtain ⟨p, hp, i, -, v, hv, rfl⟩ := hr
    have hplain := plain_of_eval henv hi.1 hp
    unfold Val.gep at hv
    split at hv
    · cases hv
      trivial
    · cases hv
      trivial
    · exact hplain.elim
    · cases hv
  | call f args =>
    obtain ⟨-, -, rfl⟩ := hr
    trivial
  | atomicrmw op align p v =>
    obtain ⟨p, -, v, -, hr⟩ := hr
    cases p with
    | ptr a =>
      simp only at hr
      unfold RmwOp.exec at hr
      split at hr
      · split_ifs at hr
        cases hr
        trivial
      · split_ifs at hr
        cases hr
        trivial
      · cases hr
    | _ => cases hr
  | cmpxchg align p cmp new =>
    obtain ⟨p, -, cmp, -, new, -, hr⟩ := hr
    cases p with
    | ptr a =>
      simp only at hr
      unfold cmpxchgExec at hr
      split at hr
      · split_ifs at hr <;> cases hr <;> trivial
      · split_ifs at hr <;> cases hr <;> trivial
      · cases hr
    | _ => cases hr

variable {array : ℕ}

lemma exec_locals (henv : ∀ v ∈ env, v.Plain) (hi : i.Uses R W) {r : Val × State}
    (hr : i.exec h env s = some r) (harray : ¬ W array) : r.2.locals array = s.locals array := by
  cases i with
  | store align v p =>
    simp only [exec, bind_eq_bind, bind_eq_some_iff, pure_def, some.injEq] at hr
    obtain ⟨v, -, q, hq, s', hs, rfl⟩ := hr
    refine store_locals (fun j hj => ?_) hs
    subst hj
    exact harray (within_of_eval henv hi.2 hq)
  | _ => exact congrFun (exec_locals_of_not_store (by simp) hr) array

lemma touched_within (henv : ∀ v ∈ env, v.Plain) (hi : i.Uses R W) {x : ℕ × ℕ}
    (hx : i.touched h env = some x) : R x.1 ∨ W x.1 := by
  cases i with
  | load ty align p =>
    simp only [touched] at hx
    split at hx
    · rename_i array j hp
      cases hx
      exact .inl (within_of_eval henv hi hp)
    · cases hx
  | store align v p =>
    simp only [touched] at hx
    split at hx
    · rename_i array j hp
      cases hx
      exact .inr (within_of_eval henv hi.2 hp)
    · cases hx
  | _ => cases hx

variable {c : List (Instr L F)}

lemma execCode_locals (henv : ∀ v ∈ env, v.Plain) (hc : ∀ i ∈ c, i.Uses R W)
    {r : List Val × State} (hr : execCode h env s c = some r) (harray : ¬ W array) :
    r.2.locals array = s.locals array := by
  induction c generalizing env s with
  | nil =>
    cases hr
    rfl
  | cons i is ih =>
    simp only [execCode] at hr
    cases hi : i.exec h env s with
    | none => simp [hi] at hr
    | some r' =>
      simp only [hi] at hr
      have huses := hc i (by simp)
      have henv' : ∀ v ∈ env ++ [r'.1], v.Plain := by
        simpa [or_imp, forall_and] using ⟨henv, plain_of_exec henv huses hi⟩
      rw [ih henv' (fun j hj => hc j (by simp [hj])) hr, exec_locals henv huses hi harray]

lemma execTouched_within (henv : ∀ v ∈ env, v.Plain) (hc : ∀ i ∈ c, i.Uses R W) :
    ∀ x ∈ execTouched h env s c, R x.1 ∨ W x.1 := by
  induction c generalizing env s with
  | nil => simp [execTouched]
  | cons i is ih =>
    intro x hx
    have huses := hc i (by simp)
    simp only [execTouched, List.mem_append, mem_toList] at hx
    rcases hx with hx | hx
    · exact touched_within henv huses hx
    · cases hi : i.exec h env s with
      | none => simp [hi] at hx
      | some r' =>
        simp only [hi] at hx
        have henv' : ∀ v ∈ env ++ [r'.1], v.Plain := by
          simpa [or_imp, forall_and] using ⟨henv, plain_of_exec henv huses hi⟩
        exact ih henv' (fun j hj => hc j (by simp [hj])) x hx

end Sound

/-- The value names no local array. -/
abbrev Value.Plain (v : Value L) : Prop := v.operand.Plain

/-- The code of a computation reads no local arrays but those in `R` and writes none but those in
`W`, and its result is in `P`. -/
def Uses (R W : ℕ → Prop) (P : α → Prop) (e : Emit L F α) : Prop :=
  ∀ n, P (e n).1 ∧ ∀ i ∈ (e n).2, i.Uses R W

section Uses

variable {R W : ℕ → Prop} {P : α → Prop} {Q : β → Prop} {e : Emit L F α}
variable {v p x y c : Value L}

lemma uses_pure {a : α} (ha : P a) : Uses R W P (pure a : Emit L F α) := by
  intro n
  refine ⟨ha, fun i hi => ?_⟩
  change i ∈ [] at hi
  cases hi

lemma Uses.bind {f : α → Emit L F β} (he : Uses R W P e) (hf : ∀ a, P a → Uses R W Q (f a)) :
    Uses R W Q (e >>= f) := by
  intro n
  have hf := hf (e n).1 (he n).1 (n + (e n).2.length)
  refine ⟨hf.1, fun i hi => ?_⟩
  rcases List.mem_append.mp hi with hi | hi
  · exact (he n).2 i hi
  · exact hf.2 i hi

lemma uses_emit (ty : Ty) {i : Instr L F} (hi : i.Uses R W) : Uses R W Value.Plain (emit ty i) := by
  intro n
  refine ⟨trivial, fun j hj => ?_⟩
  rw [List.mem_singleton.mp hj]
  exact hi

lemma uses_load (ty : Ty) (hp : p.operand.Within R) :
    Uses R W Value.Plain (createLoad ty p : Emit L F (Value L)) := uses_emit _ hp

lemma uses_store (hv : v.Plain) (hp : p.operand.Within W) :
    Uses R W (fun _ => True) (createStore v p : Emit L F Unit) := by
  refine Uses.bind (P := Value.Plain) (uses_emit _ ?_) fun _ _ => uses_pure trivial
  exact ⟨hv, hp⟩

lemma uses_binOp (op : BinOp) (hx : x.Plain) (hy : y.Plain) :
    Uses R W Value.Plain (createBinOp op x y : Emit L F (Value L)) := uses_emit _ ⟨hx, hy⟩

lemma uses_icmp (pred : Pred) (hx : x.Plain) (hy : y.Plain) :
    Uses R W Value.Plain (createICmp pred x y : Emit L F (Value L)) := uses_emit _ ⟨hx, hy⟩

lemma uses_select (hc : c.Plain) (hx : x.Plain) (hy : y.Plain) :
    Uses R W Value.Plain (createSelect c x y : Emit L F (Value L)) := uses_emit _ ⟨hc, hx, hy⟩

lemma uses_cast (op : CastOp) (hx : x.Plain) (ty : Ty) :
    Uses R W Value.Plain (createCast op x ty : Emit L F (Value L)) := by
  rw [createCast]
  split_ifs
  · exact uses_pure hx
  · exact uses_emit _ hx

lemma uses_gep (size : ℕ) (hp : p.Plain) (hx : x.Plain) :
    Uses R W Value.Plain (createGEP size p x : Emit L F (Value L)) := uses_emit _ ⟨hp, hx⟩

lemma uses_call (f : F) {args : List (Value L)} (hargs : ∀ a ∈ args, a.Plain) :
    Uses R W Value.Plain (createCall f args) := uses_emit _ (by simpa [Instr.Uses] using hargs)

lemma uses_atomicRMW (op : RmwOp) (hp : p.Plain) (hv : v.Plain) (align : ℕ) :
    Uses R W Value.Plain (createAtomicRMW op p v align : Emit L F (Value L)) := uses_emit _ ⟨hp, hv⟩

lemma uses_atomicCmpXchg (hp : p.Plain) (hc : c.Plain) (hv : v.Plain) (align : Option ℕ) :
    Uses R W Value.Plain (createAtomicCmpXchg p c v align : Emit L F (Value L)) := uses_emit _ ⟨hp, hc, hv⟩

lemma Uses.code_locals (he : Uses R W P e) {r : List Val × State}
    (hr : execCode h [] s e.code = some r) {array : ℕ} (harray : ¬ W array) :
    r.2.locals array = s.locals array :=
  execCode_locals (by simp) (he 0).2 hr harray

lemma Uses.code_touched (he : Uses R W P e) : ∀ x ∈ execTouched h [] s e.code, R x.1 ∨ W x.1 :=
  execTouched_within (by simp) (he 0).2

end Uses

end Bpftime.Ir
