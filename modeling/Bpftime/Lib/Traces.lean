import Mathlib.Tactic

/-!
# Traces of machines, and stuttering simulations

A machine that steps from state to state and shows something at each step.
-/

namespace Bpftime.Traces

open List

variable {σ τ O : Type}

/-- What a machine shows in `n` steps, and the state it comes to. -/
def trace (next : σ → σ) (obs : σ → List O) : ℕ → σ → List O × σ
  | 0, s => ([], s)
  | n + 1, s => ((obs s ++ (trace next obs n (next s)).1), (trace next obs n (next s)).2)

section Machine

variable {next : σ → σ} {obs : σ → List O} {s : σ}

lemma trace_add (m n : ℕ) (s : σ) : trace next obs (m + n) s =
    ((trace next obs m s).1 ++ (trace next obs n (trace next obs m s).2).1,
    (trace next obs n (trace next obs m s).2).2) := by
  induction m generalizing s with
  | zero => simp [trace]
  | succ m ih =>
    rw [Nat.succ_add, trace, ih, trace]
    simp

lemma trace_isPrefix {m n : ℕ} (h : m ≤ n) (s : σ) : (trace next obs m s).1 <+: (trace next obs n s).1 := by
  obtain ⟨d, rfl⟩ := Nat.exists_eq_add_of_le h
  rw [trace_add]
  exact prefix_append _ _

lemma exists_trace_of_isPrefix (hobs : ∀ s, (obs s).length ≤ 1) {n : ℕ} {l : List O}
    (h : l <+: (trace next obs n s).1) : ∃ m ≤ n, (trace next obs m s).1 = l := by
  induction n generalizing s l with
  | zero => exact ⟨0, le_rfl, (prefix_nil.mp h).symm⟩
  | succ n ih =>
    rw [trace] at h
    cases hs : obs s with
    | nil =>
      rw [hs, nil_append] at h
      obtain ⟨m, hm, rfl⟩ := ih h
      exact ⟨m + 1, by omega, by rw [trace, hs, nil_append]⟩
    | cons o os =>
      have hos : os = [] := by
        have := hobs s
        rw [hs, length_cons] at this
        exact length_eq_zero_iff.mp (by omega)
      rw [hs, hos, singleton_append, prefix_cons_iff] at h
      rcases h with rfl | ⟨t, rfl, h⟩
      · exact ⟨0, by omega, rfl⟩
      · obtain ⟨m, hm, rfl⟩ := ih h
        exact ⟨m + 1, by omega, by rw [trace, hs, hos, singleton_append]⟩

end Machine

section Silent

variable {next : σ → σ} {obs : σ → List O} {s s' s'' : σ}

/-- The machine comes from one state to another, and shows nothing on the way. -/
def Silent (next : σ → σ) (obs : σ → List O) (s s' : σ) : Prop := ∃ n, trace next obs n s = ([], s')

lemma Silent.refl (s : σ) : Silent next obs s s := ⟨0, rfl⟩

lemma Silent.head (hobs : obs s = []) (h : Silent next obs (next s) s') : Silent next obs s s' := by
  obtain ⟨n, hn⟩ := h
  exact ⟨n + 1, by rw [trace, hn, hobs, nil_append]⟩

lemma Silent.eq_or_head (h : Silent next obs s s') :
    s = s' ∨ (obs s = [] ∧ Silent next obs (next s) s') := by
  obtain ⟨n, hn⟩ := h
  cases n with
  | zero => exact .inl (congrArg Prod.snd hn)
  | succ n =>
    simp only [trace, Prod.mk.injEq, append_eq_nil_iff] at hn
    exact .inr ⟨hn.1.1, n, Prod.ext hn.1.2 hn.2⟩

lemma Silent.eq_of_ne_nil (h : Silent next obs s s') (hobs : obs s ≠ []) : s = s' :=
  h.eq_or_head.resolve_right fun hhead => hobs hhead.1

lemma Silent.unique (h : Silent next obs s s') (h' : Silent next obs s s'')
    (hobs : obs s' ≠ []) (hobs' : obs s'' ≠ []) : s' = s'' := by
  obtain ⟨n, hn⟩ := h
  induction n generalizing s with
  | zero =>
    cases hn
    exact h'.eq_of_ne_nil hobs
  | succ n ih =>
    simp only [trace, Prod.mk.injEq, append_eq_nil_iff] at hn
    rcases h'.eq_or_head with rfl | ⟨-, htail⟩
    · exact absurd hn.1.1 hobs'
    · exact ih htail (Prod.ext hn.1.2 hn.2)

end Silent

section Simulation

variable {next : σ → σ} {obs : σ → List O} {next' : τ → τ} {obs' : τ → List O} {R : σ → τ → Prop}

/-- The second machine matches each step of the first by silent steps and one that shows the
same. -/
def Simulates (next : σ → σ) (obs : σ → List O) (next' : τ → τ) (obs' : τ → List O)
    (R : σ → τ → Prop) : Prop :=
  ∀ s t, R s t → ∃ t', Silent next' obs' t t' ∧ obs' t' = obs s ∧ R (next s) (next' t')

lemma Simulates.match_run (hsim : Simulates next obs next' obs' R) {s : σ} {t : τ} (hR : R s t)
    (k : ℕ) : ∃ m ≥ k, (trace next' obs' m t).1 = (trace next obs k s).1 ∧
    R (trace next obs k s).2 (trace next' obs' m t).2 := by
  induction k generalizing s t with
  | zero => exact ⟨0, le_rfl, rfl, hR⟩
  | succ k ih =>
    obtain ⟨t', ⟨n, hn⟩, hobs, hR'⟩ := hsim s t hR
    obtain ⟨m, hm, hshown, hR''⟩ := ih hR'
    -- The silent steps, one step, and those for the rest of the run.
    have hsteps : trace next' obs' (n + (m + 1)) t =
        (obs s ++ (trace next' obs' m (next' t')).1, (trace next' obs' m (next' t')).2) := by
      rw [trace_add, hn, trace, hobs, nil_append]
    refine ⟨n + (m + 1), by omega, ?_, ?_⟩
    · rw [hsteps, hshown, trace]
    · rw [hsteps, trace]
      exact hR''

lemma Simulates.match_shown (hsim : Simulates next obs next' obs' R)
    (hobs : ∀ s, (obs s).length ≤ 1) {s : σ} {t : τ} (hR : R s t) (m : ℕ) :
    ∃ k ≤ m, (trace next obs k s).1 = (trace next' obs' m t).1 := by
  obtain ⟨m', hm', hshown, -⟩ := hsim.match_run hR m
  have hprefix : (trace next' obs' m t).1 <+: (trace next' obs' m' t).1 := trace_isPrefix hm' t
  rw [hshown] at hprefix
  exact exists_trace_of_isPrefix hobs hprefix

end Simulation

end Bpftime.Traces
