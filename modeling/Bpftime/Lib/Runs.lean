import Mathlib.Tactic

/-!
# Runs of a machine

A machine reads one operation after another, and at each answers with a result and a new state, or
fails.
-/

namespace Bpftime.Runs

open Option List

variable {S O R A : Type*}

/-- The results of a list of operations and the state after them, unless one of them fails. -/
def run (step : S → O → Option (R × S)) : S → List O → Option (List R × S)
  | s, [] => some ([], s)
  | s, o :: os =>
    match step s o with
    | none => none
    | some (r, s') =>
      match run step s' os with
      | none => none
      | some (rs, s'') => some (r :: rs, s'')

/-- Every step of the run from `s` meets the condition `C`. -/
def Along (step : S → O → Option (R × S)) (C : S → O → Prop) : S → List O → Prop
  | _, [] => True
  | s, o :: os => C s o ∧ ∀ r s', step s o = some (r, s') → Along step C s' os

def answers (astep : A → O → R × A) : A → List O → List R × A
  | a, [] => ([], a)
  | a, o :: os => ((astep a o).1 :: (answers astep (astep a o).2 os).1, (answers astep (astep a o).2 os).2)

variable {step : S → O → Option (R × S)} {C : S → O → Prop}

/-- Whether a condition holds along a run can be computed when each of its steps can be. -/
def decidableAlong [∀ s o, Decidable (C s o)] (s : S) : (os : List O) → Decidable (Along step C s os)
  | [] => isTrue trivial
  | o :: os =>
    match h : step s o with
    | none => decidable_of_iff (C s o) ⟨fun hC => ⟨hC, by simp [h]⟩, And.left⟩
    | some (_, s') =>
      haveI := decidableAlong s' os
      decidable_of_iff (C s o ∧ Along step C s' os) (by simp [Along, h])

instance [∀ s o, Decidable (C s o)] (s : S) (os : List O) : Decidable (Along step C s os) :=
  decidableAlong s os

variable {os : List O} {s s' : S} {o : O} {rs : List R} {D : S → O → Prop} {P : S → Prop}

lemma run_cons {r : R} (h : step s o = some (r, s')) :
    run step s (o :: os) = (run step s' os).map fun p => (r :: p.1, p.2) := by
  simp only [run, h]
  cases hos : run step s' os with
  | none => rfl
  | some p => rfl

lemma run_cons_eq_some {s'' : S} (h : run step s (o :: os) = some (rs, s'')) :
    ∃ r s' rs', step s o = some (r, s') ∧ run step s' os = some (rs', s'') ∧ rs = r :: rs' := by
  cases hstep : step s o with
  | none => simp [run, hstep] at h
  | some p =>
    rw [run_cons hstep] at h
    obtain ⟨⟨rs', s'⟩, hrs', heq⟩ := map_eq_some_iff.mp h
    cases heq
    exact ⟨p.1, p.2, rs', rfl, hrs', rfl⟩

variable {os' : List O}

lemma run_append (h : run step s os = some (rs, s')) :
    run step s (os ++ os') = (run step s' os').map fun p => (rs ++ p.1, p.2) := by
  induction os generalizing s rs with
  | nil =>
    cases h
    simp
  | cons o os ih =>
    obtain ⟨r, s1, rs1, hstep, hrun, rfl⟩ := run_cons_eq_some h
    rw [List.cons_append, run_cons hstep, ih hrun, Option.map_map]
    rfl

lemma along_of_forall_mem (h : ∀ o ∈ os, ∀ s, C s o) : Along step C s os := by
  induction os generalizing s with
  | nil => trivial
  | cons o os ih => exact ⟨h o (by simp) s, fun _ _ _ => ih fun o' ho' => h o' (by simp [ho'])⟩

lemma Along.and (h : Along step C s os) (h' : Along step D s os) :
    Along step (fun s o => C s o ∧ D s o) s os := by
  induction os generalizing s with
  | nil => trivial
  | cons o os ih => exact ⟨⟨h.1, h'.1⟩, fun r s' hstep => ih (h.2 r s' hstep) (h'.2 r s' hstep)⟩

lemma Along.append (h : Along step C s os) (hrun : run step s os = some (rs, s'))
    (h' : Along step C s' os') :
    Along step C s (os ++ os') := by
  induction os generalizing s rs with
  | nil =>
    cases hrun
    exact h'
  | cons o os ih =>
    obtain ⟨r, s1, rs1, hstep, hrs1, -⟩ := run_cons_eq_some hrun
    refine ⟨h.1, fun r' s1' hstep' => ?_⟩
    rw [hstep] at hstep'
    cases hstep'
    exact ih (h.2 r s1 hstep) hrs1

lemma Along.last (h : Along step C s (os ++ [o])) (hrun : run step s os = some (rs, s')) : C s' o := by
  induction os generalizing s rs with
  | nil =>
    cases hrun
    exact h.1
  | cons o' os ih =>
    obtain ⟨r, s'', rs', hstep, hrs', -⟩ := run_cons_eq_some hrun
    exact ih (h.2 r s'' hstep) hrs'

lemma run_invariant {Inv : S → Prop} (hstep : ∀ s o, Inv s → C s o → ∃ r s',
    step s o = some (r, s') ∧ Inv s')
    (hs : Inv s) (hC : Along step C s os) : ∃ rs s', run step s os = some (rs, s') ∧ Inv s' := by
  induction os generalizing s with
  | nil => exact ⟨[], s, rfl, hs⟩
  | cons o os ih =>
    obtain ⟨r, s', hr, hs'⟩ := hstep s o hs hC.1
    obtain ⟨rs, s'', hrs, hs''⟩ := ih hs' (hC.2 r s' hr)
    refine ⟨r :: rs, s'', ?_, hs''⟩
    rw [run_cons hr, hrs, map_some]

lemma invariant_of_run
    (hkeep : ∀ s o r s', P s → C s o → step s o = some (r, s') → P s') (hs : P s) (hC : Along step C s os)
    (hrun : run step s os = some (rs, s')) : P s' := by
  induction os generalizing s rs with
  | nil =>
    cases hrun
    exact hs
  | cons o os ih =>
    obtain ⟨r, s1, rs', hstep, hrs', -⟩ := run_cons_eq_some hrun
    exact ih (hkeep s o r s1 hs hC.1 hstep) (hC.2 r s1 hstep) hrs'

lemma along_of_invariant {Inv : S → Prop} (hgive : ∀ s o, Inv s → C s o → D s o)
    (hkeep : ∀ s o r s', Inv s → C s o → step s o = some (r, s') → Inv s')
    (hs : Inv s) (hC : Along step C s os) : Along step D s os := by
  induction os generalizing s with
  | nil => trivial
  | cons o os ih => exact ⟨hgive s o hs hC.1, fun r s' hr => ih (hkeep s o r s' hs hC.1 hr) (hC.2 r s' hr)⟩

lemma forall_prefix_iff_along (htotal : ∀ s o, ∃ r s', step s o = some (r, s'))
    (hkeep : ∀ s o r s', P s → step s o = some (r, s') → (P s' ↔ C s o)) (hs : P s) :
    (∀ pre, pre <+: os → ∀ rs s', run step s pre = some (rs, s') → P s') ↔ Along step C s os := by
  induction os generalizing s with
  | nil =>
    refine iff_of_true (fun pre hpre rs s' hrun => ?_) trivial
    rw [prefix_nil.mp hpre] at hrun
    cases hrun
    exact hs
  | cons o os ih =>
    obtain ⟨r, s', hstep⟩ := htotal s o
    constructor
    · intro h
      have hs' : P s' := h [o] ⟨os, rfl⟩ [r] s' (by simp [run, hstep])
      refine ⟨(hkeep s o r s' hs hstep).mp hs', fun r1 s1 hr1 => ?_⟩
      cases hstep.symm.trans hr1
      refine (ih hs').mp fun pre hpre rs s'' hrun => ?_
      refine h (o :: pre) ((prefix_cons_inj o).mpr hpre) (r :: rs) s'' ?_
      rw [run_cons hstep, hrun, map_some]
    · intro h pre hpre rs s'' hrun
      cases pre with
      | nil =>
        cases hrun
        exact hs
      | cons o' pre =>
        obtain ⟨rfl, hpre'⟩ := cons_prefix_cons.mp hpre
        obtain ⟨r1, s1, rs1, hr1, hrun1, -⟩ := run_cons_eq_some hrun
        have hs1 : P s1 := (hkeep s o' r1 s1 hs hr1).mpr h.1
        exact (ih hs1).mpr (h.2 r1 s1 hr1) pre hpre' rs1 s'' hrun1

lemma forall_prefix_runs_iff_along {I : S → Prop}
    (hinv : ∀ s o r s', I s → D s o → step s o = some (r, s') → I s')
    (hkeep : ∀ s o, I s → P s → D s o → ((∃ r s', step s o = some (r, s') ∧ P s') ↔ C s o)) (hi : I s)
    (hs : P s) (hD : Along step D s os) :
    (∀ pre, pre <+: os → ∃ rs s', run step s pre = some (rs, s') ∧ P s') ↔ Along step C s os := by
  induction os generalizing s with
  | nil =>
    refine iff_of_true (fun pre hpre => ?_) trivial
    rw [prefix_nil.mp hpre]
    exact ⟨[], s, rfl, hs⟩
  | cons o os ih =>
    constructor
    · intro h
      -- The first step is defined, and ends in a state with the property.
      obtain ⟨rs, s', hrun, hs'⟩ := h [o] ⟨os, rfl⟩
      obtain ⟨r, s1, rs1, hstep, hnil, -⟩ := run_cons_eq_some hrun
      cases hnil
      refine ⟨(hkeep s o hi hs hD.1).mp ⟨r, s', hstep, hs'⟩, fun r1 s1 hr1 => ?_⟩
      cases hstep.symm.trans hr1
      refine (ih (hinv s o r s' hi hD.1 hstep) hs' (hD.2 r s' hstep)).mp fun pre hpre => ?_
      obtain ⟨rs2, s2, hrun2, hs2⟩ := h (o :: pre) ((prefix_cons_inj o).mpr hpre)
      obtain ⟨r3, s3, rs3, hstep3, hrun3, -⟩ := run_cons_eq_some hrun2
      cases hstep.symm.trans hstep3
      exact ⟨rs3, s2, hrun3, hs2⟩
    · intro h pre hpre
      cases pre with
      | nil => exact ⟨[], s, rfl, hs⟩
      | cons o' pre =>
        obtain ⟨rfl, hpre'⟩ := cons_prefix_cons.mp hpre
        obtain ⟨r, s', hstep, hs'⟩ := (hkeep s o' hi hs hD.1).mpr h.1
        obtain ⟨rs, s'', hrun, hs''⟩ :=
          (ih (hinv s o' r s' hi hD.1 hstep) hs' (hD.2 r s' hstep)).mpr (h.2 r s' hstep) pre hpre'
        refine ⟨r :: rs, s'', ?_, hs''⟩
        rw [run_cons hstep, hrun, map_some]

lemma run_refines {astep : A → O → R × A} {Rel : S → A → Prop} (hstep : ∀ s a o, Rel s a → C s o →
    ∃ s', step s o = some ((astep a o).1, s') ∧ Rel s' (astep a o).2) {a : A} (hs : Rel s a) (hC : Along step C s os) :
    ∃ s', run step s os = some ((answers astep a os).1, s') ∧ Rel s' (answers astep a os).2 := by
  induction os generalizing s a with
  | nil => exact ⟨s, rfl, hs⟩
  | cons o os ih =>
    obtain ⟨s', hr, hs'⟩ := hstep s a o hs hC.1
    obtain ⟨s'', hrs, hs''⟩ := ih hs' (hC.2 _ s' hr)
    refine ⟨s'', ?_, hs''⟩
    rw [run_cons hr, hrs, map_some, answers]

end Bpftime.Runs
