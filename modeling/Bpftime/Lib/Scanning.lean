import Mathlib.Tactic

/-!
# Scans over the filled places of a table

An iterator that keeps nothing but the place it is at goes from there to the next filled place, by
looking at one place after another from `jump i` on, where `i` is the place it is at.
-/

namespace Bpftime.Scanning

open List

variable {filled : ℕ → Prop} {n : ℕ} {jump : ℕ → ℕ}

/-- The first filled place from `j` on, below `n`. -/
def Next (filled : ℕ → Prop) (n j i : ℕ) : Prop := j ≤ i ∧ i < n ∧ filled i ∧ ∀ l, j ≤ l → l < i → ¬filled l

/-- There is no filled place from `j` on, below `n`. -/
def Done (filled : ℕ → Prop) (n j : ℕ) : Prop := ∀ l, j ≤ l → l < n → ¬filled l

/-- The places that a scan visits which starts to look at `j`. -/
inductive Scan (filled : ℕ → Prop) (n : ℕ) (jump : ℕ → ℕ) : ℕ → List ℕ → Prop
  | done {j : ℕ} (h : Done filled n j) : Scan filled n jump j []
  | next {j i : ℕ} {places : List ℕ} (h : Next filled n j i) (hrest : Scan filled n jump (jump i) places) :
      Scan filled n jump j (i :: places)

variable {i j : ℕ} {places : List ℕ}

lemma next_unique {i' : ℕ} (h : Next filled n j i) (h' : Next filled n j i') : i = i' := by
  obtain ⟨hj, -, hi, hbefore⟩ := h
  obtain ⟨hj', -, hi', hbefore'⟩ := h'
  rcases lt_trichotomy i i' with hlt | heq | hgt
  · exact absurd hi (hbefore' i hj hlt)
  · exact heq
  · exact absurd hi' (hbefore i' hj' hgt)

lemma Next.not_done (h : Next filled n j i) : ¬Done filled n j := fun hdone => hdone i h.1 h.2.1 h.2.2.1

lemma done_or_next (filled : ℕ → Prop) (n j : ℕ) : Done filled n j ∨ ∃ i, Next filled n j i := by
  classical
  by_cases h : ∃ i, j ≤ i ∧ i < n ∧ filled i
  · obtain ⟨hj, hn, hi⟩ := Nat.find_spec h
    refine Or.inr ⟨Nat.find h, hj, hn, hi, fun l hl hlt hfilled => ?_⟩
    exact Nat.find_min h hlt ⟨hl, hlt.trans hn, hfilled⟩
  · exact Or.inl fun l hl hlt hfilled => h ⟨l, hl, hlt, hfilled⟩

lemma Scan.filled_of_mem (h : Scan filled n jump j places) : ∀ i ∈ places, i < n ∧ filled i := by
  induction h with
  | done _ => simp
  | next hnext _ ih =>
    intro i hi
    rcases mem_cons.mp hi with rfl | hi
    · exact ⟨hnext.2.1, hnext.2.2.1⟩
    · exact ih i hi

lemma Scan.unique {places' : List ℕ} (h : Scan filled n jump j places)
    (h' : Scan filled n jump j places') : places = places' := by
  induction h generalizing places' with
  | done hdone =>
    cases h' with
    | done _ => rfl
    | next hnext _ => exact absurd hdone hnext.not_done
  | next hnext _ ih =>
    cases h' with
    | done hdone => exact absurd hdone hnext.not_done
    | next hnext' hrest' =>
      obtain rfl := next_unique hnext hnext'
      rw [ih hrest']

lemma Scan.rest {before after : List ℕ} (h : Scan filled n jump j (before ++ i :: after)) :
    Scan filled n jump (jump i) after := by
  induction before generalizing j with
  | nil =>
    cases h with
    | next _ hrest => exact hrest
  | cons b before ih =>
    cases h with
    | next _ hrest => exact ih hrest

lemma Scan.jump_ne (h : Scan filled n jump j places) (hi : i ∈ places) : jump i ≠ j := by
  rintro rfl
  obtain ⟨before, after, rfl⟩ := append_of_mem hi
  -- The rest of the scan would be the whole scan.
  have hlength := congrArg length (h.unique h.rest)
  rw [length_append, length_cons] at hlength
  omega

lemma Scan.not_mem (h : Scan filled n jump j places) (hi : filled i)
    (hj : j ≠ i + 1) (hjump : ∀ l < n, filled l → jump l ≠ i + 1) : i + 1 ∉ places := by
  induction h with
  | done _ => exact not_mem_nil
  | @next j k places hnext _ ih =>
    rw [mem_cons, not_or]
    refine ⟨?_, ih (hjump k hnext.2.1 hnext.2.2.1)⟩
    rintro rfl
    obtain ⟨hle, -, -, hbefore⟩ := hnext
    exact hbefore i (by omega) (by omega) hi

lemma exists_scan (hjump : ∀ i < n, filled i → i < jump i ∧ ∀ l, i < l → l < jump i → ¬filled l)
    (j : ℕ) : ∃ places, Scan filled n jump j places ∧ places.Pairwise (· < ·) ∧ ∀ i, i ∈ places ↔
    j ≤ i ∧ i < n ∧ filled i := by
  induction hd : n - j using Nat.strong_induction_on generalizing j with
  | _ d ih =>
    subst hd
    rcases done_or_next filled n j with hdone | ⟨i, hnext⟩
    · refine ⟨[], .done hdone, Pairwise.nil, fun i => iff_of_false not_mem_nil ?_⟩
      rintro ⟨hj, hn, hi⟩
      exact hdone i hj hn hi
    · obtain ⟨hj, hn, hi, hbefore⟩ := hnext
      obtain ⟨hlt, hempty⟩ := hjump i hn hi
      obtain ⟨places, hscan, hsorted, hmem⟩ := ih (n - jump i) (by omega) (jump i) rfl
      refine ⟨i :: places, .next ⟨hj, hn, hi, hbefore⟩ hscan, ?_, fun l => ?_⟩
      · refine pairwise_cons.mpr ⟨fun l hl => ?_, hsorted⟩
        have := ((hmem l).mp hl).1
        omega
      · rw [mem_cons, hmem]
        constructor
        · rintro (rfl | ⟨hl, hln, hfilled⟩)
          · exact ⟨hj, hn, hi⟩
          · exact ⟨by omega, hln, hfilled⟩
        · rintro ⟨hl, hln, hfilled⟩
          rcases lt_trichotomy l i with hli | heq | hgt
          · exact absurd hfilled (hbefore l hl hli)
          · exact Or.inl heq
          · refine Or.inr ⟨Nat.le_of_not_lt fun hlj => hempty l hgt hlj hfilled, hln, hfilled⟩

end Bpftime.Scanning
