import Mathlib.Tactic

/-!
# Doubly linked lists

A doubly linked list is a pair of functions, the next and the previous cell of a cell.
-/

namespace Bpftime.Links

open List Function

variable {α : Type*}

/-- The pointers of each cell of `l` lead to its neighbours in `l`. -/
def Linked (next prev : α → Option α) (l : List α) : Prop :=
  ∀ xs p ys, l = xs ++ p :: ys → next p = ys.head? ∧ prev p = xs.getLast?

/-- The cells from `start` on, unless there are more than `fuel` of them. -/
def follow (f : α → Option α) : ℕ → Option α → Option (List α)
  | _, none => some []
  | 0, some _ => none
  | fuel + 1, some p => (follow f fuel (f p)).map (p :: ·)

variable {next prev next' prev' : α → Option α} {l xs ys : List α} {p : α}

lemma linked_nil (next prev : α → Option α) : Linked next prev [] := by
  intro xs p ys h
  simp at h

lemma Linked.congr (h : Linked next prev l) (hnext : ∀ p ∈ l, next' p = next p)
    (hprev : ∀ p ∈ l, prev' p = prev p) : Linked next' prev' l := by
  intro xs p ys hl
  have hp : p ∈ l := by simp [hl]
  rw [hnext p hp, hprev p hp]
  exact h xs p ys hl

lemma Linked.next_mem (h : Linked next prev l) (hp : p ∈ l) {q : α} (hq : next p = some q) : q ∈ l := by
  obtain ⟨xs, ys, rfl⟩ := append_of_mem hp
  rw [(h xs p ys rfl).1] at hq
  have hmem := mem_of_head? hq
  simp [hmem]

variable {fuel : ℕ}

section

variable (h : Linked next prev l)
include h

lemma Linked.follow_suffix (hl : l = xs ++ ys) (hfuel : ys.length ≤ fuel) :
    follow next fuel ys.head? = some ys := by
  induction ys generalizing xs fuel with
  | nil => cases fuel <;> rfl
  | cons p ys ih =>
    cases fuel with
    | zero => simp at hfuel
    | succ fuel =>
      have hsplit : l = (xs ++ [p]) ++ ys := by simp [hl]
      have hrest : follow next fuel ys.head? = some ys := ih hsplit (by simpa using hfuel)
      rw [head?_cons, follow, (h xs p ys hl).1, hrest, Option.map_some]

lemma Linked.follow_next (hfuel : l.length ≤ fuel) : follow next fuel l.head? = some l :=
  h.follow_suffix (nil_append l).symm hfuel

lemma Linked.reverse : Linked prev next l.reverse := by
  intro xs p ys hl
  have hback : l = ys.reverse ++ p :: xs.reverse := by
    rw [← reverse_reverse l, hl]
    simp
  obtain ⟨hn, hp⟩ := h _ p _ hback
  rw [hn, hp, getLast?_reverse, head?_reverse]
  exact ⟨rfl, rfl⟩

lemma Linked.follow_prev (hfuel : l.length ≤ fuel) : follow prev fuel l.getLast? = some l.reverse := by
  rw [← head?_reverse]
  exact h.reverse.follow_next (by simpa using hfuel)

end

section Update

variable [DecidableEq α]

/-- The function `f` with another value at `o`, when `o` is a cell. -/
def updateAt (f : α → Option α) (o v : Option α) : α → Option α :=
  match o with
  | none => f
  | some p => update f p v

@[simp] lemma updateAt_none (f : α → Option α) (v : Option α) : updateAt f none v = f := rfl

@[simp] lemma updateAt_some (f : α → Option α) (p : α) (v : Option α) :
    updateAt f (some p) v = update f p v := rfl

variable {f : α → Option α} {o v : Option α}

lemma updateAt_self (h : o = some p) : updateAt f o v p = v := by rw [h, updateAt_some, update_self]

lemma updateAt_of_ne (h : o ≠ some p) : updateAt f o v p = f p := by
  cases o with
  | none => rfl
  | some q =>
    rw [updateAt_some, update_of_ne]
    intro hpq
    exact h (by rw [hpq])

lemma Linked.unlink (h : Linked next prev (xs ++ p :: ys)) (hnd : (xs ++ p :: ys).Nodup) :
    Linked (updateAt next xs.getLast? ys.head?) (updateAt prev ys.head? xs.getLast?) (xs ++ ys) := by
  intro as q bs hl
  have hnodup : (xs ++ ys).Nodup := hnd.sublist (by simp)
  have hdisj : ∀ a ∈ xs, a ∉ ys := fun a ha hb => disjoint_of_nodup_append hnodup ha hb
  -- The cell whose pointers are read is in front of the one that was taken out, or behind it.
  rcases append_eq_append_iff.mp hl with ⟨cs, rfl, hys⟩ | ⟨cs, rfl, hcs⟩
  · -- Behind it: only the first cell there has another previous cell.
    have hq : q ∈ ys := by simp [hys]
    have hne : xs.getLast? ≠ some q := by
      intro hlast
      exact hdisj q (mem_of_getLast? hlast) hq
    obtain ⟨hn, hp⟩ := h (xs ++ p :: cs) q bs (by simp [hys])
    rw [updateAt_of_ne hne, hn]
    refine ⟨rfl, ?_⟩
    cases cs with
    | nil => rw [updateAt_self (by simp [hys]), append_nil]
    | cons c cs =>
      have hcq : ys.head? ≠ some q := by
        rw [hys, cons_append, head?_cons]
        rintro ⟨rfl⟩
        have := hnodup.of_append_right
        simp [hys] at this
      rw [updateAt_of_ne hcq, hp]
      simp
  · cases cs with
    | nil =>
      -- The first cell behind it.
      simp only [nil_append] at hcs
      rw [append_nil] at h hnd hnodup hdisj ⊢
      subst hcs
      obtain ⟨hn, -⟩ := h (as ++ [p]) q bs (by simp)
      have hne : as.getLast? ≠ some q := by
        intro hlast
        exact hdisj q (mem_of_getLast? hlast) (by simp)
      rw [updateAt_of_ne hne, hn, updateAt_self (head?_cons)]
      exact ⟨rfl, rfl⟩
    | cons c cs =>
      -- In front of it: only the last cell there has another next cell.
      rw [cons_append] at hcs
      obtain ⟨rfl, hbs⟩ := cons.inj hcs
      have hne : ys.head? ≠ some q := by
        intro hhead
        exact hdisj q (by simp) (mem_of_head? hhead)
      obtain ⟨hn, hp⟩ := h as q (cs ++ p :: ys) (by simp)
      rw [updateAt_of_ne hne, hp]
      refine ⟨?_, rfl⟩
      cases cs with
      | nil => rw [updateAt_self (by simp), hbs, nil_append]
      | cons c' cs =>
        have hlast : (as ++ q :: c' :: cs).getLast? ≠ some q := by
          intro hlast
          have hmem : q ∈ c' :: cs := by
            have : (q :: c' :: cs).getLast? = some q := by simpa using hlast
            rw [getLast?_cons_cons] at this
            exact mem_of_getLast? this
          have hsub : (q :: c' :: cs).Nodup := hnd.sublist (by
            rw [append_assoc]
            exact (sublist_append_left _ _).trans (sublist_append_right _ _))
          exact (nodup_cons.mp hsub).1 hmem
        rw [updateAt_of_ne hlast, hn, hbs]
        simp

lemma Linked.pushFront (h : Linked next prev l) (hp : p ∉ l) (hnd : l.Nodup) : Linked (update next p l.head?)
    (updateAt (update prev p none) l.head? (some p)) (p :: l) := by
  intro xs q ys hl
  have hhead : l.head? ≠ some p := fun hhead => hp (mem_of_head? hhead)
  cases xs with
  | nil =>
    -- The new cell itself.
    obtain ⟨rfl, rfl⟩ := cons.inj hl
    rw [update_self, updateAt_of_ne hhead, update_self]
    exact ⟨rfl, rfl⟩
  | cons x xs =>
    rw [cons_append] at hl
    obtain ⟨rfl, rfl⟩ := cons.inj hl
    have hqp : q ≠ p := by
      rintro rfl
      exact hp (by simp)
    obtain ⟨hn, hq⟩ := h xs q ys rfl
    rw [update_of_ne hqp, hn]
    refine ⟨rfl, ?_⟩
    cases xs with
    | nil => rw [updateAt_self (by simp)]; rfl
    | cons x xs =>
      have hne : (x :: xs ++ q :: ys).head? ≠ some q := by
        rw [cons_append, head?_cons]
        rintro ⟨rfl⟩
        simp at hnd
      rw [updateAt_of_ne hne, update_of_ne hqp, hq, getLast?_cons_cons]

end Update

end Bpftime.Links
