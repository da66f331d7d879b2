import Bpftime.Shm.Model

/-!
# The slots of the handler table

What the two operations that write the table leave in each slot.
-/

namespace Bpftime.BpftimeShm

variable {s s' : BpftimeShm} {fd i : ℤ} {h h' : Handler}

lemma getHandler_eq_some : s.getHandler fd = some h ↔ 0 ≤ fd ∧ s.handlers[fd.toNat]? = some h := by
  unfold getHandler
  split_ifs with hfd
  · simp [hfd]
  · simp [hfd]

lemma getHandler_congr (h : s'.handlers = s.handlers) (i : ℤ) : s'.getHandler i = s.getHandler i := by
  unfold getHandler
  rw [h]

lemma orFakeFd_same (s : BpftimeShm) (fd : ℤ) :
    (s.orFakeFd fd).2.handlers = s.handlers ∧ (s.orFakeFd fd).2.segment = s.segment := by
  unfold orFakeFd openFakeFd
  split_ifs <;> exact ⟨rfl, rfl⟩

lemma getHandler_put_self (hfd : s.getHandler fd = some h) (h' : Handler) :
    (s.put fd h').getHandler fd = some h' := by
  obtain ⟨hpos, hget⟩ := getHandler_eq_some.mp hfd
  obtain ⟨hlt, -⟩ := List.getElem?_eq_some_iff.mp hget
  rw [getHandler_eq_some]
  exact ⟨hpos, by rw [put, List.getElem?_set_self hlt]⟩

lemma getHandler_put_of_ne (hfd : s.getHandler fd = some h) (hi : i ≠ fd) (h' : Handler) :
    (s.put fd h').getHandler i = s.getHandler i := by
  obtain ⟨hpos, -⟩ := getHandler_eq_some.mp hfd
  unfold getHandler put
  split_ifs with h0
  · rw [List.getElem?_set_ne (by omega)]
  · rfl

lemma getHandler_clearLinks (s : BpftimeShm) (p : BpfLinkHandler → Bool) (i : ℤ) :
    (s.clearLinks p).getHandler i = (s.getHandler i).map fun
    | .link l => if p l then .unused else .link l
    | h => h := by
  unfold getHandler clearLinks
  split_ifs
  · exact List.getElem?_map ..
  · rfl

/-- The links that go when a slot is made unused: those of its program or to its perf event. -/
def cutLink (fd : ℤ) : Handler → BpfLinkHandler → Bool
  | .perfEvent _, l => l.attach_target_id = fd
  | .prog _, l => l.prog_id = fd
  | _, _ => false

/-- What `clear_id_at` leaves in another slot. -/
def cutSlot (fd : ℤ) (cleared : Handler) : Handler → Handler
  | .link l => if cutLink fd cleared l then .unused else .link l
  | h => h

variable {cleared : Handler}

lemma cutSlot_of_ne_link (h : ∀ l, h' ≠ .link l) : cutSlot fd cleared h' = h' := by
  cases h' with
  | link l => exact absurd rfl (h l)
  | _ => rfl

lemma cutSlot_eq_link {l : BpfLinkHandler}
    (h : cutSlot fd cleared h' = .link l) : h' = .link l ∧ cutLink fd cleared l = false := by
  cases h' with
  | link l' =>
    simp only [cutSlot] at h
    split_ifs at h with hcut
    cases h
    exact ⟨rfl, Bool.eq_false_iff.mpr hcut⟩
  | _ => simp [cutSlot] at h

lemma getHandler_clearIdAt (hfd : s.getHandler fd = some h) (i : ℤ) : (s.clearIdAt fd).getHandler i =
    if i = fd then some .unused else (s.getHandler i).map (cutSlot fd h) := by
  -- With no links to remove, the other slots stay.
  have hstay : ∀ h'' : Handler, (∀ l, cutLink fd h'' l = false) →
      (s.getHandler i).map (cutSlot fd h'') = s.getHandler i := by
    intro h'' hcut
    cases s.getHandler i with
    | none => rfl
    | some h' => cases h' <;> simp [cutSlot, hcut]
  have hclear : ∀ p, ∃ h'', (s.clearLinks p).getHandler fd = some h'' := by
    intro p
    rw [getHandler_clearLinks, hfd]
    exact ⟨_, rfl⟩
  unfold clearIdAt
  rw [hfd]
  split_ifs with hi
  · subst hi
    cases h with
    | perfEvent _ | prog _ => exact getHandler_put_self (hclear _).choose_spec _
    | _ => exact getHandler_put_self hfd _
  · cases h with
    | perfEvent _ | prog _ =>
      dsimp only
      rw [getHandler_put_of_ne (hclear _).choose_spec hi, getHandler_clearLinks]
      congr 1
    | _ =>
      rw [hstay _ fun l => rfl]
      exact getHandler_put_of_ne hfd hi _

lemma getHandler_vacant (hfd : s.getHandler fd = some h) (i : ℤ) :
    (if h = .unused then s else s.clearIdAt fd).getHandler i =
    if i = fd then some .unused else (s.getHandler i).map (cutSlot fd h) := by
  by_cases hunused : h = .unused
  · rw [if_pos hunused]
    split_ifs with hi
    · rw [hi, hfd, hunused]
    · rw [hunused]
      cases s.getHandler i with
      | none => rfl
      | some h' => cases h' <;> rfl
  · rw [if_neg hunused]
    exact getHandler_clearIdAt hfd i

lemma clearIdAt_of_none (hfd : s.getHandler fd = none) : s.clearIdAt fd = s := by
  unfold clearIdAt
  rw [hfd]

lemma length_clearIdAt (s : BpftimeShm) (fd : ℤ) : (s.clearIdAt fd).handlers.length = s.handlers.length := by
  unfold clearIdAt
  cases s.getHandler fd with
  | none => rfl
  | some h => cases h <;> simp [put, clearLinks]

/-- What `set_handler` puts into its slot, and the segment behind it: a map is initialised. -/
def initialised (g : Segment) : Handler → Handler × Segment
  | .map m => (.map (m.mapInit g).2.1, (m.mapInit g).2.2)
  | h => (h, g)

lemma setHandler_cases {n : ℤ} (hset : s.setHandler fd h = some (n, s')) :
    s' = s ∨ s.getHandler fd = some .unused ∧ n = fd ∧
    s' = { s.put fd (initialised s.segment h).1 with segment := (initialised s.segment h).2 } := by
  unfold setHandler at hset
  split_ifs at hset with halloc hunused
  · left
    cases hset
    rfl
  · left
    cases hset
    rfl
  · right
    cases hfd : s.getHandler fd with
    | none => simp [hfd] at hset
    | some h₀ =>
      have hfree : h₀ = .unused := by
        unfold isAllocated at halloc
        rw [hfd] at halloc
        cases h₀ <;> simp_all
      subst hfree
      rw [hfd] at hset
      cases h with
      | map m =>
        cases hset
        exact ⟨rfl, rfl, rfl⟩
      | _ =>
        cases hset
        exact ⟨rfl, rfl, rfl⟩

lemma setHandler_of_unused (hfd : s.getHandler fd = some .unused) (hne : h ≠ .unused) :
    s.setHandler fd h = some (fd,
    { s.put fd (initialised s.segment h).1 with segment := (initialised s.segment h).2 }) := by
  have halloc : s.isAllocated fd = false := by
    unfold isAllocated
    rw [hfd]
  unfold setHandler
  rw [if_neg (by simp [halloc]), if_neg hne, hfd]
  cases h <;> rfl

lemma getHandler_filled (hfd : s.getHandler fd = some .unused) (h : Handler) (g : Segment) (i : ℤ) :
    { s.put fd h with segment := g }.getHandler i = if i = fd then some h else s.getHandler i := by
  split_ifs with hi
  · subst hi
    exact getHandler_put_self hfd h
  · exact getHandler_put_of_ne hfd hi h

end Bpftime.BpftimeShm
