import Mathlib.Data.Stream.Init
import Mathlib.Tactic

/-!
# The descriptors of the driver

What `bpftime_driver` gets from the kernel and closes again, whatever the kernel and the shared
memory answer.
-/

namespace Bpftime.Daemon.Descriptors

open List

/-- What the calls that are still to come will answer, and the descriptors that were got and
closed. -/
structure Calls where
  answers : Stream' ℤ
  got : List ℤ
  closed : List ℤ

def Calls.start (answers : Stream' ℤ) : Calls := ⟨answers, [], []⟩

variable (c : Calls)

def Calls.next : Calls := { c with answers := c.answers.tail }

/-- `bpf_prog_get_fd_by_id` or `bpf_map_get_fd_by_id` has been answered by a descriptor. -/
def Calls.get : Calls := ⟨c.answers.tail, c.got ++ [c.answers.head], c.closed⟩

/-- `bpftime_maps_create_server`. -/
def bpftimeMapsCreateServer (kernel_id : ℤ) : ℤ × Calls :=
  if c.answers.head < 0 then (-1, c.next)
  -- `bpf_obj_get_info_by_fd`, `bpftime_is_map_fd` and `bpftime_maps_create`
  else if c.get.answers.head < 0 then (-1, c.get.next)
  else if c.get.next.answers.head ≠ 0 then (0, c.get.next.next)
  else (if c.get.next.next.answers.head < 0 then -1 else kernel_id, c.get.next.next.next)

/-- The loop of `check_and_create_prog_related_maps`. -/
def createRelatedMaps : List ℤ → Calls → ℤ × Calls
  | [], c => (0, c)
  | map_id :: map_ids, c =>
    -- `bpftime_is_map_fd`
    if c.answers.head ≠ 0 then createRelatedMaps map_ids c.next
    else
      let p := bpftimeMapsCreateServer c.next map_id
      if p.1 < 0 then (-1, p.2) else createRelatedMaps map_ids p.2

/-- `check_and_create_prog_related_maps`. -/
def checkAndCreateProgRelatedMaps (map_ids : List ℤ) : ℤ × Calls :=
  if c.answers.head < 0 then (-1, c.next) else createRelatedMaps map_ids c.next

/-- `bpftime_progs_create_server`. -/
def bpftimeProgsCreateServer (kernel_id : ℤ) (map_ids : List ℤ) : ℤ × Calls :=
  if c.answers.head < 0 then (-1, c.next)
  -- `bpf_obj_get_info_by_fd`, `bpftime_is_prog_fd`, `relocate_bpf_prog_insns` and
  -- `bpftime_progs_create`
  else if c.get.answers.head < 0 then (-1, c.get.next)
  else if c.get.next.answers.head ≠ 0 then (0, c.get.next.next)
  else if c.get.next.next.answers.head < 0 then (-1, c.get.next.next.next)
  else if c.get.next.next.next.answers.head < 0 then (-1, c.get.next.next.next.next)
  else
    let p := checkAndCreateProgRelatedMaps c.get.next.next.next.next map_ids
    if p.1 < 0 then (-1, p.2) else (kernel_id, { p.2 with closed := p.2.closed ++ [c.answers.head] })

/-- Each descriptor has been closed as often as it was got. -/
def Calls.Balanced : Prop := c.closed.Perm c.got

/-- Descriptors were got from `c` to `c'`, and none closed. -/
def Gets (c c' : Calls) : Prop := c'.closed = c.closed ∧ ∃ fds, c'.got = c.got ++ fds

variable {c}

lemma gets_maps (kernel_id : ℤ) : Gets c (bpftimeMapsCreateServer c kernel_id).2 := by
  unfold bpftimeMapsCreateServer
  split_ifs
  · exact ⟨rfl, [], (append_nil _).symm⟩
  all_goals exact ⟨rfl, [c.answers.head], rfl⟩

lemma gets_related (map_ids : List ℤ) : Gets c (createRelatedMaps map_ids c).2 := by
  induction map_ids generalizing c with
  | nil => exact ⟨rfl, [], (append_nil _).symm⟩
  | cons map_id map_ids ih =>
    obtain ⟨hclosed, fds, hgot⟩ := gets_maps (c := c.next) map_id
    obtain ⟨hclosed', fds', hgot'⟩ := ih (c := (bpftimeMapsCreateServer c.next map_id).2)
    rw [createRelatedMaps]
    dsimp only
    split_ifs
    · exact ih (c := c.next)
    · exact ⟨hclosed, fds, hgot⟩
    · exact ⟨hclosed'.trans hclosed, fds ++ fds', by rw [hgot', hgot, append_assoc]; rfl⟩

lemma gets_checked (map_ids : List ℤ) : Gets c (checkAndCreateProgRelatedMaps c map_ids).2 := by
  unfold checkAndCreateProgRelatedMaps
  split_ifs
  · exact ⟨rfl, [], (append_nil _).symm⟩
  · exact gets_related (c := c.next) map_ids

lemma Gets.balanced_iff {answers : Stream' ℤ} (h : Gets (.start answers) c) :
    c.Balanced ↔ c.got = [] := by
  unfold Calls.Balanced
  rw [h.1]
  exact List.nil_perm

/-- `bpftime_is_map_fd` answers that the maps are there, one after the other. -/
def AllThere : List ℤ → Stream' ℤ → Prop
  | [], _ => True
  | _ :: map_ids, answers => answers.head ≠ 0 ∧ AllThere map_ids answers.tail

/-- The maps are there up to one, if any, for which the kernel gives no descriptor. -/
def NoneOpened : List ℤ → Stream' ℤ → Prop
  | [], _ => True
  | _ :: map_ids, answers =>
    if answers.head ≠ 0 then NoneOpened map_ids answers.tail else answers.tail.head < 0

lemma got_maps (kernel_id : ℤ) :
    (bpftimeMapsCreateServer c kernel_id).2.got = c.got ↔ c.answers.head < 0 := by
  unfold bpftimeMapsCreateServer
  split_ifs with h
  · exact iff_of_true rfl h
  all_goals exact iff_of_false (fun heq => by simpa [Calls.get, Calls.next] using congrArg length heq) h

lemma result_maps (kernel_id : ℤ) (h : c.answers.head < 0) :
    (bpftimeMapsCreateServer c kernel_id).1 = -1 := by
  rw [bpftimeMapsCreateServer, if_pos h]

/-- A descriptor that was got is still there at the end of the loop. -/
lemma got_related (map_ids : List ℤ) :
    (createRelatedMaps map_ids c).2.got = c.got ↔ NoneOpened map_ids c.answers := by
  induction map_ids generalizing c with
  | nil => exact iff_of_true rfl trivial
  | cons map_id map_ids ih =>
    rw [createRelatedMaps, NoneOpened]
    dsimp only
    by_cases hthere : c.answers.head ≠ 0
    · rw [if_pos hthere, if_pos hthere]
      exact ih (c := c.next)
    · rw [if_neg hthere, if_neg hthere, show c.answers.tail.head < 0 ↔ _ from
        (got_maps (c := c.next) map_id).symm]
      split_ifs with hres
      · rfl
      · obtain ⟨-, fds, hgot⟩ := gets_maps (c := c.next) map_id
        obtain ⟨-, fds', hgot'⟩ := gets_related (c := (bpftimeMapsCreateServer c.next map_id).2) map_ids
        have hne : fds ≠ [] := by
          rintro rfl
          rw [append_nil] at hgot
          exact hres (by rw [result_maps map_id ((got_maps map_id).mp hgot)]; decide)
        change _ = c.next.got ↔ _ = c.next.got
        rw [hgot', hgot]
        simp [hne]

/-- The loop comes to its end without a descriptor if all maps are there. -/
lemma related_iff (map_ids : List ℤ) : 0 ≤ (createRelatedMaps map_ids c).1 ∧
    (createRelatedMaps map_ids c).2.got = c.got ↔ AllThere map_ids c.answers := by
  induction map_ids generalizing c with
  | nil => exact iff_of_true ⟨le_rfl, rfl⟩ trivial
  | cons map_id map_ids ih =>
    by_cases hthere : c.answers.head ≠ 0
    · rw [createRelatedMaps, if_pos hthere, AllThere, and_iff_right hthere]
      exact ih (c := c.next)
    · refine iff_of_false (fun h => ?_) fun h => hthere h.1
      have hnone := (got_related (map_id :: map_ids)).mp h.2
      rw [NoneOpened, if_neg hthere] at hnone
      have hres : (bpftimeMapsCreateServer c.next map_id).1 = -1 := result_maps map_id hnone
      have hpos := h.1
      rw [createRelatedMaps, if_neg hthere] at hpos
      dsimp only at hpos
      rw [hres, if_pos (by decide)] at hpos
      exact absurd hpos (show ¬(0 : ℤ) ≤ -1 by decide)

lemma checked_iff (map_ids : List ℤ) : 0 ≤ (checkAndCreateProgRelatedMaps c map_ids).1 ∧
    (checkAndCreateProgRelatedMaps c map_ids).2.got = c.got ↔
    0 ≤ c.answers.head ∧ AllThere map_ids c.answers.tail := by
  unfold checkAndCreateProgRelatedMaps
  split_ifs with h
  · exact iff_of_false (fun hpos => absurd hpos.1 (show ¬(0 : ℤ) ≤ -1 by decide))
      fun hpos => hpos.1.not_gt h
  · exact (related_iff map_ids (c := c.next)).trans (and_iff_right (not_lt.mp h)).symm

/-- Whatever is answered, the descriptors are all closed if and only if the kernel gives none: at
once, or, in the loop over the maps of a program, up to its end. For a program that of the program
itself is closed if nothing fails and all of its maps are there. -/
theorem closed_iff (answers : Stream' ℤ) (kernel_id : ℤ) (map_ids : List ℤ) :
    ((bpftimeMapsCreateServer (.start answers) kernel_id).2.Balanced ↔ answers.head < 0) ∧
    ((checkAndCreateProgRelatedMaps (.start answers) map_ids).2.Balanced ↔
      answers.head < 0 ∨ NoneOpened map_ids answers.tail) ∧
    ((bpftimeProgsCreateServer (.start answers) kernel_id map_ids).2.Balanced ↔
      answers.head < 0 ∨ 0 ≤ answers.get 1 ∧ answers.get 2 = 0 ∧ 0 ≤ answers.get 3 ∧
        0 ≤ answers.get 4 ∧ 0 ≤ answers.get 5 ∧ AllThere map_ids (answers.drop 6)) := by
  refine ⟨(gets_maps kernel_id).balanced_iff.trans (got_maps kernel_id),
    (gets_checked map_ids).balanced_iff.trans ?_, ?_⟩
  · unfold checkAndCreateProgRelatedMaps
    split_ifs with h
    · exact iff_of_true rfl (.inl h)
    · exact (got_related map_ids (c := (Calls.start answers).next)).trans
        (or_iff_right (a := answers.head < 0) h).symm
  · have hopen : ∀ c : Calls, c.closed = [] → (∃ fds, c.got = answers.head :: fds) → ¬c.Balanced := by
      rintro c hclosed ⟨fds, hfds⟩ h
      rw [Calls.Balanced, hclosed, hfds] at h
      exact absurd h.length_eq (by simp)
    have hchecked := checked_iff (c := (Calls.start answers).get.next.next.next.next) map_ids
    obtain ⟨hclosed, fds, hfds⟩ := gets_checked (c := (Calls.start answers).get.next.next.next.next) map_ids
    unfold bpftimeProgsCreateServer
    dsimp only
    split_ifs with h0 h1 h2 h3 h4 h5
    · exact iff_of_true (Perm.refl _) (.inl h0)
    · exact iff_of_false (hopen _ rfl ⟨[], rfl⟩) (by rintro (h | h); exacts [h0 h, h.1.not_gt h1])
    · exact iff_of_false (hopen _ rfl ⟨[], rfl⟩) (by rintro (h | h); exacts [h0 h, h2 h.2.1])
    · exact iff_of_false (hopen _ rfl ⟨[], rfl⟩) (by rintro (h | h); exacts [h0 h, h.2.2.1.not_gt h3])
    · exact iff_of_false (hopen _ rfl ⟨[], rfl⟩) (by rintro (h | h); exacts [h0 h, h.2.2.2.1.not_gt h4])
    · -- The check of the maps fails.
      refine iff_of_false (hopen _ hclosed ⟨fds, hfds⟩) ?_
      rintro (h | ⟨-, -, -, -, h⟩)
      · exact h0 h
      · exact h5.not_ge (hchecked.mpr h).1
    · -- The descriptor of the program is closed, and no other.
      rw [and_iff_right (not_lt.mp h5), hfds] at hchecked
      simp only [Calls.Balanced, hclosed, hfds]
      change [answers.head].Perm (answers.head :: fds) ↔ _
      have hperm : [answers.head].Perm (answers.head :: fds) ↔ [answers.head] ++ fds = [answers.head] := by
        simp
      refine (hperm.trans hchecked).trans ⟨fun h =>
        .inr ⟨not_lt.mp h1, not_not.mp h2, not_lt.mp h3, not_lt.mp h4, h⟩, ?_⟩
      rintro (h | h)
      · exact absurd h h0
      · exact h.2.2.2.2

/-- A map that is there already: its descriptor stays open. -/
theorem not_closed : ¬ (bpftimeMapsCreateServer (.start (Stream'.const 5)) 1).2.Balanced := by
  intro h
  exact absurd h.length_eq (by decide)

end Bpftime.Daemon.Descriptors
