import Bpftime.Shm.Changes
import Bpftime.Lib.Runs

/-!
# What links point at

A link names a program and a target.
-/

namespace Bpftime.BpftimeShm

open Option

/-! ## The two ends of a link -/

/-- One end of links: the descriptor a link has there, and the handlers that belong there. -/
structure LinkEnd where
  fd : BpfLinkHandler → ℤ
  belongs : Handler → Bool
  not_unused : belongs .unused = false
  not_link : ∀ l, belongs (.link l) = false
  cut : ∀ {h : Handler} {l : BpfLinkHandler}, belongs h = true → cutLink (fd l) h l = true
  enable : ∀ (e : BpfPerfEventHandler) (enabled : Bool),
    belongs (.perfEvent { e with enabled }) = belongs (.perfEvent e)

def progEnd : LinkEnd where
  fd l := l.prog_id
  belongs h := h matches .prog _
  not_unused := rfl
  not_link _ := rfl
  cut {h l} hb := by
    cases h with
    | prog p => simp [cutLink]
    | _ => simp at hb
  enable _ _ := rfl

def perfEnd : LinkEnd where
  fd l := l.attach_target_id
  belongs h := h matches .perfEvent _
  not_unused := rfl
  not_link _ := rfl
  cut {h l} hb := by
    cases h with
    | perfEvent e => simp [cutLink]
    | _ => simp at hb
  enable _ _ := rfl

/-- Every link has a live handler of the right kind at this end. -/
def LinksLive (E : LinkEnd) (s : BpftimeShm) : Prop :=
  ∀ i l, s.getHandler i = some (.link l) → ∃ h, s.getHandler (E.fd l) = some h ∧ E.belongs h = true

variable {E : LinkEnd} {s s' : BpftimeShm} {fd : ℤ}

lemma linksLive_create (E : LinkEnd) (n : ℕ) (fake_fds : Stream' ℤ) (prog_types : Stream' Int32) :
    LinksLive E (create n fake_fds prog_types) := by
  intro i l hl
  obtain ⟨-, hl⟩ := getHandler_eq_some.mp hl
  have := List.eq_of_mem_replicate (List.mem_of_getElem? hl)
  simp at this

lemma LinksLive.fill {h : Handler} (hs : LinksLive E s) (hfree : s.getHandler fd = some .unused)
    (hlink : ∀ l, h = .link l → ∃ h', s.getHandler (E.fd l) = some h' ∧ E.belongs h' = true)
    (hs' : s'.handlers = (s.put fd h).handlers) : LinksLive E s' := by
  have hget : ∀ i, s'.getHandler i = if i = fd then some h else s.getHandler i := by
    intro i
    rw [getHandler_congr hs']
    exact getHandler_filled hfree h s.segment i
  -- A live end is not in the slot that was unused.
  have hkeep : ∀ i h', s.getHandler i = some h' → E.belongs h' = true → s'.getHandler i = some h' := by
    intro i h' hi hb
    rw [hget, if_neg, hi]
    rintro rfl
    rw [hfree] at hi
    cases hi
    rw [E.not_unused] at hb
    exact absurd hb (by decide)
  intro i l hl
  rw [hget] at hl
  have hend : ∃ h', s.getHandler (E.fd l) = some h' ∧ E.belongs h' = true := by
    split_ifs at hl with hi
    · exact hlink l (some.inj hl)
    · exact hs i l hl
  obtain ⟨h', hh', hb⟩ := hend
  exact ⟨h', hkeep _ h' hh' hb, hb⟩

lemma LinksLive.clear (hs : LinksLive E s) (fd : ℤ) : LinksLive E (s.clearIdAt fd) := by
  rcases eq_none_or_eq_some (s.getHandler fd) with hfd | ⟨h, hfd⟩
  · rw [clearIdAt_of_none hfd]
    exact hs
  · intro i l hl
    rw [getHandler_clearIdAt hfd] at hl
    have hi : i ≠ fd := by
      rintro rfl
      simp at hl
    rw [if_neg hi] at hl
    obtain ⟨h', hh', hcut⟩ := map_eq_some_iff.mp hl
    obtain ⟨rfl, huncut⟩ := cutSlot_eq_link hcut
    obtain ⟨h0, hh0, hb⟩ := hs i l hh'
    -- The end was not at this descriptor, since the link would have been removed.
    have hne : E.fd l ≠ fd := by
      intro heq
      rw [heq, hfd] at hh0
      cases hh0
      have := E.cut (l := l) hb
      rw [heq, huncut] at this
      exact absurd this (by decide)
    refine ⟨h0, ?_, hb⟩
    rw [getHandler_clearIdAt hfd, if_neg hne, hh0, map_some, cutSlot_of_ne_link]
    rintro l' rfl
    rw [E.not_link] at hb
    exact absurd hb (by decide)

lemma LinksLive.enable {e : BpfPerfEventHandler} (hs : LinksLive E s) (enabled : Bool)
    (hfd : s.getHandler fd = some (.perfEvent e)) :
    LinksLive E (s.put fd (.perfEvent { e with enabled })) := by
  intro i l hl
  by_cases hi : i = fd
  · subst hi
    rw [getHandler_put_self hfd] at hl
    simp at hl
  · rw [getHandler_put_of_ne hfd hi] at hl
    obtain ⟨h, hh, hb⟩ := hs i l hl
    by_cases hend : E.fd l = fd
    · rw [hend, hfd] at hh
      cases hh
      exact ⟨_, hend ▸ getHandler_put_self hfd _, (E.enable e enabled).trans hb⟩
    · exact ⟨h, (getHandler_put_of_ne hfd hend _).trans hh, hb⟩

lemma LinksLive.change {checked : Prop} (hs : LinksLive E s) (h : Change checked s s')
    (hend : ∀ (s : BpftimeShm) (l : BpfLinkHandler),
    (s.isProgFd l.prog_id = true ∧ (checked → s.isPerfFd l.attach_target_id = true)) →
    ∃ h, s.getHandler (E.fd l) = some h ∧ E.belongs h = true) : LinksLive E s' := by
  cases h with
  | rest h =>
    intro i l hl
    rw [getHandler_congr h] at hl
    obtain ⟨h', hh', hb⟩ := hs i l hl
    exact ⟨h', (getHandler_congr h _).trans hh', hb⟩
  | fill hfree hlink hs' => exact hs.fill hfree (fun l hl => hend s l (hlink l hl)) hs'
  | clear fd => exact hs.clear fd
  | enable enabled hfd => exact hs.enable enabled hfd

lemma LinksLive.changes_prog {checked : Prop} (hs : LinksLive progEnd s)
    (h : Changes checked s s') : LinksLive progEnd s' := by
  induction h with
  | refl => exact hs
  | tail _ hstep ih =>
    refine ih.change hstep fun s l hl => ?_
    obtain ⟨p, hp⟩ := isProgFd_iff.mp hl.1
    exact ⟨_, hp, rfl⟩

lemma LinksLive.changes_perf {checked : Prop} (hchecked : checked) (hs : LinksLive perfEnd s)
    (h : Changes checked s s') : LinksLive perfEnd s' := by
  induction h with
  | refl => exact hs
  | tail _ hstep ih =>
    refine ih.change hstep fun s l hl => ?_
    obtain ⟨e, he⟩ := isPerfFd_iff.mp (hl.2 hchecked)
    exact ⟨_, he, rfl⟩

variable {fake_fds : Stream' ℤ} {prog_types : Stream' Int32} {n : ℕ} {ops : List ShmOp} {rs : List ShmReply}

section

variable (hrun : Runs.run step (create n fake_fds prog_types) ops = some (rs, s))
include hrun

lemma length_of_run : s.handlers.length = n := by
  have hstart : (create n fake_fds prog_types).handlers.length = n := List.length_replicate
  refine Runs.invariant_of_run (P := fun s => s.handlers.length = n) (C := fun _ _ => True)
    (fun s op r s' hs _ hstep => ?_) hstart (Runs.along_of_forall_mem fun _ _ _ => trivial) hrun
  have hleads : Leads False s (s.step op) := leads_step fun h => h.elim
  rw [(hleads r s' hstep).length_eq, hs]

lemma linksLive_prog_of_run : LinksLive progEnd s := by
  refine Runs.invariant_of_run (C := fun _ _ => True) (fun s op r s' hs _ hstep => ?_)
    (linksLive_create progEnd n fake_fds prog_types)
    (Runs.along_of_forall_mem fun _ _ _ => trivial) hrun
  have hleads : Leads False s (s.step op) := leads_step fun h => h.elim
  exact hs.changes_prog (hleads r s' hstep)

end

/-- In every state that a run from an empty table reaches, the program of every link is live; and so
is the perf event of every link, when every target that was given to a link without a check of its
own was a live perf event. -/
theorem links_live_of_run (n : ℕ) (fake_fds : Stream' ℤ) (prog_types : Stream' Int32)
    (ops : List ShmOp) (rs : List ShmReply) (hrun : Runs.run step (create n fake_fds prog_types) ops = some (rs, s)) :
    LinksLive progEnd s ∧ (Runs.Along step (fun s op =>
    s.opTargetsLive op = true) (create n fake_fds prog_types) ops →
        LinksLive perfEnd s) := by
  refine ⟨linksLive_prog_of_run hrun, fun hlive => ?_⟩
  refine Runs.invariant_of_run (fun s op r s' hs hop hstep => ?_)
    (linksLive_create perfEnd n fake_fds prog_types) hlive hrun
  have hleads : Leads True s (s.step op) := leads_step fun _ => hop
  exact hs.changes_perf trivial (hleads r s' hstep)

/-- A program and a tracepoint, a link between them, and another one from a file. -/
def linkedOps : List ShmOp :=
  [.addBpfProg 4 [0x95] "p" 1, .addTracepoint 5 1 6, .addBpfLink 7 4 5,
    .importFile (.obj [("6", .obj [("type", .str "bpf_link_handler"),
      ("attr", .obj [("prog_fd", .num 4), ("target_fd", .num 5)])])])]

/-- The condition holds when links are added between live handlers. -/
theorem links_live_linkedOps : ∃ rs s, Runs.run step
    (create 8 (fun _ => 3) (fun _ => 0)) linkedOps = some (rs, s) ∧
      s.getHandler 6 = some (.link ⟨4, 5, none⟩) ∧ LinksLive progEnd s ∧ LinksLive perfEnd s := by
  have hsome : (Runs.run step (create 8 (fun _ => 3) (fun _ => 0)) linkedOps).map
      (fun p => p.2.getHandler 6) = some (some (.link ⟨4, 5, none⟩)) := by decide +kernel
  obtain ⟨⟨rs, s⟩, hrun, hlink⟩ := map_eq_some_iff.mp hsome
  have hlive := links_live_of_run 8 (fun _ => 3) (fun _ => 0) linkedOps rs hrun
  exact ⟨rs, s, hrun, hlink, hlive.1, hlive.2 (by decide +kernel)⟩

/-- A link is added to a descriptor at which there is nothing. -/
def danglingOps : List ShmOp := [.addBpfProg 4 [0x95] "p" 1, .addBpfLink 7 4 5]

/-- The target of the link is not live. -/
theorem not_linksLive_danglingOps :
    ∃ rs s, Runs.run step (create 8 (fun _ => 3) (fun _ => 0)) danglingOps = some (rs, s) ∧
    ¬ LinksLive perfEnd s := by
  have hsome : (Runs.run step (create 8 (fun _ => 3) (fun _ => 0)) danglingOps).map
      (fun p => (p.2.getHandler 7, p.2.getHandler 5)) =
        some (some (.link ⟨4, 5, none⟩), some .unused) := by decide +kernel
  obtain ⟨⟨rs, s⟩, hrun, hslots⟩ := map_eq_some_iff.mp hsome
  obtain ⟨hlink, htarget⟩ := Prod.mk.inj hslots
  refine ⟨rs, s, hrun, fun hlive => ?_⟩
  obtain ⟨h, hh, hb⟩ := hlive 7 _ hlink
  rw [perfEnd] at hh hb
  rw [htarget] at hh
  cases hh
  exact absurd hb (by decide)

end Bpftime.BpftimeShm
