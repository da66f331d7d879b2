import Bpftime.Shm.Table

/-!
# Handlers at a descriptor that is given

What `add_bpf_prog` and `add_bpf_map` do for a descriptor that the caller has chosen.
-/

namespace Bpftime.BpftimeShm

variable {s : BpftimeShm} {fd : ℤ} {h : Handler}

lemma getHandler_of_not_isAllocated (hfree : ¬s.isAllocated fd = true) :
    s.getHandler fd = none ∨ s.getHandler fd = some .unused := by
  unfold isAllocated at hfree
  cases hget : s.getHandler fd with
  | none => exact Or.inl rfl
  | some h' =>
    rw [hget] at hfree
    cases h' with
    | unused => exact Or.inr rfl
    | _ => exact absurd rfl hfree

lemma fake_fds_clearIdAt (s : BpftimeShm) (fd : ℤ) : (s.clearIdAt fd).fake_fds = s.fake_fds := by
  unfold clearIdAt
  cases s.getHandler fd with
  | none => rfl
  | some h => cases h <;> rfl

section AddBpfProg

variable (hfd : 0 ≤ fd)
include hfd

lemma addBpfProg_eq (insns : List UInt64) (prog_name : String) (prog_type : Int32) :
    s.addBpfProg fd insns prog_name prog_type = (setHandler { s with prog_types := s.prog_types.tail } fd
        (.prog ⟨s.prog_types.head, insns, prog_name⟩)).map fun p => (.ret p.1, p.2) := by
  have hat : ∀ s : BpftimeShm, s.orFakeFd fd = (fd, s) := fun s => if_neg (by omega)
  unfold addBpfProg setHandlerAt
  rw [hat]

lemma addBpfProg_allocated (halloc : s.isAllocated fd = true) (insns : List UInt64)
    (prog_name : String) (prog_type : Int32) :
    ∃ s', s.addBpfProg fd insns prog_name prog_type = some (.ret (-Errno.EEXIST.code), s') ∧
    ∀ j, s'.getHandler j = s.getHandler j := by
  refine ⟨{ s with prog_types := s.prog_types.tail }, ?_, fun j => rfl⟩
  have halloc' : isAllocated { s with prog_types := s.prog_types.tail } fd = true := halloc
  rw [addBpfProg_eq hfd]
  unfold setHandler
  rw [if_pos halloc']
  rfl

lemma addBpfProg_none (hnone : s.getHandler fd = none) (insns : List UInt64) (prog_name : String)
    (prog_type : Int32) : s.addBpfProg fd insns prog_name prog_type = none := by
  have hget : getHandler { s with prog_types := s.prog_types.tail } fd = none := hnone
  have halloc : ¬(isAllocated { s with prog_types := s.prog_types.tail } fd = true) := by
    unfold isAllocated
    rw [hget]
    decide
  rw [addBpfProg_eq hfd]
  unfold setHandler
  rw [if_neg halloc, if_neg (by simp), hget]
  rfl

lemma addBpfProg_unused (hunused : s.getHandler fd = some .unused) (insns : List UInt64)
    (prog_name : String) (prog_type : Int32) :
    ∃ s' p, s.addBpfProg fd insns prog_name prog_type = some (.ret fd, s') ∧ p.insns = insns ∧
    p.name = prog_name ∧ s'.fake_fds = s.fake_fds ∧
    ∀ j, s'.getHandler j = if j = fd then some (.prog p) else s.getHandler j := by
  have hget : getHandler { s with prog_types := s.prog_types.tail } fd = some .unused := hunused
  rw [addBpfProg_eq hfd, setHandler_of_unused hget (by simp)]
  exact ⟨_, ⟨s.prog_types.head, insns, prog_name⟩, rfl, rfl, rfl, rfl, getHandler_filled hget _ _⟩

lemma addBpfMap_none (hnone : s.getHandler fd = none) (name : String) (attr : BpfMapAttr) :
    s.addBpfMap fd name attr = none := by
  have hat : s.orFakeFd fd = (fd, s) := if_neg (by omega)
  unfold addBpfMap
  rw [hat]
  dsimp only
  rw [hnone]

end AddBpfProg

lemma getHandler_clearIdAt_of_unused (hunused : s.getHandler fd = some .unused) (j : ℤ) :
    (s.clearIdAt fd).getHandler j = s.getHandler j := by
  rw [getHandler_clearIdAt hunused]
  split_ifs with hj
  · rw [hj, hunused]
  · cases s.getHandler j with
    | none => rfl
    | some h' => cases h' <;> rfl

lemma addBpfMap_some (hget : s.getHandler fd = some h) (name : String) (attr : BpfMapAttr) :
    ∃ s' m, s.addBpfMap fd name attr = some (.ret fd, s') ∧ m.attr = attr ∧ s'.fake_fds = s.fake_fds ∧
    ∀ j, s'.getHandler j = if j = fd then some (.map m) else (s.clearIdAt fd).getHandler j := by
  obtain ⟨hfd, -⟩ := getHandler_eq_some.mp hget
  have hat : s.orFakeFd fd = (fd, s) := if_neg (by omega)
  unfold addBpfMap
  rw [hat]
  dsimp only
  rw [hget]
  dsimp only
  obtain ⟨s1, hs1, hfake, hslots⟩ : ∃ s1, (if h = .unused then s else s.clearIdAt fd) = s1 ∧
      s1.fake_fds = s.fake_fds ∧ ∀ j, s1.getHandler j = (s.clearIdAt fd).getHandler j := by
    split_ifs with hunused
    · rw [hunused] at hget
      exact ⟨s, rfl, rfl, fun j => (getHandler_clearIdAt_of_unused hget j).symm⟩
    · exact ⟨_, rfl, fake_fds_clearIdAt s fd, fun j => rfl⟩
  have hfree : s1.getHandler fd = some .unused := by rw [hslots, getHandler_clearIdAt hget, if_pos rfl]
  rw [hs1, setHandler_of_unused hfree (by simp)]
  refine ⟨_, (BpfMapHandler.mapInit ⟨attr, name, none⟩ s1.segment).2.1, rfl, ?_, hfake, fun j => ?_⟩
  · unfold BpfMapHandler.mapInit
    split_ifs <;> rfl
  · rw [← hslots]
    exact getHandler_filled hfree _ _ j

end Bpftime.BpftimeShm
