import Bpftime.Shm.Isolation

/-!
# The maps that the verifier knows

The verifier has a table of map descriptors of its own.
-/

namespace Bpftime.Verifier

open Option BpftimeShm
open Runs (run Along forall_prefix_runs_iff_along along_of_forall_mem)

/-- A `BpftimeMapDescriptor`. -/
structure MapDescriptor where
  original_fd : ℤ
  type : UInt32
  key_size : UInt32
  value_size : UInt32
  max_entries : UInt32
  inner_map_fd : UInt32
deriving DecidableEq

/-- The type, the sizes of keys and values, and the number of entries. -/
abbrev Shape := UInt32 × UInt32 × UInt32 × UInt32

def MapDescriptor.shape (d : MapDescriptor) : Shape := (d.type, d.key_size, d.value_size, d.max_entries)

/-- The shared memory and the `map_descriptors` of the verifier. -/
structure Server where
  shm : BpftimeShm
  map_descriptors : AList fun _ : ℤ => MapDescriptor

inductive MapOp where
  | addBpfMap (fd : ℤ) (name : String) (attr : BpfMapAttr)
  | dupBpfMap (oldfd newfd : ℤ)
  | closeFd (fd : ℤ)

namespace Server

def create (max_fd_count : ℕ) (fake_fds : Stream' ℤ) (prog_types : Stream' Int32) : Server :=
  ⟨.create max_fd_count fake_fds prog_types, ∅⟩

/-- The descriptor that `add_bpf_map` makes. -/
def descriptor (fd : ℤ) (attr : BpfMapAttr) : MapDescriptor where
  original_fd := fd
  type := attr.type.toUInt32
  key_size := attr.key_size
  value_size := attr.value_size
  max_entries := attr.max_ents
  inner_map_fd := 4294967295

def step (s : Server) : MapOp → Option (ShmReply × Server)
  | .addBpfMap fd name attr =>
    let map_descriptors := s.map_descriptors.insert (s.shm.orFakeFd fd).1
      (descriptor (s.shm.orFakeFd fd).1 attr)
    (s.shm.addBpfMap fd name attr).map fun p => (p.1, ⟨p.2, map_descriptors⟩)
  | .dupBpfMap oldfd newfd => (s.shm.dupBpfMap oldfd newfd).map fun p => (p.1, { s with shm := p.2 })
  | .closeFd fd => some (.ret 0, { s with shm := s.shm.closeFd fd })

def mapAt (shm : BpftimeShm) (fd : ℤ) : Option BpfMapHandler :=
  match shm.getHandler fd with
  | some (.map m) => some m
  | _ => none

def attrShape (attr : BpfMapAttr) : Shape :=
  (attr.type.toUInt32, attr.key_size, attr.value_size, attr.max_ents)

def shapeAt (shm : BpftimeShm) (fd : ℤ) : Option Shape := (mapAt shm fd).map fun m => attrShape m.attr

/-- The verifier knows the maps that are live, each with its shape, and no others. -/
def Agrees (s : Server) : Prop := ∀ fd, (s.map_descriptors.lookup fd).map MapDescriptor.shape =
    shapeAt s.shm fd

def Fits (s : Server) : MapOp → Prop
  | .addBpfMap fd _ _ => (s.shm.getHandler (s.shm.orFakeFd fd).1).isSome = true
  | .dupBpfMap oldfd newfd =>
    shapeAt s.shm oldfd = none ∨ ((s.shm.orFakeFd newfd).1 ≠ oldfd ∧
      shapeAt s.shm (s.shm.orFakeFd newfd).1 = shapeAt s.shm oldfd)
  | .closeFd fd => shapeAt s.shm fd = none

instance (s : Server) (op : MapOp) : Decidable (Fits s op) :=
  match op with
  | .addBpfMap fd _ _ => inferInstanceAs (Decidable ((s.shm.getHandler (s.shm.orFakeFd fd).1).isSome = true))
  | .dupBpfMap oldfd newfd => inferInstanceAs (Decidable (shapeAt s.shm oldfd = none ∨
    ((s.shm.orFakeFd newfd).1 ≠ oldfd ∧ shapeAt s.shm (s.shm.orFakeFd newfd).1 = shapeAt s.shm oldfd)))
  | .closeFd fd => inferInstanceAs (Decidable (shapeAt s.shm fd = none))

variable {shm : BpftimeShm} {fd : ℤ} {h : Handler}

lemma mapAt_eq_some {m : BpfMapHandler} : mapAt shm fd = some m ↔ shm.getHandler fd = some (.map m) := by
  unfold mapAt
  cases shm.getHandler fd with
  | none => simp
  | some h => cases h <;> simp

variable {shm' : BpftimeShm} {oldfd : ℤ}

lemma shapeAt_congr {shm : BpftimeShm} {fd fd' : ℤ}
    (h : ∀ m, shm.getHandler fd = some (.map m) ↔ shm'.getHandler fd' = some (.map m)) :
    shapeAt shm fd = shapeAt shm' fd' := by
  have hmap : mapAt shm fd = mapAt shm' fd' := by
    refine ext fun m => ?_
    rw [mapAt_eq_some, mapAt_eq_some, h]
  rw [shapeAt, hmap, shapeAt]

lemma shapeAt_clearIdAt (shm : BpftimeShm) (fd j : ℤ) :
    shapeAt (shm.clearIdAt fd) j = if j = fd then none else shapeAt shm j := by
  cases hfd : shm.getHandler fd with
  | none =>
    rw [clearIdAt_of_none hfd]
    split_ifs with hj
    · rw [hj, shapeAt, mapAt, hfd]
      rfl
    · rfl
  | some h =>
    have hiff := fun m => getHandler_clearIdAt_map (j := j) (m := m) ⟨h, hfd⟩
    split_ifs with hj
    · have hnone : mapAt (shm.clearIdAt fd) j = none := by
        refine eq_none_iff_forall_ne_some.mpr fun m hm => ?_
        exact ((hiff m).mp (mapAt_eq_some.mp hm)).1 hj
      rw [shapeAt, hnone, map_none]
    · exact shapeAt_congr fun m => (hiff m).trans (and_iff_right hj)

lemma setHandler_map_spec (hfd : shm.getHandler fd = some h) (m : BpfMapHandler) :
    ∃ shm', (if h = .unused then shm else shm.clearIdAt fd).setHandler fd (.map m) = some (fd, shm') ∧
    ∀ j, shapeAt shm' j = if j = fd then some (attrShape m.attr) else shapeAt shm j := by
  -- The slot is unused, and the other maps are as before.
  obtain ⟨shm1, hshm1, hfree, hother⟩ : ∃ shm1, (if h = .unused then shm else shm.clearIdAt fd) =
      shm1 ∧ shm1.getHandler fd = some .unused ∧ ∀ j, j ≠ fd → shapeAt shm1 j = shapeAt shm j := by
    split_ifs with hunused
    · exact ⟨shm, rfl, by rw [hfd, hunused], fun j _ => rfl⟩
    · refine ⟨_, rfl, ?_, fun j hj => ?_⟩
      · rw [getHandler_clearIdAt hfd, if_pos rfl]
      · rw [shapeAt_clearIdAt, if_neg hj]
  rw [hshm1]
  refine ⟨_, setHandler_of_unused hfree (by simp), fun j => ?_⟩
  have hslot := getHandler_filled hfree (initialised shm1.segment (.map m)).1 (initialised shm1.segment (.map m)).2 j
  split_ifs with hj
  · have hmap : mapAt _ j = some (m.mapInit shm1.segment).2.1 := mapAt_eq_some.mpr (hslot.trans (if_pos hj))
    have hattr : (m.mapInit shm1.segment).2.1.attr = m.attr := by
      unfold BpfMapHandler.mapInit
      split_ifs <;> rfl
    rw [shapeAt, hmap, map_some, hattr]
  · rw [← hother j hj]
    exact shapeAt_congr fun m' => by rw [hslot, if_neg hj]

lemma getHandler_orFakeFd (shm : BpftimeShm) (fd i : ℤ) :
    (shm.orFakeFd fd).2.getHandler i = shm.getHandler i := by
  unfold orFakeFd
  split_ifs
  · rfl
  · rfl

lemma shapeAt_orFakeFd (shm : BpftimeShm) (fd i : ℤ) : shapeAt (shm.orFakeFd fd).2 i = shapeAt shm i :=
  shapeAt_congr fun m => by rw [getHandler_orFakeFd]

lemma addBpfMap_spec (shm : BpftimeShm) (fd : ℤ) (name : String) (attr : BpfMapAttr) :
    ((shm.getHandler (shm.orFakeFd fd).1).isSome = true →
    ∃ r shm', shm.addBpfMap fd name attr = some (r, shm') ∧ ∀ j, shapeAt shm' j =
    if j = (shm.orFakeFd fd).1 then some (attrShape attr) else shapeAt shm j) ∧
    (shm.getHandler (shm.orFakeFd fd).1 = none → shm.addBpfMap fd name attr = none) := by
  have hget := getHandler_orFakeFd shm fd
  unfold addBpfMap
  dsimp only
  rw [hget]
  constructor
  · intro hsome
    obtain ⟨h, hfd⟩ := isSome_iff_exists.mp hsome
    obtain ⟨shm', hset, hshape⟩ := setHandler_map_spec ((hget _).trans hfd) ⟨attr, name, none⟩
    rw [hfd]
    dsimp only
    rw [hset]
    refine ⟨_, shm', rfl, fun j => ?_⟩
    rw [hshape, shapeAt_orFakeFd]
  · intro hnone
    rw [hnone]

lemma dupBpfMap_of_none (newfd : ℤ) (hold : shapeAt shm oldfd = none) :
    shm.dupBpfMap oldfd newfd = some (.error .EBADF, shm) := by
  have hmap : ∀ m, shm.getHandler oldfd ≠ some (.map m) := by
    intro m hm
    rw [shapeAt, mapAt_eq_some.mpr hm] at hold
    cases hold
  unfold dupBpfMap
  cases hget : shm.getHandler oldfd with
  | none => rfl
  | some h =>
    cases h with
    | map m => exact absurd hget (hmap m)
    | _ => rfl

lemma dupBpfMap_spec (newfd : ℤ) {shape : Shape} (hold : shapeAt shm oldfd = some shape) :
    ((shm.orFakeFd newfd).1 ≠ oldfd → (shm.getHandler (shm.orFakeFd newfd).1).isSome = true →
    ∃ r shm', shm.dupBpfMap oldfd newfd = some (r, shm') ∧ ∀ j, shapeAt shm' j =
    if j = (shm.orFakeFd newfd).1 then some shape else shapeAt shm j) ∧
    ((shm.orFakeFd newfd).1 = oldfd ∨ shm.getHandler (shm.orFakeFd newfd).1 = none →
    shm.dupBpfMap oldfd newfd = none) := by
  have hget := getHandler_orFakeFd shm newfd
  obtain ⟨m, hm, rfl⟩ := map_eq_some_iff.mp hold
  unfold dupBpfMap
  rw [mapAt_eq_some.mp hm]
  dsimp only
  rw [hget]
  constructor
  · intro hne hsome
    obtain ⟨h, hfd⟩ := isSome_iff_exists.mp hsome
    obtain ⟨shm', hset, hshape⟩ := setHandler_map_spec ((hget _).trans hfd) ⟨m.attr, "dup_" ++ m.name, none⟩
    rw [hfd]
    dsimp only
    rw [if_neg hne, hset]
    refine ⟨_, shm', rfl, fun j => ?_⟩
    rw [hshape, shapeAt_orFakeFd]
  · rintro (heq | hnone)
    · cases shm.getHandler (shm.orFakeFd newfd).1 with
      | none => rfl
      | some h =>
        dsimp only
        rw [if_pos heq]
    · rw [hnone]

variable {s : Server}

lemma agrees_insert (hs : Agrees s) {fd : ℤ} {d : MapDescriptor}
    (hshape : ∀ j, shapeAt shm' j = if j = fd then some d.shape else shapeAt s.shm j) :
    Agrees ⟨shm', s.map_descriptors.insert fd d⟩ := by
  intro j
  rw [hshape]
  split_ifs with hj
  · rw [hj, AList.lookup_insert, map_some]
  · rw [AList.lookup_insert_ne hj]
    exact hs j

lemma agrees_step_iff (s : Server) (op : MapOp) (hs : Agrees s) :
    (∃ r s', s.step op = some (r, s') ∧ Agrees s') ↔ Fits s op := by
  cases op with
  | addBpfMap fd name attr =>
    obtain ⟨hadd, hnone⟩ := addBpfMap_spec s.shm fd name attr
    constructor
    · rintro ⟨r, s', hstep, -⟩
      by_contra hfits
      have hbeyond := hnone (not_isSome_iff_eq_none.mp hfits)
      rw [step, hbeyond] at hstep
      cases hstep
    · intro hfits
      obtain ⟨r, shm', heq, hshape⟩ := hadd hfits
      exact ⟨r, _, by rw [step, heq]; rfl, agrees_insert hs hshape⟩
  | dupBpfMap oldfd newfd =>
    rw [step]
    cases hold : shapeAt s.shm oldfd with
    | none =>
      rw [dupBpfMap_of_none newfd hold]
      exact iff_of_true ⟨_, s, rfl, hs⟩ (Or.inl hold)
    | some shape =>
      obtain ⟨hdup, hnone⟩ := dupBpfMap_spec newfd hold
      have hfits : Fits s (.dupBpfMap oldfd newfd) ↔ (s.shm.orFakeFd newfd).1 ≠ oldfd ∧
          shapeAt s.shm (s.shm.orFakeFd newfd).1 = some shape := by
        rw [Fits, hold]
        simp
      rw [hfits]
      constructor
      · rintro ⟨r, s', hstep, hs'⟩
        obtain ⟨⟨r', shm'⟩, heq, hpair⟩ := map_eq_some_iff.mp hstep
        cases hpair
        have hne : ¬((s.shm.orFakeFd newfd).1 = oldfd ∨
            s.shm.getHandler (s.shm.orFakeFd newfd).1 = none) := by
          intro hbad
          rw [hnone hbad] at heq
          cases heq
        obtain ⟨hne, hin⟩ := not_or.mp hne
        obtain ⟨r1, shm1, heq1, hshape⟩ := hdup hne (isSome_iff_ne_none.mpr hin)
        cases heq.symm.trans heq1
        -- The descriptor of the former map there must do for the new one.
        refine ⟨hne, ?_⟩
        rw [← hs, hs' _]
        exact (hshape _).trans (if_pos rfl)
      · rintro ⟨hne, hnew⟩
        have hsome : (s.shm.getHandler (s.shm.orFakeFd newfd).1).isSome = true := by
          obtain ⟨m, hm, -⟩ := map_eq_some_iff.mp hnew
          rw [mapAt_eq_some.mp hm]
          rfl
        obtain ⟨r, shm', heq, hshape⟩ := hdup hne hsome
        refine ⟨r, _, by rw [heq]; rfl, fun j => ?_⟩
        rw [hshape]
        split_ifs with hj
        · rw [hs, hj, hnew]
        · exact hs j
  | closeFd fd =>
    rw [step, Fits]
    have hagrees : Agrees { s with shm := s.shm.closeFd fd } ↔ shapeAt s.shm fd = none := by
      constructor
      · intro hs'
        have hfd := hs' fd
        dsimp only [closeFd] at hfd
        rwa [shapeAt_clearIdAt, if_pos rfl, hs] at hfd
      · intro hnone j
        dsimp only [closeFd]
        rw [shapeAt_clearIdAt, hs]
        split_ifs with hj
        · rw [hj, hnone]
        · rfl
    rw [← hagrees]
    constructor
    · rintro ⟨r, s', hstep, hs'⟩
      cases hstep
      exact hs'
    · intro hs'
      exact ⟨_, _, rfl, hs'⟩

lemma agrees_create (max_fd_count : ℕ) (fake_fds : Stream' ℤ) (prog_types : Stream' Int32) :
    Agrees (create max_fd_count fake_fds prog_types) := by
  intro fd
  have hnone : mapAt (create max_fd_count fake_fds prog_types).shm fd = none := by
    refine eq_none_iff_forall_ne_some.mpr fun m hm => ?_
    obtain ⟨-, hget⟩ := getHandler_eq_some.mp (mapAt_eq_some.mp hm)
    cases List.eq_of_mem_replicate (List.mem_of_getElem? hget)
  rw [shapeAt, hnone]
  rfl

/-- The verifier's table agrees with the handler table after every prefix of some calls exactly when
the condition holds along them. -/
theorem agrees_iff (max_fd_count : ℕ) (fake_fds : Stream' ℤ) (prog_types : Stream' Int32)
    (ops : List MapOp) :
    (∀ pre, pre <+: ops → ∃ rs s, run step (create max_fd_count fake_fds prog_types) pre =
      some (rs, s) ∧ Agrees s) ↔ Along step Fits (create max_fd_count fake_fds prog_types) ops :=
  forall_prefix_runs_iff_along (I := fun _ => True) (D := fun _ _ => True) (fun _ _ _ _ _ _ _ => trivial)
    (fun s op _ hs _ => agrees_step_iff s op hs) trivial
    (agrees_create max_fd_count fake_fds prog_types) (along_of_forall_mem fun _ _ _ => trivial)

/-- A hash map that is created and closed is still known to the verifier. -/
theorem not_agrees_close : ∃ rs s, run step (create 4 (Stream'.const 3) (Stream'.const 0))
      [.addBpfMap 1 "m" ⟨1, 4, 8, 16, 0, 0, 0, 0, 0, 0, 0, 0, 0⟩, .closeFd 1] = some (rs, s) ∧
      mapAt s.shm 1 = none ∧ (s.map_descriptors.lookup 1).map MapDescriptor.shape =
      some (1, 4, 8, 16) ∧ ¬Agrees s := by
  refine ⟨_, _, rfl, by decide, by decide, fun hs => ?_⟩
  have hno := hs 1
  revert hno
  decide

end Server

end Bpftime.Verifier
