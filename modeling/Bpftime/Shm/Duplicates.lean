import Bpftime.Shm.Isolation

/-!
# Duplicating a map

`dup_bpf_map` makes a new map with the attributes of the old one, under the name of the old one
behind `dup_`.
-/

namespace Bpftime.BpftimeShm

open Option

variable {s s' : BpftimeShm} {fd : ℤ} {o : Container}

lemma mapCall_of_container (ho : s.container fd = some o) (c : MapCall) :
    ∃ s', s.mapCall fd c = some (.ret 0, s') ∧ s'.container fd =
    some { o with calls := o.calls ++ [c] } := by
  unfold container at ho
  cases hm : s.getHandler fd with
  | none => simp [hm] at ho
  | some h =>
    cases h with
    | map m =>
      rw [hm] at ho
      obtain ⟨ptr, hptr, hobject⟩ := bind_eq_some_iff.mp ho
      refine ⟨_, by simp only [mapCall, hm, hptr, hobject, bind_eq_bind, bind_some]; rfl, ?_⟩
      have hm' : ∀ g, ({ s with segment := g } : BpftimeShm).getHandler fd = some (.map m) := fun _ => hm
      unfold container
      rw [hm']
      simp [hptr]
    | _ => simp [hm] at ho

lemma exists_map_of_container (ho : s.container fd = some o) : ∃ m, s.getHandler fd = some (.map m) := by
  unfold container at ho
  cases hm : s.getHandler fd with
  | none => simp [hm] at ho
  | some h =>
    cases h with
    | map m => exact ⟨m, rfl⟩
    | _ => simp [hm] at ho

/-- Calls on two maps, `true` for the first. -/
def callOps (a b : ℤ) (calls : List (Bool × MapCall)) : List MapOp :=
  calls.map fun c => .mapCall (if c.1 then a else b) c.2

def callsOn (first : Bool) (calls : List (Bool × MapCall)) : List MapCall :=
  (calls.filter fun c => c.1 = first).map (·.2)

lemma run_callOps {a b : ℤ} (hab : a ≠ b) (calls : List (Bool × MapCall)) (hs : s.Named)
    {oa ob : Container} (ha : s.container a = some oa) (hb : s.container b = some ob) :
    ∃ rs s', Runs.run mapStep s (callOps a b calls) = some (rs, s') ∧ s'.Named ∧
    s'.container a = some { oa with calls := oa.calls ++ callsOn true calls } ∧
      s'.container b = some { ob with calls := ob.calls ++ callsOn false calls } := by
  induction calls generalizing s oa ob with
  | nil => exact ⟨[], s, rfl, hs, by simpa [callsOn] using ha, by simpa [callsOn] using hb⟩
  | cons c calls ih =>
    obtain ⟨ma, hma⟩ := exists_map_of_container ha
    obtain ⟨mb, hmb⟩ := exists_map_of_container hb
    obtain ⟨first, call⟩ := c
    cases first with
    | true =>
      obtain ⟨s₁, hcall, ha1⟩ := mapCall_of_container ha call
      obtain ⟨hs1, hspares⟩ := hs.mapCall hcall
      have hb1 : s₁.container b = some ob := (hspares.container_eq hab.symm hmb).trans hb
      obtain ⟨rs, s', hrun, hs', ha', hb'⟩ := ih hs1 ha1 hb1
      have hstep : s.mapStep (.mapCall a call) = some (.ret 0, s₁) := hcall
      refine ⟨.ret 0 :: rs, s', ?_, hs', by simpa [callsOn] using ha', by simpa [callsOn] using hb'⟩
      change Runs.run mapStep s (.mapCall a call :: callOps a b calls) = _
      rw [Runs.run_cons hstep, hrun, map_some]
    | false =>
      obtain ⟨s₁, hcall, hb1⟩ := mapCall_of_container hb call
      obtain ⟨hs1, hspares⟩ := hs.mapCall hcall
      have ha1 : s₁.container a = some oa := (hspares.container_eq hab hma).trans ha
      obtain ⟨rs, s', hrun, hs', ha', hb'⟩ := ih hs1 ha1 hb1
      have hstep : s.mapStep (.mapCall b call) = some (.ret 0, s₁) := hcall
      refine ⟨.ret 0 :: rs, s', ?_, hs', by simpa [callsOn] using ha', by simpa [callsOn] using hb'⟩
      change Runs.run mapStep s (.mapCall b call :: callOps a b calls) = _
      rw [Runs.run_cons hstep, hrun, map_some]

/-- The name of the duplicate is free once what is at its descriptor is closed: no map at another
descriptor has it, and no object of the segment. -/
def DupNameFree (s : BpftimeShm) (newfd : ℤ) (m : BpfMapHandler) : Prop :=
  s.NewName (.addBpfMap newfd ("dup_" ++ m.name) m.attr) ∧
    "ebpf_map_fd_dup_" ++ m.name ∉ (s.clearIdAt (s.orFakeFd newfd).1).segment.names

instance (s : BpftimeShm) (newfd : ℤ) (m : BpfMapHandler) : Decidable (s.DupNameFree newfd m) :=
  inferInstanceAs (Decidable (_ ∧ _))

lemma segment_vacant {h : Handler} (hhandlers : s'.handlers = s.handlers) (hsegment : s'.segment = s.segment)
    (hfd : s'.getHandler fd = some h) :
    (if h = .unused then s' else s'.clearIdAt fd).segment = (s.clearIdAt fd).segment := by
  have hfd' : s.getHandler fd = some h := (getHandler_congr hhandlers fd).symm.trans hfd
  unfold clearIdAt
  rw [hfd, hfd']
  cases h <;> simp [put, clearLinks, hsegment]

variable {m : BpfMapHandler}

lemma container_filled (hfd : s.getHandler fd = some .unused)
    (hconstructs : m.constructs = true) (hname : m.getContainerName ∉ s.segment.names) :
    ({ s.put fd (initialised s.segment (.map m)).1 with
    segment := (initialised s.segment (.map m)).2 } : BpftimeShm).container fd = some ⟨m.attr, []⟩ := by
  have hinit : m.mapInit s.segment = (true, { m with map_impl_ptr := some s.segment.fresh },
      (s.segment.construct m.getContainerName m.attr).2) := by
    unfold BpfMapHandler.mapInit Segment.construct
    rw [if_pos hconstructs, if_neg hname]
  unfold container
  rw [getHandler_filled hfd, if_pos rfl]
  simp [initialised, hinit, Segment.construct, hname]

lemma dup_spec (hs : s.Named) {oldfd newfd : ℤ} {r : ShmReply}
    {s₁ : BpftimeShm} (hmap : s.getHandler oldfd = some (.map m)) (hcontainer : s.container oldfd = some o)
    (hconstructs : m.constructs = true) (hfree : s.DupNameFree newfd m)
    (hdup : s.dupBpfMap oldfd newfd = some (r, s₁)) :
    r = .ret (s.orFakeFd newfd).1 ∧ (s.orFakeFd newfd).1 ≠ oldfd ∧ s₁.Named ∧ s₁.container oldfd =
    some o ∧ s₁.container (s.orFakeFd newfd).1 = some ⟨m.attr, []⟩ := by
  unfold dupBpfMap at hdup
  rw [hmap] at hdup
  dsimp only at hdup
  have hopen := hs.orFakeFd newfd
  obtain ⟨hhandlers, hsegment⟩ := orFakeFd_same s newfd
  obtain ⟨hnew, hdir⟩ := hfree
  have hother : ∀ j m', j ≠ (s.orFakeFd newfd).1 → s.getHandler j = some (.map m') → m'.name ≠
      "dup_" ++ m.name := hnew
  generalize hslot : (s.orFakeFd newfd).1 = slot at hdup hother hdir hopen ⊢
  generalize (s.orFakeFd newfd).2 = s0 at hdup hopen hhandlers hsegment
  cases hh : s0.getHandler slot with
  | none => simp [hh] at hdup
  | some h =>
    simp only [hh] at hdup
    by_cases hne : slot = oldfd
    · rw [if_pos hne] at hdup
      cases hdup
    rw [if_neg hne] at hdup
    obtain ⟨⟨n, s₂⟩, hset, heq⟩ := map_eq_some_iff.mp hdup
    cases heq
    obtain ⟨hvacant, hspare, hmaps⟩ := hopen.1.vacant hh
    have hunused := getHandler_vacant hh slot
    rw [← segment_vacant hhandlers hsegment hh] at hdir
    generalize (if h = .unused then s0 else s0.clearIdAt slot) = v at *
    rw [if_pos rfl] at hunused
    obtain ⟨hnamed, hspare'⟩ := hvacant.setHandler
      (fun j m' hj hm' => hother j m' hj ((getHandler_congr hhandlers j).symm.trans (hmaps j m' hm').2)) hset
    have hold := ((hopen.2.trans hspare).trans hspare').container_eq (Ne.symm hne) hmap
    rw [setHandler_of_unused hunused (by simp)] at hset
    obtain ⟨rfl, rfl⟩ := Prod.mk.inj (some.inj hset)
    have hcontainerName : BpfMapHandler.getContainerName ⟨m.attr, "dup_" ++ m.name, none⟩ =
        "ebpf_map_fd_dup_" ++ m.name := by simp [BpfMapHandler.getContainerName, ← String.append_assoc]
    exact ⟨rfl, hne, hnamed, hold.trans hcontainer,
      container_filled hunused hconstructs (by rwa [hcontainerName])⟩

/-- A duplicate is a new, empty map with the attributes of the old one, whose contents stay.
Whatever calls are made through the two descriptors after that, each map has those made through its
own, and closing one leaves the other. -/
theorem dup_separate (hs : s.Named) {oldfd newfd : ℤ} {m : BpfMapHandler} {o : Container} {r : ShmReply}
    {s₁ : BpftimeShm} (hmap : s.getHandler oldfd = some (.map m)) (hcontainer : s.container oldfd = some o)
    (hconstructs : m.constructs = true) (hfree : s.DupNameFree newfd m)
    (hdup : s.dupBpfMap oldfd newfd = some (r, s₁)) : let slot := (s.orFakeFd newfd).1
    r = .ret slot ∧ s₁.container oldfd = some o ∧ s₁.container slot = some ⟨m.attr, []⟩ ∧
      ∀ calls, ∃ rs s₂, Runs.run mapStep s₁ (callOps oldfd slot calls) = some (rs, s₂) ∧
        s₂.container oldfd = some { o with calls := o.calls ++ callsOn true calls } ∧
        s₂.container slot = some ⟨m.attr, callsOn false calls⟩ ∧
        (s₂.closeFd slot).container oldfd = s₂.container oldfd ∧
        (s₂.closeFd oldfd).container slot = s₂.container slot := by
  intro slot
  obtain ⟨hr, hne, hs1, hold, hnew⟩ := dup_spec hs hmap hcontainer hconstructs hfree hdup
  refine ⟨hr, hold, hnew, fun calls => ?_⟩
  obtain ⟨rs, s₂, hrun, hs2, hold2, hnew2⟩ := run_callOps hne.symm calls hs1 hold hnew
  obtain ⟨m2, hm2⟩ := exists_map_of_container hold2
  obtain ⟨m2', hm2'⟩ := exists_map_of_container hnew2
  exact ⟨rs, s₂, hrun, hold2, by simpa using hnew2, (hs2.clearIdAt slot).2.container_eq hne.symm hm2,
    (hs2.clearIdAt oldfd).2.container_eq hne hm2'⟩

/-- A map is added, and a value is written to it. -/
def oneValue : List MapOp := [.addBpfMap 3 "a" hashAttr, .mapCall 3 (.update [1, 0, 0, 0] [7, 0, 0, 0] 0)]

/-- A value is written through the duplicate and removed through the old descriptor. -/
theorem dup_separate_hash : ∃ rs s r s₁ rs' s₂,
    Runs.run mapStep (create 8 (fun _ => 0) (fun _ => 0)) oneValue = some (rs, s) ∧
    s.dupBpfMap 3 4 = some (r, s₁) ∧
      Runs.run mapStep s₁ (callOps 3 4 [(false, .update [1, 0, 0, 0] [8, 0, 0, 0] 0),
      (true, .delete [1, 0, 0, 0])]) =
        some (rs', s₂) ∧ s₂.container 3 = some ⟨hashAttr,
        [.update [1, 0, 0, 0] [7, 0, 0, 0] 0, .delete [1, 0, 0, 0]]⟩ ∧
      s₂.container 4 = some ⟨hashAttr, [.update [1, 0, 0, 0] [8, 0, 0, 0] 0]⟩ := by
  have hstate : (Runs.run mapStep (create 8 (fun _ => 0) (fun _ => 0)) oneValue).map
      (fun p => (p.2.getHandler 3, p.2.container 3, decide (p.2.DupNameFree 4 ⟨hashAttr, "a", some 0⟩),
        (p.2.dupBpfMap 3 4).isSome)) =
      some (some (.map ⟨hashAttr, "a", some 0⟩),
      some ⟨hashAttr, [.update [1, 0, 0, 0] [7, 0, 0, 0] 0]⟩, true, true) := by
    decide +kernel
  obtain ⟨⟨rs, s⟩, hrun, heq⟩ := map_eq_some_iff.mp hstate
  simp only [Prod.mk.injEq, decide_eq_true_eq] at heq
  obtain ⟨hmap, hcontainer, hfree, hdup⟩ := heq
  obtain ⟨⟨r, s₁⟩, hdup⟩ := isSome_iff_exists.mp hdup
  have hs : s.Named := Runs.invariant_of_run (P := Named) (C := NewName)
    (fun s op r s' hs hop hstep => (hs.mapStep hop hstep).1) (Named.create 8 _ _) (by decide +kernel) hrun
  obtain ⟨-, -, -, hcalls⟩ := dup_separate hs hmap hcontainer rfl hfree hdup
  obtain ⟨rs', s₂, hrun', hold, hnew, -⟩ := hcalls [(false, .update [1, 0, 0, 0] [8, 0, 0, 0] 0),
      (true, .delete [1, 0, 0, 0])]
  exact ⟨rs, s, r, s₁, rs', s₂, hrun, hdup, hrun', hold, hnew⟩

/-- The value of a key in a hash map, by the calls made on the map. -/
def lastValue (o : Container) (key : List UInt8) : Option (List UInt8) :=
  o.calls.foldl (fun v c => match c with
    | .update k value _ => if k = key then some value else v
    | .delete k => if k = key then none else v
    | _ => v) none

/-- The value that was written before the call is found through the old descriptor and not through
the new one. -/
theorem not_one_map_dup :
    (Runs.run mapStep (create 8 (fun _ => 0) (fun _ => 0)) oneValue).bind (fun p =>
    (p.2.dupBpfMap 3 4).map fun q =>
      (q.1, q.2.lookupElem lastValue 3 [1, 0, 0, 0], q.2.lookupElem lastValue 4 [1, 0, 0, 0])) =
      some (.ret 4, some (some [7, 0, 0, 0]), some none) := by decide +kernel

end Bpftime.BpftimeShm
