import Bpftime.Shm.Table
import Bpftime.Lib.Runs

/-!
# Maps at different descriptors

The container of a map is found by its name, `ebpf_map_fd_` and the name of the map, and nothing
keeps two maps from having one name.
-/

namespace Bpftime

open Option AList BpfMapHandler Segment Function

namespace Segment

variable {g : Segment} {name : String} {attr : BpfMapAttr} {a : ℕ}

/-- The directory of a segment that only `construct` and `destroy` changed. -/
structure Sound (g : Segment) : Prop where
  /-- An object has one name. -/
  name_inj : ∀ {n n' : String} {a : ℕ}, g.names.lookup n = some a → g.names.lookup n' = some a → n = n'
  lt_fresh : ∀ {n : String} {a : ℕ}, g.names.lookup n = some a → a < g.fresh

lemma Sound.empty : empty.Sound where
  name_inj h := by simp [Segment.empty] at h
  lt_fresh h := by simp [Segment.empty] at h

lemma construct_cases (g : Segment) (name : String) (attr : BpfMapAttr) :
    g.construct name attr = (none, g) ∨ g.construct name attr = (some g.fresh,
        { names := g.names.insert name g.fresh
          objects := update g.objects g.fresh (some ⟨attr, []⟩)
          fresh := g.fresh + 1 }) := by
  unfold construct
  split_ifs with h
  · exact .inl rfl
  · exact .inr rfl

variable {name' n : String}

lemma lookup_construct {p : Option ℕ × Segment} (hp : g.construct name attr = p)
    (h : g.names.lookup name' = some a) :
    p.2.names.lookup name' = some a := by
  subst hp
  unfold construct
  split_ifs with hmem
  · exact h
  · have hne : name' ≠ name := by
      rintro rfl
      exact hmem (lookup_isSome.mp (by simp [h]))
    exact (lookup_insert_ne hne).trans h

lemma Sound.construct (hg : g.Sound) (name : String) (attr : BpfMapAttr) :
    (g.construct name attr).2.Sound := by
  rcases construct_cases g name attr with h | h
  · rw [h]
    exact hg
  · rw [h]
    -- The new name is the only one at the new address.
    have hback : ∀ {n : String} {a : ℕ}, (g.names.insert name g.fresh).lookup n = some a →
        n = name ∧ a = g.fresh ∨ n ≠ name ∧ g.names.lookup n = some a := by
      intro n a hn
      by_cases hname : n = name
      · subst hname
        rw [lookup_insert] at hn
        exact .inl ⟨rfl, (some.inj hn).symm⟩
      · rw [lookup_insert_ne hname] at hn
        exact .inr ⟨hname, hn⟩
    refine ⟨fun {n n' a} hn hn' => ?_, fun {n a} hn => ?_⟩
    · rcases hback hn with ⟨rfl, ha⟩ | ⟨-, ha⟩ <;> rcases hback hn' with ⟨rfl, ha'⟩ | ⟨-, ha'⟩
      · rfl
      · exact absurd (hg.lt_fresh ha') (by omega)
      · exact absurd (hg.lt_fresh ha) (by omega)
      · exact hg.name_inj ha ha'
    · rcases hback hn with ⟨-, ha⟩ | ⟨-, ha⟩
      · show a < g.fresh + 1
        omega
      · exact Nat.lt_succ_of_lt (hg.lt_fresh ha)

lemma objects_construct (hg : g.Sound) (name : String) (attr : BpfMapAttr)
    (hn : g.names.lookup n = some a) : (g.construct name attr).2.objects a = g.objects a := by
  rcases construct_cases g name attr with h | h
  · rw [h]
  · rw [h]
    exact update_of_ne (hg.lt_fresh hn).ne _ _

lemma lookup_destroy (hne : name' ≠ name) : (g.destroy name).names.lookup name' = g.names.lookup name' := by
  unfold destroy
  cases g.names.lookup name with
  | none => rfl
  | some a => exact lookup_erase_ne hne

lemma Sound.destroy (hg : g.Sound) (name : String) : (g.destroy name).Sound := by
  -- What is left in the directory was there before.
  have hback : ∀ {n : String} {a : ℕ}, (g.destroy name).names.lookup n = some a → g.names.lookup n =
      some a := by
    intro n a hn
    by_cases hname : n = name
    · subst hname
      unfold Segment.destroy at hn
      cases h : g.names.lookup n with
      | none | some _ => simp [h] at hn
    · rwa [lookup_destroy hname] at hn
  have hfresh : (g.destroy name).fresh = g.fresh := by
    unfold Segment.destroy
    cases g.names.lookup name <;> rfl
  refine ⟨fun hn hn' => hg.name_inj (hback hn) (hback hn'), fun hn => ?_⟩
  rw [hfresh]
  exact hg.lt_fresh (hback hn)

lemma objects_destroy (hg : g.Sound) (hne : n ≠ name)
    (hn : g.names.lookup n = some a) : (g.destroy name).objects a = g.objects a := by
  unfold destroy
  cases h : g.names.lookup name with
  | none => rfl
  | some b =>
    refine update_of_ne ?_ _ _
    rintro rfl
    exact hne (hg.name_inj hn h)

end Segment

lemma BpfMapHandler.getContainerName_inj {m m' : BpfMapHandler}
    (h : m.getContainerName = m'.getContainerName) : m.name = m'.name := by
  unfold getContainerName at h
  exact String.append_right_inj _ |>.mp h

namespace BpftimeShm

inductive MapOp where
  | addBpfMap (fd : ℤ) (name : String) (attr : BpfMapAttr)
  | closeFd (fd : ℤ)
  | mapCall (fd : ℤ) (c : MapCall)

def mapStep (s : BpftimeShm) : MapOp → Option (ShmReply × BpftimeShm)
  | .addBpfMap fd name attr => s.addBpfMap fd name attr
  | .closeFd fd => some (.ret 0, s.closeFd fd)
  | .mapCall fd c => s.mapCall fd c

def MapOp.target (s : BpftimeShm) : MapOp → ℤ
  | .addBpfMap fd _ _ => (s.orFakeFd fd).1
  | .closeFd fd => fd
  | .mapCall fd _ => fd

/-- No two live maps have the same container. -/
def Apart (s : BpftimeShm) : Prop :=
  ∀ i j mi mj a, i ≠ j → s.getHandler i = some (.map mi) → s.getHandler j = some (.map mj) →
    mi.map_impl_ptr = some a → mj.map_impl_ptr ≠ some a

/-- What a lookup in the map at a descriptor answers, where `answer` is what a container answers. -/
def lookupElem {ρ : Type*} (answer : Container → List UInt8 → ρ) (s : BpftimeShm) (fd : ℤ)
    (key : List UInt8) : Option ρ := (s.container fd).map (answer · key)

/-- An operation leaves the maps apart, and those at other descriptors live and with the answers
they gave before, whatever it is that containers answer. -/
def Isolates (s : BpftimeShm) (op : MapOp) : Prop :=
  ∀ r s', s.mapStep op = some (r, s') → s'.Apart ∧
    ∀ j m, j ≠ op.target s → s.getHandler j = some (.map m) → s'.getHandler j = some (.map m) ∧
      ∀ {ρ : Type} (answer : Container → List UInt8 → ρ) (key : List UInt8),
        s'.lookupElem answer j key = s.lookupElem answer j key

/-- A map is added with a name that no live map at another descriptor has. -/
def NewName (s : BpftimeShm) : MapOp → Prop
  | .addBpfMap fd name _ => ∀ j m, j ≠ (s.orFakeFd fd).1 → s.getHandler j = some (.map m) → m.name ≠ name
  | _ => True

def isMapNamed (name : String) : Handler → Bool
  | .map m => m.name = name
  | _ => false

instance (s : BpftimeShm) : (op : MapOp) → Decidable (s.NewName op)
  | .addBpfMap fd name _ =>
    decidable_of_iff (∀ i : Fin s.handlers.length, ((i : ℕ) : ℤ) ≠ (s.orFakeFd fd).1 →
      isMapNamed name s.handlers[i] = false) <| by
    constructor
    · intro h j m hj hm
      obtain ⟨hpos, hget⟩ := getHandler_eq_some.mp hm
      obtain ⟨hlt, hget⟩ := List.getElem?_eq_some_iff.mp hget
      have := h ⟨j.toNat, hlt⟩ (by simpa [Int.toNat_of_nonneg hpos] using hj)
      simpa [hget, isMapNamed] using this
    · intro h i hi
      cases hm : s.handlers[i] with
      | map m =>
        have := h i m hi (getHandler_eq_some.mpr ⟨by omega, by simp [← hm]⟩)
        simpa [isMapNamed] using this
      | _ => rfl
  | .closeFd _ => isTrue trivial
  | .mapCall _ _ => isTrue trivial

/-- The live maps have names of their own, and each finds its container under its name. -/
structure Named (s : BpftimeShm) : Prop where
  name_inj : ∀ {i j : ℤ} {mi mj : BpfMapHandler}, s.getHandler i = some (.map mi) →
    s.getHandler j = some (.map mj) → mi.name = mj.name → i = j
  held : ∀ {i : ℤ} {m : BpfMapHandler} {a : ℕ}, s.getHandler i = some (.map m) →
    m.map_impl_ptr = some a → s.segment.names.lookup m.getContainerName = some a
  sound : s.segment.Sound

/-- The maps at other descriptors than `fd` keep their handlers and their containers. -/
def Spares (s : BpftimeShm) (fd : ℤ) (s' : BpftimeShm) : Prop :=
  ∀ j m, j ≠ fd → s.getHandler j = some (.map m) → s'.getHandler j = some (.map m) ∧
    ∀ a, m.map_impl_ptr = some a → s'.segment.objects a = s.segment.objects a

variable {s s' s'' : BpftimeShm} {fd : ℤ}

lemma Spares.trans (h : s.Spares fd s') (h' : s'.Spares fd s'') : s.Spares fd s'' := by
  intro j m hj hm
  obtain ⟨hm', ho'⟩ := h j m hj hm
  obtain ⟨hm'', ho''⟩ := h' j m hj hm'
  exact ⟨hm'', fun a ha => (ho'' a ha).trans (ho' a ha)⟩

variable {m : BpfMapHandler} {j : ℤ} {r : ShmReply}

section

variable (h : s.Spares fd s') (hj : j ≠ fd) (hm : s.getHandler j = some (.map m))
include h hj hm

lemma Spares.container_eq : s'.container j = s.container j := by
  obtain ⟨hm', ho⟩ := h j m hj hm
  unfold container
  rw [hm, hm']
  dsimp only
  cases hptr : m.map_impl_ptr with
  | none => rfl
  | some a => exact ho a hptr

lemma Spares.lookupElem_eq {ρ : Type} (answer : Container → List UInt8 → ρ)
    (key : List UInt8) : s'.lookupElem answer j key = s.lookupElem answer j key := by
  rw [lookupElem, lookupElem, h.container_eq hj hm]

end

lemma Named.apart (hs : s.Named) : s.Apart := by
  intro i j mi mj a hij hi hj hai haj
  have hname := hs.sound.name_inj (hs.held hi hai) (hs.held hj haj)
  exact hij (hs.name_inj hi hj (getContainerName_inj hname))

lemma Named.create (n : ℕ) (fake_fds : Stream' ℤ) (prog_types : Stream' Int32) :
    (create n fake_fds prog_types).Named := by
  have hnone : ∀ i m, (BpftimeShm.create n fake_fds prog_types).getHandler i ≠ some (.map m) := by
    intro i m h
    obtain ⟨-, h⟩ := getHandler_eq_some.mp h
    have := List.eq_of_mem_replicate (List.mem_of_getElem? h)
    simp at this
  exact ⟨fun h => absurd h (hnone _ _), fun h => absurd h (hnone _ _), Segment.Sound.empty⟩

lemma getHandler_clearIdAt_map (hfd : ∃ h, s.getHandler fd = some h) :
    (s.clearIdAt fd).getHandler j = some (.map m) ↔ j ≠ fd ∧ s.getHandler j = some (.map m) := by
  obtain ⟨h, hfd⟩ := hfd
  rw [getHandler_clearIdAt hfd]
  split_ifs with hj
  · simp [hj]
  · cases hm : s.getHandler j with
    | none => simp
    | some h' =>
      cases h' with
      | link l =>
        simp only [map_some, cutSlot, some.injEq, hj, ne_eq, not_false_eq_true, true_and,
          reduceCtorEq, iff_false]
        split_ifs <;> simp
      | _ => simp [cutSlot, hj]

lemma segment_clearIdAt (s : BpftimeShm) (fd : ℤ) :
    (s.clearIdAt fd).segment = s.segment ∨ ∃ m, s.getHandler fd = some (.map m) ∧
      (s.clearIdAt fd).segment = s.segment.destroy m.getContainerName := by
  unfold clearIdAt
  cases s.getHandler fd with
  | none => exact .inl rfl
  | some h =>
    cases h with
    | map m =>
      dsimp only
      unfold mapFree
      split_ifs
      · exact .inr ⟨m, rfl, rfl⟩
      · exact .inl rfl
    | _ => exact .inl rfl

lemma Named.clearIdAt (hs : s.Named) (fd : ℤ) : (s.clearIdAt fd).Named ∧ s.Spares fd (s.clearIdAt fd) := by
  rcases eq_none_or_eq_some (s.getHandler fd) with hfd | hfd
  · rw [clearIdAt_of_none hfd]
    exact ⟨hs, fun j m _ hm => ⟨hm, fun _ _ => rfl⟩⟩
  · -- The name of a map at another descriptor is not the one that is destroyed.
    have hother : ∀ {j : ℤ} {m m' : BpfMapHandler}, j ≠ fd → s.getHandler j = some (.map m) →
        s.getHandler fd = some (.map m') → m.getContainerName ≠ m'.getContainerName :=
      fun hj hm hm' heq => hj (hs.name_inj hm hm' (getContainerName_inj heq))
    refine ⟨⟨fun hi hj heq => ?_, fun {i m a} hi ha => ?_, ?_⟩, fun j m hj hm => ⟨?_, fun a ha => ?_⟩⟩
    · rw [getHandler_clearIdAt_map hfd] at hi hj
      exact hs.name_inj hi.2 hj.2 heq
    · rw [getHandler_clearIdAt_map hfd] at hi
      rcases segment_clearIdAt s fd with hg | ⟨m', hm', hg⟩
      · rw [hg]
        exact hs.held hi.2 ha
      · rw [hg, lookup_destroy (hother hi.1 hi.2 hm')]
        exact hs.held hi.2 ha
    · rcases segment_clearIdAt s fd with hg | ⟨m', -, hg⟩
      · rw [hg]
        exact hs.sound
      · rw [hg]
        exact hs.sound.destroy _
    · exact (getHandler_clearIdAt_map hfd).mpr ⟨hj, hm⟩
    · rcases segment_clearIdAt s fd with hg | ⟨m', hm', hg⟩
      · rw [hg]
      · rw [hg]
        exact objects_destroy hs.sound (hother hj hm hm') (hs.held hm ha)

lemma Named.vacant (hs : s.Named) {h : Handler} (hfd : s.getHandler fd = some h) :
    (if h = .unused then s else s.clearIdAt fd).Named ∧
    s.Spares fd (if h = .unused then s else s.clearIdAt fd) ∧
      ∀ j m, (if h = .unused then s else s.clearIdAt fd).getHandler j = some (.map m) →
        j ≠ fd ∧ s.getHandler j = some (.map m) := by
  by_cases hunused : h = .unused
  · rw [if_pos hunused]
    refine ⟨hs, fun j m _ hm => ⟨hm, fun _ _ => rfl⟩, fun j m hm => ⟨?_, hm⟩⟩
    rintro rfl
    rw [hfd, hunused] at hm
    cases hm
  · rw [if_neg hunused]
    obtain ⟨hnamed, hspares⟩ := hs.clearIdAt fd
    exact ⟨hnamed, hspares, fun j m => (getHandler_clearIdAt_map ⟨h, hfd⟩).mp⟩

/-! ## Adding a map -/

lemma mapInit_cases (m : BpfMapHandler) (g : Segment) (hg : g.Sound) :
    (m.mapInit g).2.1.name = m.name ∧ (m.mapInit g).2.2.Sound ∧
      (∀ {n a}, g.names.lookup n = some a → (m.mapInit g).2.2.names.lookup n = some a ∧
        (m.mapInit g).2.2.objects a = g.objects a) ∧
      (∀ {a}, m.map_impl_ptr = none → (m.mapInit g).2.1.map_impl_ptr = some a →
        (m.mapInit g).2.2.names.lookup m.getContainerName = some a) := by
  unfold mapInit
  split_ifs with hc
  · refine ⟨rfl, hg.construct _ _, fun hn =>
      ⟨lookup_construct rfl hn, objects_construct hg _ _ hn⟩, fun {a} _ ha => ?_⟩
    rcases construct_cases g m.getContainerName m.attr with h | h
    · simp [h] at ha
    · rw [h] at ha ⊢
      rw [← ha]
      exact lookup_insert _
  · refine ⟨rfl, hg, fun hn => ⟨hn, rfl⟩, fun hnone ha => ?_⟩
    rw [hnone] at ha
    simp at ha

lemma Named.setHandler (hs : s.Named) {attr : BpfMapAttr} {name : String} {n : ℤ}
    (hname : ∀ j m, j ≠ fd → s.getHandler j = some (.map m) → m.name ≠ name)
    (hset : s.setHandler fd (.map ⟨attr, name, none⟩) = some (n, s')) : s'.Named ∧ s.Spares fd s' := by
  rcases setHandler_cases hset with rfl | ⟨hfd, -, hs'⟩
  · exact ⟨hs, fun j m _ hm => ⟨hm, fun _ _ => rfl⟩⟩
  · generalize hm0 : (⟨attr, name, none⟩ : BpfMapHandler) = m0 at hs'
    have hnone : m0.map_impl_ptr = none := by rw [← hm0]
    obtain ⟨hinit, hsound, hkeep, hptr⟩ := mapInit_cases m0 s.segment hs.sound
    have hname0 : (m0.mapInit s.segment).2.1.name = name := by rw [hinit, ← hm0]
    have hget : ∀ i, s'.getHandler i = if i =
        fd then some (.map (m0.mapInit s.segment).2.1) else s.getHandler i := by
      intro i
      rw [hs']
      exact getHandler_filled hfd _ _ i
    have hseg : s'.segment = (m0.mapInit s.segment).2.2 := by rw [hs']; rfl
    -- A map of the new table is the new one, or was there before.
    have hback : ∀ {i : ℤ} {m : BpfMapHandler}, s'.getHandler i = some (.map m) →
        i = fd ∧ m = (m0.mapInit s.segment).2.1 ∨ i ≠ fd ∧ s.getHandler i = some (.map m) := by
      intro i m hi
      rw [hget] at hi
      split_ifs at hi with h
      · simp only [some.injEq, Handler.map.injEq] at hi
        exact .inl ⟨h, hi.symm⟩
      · exact .inr ⟨h, hi⟩
    refine ⟨⟨fun {i j mi mj} hi hj heq => ?_, fun {i m a} hi ha => ?_, ?_⟩,
      fun j m hj hm => ⟨?_, fun a ha => ?_⟩⟩
    · rcases hback hi with ⟨hi', rfl⟩ | ⟨hi', hmi⟩ <;> rcases hback hj with ⟨hj', rfl⟩ | ⟨hj', hmj⟩
      · rw [hi', hj']
      · exact absurd (heq.symm.trans hname0) (hname _ _ hj' hmj)
      · exact absurd (heq.trans hname0) (hname _ _ hi' hmi)
      · exact hs.name_inj hmi hmj heq
    · rw [hseg]
      rcases hback hi with ⟨-, rfl⟩ | ⟨-, hm⟩
      · have : (m0.mapInit s.segment).2.1.getContainerName = m0.getContainerName := by
          unfold getContainerName
          rw [hinit]
        rw [this]
        exact hptr hnone ha
      · exact (hkeep (hs.held hm ha)).1
    · rw [hseg]
      exact hsound
    · rw [hget, if_neg hj, hm]
    · rw [hseg]
      exact (hkeep (hs.held hm ha)).2

lemma Named.orFakeFd (hs : s.Named) (fd : ℤ) :
    (s.orFakeFd fd).2.Named ∧ s.Spares (s.orFakeFd fd).1 (s.orFakeFd fd).2 := by
  obtain ⟨hhandlers, hsegment⟩ := orFakeFd_same s fd
  have hget := getHandler_congr hhandlers
  refine ⟨⟨fun hi hj => ?_, fun hi => ?_, ?_⟩, fun j m _ hm =>
    ⟨(hget j).trans hm, fun a _ => by rw [hsegment]⟩⟩
  · rw [hget] at hi hj
    exact hs.name_inj hi hj
  · rw [hget] at hi
    rw [hsegment]
    exact hs.held hi
  · rw [hsegment]
    exact hs.sound

lemma Named.addBpfMap (hs : s.Named) {name : String} {attr : BpfMapAttr}
    (hnew : s.NewName (.addBpfMap fd name attr)) (hadd : s.addBpfMap fd name attr = some (r, s')) :
    s'.Named ∧ s.Spares (s.orFakeFd fd).1 s' := by
  have hnew : ∀ j m, j ≠ (s.orFakeFd fd).1 → s.getHandler j = some (.map m) → m.name ≠ name := hnew
  unfold BpftimeShm.addBpfMap at hadd
  dsimp only at hadd
  have hopen := hs.orFakeFd fd
  have hget := getHandler_congr (orFakeFd_same s fd).1
  generalize hs0 : (s.orFakeFd fd).2 = s0 at hadd hopen hget
  generalize hfd0 : (s.orFakeFd fd).1 = fd0 at hadd hnew hopen ⊢
  cases hh : s0.getHandler fd0 with
  | none => simp [hh] at hadd
  | some h =>
    simp only [hh] at hadd
    obtain ⟨⟨n, s2⟩, hset, heq⟩ := map_eq_some_iff.mp hadd
    cases heq
    -- The handler that was there is closed first.
    obtain ⟨hclear, hspareclear, hmaps⟩ := hopen.1.vacant hh
    have hname : ∀ j m, j ≠ fd0 →
        (if h = .unused then s0 else s0.clearIdAt fd0).getHandler j = some (.map m) → m.name ≠ name :=
      fun j m hj hm => hnew j m hj ((hget j).symm.trans (hmaps j m hm).2)
    obtain ⟨hnamed, hspare⟩ := hclear.setHandler hname hset
    exact ⟨hnamed, (hopen.2.trans hspareclear).trans hspare⟩

lemma Named.mapCall (hs : s.Named) {c : MapCall}
    (hcall : s.mapCall fd c = some (r, s')) : s'.Named ∧ s.Spares fd s' := by
  have hsame : s.Named ∧ s.Spares fd s := ⟨hs, fun j m _ hm => ⟨hm, fun _ _ => rfl⟩⟩
  unfold BpftimeShm.mapCall at hcall
  cases hm : s.getHandler fd with
  | none =>
    simp only [hm, some.injEq, Prod.mk.injEq] at hcall
    exact hcall.2 ▸ hsame
  | some h =>
    cases h with
    | map m =>
      simp only [hm] at hcall
      cases hptr : m.map_impl_ptr with
      | none => simp [hptr] at hcall
      | some ptr =>
        cases ho : s.segment.objects ptr with
        | none => simp [hptr, ho] at hcall
        | some o =>
          simp only [hptr, ho, bind_eq_bind, bind_some, pure_def, some.injEq, Prod.mk.injEq] at hcall
          obtain ⟨-, rfl⟩ := hcall
          refine ⟨⟨hs.name_inj, hs.held, ⟨hs.sound.name_inj, hs.sound.lt_fresh⟩⟩,
            fun j mj hj hmj => ⟨hmj, fun a ha => ?_⟩⟩
          refine update_of_ne ?_ _ _
          rintro rfl
          exact hs.apart j fd mj m a hj hmj hm ha hptr
    | _ =>
      simp only [hm, some.injEq, Prod.mk.injEq] at hcall
      exact hcall.2 ▸ hsame

lemma Named.mapStep (hs : s.Named) {op : MapOp} (hnew : s.NewName op)
    (hstep : s.mapStep op = some (r, s')) : s'.Named ∧ s.Spares (op.target s) s' := by
  cases op with
  | addBpfMap fd name attr => exact hs.addBpfMap hnew hstep
  | closeFd fd =>
    simp only [BpftimeShm.mapStep, some.injEq, Prod.mk.injEq] at hstep
    obtain ⟨-, rfl⟩ := hstep
    exact hs.clearIdAt fd
  | mapCall fd c => exact hs.mapCall hstep

/-- In every run in which no map is added with the name of one that is live at another descriptor,
the maps are apart behind every operation, and no operation changes what the maps at other
descriptors answer. -/
theorem isolates_of_newName (n : ℕ) (fake_fds : Stream' ℤ) (prog_types : Stream' Int32) (ops : List MapOp)
    (hnew : Runs.Along mapStep NewName (create n fake_fds prog_types) ops) :
    Runs.Along mapStep Isolates (create n fake_fds prog_types) ops := by
  refine Runs.along_of_invariant (C := NewName) (fun s op hs hop r s' hstep => ?_)
    (fun s op r s' hs hop hstep => (hs.mapStep hop hstep).1)
    (Named.create n fake_fds prog_types) hnew
  obtain ⟨hs', hspare⟩ := hs.mapStep hop hstep
  exact ⟨hs'.apart, fun j m hj hm => ⟨(hspare j m hj hm).1, fun answer key =>
    hspare.lookupElem_eq hj hm answer key⟩⟩

/-- The attributes of a hash map of eight entries. -/
def hashAttr : BpfMapAttr := ⟨1, 4, 4, 8, 0, 0, 0, 0, 0, 0, 0, 0, 0⟩

/-- Two maps are added, the first is written, the second is closed and its name is used again. -/
def twoMaps : List MapOp :=
  [.addBpfMap 3 "a" hashAttr, .addBpfMap 4 "b" hashAttr,
    .mapCall 3 (.update [1, 0, 0, 0] [7, 0, 0, 0] 0), .closeFd 4, .addBpfMap 5 "b" hashAttr]

/-- The condition holds when a name is used again behind the end of its map. -/
theorem isolates_twoMaps : Runs.Along mapStep Isolates (create 8 (fun _ => 0) (fun _ => 0)) twoMaps :=
  isolates_of_newName 8 _ _ twoMaps (by decide +kernel)

/-- Two maps of one name. -/
def oneName : List MapOp := [.addBpfMap 3 "m" hashAttr, .addBpfMap 4 "m" hashAttr]

/-- Closing the second of two maps of one name takes the container of the first. -/
theorem not_isolates_oneName :
    ¬ Runs.Along mapStep Isolates (create 8 (fun _ => 0) (fun _ => 0)) (oneName ++ [.closeFd 4]) := by
  intro h
  have hsome : (Runs.run mapStep (create 8 (fun _ => 0) (fun _ => 0)) oneName).isSome := by decide +kernel
  obtain ⟨⟨rs, s⟩, hrun⟩ := isSome_iff_exists.mp hsome
  have hlast := h.last hrun
  have hmap : (Runs.run mapStep (create 8 (fun _ => 0) (fun _ => 0)) oneName).map
      (fun p => p.2.getHandler 3) = some (some (.map ⟨hashAttr, "m", some 0⟩)) := by decide +kernel
  have hbefore : (Runs.run mapStep (create 8 (fun _ => 0) (fun _ => 0)) oneName).map
      (fun p => p.2.container 3) = some (some ⟨hashAttr, []⟩) := by decide +kernel
  have hbehind : (Runs.run mapStep (create 8 (fun _ => 0) (fun _ => 0)) oneName).map
      (fun p => (p.2.closeFd 4).container 3) = some none := by decide +kernel
  simp only [hrun, map_some, some.injEq] at hmap hbefore hbehind
  have hsame := ((hlast _ _ rfl).2 3 _ (by simp [MapOp.target]) hmap).2 (fun c _ => c) []
  simp [lookupElem, hbefore, hbehind] at hsame

end BpftimeShm

end Bpftime
