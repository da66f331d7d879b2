import Bpftime.Shm.Creation
import Bpftime.Shm.Isolation

/-!
# Releasing the memory of maps

`map_init` and `map_free` are two long case distinctions over the type of a map.
-/

namespace Bpftime

open Option Function AList BpfMapHandler Segment Prod List

/-! ## The invariant -/

/-- Each object of the segment has a name, and each name is that of a live map whose container the
object is. -/
structure Exact (env : MapEnv) (live : ℤ → BpfMapHandler → Prop) (g : Segment) : Prop where
  unique : ∀ {i : ℤ} {m m' : BpfMapHandler}, live i m → live i m' → m = m'
  name_inj : ∀ {i j : ℤ} {mi mj : BpfMapHandler}, live i mi → live j mj → mi.name = mj.name → i = j
  held : ∀ {i : ℤ} {m : BpfMapHandler} {a : ℕ}, live i m → m.map_impl_ptr = some a →
    g.names.lookup m.getContainerName = some a
  owned : ∀ {n : String} {a : ℕ}, g.names.lookup n = some a →
    ∃ i m, live i m ∧ m.getContainerName = n ∧ m.map_impl_ptr = some a
  alive : ∀ a, g.objects a ≠ none ↔ ∃ n, g.names.lookup n = some a
  freed : ∀ {i : ℤ} {m : BpfMapHandler}, live i m → m.map_impl_ptr ≠ none →
    env.frees m.attr.type.toInt = true
  sound : g.Sound

section Exact

variable {env : MapEnv} {live live' : ℤ → BpfMapHandler → Prop} {g g' : Segment} {fd : ℤ} {m : BpfMapHandler}

lemma Exact.empty (hlive : ∀ i m, ¬ live i m) : Exact env live .empty where
  unique h := absurd h (hlive _ _)
  name_inj h := absurd h (hlive _ _)
  held h := absurd h (hlive _ _)
  owned h := by simp [Segment.empty] at h
  alive a := by simp [Segment.empty]
  freed h := absurd h (hlive _ _)
  sound := Segment.Sound.empty

lemma Exact.objects_iff (h : Exact env live g) (a : ℕ) :
    g.objects a ≠ none ↔ ∃ i m, live i m ∧ m.map_impl_ptr = some a := by
  rw [h.alive]
  constructor
  · rintro ⟨n, hn⟩
    obtain ⟨i, m, hm, -, ha⟩ := h.owned hn
    exact ⟨i, m, hm, ha⟩
  · rintro ⟨i, m, hm, ha⟩
    exact ⟨_, h.held hm ha⟩

variable {a : ℕ} {m' : BpfMapHandler} {r : InitReply}

section

variable (h : Exact env live g) (hm : live fd m)
include h hm

lemma Exact.owner_eq (hn : g.names.lookup m.getContainerName = some a) : m.map_impl_ptr = some a := by
  obtain ⟨i, m', hm', hname, ha⟩ := h.owned hn
  have hi : i = fd := h.name_inj hm' hm (getContainerName_inj hname)
  subst hi
  rwa [h.unique hm hm']

lemma Exact.remove_of_none (hnone : m.map_impl_ptr = none)
    (hlive : ∀ i m', live' i m' ↔ i ≠ fd ∧ live i m') : Exact env live' g where
  unique hi hi' := h.unique ((hlive _ _).mp hi).2 ((hlive _ _).mp hi').2
  name_inj hi hj := h.name_inj ((hlive _ _).mp hi).2 ((hlive _ _).mp hj).2
  held hi := h.held ((hlive _ _).mp hi).2
  owned hn := by
    obtain ⟨i, m', hm', hname, ha⟩ := h.owned hn
    refine ⟨i, m', (hlive i m').mpr ⟨?_, hm'⟩, hname, ha⟩
    rintro rfl
    rw [h.unique hm' hm, hnone] at ha
    cases ha
  alive := h.alive
  freed hi := h.freed ((hlive _ _).mp hi).2
  sound := h.sound

lemma Exact.destroy (ha : m.map_impl_ptr = some a)
    (hlive : ∀ i m', live' i m' ↔ i ≠ fd ∧ live i m') : Exact env live' (g.destroy m.getContainerName) := by
  have hlookup := h.held hm ha
  have hdestroy : g.destroy m.getContainerName =
      { g with names := g.names.erase m.getContainerName, objects := update g.objects a none } := by
    rw [Segment.destroy, hlookup]
  -- The names that are left are those of the other maps.
  have hname : ∀ {i m'}, i ≠ fd → live i m' → m'.getContainerName ≠ m.getContainerName := fun hi hm' heq =>
    hi (h.name_inj hm' hm (getContainerName_inj heq))
  refine ⟨fun hi hi' => h.unique ((hlive _ _).mp hi).2 ((hlive _ _).mp hi').2,
    fun hi hj => h.name_inj ((hlive _ _).mp hi).2 ((hlive _ _).mp hj).2, fun {i m' b} hi hb => ?_,
    fun {n b} hn => ?_, fun b => ?_, fun hi => h.freed ((hlive _ _).mp hi).2, h.sound.destroy _⟩
  · obtain ⟨hne, hm'⟩ := (hlive i m').mp hi
    rw [lookup_destroy (hname hne hm')]
    exact h.held hm' hb
  · by_cases hn' : n = m.getContainerName
    · rw [hdestroy, hn'] at hn
      simp at hn
    · rw [lookup_destroy hn'] at hn
      obtain ⟨i, m', hm', rfl, hb⟩ := h.owned hn
      refine ⟨i, m', (hlive i m').mpr ⟨?_, hm'⟩, rfl, hb⟩
      rintro rfl
      exact hn' (by rw [h.unique hm' hm])
  · by_cases hb : b = a
    · subst hb
      refine iff_of_false (fun hne => hne (by rw [hdestroy]; exact update_self ..)) ?_
      rintro ⟨n, hn⟩
      by_cases hn' : n = m.getContainerName
      · rw [hdestroy, hn'] at hn
        simp at hn
      · rw [lookup_destroy hn'] at hn
        exact hn' (h.sound.name_inj hn hlookup)
    · have hobject : (g.destroy m.getContainerName).objects b = g.objects b := by
        rw [hdestroy]
        exact update_of_ne hb _ _
      rw [hobject, h.alive]
      refine exists_congr fun n => ?_
      by_cases hn' : n = m.getContainerName
      · subst hn'
        rw [hlookup, hdestroy]
        simp [Ne.symm hb]
      · rw [lookup_destroy hn']

lemma Exact.mapFree (hfree : m.mapFreeIn env g = some g')
    (hlive : ∀ i m', live' i m' ↔ i ≠ fd ∧ live i m') : Exact env live' g' := by
  unfold mapFreeIn at hfree
  cases hptr : m.map_impl_ptr with
  | none =>
    -- No object has the name, since it would be the container of this map.
    have hlookup : g.names.lookup m.getContainerName = none := by
      by_contra hsome
      obtain ⟨a, ha⟩ := ne_none_iff_exists'.mp hsome
      rw [h.owner_eq hm ha] at hptr
      cases hptr
    have hg' : g' = g := by
      split_ifs at hfree
      · rw [← some.inj hfree, Segment.destroy, hlookup]
      · obtain ⟨-, -, heq⟩ := map_eq_some_iff.mp hfree
        exact heq.symm
    rw [hg']
    exact h.remove_of_none hm hptr hlive
  | some a =>
    rw [if_pos (h.freed hm (by simp [hptr]))] at hfree
    rw [← some.inj hfree]
    exact h.destroy hm hptr hlive

end

lemma mapInitIn_cases (hnone : m.map_impl_ptr = none) (hinit : m.mapInitIn env g = some (r, m', g')) :
    m' = m ∧ g' = g ∨ env.builtin m.attr.type.toInt = true ∧ m.getContainerName ∉ g.names ∧
      m' = { m with map_impl_ptr := some g.fresh } ∧ g' = (g.construct m.getContainerName m.attr).2 := by
  have hsame : ({ m with map_impl_ptr := none } : BpfMapHandler) = m := by rw [← hnone]
  unfold mapInitIn at hinit
  split_ifs at hinit with hbuiltin hpasses hallow
  · unfold constructIn at hinit
    split_ifs at hinit with hthrows
    · cases hinit
      exact .inl ⟨rfl, rfl⟩
    · by_cases hname : m.getContainerName ∈ g.names
      · simp only [construct, if_pos hname, some.injEq, Prod.mk.injEq, hsame] at hinit
        exact .inl ⟨hinit.2.1.symm, hinit.2.2.symm⟩
      · simp only [construct, if_neg hname, some.injEq, Prod.mk.injEq] at hinit
        refine .inr ⟨hbuiltin, hname, hinit.2.1.symm, ?_⟩
        rw [construct, if_neg hname]
        exact hinit.2.2.symm
  · cases hinit
    exact .inl ⟨rfl, rfl⟩
  · obtain ⟨i, -, heq⟩ := map_eq_some_iff.mp hinit
    simp only [Prod.mk.injEq, hsame] at heq
    exact .inl ⟨heq.2.1.symm, heq.2.2.symm⟩
  · cases hinit
    exact .inl ⟨rfl, rfl⟩

lemma Exact.mapInit (h : Exact env live g) (hfd : ∀ m, ¬ live fd m)
    (hnone : m.map_impl_ptr = none) (hname : ∀ i m', live i m' → m'.name ≠ m.name)
    (hfrees : env.builtin m.attr.type.toInt = true → env.frees m.attr.type.toInt = true)
    (hinit : m.mapInitIn env g = some (r, m', g'))
    (hlive : ∀ i m'', live' i m'' ↔ i = fd ∧ m'' = m' ∨ live i m'') :
    Exact env live' g' := by
  have hcases := mapInitIn_cases hnone hinit
  have hname' : m'.name = m.name := by
    rcases hcases with ⟨rfl, -⟩ | ⟨-, -, rfl, -⟩ <;> rfl
  have hunique : ∀ {i : ℤ} {x y : BpfMapHandler}, live' i x → live' i y → x = y := by
    intro i x y hx hy
    rcases (hlive i x).mp hx with ⟨rfl, rfl⟩ | hx <;> rcases (hlive _ y).mp hy with ⟨hi, hy⟩ | hy
    · exact hy.symm
    · exact absurd hy (hfd y)
    · exact absurd (hi ▸ hx) (hfd x)
    · exact h.unique hx hy
  have hinj : ∀ {i j : ℤ} {x y : BpfMapHandler}, live' i x → live' j y → x.name = y.name → i = j := by
    intro i j x y hx hy heq
    rcases (hlive i x).mp hx with ⟨rfl, rfl⟩ | hx <;> rcases (hlive j y).mp hy with ⟨hj, hy⟩ | hy
    · exact hj.symm
    · exact absurd (heq.symm.trans hname') (hname j y hy)
    · rw [hy, hname'] at heq
      exact absurd heq (hname i x hx)
    · exact h.name_inj hx hy heq
  rcases hcases with ⟨rfl, rfl⟩ | ⟨hbuiltin, hfresh, rfl, rfl⟩
  · refine ⟨hunique, hinj, fun {i x a} hx ha => ?_, fun hn => ?_, h.alive, fun {i x} hx hptr => ?_, h.sound⟩
    · rcases (hlive i x).mp hx with ⟨-, rfl⟩ | hx
      · rw [hnone] at ha
        cases ha
      · exact h.held hx ha
    · obtain ⟨i, x, hx, hxn, ha⟩ := h.owned hn
      exact ⟨i, x, (hlive i x).mpr (.inr hx), hxn, ha⟩
    · rcases (hlive i x).mp hx with ⟨-, rfl⟩ | hx
      · exact absurd hnone hptr
      · exact h.freed hx hptr
  · -- The new object is the container of the new map.
    have hg' : (g.construct m.getContainerName m.attr).2 =
        { names := g.names.insert m.getContainerName g.fresh
          objects := update g.objects g.fresh (some ⟨m.attr, []⟩)
          fresh := g.fresh + 1 } := by rw [construct, if_neg hfresh]
    refine ⟨hunique, hinj, fun {i x a} hx ha => ?_, fun {n a} hn => ?_, fun a =>
      ?_, fun {i x} hx hptr => ?_, h.sound.construct _ _⟩
    · rcases (hlive i x).mp hx with ⟨-, rfl⟩ | hx
      · rw [hg', ← ha]
        exact lookup_insert _
      · exact lookup_construct rfl (h.held hx ha)
    · rw [hg'] at hn
      by_cases hn' : n = m.getContainerName
      · subst hn'
        rw [lookup_insert] at hn
        exact ⟨fd, _, (hlive fd _).mpr (.inl ⟨rfl, rfl⟩), rfl, hn⟩
      · rw [lookup_insert_ne hn'] at hn
        obtain ⟨i, x, hx, hxn, ha⟩ := h.owned hn
        exact ⟨i, x, (hlive i x).mpr (.inr hx), hxn, ha⟩
    · rw [hg']
      by_cases ha : a = g.fresh
      · subst ha
        refine iff_of_true (by simp) ⟨m.getContainerName, lookup_insert _⟩
      · change update g.objects g.fresh (some ⟨m.attr, []⟩) a ≠ none ↔ _
        rw [update_of_ne ha, h.alive]
        refine exists_congr fun n => ?_
        by_cases hn' : n = m.getContainerName
        · subst hn'
          rw [lookup_insert, lookup_eq_none.mpr hfresh]
          simp [Ne.symm ha]
        · rw [lookup_insert_ne hn']
    · rcases (hlive i x).mp hx with ⟨-, rfl⟩ | hx
      · exact hfrees hbuiltin
      · exact h.freed hx hptr

end Exact

/-! ## Creations and closes -/

namespace BpftimeShm

inductive LifeOp where
  | addBpfMap (fd : ℤ) (name : String) (attr : BpfMapAttr)
  | closeFd (fd : ℤ)

def lifeStep (env : MapEnv) (s : BpftimeShm) : LifeOp → Option (ShmReply × BpftimeShm)
  | .addBpfMap fd name attr => s.addBpfMapIn env fd name attr
  | .closeFd fd => (s.clearIdAtIn env fd).map (.ret 0, ·)

/-- A map is created with a name of its own, and with a type that `map_free` knows if `map_init`
does. -/
def Releasable (env : MapEnv) (s : BpftimeShm) : LifeOp → Prop
  | .addBpfMap fd name attr => s.NewName (.addBpfMap fd name attr) ∧
    (env.builtin attr.type.toInt = true → env.frees attr.type.toInt = true)
  | .closeFd _ => True

instance (env : MapEnv) (s : BpftimeShm) : (op : LifeOp) → Decidable (s.Releasable env op)
  | .addBpfMap _ _ _ => inferInstanceAs (Decidable (_ ∧ (_ → _)))
  | .closeFd _ => isTrue trivial

/-- The objects of the segment are the containers of the live maps. -/
def Released (s : BpftimeShm) : Prop :=
  ∀ a, s.segment.objects a ≠ none ↔ ∃ fd m, s.getHandler fd = some (.map m) ∧ m.map_impl_ptr = some a

def Live (s : BpftimeShm) (fd : ℤ) (m : BpfMapHandler) : Prop := s.getHandler fd = some (.map m)

variable {env : MapEnv} {s s' : BpftimeShm} {fd : ℤ}

lemma live_clearIdAtIn {h : Handler} (hfd : s.getHandler fd = some h)
    (hclear : s.clearIdAtIn env fd = some s')
    (i : ℤ) (m : BpfMapHandler) : s'.Live i m ↔ i ≠ fd ∧ s.Live i m := by
  unfold Live
  rw [getHandler_congr (handlers_clearIdAtIn hclear)]
  exact getHandler_clearIdAt_map ⟨h, hfd⟩

lemma exact_clearIdAtIn (h : Exact env s.Live s.segment) (hclear : s.clearIdAtIn env fd = some s') :
    Exact env s'.Live s'.segment := by
  cases hfd : s.getHandler fd with
  | none =>
    rw [clearIdAtIn, hfd, some.injEq, clearIdAt_of_none hfd] at hclear
    rwa [← hclear]
  | some old =>
    have hlive := live_clearIdAtIn hfd hclear
    rw [clearIdAtIn, hfd] at hclear
    cases old with
    | map m =>
      obtain ⟨g, hfree, rfl⟩ := map_eq_some_iff.mp hclear
      exact h.mapFree hfd hfree hlive
    | _ =>
      -- The descriptor was not that of a map.
      have hsegment : s'.segment = s.segment := by
        rw [← some.inj hclear, clearIdAt, hfd]
        rfl
      have hsame : s'.Live = s.Live := by
        funext i m
        refine propext ((hlive i m).trans (and_iff_right_of_imp ?_))
        rintro hm rfl
        rw [Live, hfd] at hm
        cases hm
      rwa [hsame, hsegment]

lemma exact_addBpfMapIn (h : Exact env s.Live s.segment) {name : String} {attr : BpfMapAttr} {r : ShmReply}
    (hop : s.Releasable env (.addBpfMap fd name attr))
    (hadd : s.addBpfMapIn env fd name attr = some (r, s')) :
    Exact env s'.Live s'.segment := by
  obtain ⟨hnew, hfrees⟩ := hop
  have hnew : ∀ j m, j ≠ (s.orFakeFd fd).1 → s.Live j m → m.name ≠ name := hnew
  have hopen := orFakeFd_same s fd
  have hlive0 : (s.orFakeFd fd).2.Live = s.Live := by
    funext i m
    unfold Live
    rw [getHandler_congr hopen.1]
  unfold addBpfMapIn at hadd
  dsimp only at hadd
  generalize (s.orFakeFd fd).1 = slot at hadd hnew
  generalize (s.orFakeFd fd).2 = s0 at hadd hopen hlive0
  rw [← hlive0, ← hopen.2] at h
  rw [← hlive0] at hnew
  obtain ⟨s1, hvacate, hset⟩ := bind_eq_some_iff.mp hadd
  have hslot := getHandler_vacate hvacate
  -- What was at the descriptor is closed.
  have hexact : Exact env s1.Live s1.segment ∧ ∀ j m, s1.Live j m → j ≠ slot ∧ s0.Live j m := by
    unfold vacate at hvacate
    cases hold : s0.getHandler slot with
    | none => simp [hold] at hvacate
    | some old =>
      rw [hold] at hvacate
      dsimp only at hvacate
      split_ifs at hvacate with hunused
      · cases hvacate
        refine ⟨h, fun j m hm => ⟨?_, hm⟩⟩
        rintro rfl
        rw [Live, hslot] at hm
        cases hm
      · exact ⟨exact_clearIdAtIn h hvacate, fun j m => (live_clearIdAtIn hold hvacate j m).mp⟩
  rw [setHandlerIn_map hslot] at hset
  obtain ⟨⟨reply, m, g⟩, hinit, heq⟩ := map_eq_some_iff.mp hset
  obtain ⟨-, rfl⟩ := Prod.mk.inj heq
  refine hexact.1.mapInit (fun m' hm' => (hexact.2 _ _ hm').1 rfl) rfl
    (fun j m' hm' => hnew j m' (hexact.2 j m' hm').1 (hexact.2 j m' hm').2) hfrees hinit fun i m' => ?_
  unfold Live
  rw [getHandler_filled hslot]
  split_ifs with hi
  · subst hi
    simp [hslot, eq_comm]
  · simp [hi]

/-- In every run in which each map has a name that no live map at another descriptor has, and a type
that `map_free` knows if `map_init` does, the objects of the segment are the containers of the live
maps in every state reached. Without live maps there are none. -/
theorem released_of_run (env : MapEnv) (n : ℕ) (fake_fds : Stream' ℤ) (prog_types : Stream' Int32)
    {ops : List LifeOp}
    {rs : List ShmReply} {s : BpftimeShm}
    (hops : Runs.Along (lifeStep env) (Releasable env) (create n fake_fds prog_types) ops)
    (hrun : Runs.run (lifeStep env) (create n fake_fds prog_types) ops = some (rs, s)) :
    s.Released ∧ ((∀ fd m, s.getHandler fd ≠ some (.map m)) → ∀ a, s.segment.objects a = none) := by
  have hexact : Exact env s.Live s.segment := by
    refine Runs.invariant_of_run (P := fun s => Exact env s.Live s.segment) (C := Releasable env)
      (fun s op r s' hs hop hstep => ?_) (Exact.empty fun i m hm => ?_) hops hrun
    · cases op with
      | addBpfMap fd name attr => exact exact_addBpfMapIn hs hop hstep
      | closeFd fd =>
        obtain ⟨s1, hclear, heq⟩ := map_eq_some_iff.mp hstep
        obtain ⟨-, rfl⟩ := Prod.mk.inj heq
        exact exact_clearIdAtIn hs hclear
    · obtain ⟨-, hget⟩ := getHandler_eq_some.mp hm
      have hmem := eq_of_mem_replicate (mem_of_getElem? hget)
      cases hmem
  refine ⟨hexact.objects_iff, fun hnone a => ?_⟩
  by_contra hne
  obtain ⟨fd, m, hm, -⟩ := (hexact.objects_iff a).mp hne
  exact hnone fd m hm

def createAndClose (type : Int32) : List LifeOp := [.addBpfMap 3 "m" { hashAttr with type }, .closeFd 3]

/-- Two hash maps, and one of them is closed. -/
def twoHashes : List LifeOp := [.addBpfMap 3 "m" hashAttr, .addBpfMap 4 "n" hashAttr, .closeFd 3]

theorem released_hashes :
    ∃ rs s, Runs.run (lifeStep plainEnv) smallTable twoHashes = some (rs, s) ∧ s.Released := by
  have hsome : (Runs.run (lifeStep plainEnv) smallTable twoHashes).isSome = true := by decide +kernel
  obtain ⟨⟨rs, s⟩, hrun⟩ := isSome_iff_exists.mp hsome
  exact ⟨rs, s, hrun, (released_of_run plainEnv 8 _ _ (by decide +kernel) hrun).1⟩

/-- The container of an array of maps is still there when the map is closed and no map is left. -/
theorem not_released_arrayOfMaps : ∃ rs s, Runs.run (lifeStep plainEnv) smallTable
    (createAndClose 12) = some (rs, s) ∧
      (∀ fd m, s.getHandler fd ≠ some (.map m)) ∧ (s.segment.objects 0).isSome = true ∧ ¬ s.Released := by
  have hleft : (Runs.run (lifeStep plainEnv) smallTable (createAndClose 12)).map
      (fun r => (r.2.handlers, (r.2.segment.objects 0).isSome)) = some (replicate 8 .unused, true) := by
    decide +kernel
  obtain ⟨⟨rs, s⟩, hrun, heq⟩ := map_eq_some_iff.mp hleft
  obtain ⟨hhandlers, hobject⟩ := Prod.mk.inj heq
  have hnone : ∀ fd m, s.getHandler fd ≠ some (.map m) := by
    intro fd m hm
    obtain ⟨-, hget⟩ := getHandler_eq_some.mp hm
    have hmem : Handler.map m ∈ s.handlers := mem_of_getElem? hget
    have hunused : Handler.map m ∈ List.replicate 8 Handler.unused := hhandlers ▸ hmem
    cases eq_of_mem_replicate hunused
  refine ⟨rs, s, hrun, hnone, hobject, fun hreleased => ?_⟩
  obtain ⟨fd, m, hm, -⟩ := (hreleased 0).mp (isSome_iff_ne_none.mp hobject)
  exact hnone fd m hm

end BpftimeShm

end Bpftime
