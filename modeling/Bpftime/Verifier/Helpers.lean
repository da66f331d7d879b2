import Bpftime.Basic
import Mathlib.Data.List.AList
import Mathlib.Data.UInt

/-!
# The helpers that the verifier and the loader know

`start_up` of the syscall server tells the verifier which helpers can be used, and
`load_prog_and_helpers` of the agent registers their functions with the machine that runs a program.
-/

namespace Bpftime.Verifier

open List Function

/-- A `bpftime_helper_info`. -/
structure HelperInfo where
  index : UInt32
  name : String
  /-- The address of the function. -/
  fn : ℕ
deriving DecidableEq

/-- A `bpftime_helper_group`, in which each helper is under its index. -/
structure HelperGroup where
  helper_map : AList fun _ : UInt32 => HelperInfo
  index_eq : ∀ e ∈ helper_map.entries, e.2.index = e.1

structure HelperGroups where
  kernelUtils : HelperGroup
  ufunc : HelperGroup
  shmMaps : HelperGroup

/-- The part of `agent_config` that is about helpers. -/
structure AgentConfig where
  enable_kernel_helper_group : Bool
  enable_ufunc_helper_group : Bool
  enable_shm_maps_helper_group : Bool
deriving DecidableEq

/-- `get_helper_ids`. -/
def HelperGroup.getHelperIds (g : HelperGroup) : List UInt32 := g.helper_map.entries.map (·.1)

/-- The tables of the verifier that are about helpers, for any kind of prototype. -/
structure Tables (π : Type) where
  usable_helpers : Finset UInt32
  non_kernel_helpers : AList fun _ : UInt32 => π

/-- `set_available_helpers`. -/
def setAvailableHelpers {π : Type} (t : Tables π) (helpers : List UInt32) : Tables π :=
  { t with usable_helpers := helpers.foldl (fun s x => insert x s) ∅ }

/-- `set_non_kernel_helpers`. -/
def setNonKernelHelpers {π : Type} (t : Tables π) (protos : AList fun _ : UInt32 => π) : Tables π :=
  { t with non_kernel_helpers := protos }

/-- `bpftime_is_helper_usable`. -/
def isHelperUsable {π : Type} (t : Tables π) (helper_id : UInt32) : Bool := helper_id ∈ t.usable_helpers

/-- The kernel's prototypes in the verifier library: a prototype may be bound to the context of one
kind of program, and `hook` is that of the program that is verified. -/
structure Linux (π δ : Type) where
  prototypes : List π
  context_descriptor : π → Option δ
  hook : Option δ

/-- `is_helper_usable_linux`. -/
def isHelperUsableLinux {π δ : Type} [DecidableEq δ] (l : Linux π δ) (n : UInt32) : Bool :=
  !n.toNat.testBit 31 && match l.prototypes[n.toNat]? with
    | none => false
    | some proto => l.context_descriptor proto = none ∨ l.context_descriptor proto = l.hook

/-- `get_helper_prototype_linux`, which throws a `std::exception`. -/
def getHelperPrototypeLinux {π δ : Type} [DecidableEq δ] (l : Linux π δ) (n : UInt32) :
    Except String π :=
  match l.prototypes[n.toNat]? with
  | some proto => if isHelperUsableLinux l n then .ok proto else .error "std::exception"
  | none => .error "std::exception"

/-- `bpftime_get_helper_prototype`. -/
def getHelperPrototype {π δ : Type} [DecidableEq δ] (l : Linux π δ) (t : Tables π)
    (helper_id : UInt32) : Except String π :=
  if helper_id ∈ t.usable_helpers then
    match t.non_kernel_helpers.lookup helper_id with
    | some proto => .ok proto
    | none => getHelperPrototypeLinux l helper_id
  else .error ("Unusable helper: " ++ toString helper_id.toInt32.toInt)

/-- The part of `start_up` that is about helpers, with the prototypes of
`get_ufunc_helper_protos`. -/
def startUp {π : Type} (groups : HelperGroups) (ufuncProtos : AList fun _ : UInt32 => π)
    (config : AgentConfig) (t : Tables π) : Tables π :=
  let helper_ids :=
    (if config.enable_kernel_helper_group then groups.kernelUtils.getHelperIds else []) ++
    (if config.enable_shm_maps_helper_group then groups.shmMaps.getHelperIds else []) ++
    -- The group is that of the shared maps here as well.
    (if config.enable_ufunc_helper_group then groups.shmMaps.getHelperIds else [])
  let non_kernel_helpers := if config.enable_ufunc_helper_group then ufuncProtos else ∅
  setNonKernelHelpers (setAvailableHelpers t helper_ids) non_kernel_helpers

/-- `MAX_EXT_FUNCS`. -/
def maxExtFuncs : ℕ := 8192

/-- The `ext_funcs` of a `llvmbpf_vm`. -/
abbrev ExtFuncs := ℕ → Option (String × ℕ)

/-- `register_external_function`. -/
def registerExternalFunction (ext_funcs : ExtFuncs) (index : ℕ) (name : String) (fn : ℕ) : ℤ × ExtFuncs :=
  if maxExtFuncs ≤ index then (-Errno.E2BIG.code, ext_funcs)
  else if (ext_funcs index).isSome then (-Errno.EEXIST.code, ext_funcs)
  else (0, update ext_funcs index (some (name, fn)))

/-- `add_helper_group_to_prog`. -/
def HelperGroup.addHelperGroupToProg (g : HelperGroup) (ext_funcs : ExtFuncs) : ExtFuncs :=
  g.helper_map.entries.foldl
    (fun fs e => (registerExternalFunction fs e.2.index.toNat e.2.name e.2.fn).2) ext_funcs

/-- The registrations of `load_prog_and_helpers`. -/
def loadProgAndHelpers (groups : HelperGroups) (config : AgentConfig) (ext_funcs : ExtFuncs) : ExtFuncs :=
  let fs := if config.enable_kernel_helper_group then
    groups.kernelUtils.addHelperGroupToProg ext_funcs else ext_funcs
  let fs := if config.enable_ufunc_helper_group then groups.ufunc.addHelperGroupToProg fs else fs
  if config.enable_shm_maps_helper_group then groups.shmMaps.addHelperGroupToProg fs else fs

/-- The machine of a new program, with what `load_prog_and_helpers` registers. -/
def registered (groups : HelperGroups) (config : AgentConfig) (id : UInt32) : Bool :=
  (loadProgAndHelpers groups config (fun _ => none) id.toNat).isSome

/-! ## What both know -/

variable {π δ : Type} [DecidableEq δ] {groups : HelperGroups} {config : AgentConfig}

/-- The verifier and the loader agree: a helper can be used if a function is registered for it, and
so the helper calls of a program all have functions if none of them is rejected. -/
structure Agree (groups : HelperGroups) (ufuncProtos : AList fun _ : UInt32 => π) (l : Linux π δ)
    (config : AgentConfig) (t : Tables π) : Prop where
  usable_iff : ∀ id, isHelperUsable (startUp groups ufuncProtos config t) id = true ↔
    registered groups config id = true
  calls_iff : ∀ calls : List UInt32, (∀ id ∈ calls, ∃ proto,
      getHelperPrototype l (startUp groups ufuncProtos config t) id = .ok proto) ↔
    ∀ id ∈ calls, registered groups config id = true

structure Disjoint (groups : HelperGroups) : Prop where
  kernel_ufunc : ∀ id ∈ groups.kernelUtils.getHelperIds, id ∉ groups.ufunc.getHelperIds
  kernel_shm : ∀ id ∈ groups.kernelUtils.getHelperIds, id ∉ groups.shmMaps.getHelperIds
  ufunc_shm : ∀ id ∈ groups.ufunc.getHelperIds, id ∉ groups.shmMaps.getHelperIds

/-- What the agreement takes: indexes that fit the table of the machine, no user functions (which
are never announced), and prototypes for all that is announced. -/
structure Fits (groups : HelperGroups) (ufuncProtos : AList fun _ : UInt32 => π) (l : Linux π δ)
    (config : AgentConfig) : Prop where
  kernel : config.enable_kernel_helper_group = true →
    ∀ id ∈ groups.kernelUtils.getHelperIds, id.toNat < maxExtFuncs
  shm : config.enable_shm_maps_helper_group = true →
    ∀ id ∈ groups.shmMaps.getHelperIds, id.toNat < maxExtFuncs
  ufunc : config.enable_ufunc_helper_group = true →
    (∀ id ∈ groups.ufunc.getHelperIds, maxExtFuncs ≤ id.toNat) ∧
      (config.enable_shm_maps_helper_group = true ∨ groups.shmMaps.getHelperIds = [])
  known : ∀ id, (config.enable_kernel_helper_group = true ∧ id ∈ groups.kernelUtils.getHelperIds) ∨
    (config.enable_shm_maps_helper_group = true ∧ id ∈ groups.shmMaps.getHelperIds) →
    (config.enable_ufunc_helper_group = true ∧ id ∈ ufuncProtos) ∨ isHelperUsableLinux l id = true

lemma mem_foldl_insert (s : Finset UInt32) (helpers : List UInt32) (id : UInt32) :
    id ∈ helpers.foldl (fun s x => insert x s) s ↔ id ∈ s ∨ id ∈ helpers := by
  induction helpers generalizing s with
  | nil => simp
  | cons x helpers ih =>
    rw [foldl_cons, ih, Finset.mem_insert, mem_cons]
    tauto

lemma isHelperUsable_startUp (ufuncProtos : AList fun _ : UInt32 => π) (t : Tables π)
    (id : UInt32) : isHelperUsable (startUp groups ufuncProtos config t) id = true ↔
    (config.enable_kernel_helper_group = true ∧ id ∈ groups.kernelUtils.getHelperIds) ∨
    ((config.enable_shm_maps_helper_group = true ∨ config.enable_ufunc_helper_group = true) ∧
    id ∈ groups.shmMaps.getHelperIds) := by
  have hmem : ∀ (b : Bool) (ids : List UInt32), id ∈ (if b then ids else []) ↔ b = true ∧ id ∈ ids := by
    intro b ids
    cases b <;> simp
  unfold isHelperUsable startUp setNonKernelHelpers setAvailableHelpers
  dsimp only
  rw [decide_eq_true_eq, mem_foldl_insert, mem_append, mem_append, hmem, hmem, hmem]
  simp only [Finset.notMem_empty, false_or]
  tauto

lemma isSome_foldl_register (es : List (Sigma fun _ : UInt32 => HelperInfo))
    (hindex : ∀ e ∈ es, e.2.index = e.1) (fs : ExtFuncs) (id : UInt32) :
    (es.foldl (fun fs e => (registerExternalFunction fs e.2.index.toNat e.2.name e.2.fn).2) fs id.toNat).isSome = true ↔
    (fs id.toNat).isSome = true ∨ (id ∈ es.map (·.1) ∧ id.toNat < maxExtFuncs) := by
  induction es generalizing fs with
  | nil => simp
  | cons e es ih =>
    -- One registration: the index is new, or in use, or too large.
    have hone : ((registerExternalFunction fs e.2.index.toNat e.2.name e.2.fn).2 id.toNat).isSome =
        true ↔ (fs id.toNat).isSome = true ∨ (id = e.1 ∧ id.toNat < maxExtFuncs) := by
      rw [hindex e (by simp)]
      unfold registerExternalFunction
      split_ifs with hlarge hdefined
      · constructor
        · exact .inl
        · rintro (hsome | ⟨rfl, hlt⟩)
          · exact hsome
          · omega
      · constructor
        · exact .inl
        · rintro (hsome | ⟨rfl, -⟩)
          · exact hsome
          · exact hdefined
      · rcases eq_or_ne id e.1 with rfl | hne
        · dsimp only
          rw [update_self]
          exact iff_of_true rfl (.inr ⟨rfl, by omega⟩)
        · have hne' : id.toNat ≠ e.1.toNat := fun heq => hne (UInt32.toNat_inj.mp heq)
          simp [update_of_ne hne', hne]
    rw [foldl_cons, ih (fun e' he' => hindex e' (by simp [he'])), hone, map_cons, mem_cons]
    tauto

lemma isSome_addHelperGroupToProg (g : HelperGroup) (fs : ExtFuncs) (id : UInt32) :
    (g.addHelperGroupToProg fs id.toNat).isSome = true ↔
    (fs id.toNat).isSome = true ∨ (id ∈ g.getHelperIds ∧ id.toNat < maxExtFuncs) :=
  isSome_foldl_register g.helper_map.entries g.index_eq fs id

def Enabled (groups : HelperGroups) (config : AgentConfig) (id : UInt32) : Prop :=
  (config.enable_kernel_helper_group = true ∧ id ∈ groups.kernelUtils.getHelperIds) ∨
    (config.enable_ufunc_helper_group = true ∧ id ∈ groups.ufunc.getHelperIds) ∨
    (config.enable_shm_maps_helper_group = true ∧ id ∈ groups.shmMaps.getHelperIds)

lemma registered_iff (id : UInt32) :
    registered groups config id = true ↔ id.toNat < maxExtFuncs ∧ Enabled groups config id := by
  have hgroup : ∀ (b : Bool) (g : HelperGroup) (fs : ExtFuncs),
      ((if b then g.addHelperGroupToProg fs else fs) id.toNat).isSome = true ↔
        (fs id.toNat).isSome = true ∨ (b = true ∧ id ∈ g.getHelperIds ∧ id.toNat < maxExtFuncs) := by
    intro b g fs
    cases b
    · simp
    · simp [isSome_addHelperGroupToProg]
  unfold registered loadProgAndHelpers Enabled
  rw [hgroup, hgroup, hgroup]
  simp only [Option.isSome_none, Bool.false_eq_true, false_or]
  tauto

lemma getHelperPrototypeLinux_ok_iff (l : Linux π δ) (id : UInt32) :
    (∃ proto, getHelperPrototypeLinux l id = .ok proto) ↔ isHelperUsableLinux l id = true := by
  unfold getHelperPrototypeLinux
  cases hproto : l.prototypes[id.toNat]? with
  | none => simp [isHelperUsableLinux, hproto]
  | some proto =>
    dsimp only
    split_ifs with husable <;> simp [husable]

/-- A helper has a prototype if it can be used and is in one of the two tables. -/
lemma getHelperPrototype_ok_iff (l : Linux π δ) (t : Tables π) (id : UInt32) :
    (∃ proto, getHelperPrototype l t id = .ok proto) ↔
    isHelperUsable t id = true ∧ (id ∈ t.non_kernel_helpers ∨ isHelperUsableLinux l id = true) := by
  unfold getHelperPrototype isHelperUsable
  rw [decide_eq_true_eq, ← AList.lookup_isSome]
  split_ifs with husable
  · cases t.non_kernel_helpers.lookup id with
    | some proto => simp [husable]
    | none => simpa [husable] using getHelperPrototypeLinux_ok_iff l id
  · simp [husable]

lemma mem_non_kernel_startUp (ufuncProtos : AList fun _ : UInt32 => π) (t : Tables π)
    (id : UInt32) : id ∈ (startUp groups ufuncProtos config t).non_kernel_helpers ↔
    config.enable_ufunc_helper_group = true ∧ id ∈ ufuncProtos := by
  unfold startUp setNonKernelHelpers
  dsimp only
  split_ifs with h
  · simp [h]
  · simp [h]

/-- The verifier and the loader agree on helpers exactly under the condition. -/
theorem agree_iff (groups : HelperGroups) (hdisjoint : Disjoint groups)
    (ufuncProtos : AList fun _ : UInt32 => π) (l : Linux π δ) (config : AgentConfig)
    (t : Tables π) : Agree groups ufuncProtos l config t ↔ Fits groups ufuncProtos l config := by
  constructor
  · intro h
    have hiff : ∀ id, _ ↔ _ := fun id =>
      (isHelperUsable_startUp ufuncProtos t id).symm.trans ((h.usable_iff id).trans (registered_iff id))
    refine ⟨fun hk id hid => ?_, fun hs id hid => ?_, fun hu => ⟨fun id hid => ?_, ?_⟩, fun id hid => ?_⟩
    · exact ((hiff id).mp (.inl ⟨hk, hid⟩)).1
    · exact ((hiff id).mp (.inr ⟨.inl hs, hid⟩)).1
    · -- A user function that is registered is not announced.
      by_contra hlt
      rcases (hiff id).mpr ⟨by omega, .inr (.inl ⟨hu, hid⟩)⟩ with ⟨-, hid'⟩ | ⟨-, hid'⟩
      · exact hdisjoint.kernel_ufunc id hid' hid
      · exact hdisjoint.ufunc_shm id hid hid'
    · -- A helper of the shared maps is announced, so it is registered.
      rw [or_iff_not_imp_right]
      intro hne
      obtain ⟨id, hid⟩ := exists_mem_of_ne_nil _ hne
      obtain ⟨-, ⟨-, hid'⟩ | ⟨-, hid'⟩ | ⟨hs, -⟩⟩ := (hiff id).mp (.inr ⟨.inr hu, hid⟩)
      · exact absurd hid (hdisjoint.kernel_shm id hid')
      · exact absurd hid (hdisjoint.ufunc_shm id hid')
      · exact hs
    · -- A program with this call alone is not rejected.
      have hreg : registered groups config id = true :=
        (registered_iff id).mpr ((hiff id).mp (hid.imp_right fun hs => ⟨.inl hs.1, hs.2⟩))
      have hproto := (h.calls_iff [id]).mpr (by simpa using hreg) id (by simp)
      rw [getHelperPrototype_ok_iff, mem_non_kernel_startUp] at hproto
      exact hproto.2
  · intro h
    have husable : ∀ id, isHelperUsable (startUp groups ufuncProtos config t) id = true ↔
        registered groups config id = true := by
      intro id
      rw [isHelperUsable_startUp, registered_iff]
      constructor
      · rintro (⟨hk, hid⟩ | ⟨hs | hu, hid⟩)
        · exact ⟨h.kernel hk id hid, .inl ⟨hk, hid⟩⟩
        · exact ⟨h.shm hs id hid, .inr (.inr ⟨hs, hid⟩)⟩
        · rcases (h.ufunc hu).2 with hs | hnil
          · exact ⟨h.shm hs id hid, .inr (.inr ⟨hs, hid⟩)⟩
          · rw [hnil] at hid
            cases hid
      · rintro ⟨hlt, ⟨hk, hid⟩ | ⟨hu, hid⟩ | ⟨hs, hid⟩⟩
        · exact .inl ⟨hk, hid⟩
        · have := (h.ufunc hu).1 id hid
          omega
        · exact .inr ⟨.inl hs, hid⟩
    refine ⟨husable, fun calls => forall₂_congr fun id _ => ?_⟩
    rw [getHelperPrototype_ok_iff, husable, mem_non_kernel_startUp, and_iff_left_iff_imp]
    intro hreg
    rcases (isHelperUsable_startUp ufuncProtos t id).mp ((husable id).mpr hreg) with hk | ⟨-, hid⟩
    · exact h.known id (.inl hk)
    · obtain ⟨hlt, hk | ⟨hu, hid'⟩ | hs⟩ := (registered_iff id).mp hreg
      · exact h.known id (.inl hk)
      · have := (h.ufunc hu).1 id hid'
        omega
      · exact h.known id (.inr hs)

/-- Groups of one helper each. -/
def smallGroups : HelperGroups where
  kernelUtils := ⟨(∅ : AList fun _ : UInt32 => HelperInfo).insert 1 ⟨1, "k", 100⟩,
    forall_mem_singleton.mpr rfl⟩
  ufunc := ⟨(∅ : AList fun _ : UInt32 => HelperInfo).insert 2 ⟨2, "u", 200⟩,
    forall_mem_singleton.mpr rfl⟩
  shmMaps := ⟨(∅ : AList fun _ : UInt32 => HelperInfo).insert 3 ⟨3, "m", 300⟩,
    forall_mem_singleton.mpr rfl⟩

lemma disjoint_smallGroups : Disjoint smallGroups where
  kernel_ufunc := forall_mem_singleton.mpr (show (1 : UInt32) ∉ [2] by decide)
  kernel_shm := forall_mem_singleton.mpr (show (1 : UInt32) ∉ [3] by decide)
  ufunc_shm := forall_mem_singleton.mpr (show (2 : UInt32) ∉ [3] by decide)

/-- Prototypes for the helpers 0 to 3, for programs of any kind. -/
def smallLinux : Linux Unit Unit := ⟨[(), (), (), ()], fun _ => none, none⟩

/-- Without user functions the two agree. -/
theorem agree_iff_smallGroups : Agree smallGroups ∅ smallLinux ⟨true, false, true⟩ ⟨∅, ∅⟩ := by
  refine (agree_iff smallGroups disjoint_smallGroups ∅ smallLinux ⟨true, false, true⟩ ⟨∅, ∅⟩).mpr
    ⟨fun _ => forall_mem_singleton.mpr (by decide), fun _ => forall_mem_singleton.mpr (by decide),
      nofun, ?_⟩
  rintro id (⟨-, hid⟩ | ⟨-, hid⟩)
  · obtain rfl : id = 1 := mem_singleton.mp hid
    exact .inr (by decide)
  · obtain rfl : id = 3 := mem_singleton.mp hid
    exact .inr (by decide)

/-- With all groups enabled, a user function is registered and cannot be used. -/
theorem not_agree_ufunc :
    Disjoint smallGroups ∧ ¬Agree smallGroups ∅ smallLinux ⟨true, true, true⟩ ⟨∅, ∅⟩ := by
  refine ⟨disjoint_smallGroups, fun h => ?_⟩
  have hno := h.usable_iff 2
  revert hno
  decide

/-- The part of `register_attach_impl` that is about the helpers of the implementation. -/
def registerAttachImpl (helpers : AList fun _ : UInt32 => HelperInfo) (custom : List HelperInfo) :
    AList fun _ : UInt32 => HelperInfo :=
  custom.foldl (fun helpers info => helpers.insert info.index info) helpers

/-- The part of a `bpftime_prog` that is about helpers: the functions registered with its machine,
and those that were registered when it was loaded. -/
structure Prog where
  ext_funcs : ExtFuncs
  at_load : Option ExtFuncs

/-- The part of `bpftime_prog_load` that is about helpers: compiling fails at the first call without
a function. -/
def Prog.bpftimeProgLoad (p : Prog) (jit : Bool) (calls : List UInt32) : Except UInt32 Unit × Prog :=
  (match calls.find? fun id => (p.ext_funcs id.toNat).isNone with
    | some id => if jit then .error id else .ok ()
    | none => .ok (),
    { p with at_load := some p.ext_funcs })

/-- `bpftime_prog_register_raw_helper`. -/
def Prog.registerRawHelper (p : Prog) (info : HelperInfo) : Prog :=
  { p with ext_funcs := (registerExternalFunction p.ext_funcs info.index.toNat info.name info.fn).2 }

/-- `instantiate_prog_handler_at`, for a program with these helper calls. -/
def instantiateProgHandlerAt (groups : HelperGroups) (config : AgentConfig) (jit_enabled : Bool)
    (helpers : AList fun _ : UInt32 => HelperInfo) (calls : List UInt32) : Except UInt32 Unit × Prog :=
  let prog : Prog := ⟨loadProgAndHelpers groups config fun _ => none, none⟩
  -- The program is loaded before the helpers of the attach implementations are registered.
  let r := prog.bpftimeProgLoad jit_enabled calls
  match r.1 with
  | .error id => (.error id, r.2)
  | .ok () => (.ok (), helpers.entries.foldl (fun p e => p.registerRawHelper e.2) r.2)

/-- A program is loaded once every helper that it calls is registered, and loading it does not
fail. -/
def Available (calls : List UInt32) (r : Except UInt32 Unit × Prog) : Prop :=
  (∃ fs, r.2.at_load = some fs ∧ ∀ id ∈ calls, (fs id.toNat).isSome = true) ∧ r.1 = .ok ()

/-- The registrations behind the load do not change what was there when the program was loaded. -/
lemma at_load_foldl (es : List (Sigma fun _ : UInt32 => HelperInfo)) (p : Prog) :
    (es.foldl (fun p e => p.registerRawHelper e.2) p).at_load = p.at_load := by
  induction es generalizing p with
  | nil => rfl
  | cons e es ih => exact ih _

lemma at_load_instantiate (jit_enabled : Bool) (helpers : AList fun _ : UInt32 => HelperInfo)
    (calls : List UInt32) : (instantiateProgHandlerAt groups config jit_enabled helpers calls).2.at_load =
    some (loadProgAndHelpers groups config fun _ => none) := by
  unfold instantiateProgHandlerAt
  dsimp only
  split
  · rfl
  · exact at_load_foldl _ _

/-- Whatever attach implementations are registered, the helpers of a program are available exactly
if each is in an enabled group and fits the table. -/
theorem available_iff (groups : HelperGroups) (config : AgentConfig) (jit_enabled : Bool)
    (impls : List (List HelperInfo)) (calls : List UInt32) :
    Available calls (instantiateProgHandlerAt groups config jit_enabled
        (impls.foldl registerAttachImpl ∅) calls) ↔
      ∀ id ∈ calls, id.toNat < maxExtFuncs ∧ Enabled groups config id := by
  unfold Available
  rw [at_load_instantiate]
  constructor
  · rintro ⟨⟨fs, heq, hbefore⟩, -⟩ id hid
    cases heq
    exact (registered_iff id).mp (hbefore id hid)
  · intro h
    have hbefore : ∀ id ∈ calls, registered groups config id = true :=
      fun id hid => (registered_iff id).mpr (h id hid)
    have hnone : calls.find? (fun id =>
        (loadProgAndHelpers groups config (fun _ => none) id.toNat).isNone) = none :=
      find?_eq_none.mpr fun id hid => by simpa [registered, Option.isSome_iff_ne_none] using hbefore id hid
    refine ⟨⟨_, rfl, hbefore⟩, ?_⟩
    unfold instantiateProgHandlerAt Prog.bpftimeProgLoad
    dsimp only
    rw [hnone]

/-- A program that calls `bpf_get_func_arg`, which the implementation of uprobes registers, is not
compiled. -/
theorem not_available_get_func_arg : 183 ∈ registerAttachImpl ∅ [⟨183, "bpf_get_func_arg", 400⟩] ∧
    (instantiateProgHandlerAt smallGroups ⟨true, true, true⟩ true
      (registerAttachImpl ∅ [⟨183, "bpf_get_func_arg", 400⟩]) [183]).1 = .error 183 ∧
    ¬Available [183] (instantiateProgHandlerAt smallGroups ⟨true, true, true⟩ true
      ([[⟨183, "bpf_get_func_arg", 400⟩]].foldl registerAttachImpl ∅) [183]) := by
  refine ⟨by decide, rfl, fun h => ?_⟩
  cases h.2

end Bpftime.Verifier
