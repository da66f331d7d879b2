import Bpftime.Shm.Table

/-!
# Creating a map

`add_bpf_map` with all that decides how `map_init` ends: how the library is built, whether external
map types are allowed and what their `alloc_map` returns, and whether the construction of a
container throws.
-/

namespace Bpftime

open Option BpfMapHandler

/-- The number of entries of `global_map_ops_table`. -/
def mapTypeMax : ℕ := 2048

/-- What the creation of a map depends on beside the table and the segment. -/
structure MapEnv where
  /-- `BPFTIME_BUILD_WITH_LIBBPF` -/
  libbpf : Bool
  /-- `BPFTIME_ENABLE_CUDA_ATTACH` -/
  cuda : Bool
  allow_non_buildin_map_types : Bool
  /-- The members `alloc_map` of `global_map_ops_table`. -/
  alloc_map : Fin mapTypeMax → Option (ℤ → String → BpfMapAttr → ℤ)
  /-- The construction of a container throws: the segment has no room for it, or its constructor
  throws. -/
  throws : Segment → String → BpfMapAttr → Bool

namespace MapEnv

variable (env : MapEnv)

/-- The types that `map_init` has a case for. -/
def builtin (type : ℤ) : Bool :=
  match BpfMapType.ofInt type with
  | .kernelUserHash | .kernelUserArray | .kernelUserPerfEventArray | .kernelUserPercpuArray => env.libbpf
  | .progArray | .stackTrace => env.libbpf
  -- The map types of the GPU.
  | .other => env.cuda && (type == 1502 || type == 1527)
  | _ => true

/-- The types that `map_free` has a case for. -/
def frees (type : ℤ) : Bool :=
  match BpfMapType.ofInt type with
  | .kernelUserHash | .kernelUserArray | .kernelUserPerfEventArray | .kernelUserPercpuArray => env.libbpf
  | .progArray | .lruHash | .lpmTrie => env.libbpf
  | .arrayOfMaps => false
  | .other => env.cuda && (type == 1502 || type == 1527)
  | _ => true

end MapEnv

/-- The entry of `global_map_ops_table` for a type, if there is one. -/
def mapOpsIndex (type : ℤ) : Option (Fin mapTypeMax) :=
  if h : 0 ≤ type ∧ type.toNat < mapTypeMax then some ⟨type.toNat, h.2⟩ else none

/-- How `map_init` ends. -/
inductive InitReply where
  | ret (n : ℤ)
  | threw
deriving DecidableEq

namespace BpfMapHandler

variable (env : MapEnv) (h : BpfMapHandler) (g : Segment)

/-- The checks of `map_init` in front of the construction of a container. -/
def passes : Bool := BpfMapType.ofInt h.attr.type.toInt = .other || h.constructs

def constructIn : InitReply × BpfMapHandler × Segment :=
  if h.getContainerName ∉ g.names ∧ env.throws g h.getContainerName h.attr then (.threw, h, g)
  else
    let (ptr, g) := g.construct h.getContainerName h.attr
    (.ret 0, { h with map_impl_ptr := ptr }, g)

/-- `map_init`. -/
def mapInitIn : Option (InitReply × BpfMapHandler × Segment) :=
  if env.builtin h.attr.type.toInt then
    if h.passes then some (h.constructIn env g) else some (.ret (-1), h, g)
  else if env.allow_non_buildin_map_types then
    (mapOpsIndex h.attr.type.toInt).map fun i =>
      (.ret (match env.alloc_map i with
        | some alloc_map => alloc_map 0 h.name h.attr
        | none => 0), { h with map_impl_ptr := none }, g)
  else some (.ret (-1), h, g)

/-- `map_free`. -/
def mapFreeIn : Option Segment :=
  if env.frees h.attr.type.toInt then some (g.destroy h.getContainerName)
  else (mapOpsIndex h.attr.type.toInt).map fun _ => g

end BpfMapHandler

namespace BpftimeShm

variable (env : MapEnv) (s : BpftimeShm)

/-- `clear_id_at`. -/
def clearIdAtIn (fd : ℤ) : Option BpftimeShm :=
  match s.getHandler fd with
  | some (.map m) => (m.mapFreeIn env s.segment).map fun g => { s.put fd .unused with segment := g }
  | _ => some (s.clearIdAt fd)

/-- `set_handler`. -/
def setHandlerIn (fd : ℤ) (h : Handler) : Option (ShmReply × BpftimeShm) :=
  if s.isAllocated fd then some (.ret (-Errno.EEXIST.code), s)
  else if h = .unused then some (.ret (-Errno.ENOTSUP.code), s)
  else
    match s.getHandler fd with
    | none => none
    | some _ =>
      match h with
      | .map m =>
        (m.mapInitIn env s.segment).map fun r =>
          (match r.1 with
            | .ret _ => .ret fd
            | .threw => .threw, { s.put fd (.map r.2.1) with segment := r.2.2 })
      | h => some (.ret fd, s.put fd h)

def vacate (fd : ℤ) : Option BpftimeShm :=
  match s.getHandler fd with
  | none => none
  | some h => if h = .unused then some s else s.clearIdAtIn env fd

/-- `add_bpf_map`. -/
def addBpfMapIn (fd : ℤ) (name : String) (attr : BpfMapAttr) : Option (ShmReply × BpftimeShm) :=
  let (fd, s) := s.orFakeFd fd
  (s.vacate env fd).bind fun s => s.setHandlerIn env fd (.map ⟨attr, name, none⟩)

end BpftimeShm

namespace BpftimeShm

variable {env : MapEnv} {s s' s₁ : BpftimeShm} {fd i : ℤ} {h : Handler}

lemma handlers_clearIdAtIn (hclear : s.clearIdAtIn env fd = some s') :
    s'.handlers = (s.clearIdAt fd).handlers := by
  unfold clearIdAtIn at hclear
  cases hfd : s.getHandler fd with
  | none =>
    rw [hfd] at hclear
    cases hclear
    rfl
  | some h =>
    rw [hfd] at hclear
    cases h with
    | map m =>
      obtain ⟨g, -, rfl⟩ := map_eq_some_iff.mp hclear
      unfold clearIdAt
      rw [hfd]
    | _ =>
      cases hclear
      rfl

lemma getHandler_vacate (hvacate : s.vacate env fd = some s₁) : s₁.getHandler fd = some .unused := by
  unfold vacate at hvacate
  cases hfd : s.getHandler fd with
  | none => simp [hfd] at hvacate
  | some h =>
    rw [hfd] at hvacate
    dsimp only at hvacate
    split_ifs at hvacate with hunused
    · cases hvacate
      rw [hfd, hunused]
    · rw [getHandler_congr (handlers_clearIdAtIn hvacate), getHandler_clearIdAt hfd, if_pos rfl]

lemma setHandlerIn_map (hfd : s.getHandler fd = some .unused) (m : BpfMapHandler) :
    s.setHandlerIn env fd (.map m) = (m.mapInitIn env s.segment).map fun r =>
      (match r.1 with
        | .ret _ => .ret fd
        | .threw => .threw, { s.put fd (.map r.2.1) with segment := r.2.2 }) := by
  have halloc : s.isAllocated fd = false := by
    unfold isAllocated
    rw [hfd]
  unfold setHandlerIn
  rw [if_neg (by simp [halloc]), if_neg (by simp), hfd]

end BpftimeShm

/-- `map_init` of a handler succeeds and makes it `m`. -/
def BpfMapHandler.Initialised (env : MapEnv) (h : BpfMapHandler) (g : Segment) (m : BpfMapHandler) : Prop :=
  (∃ g', h.mapInitIn env g = some (.ret 0, m, g')) ∧
    (env.builtin h.attr.type.toInt = true → m.map_impl_ptr.isSome = true)

/-- The inputs with which `map_init` succeeds. -/
def BpfMapHandler.CanInit (env : MapEnv) (h : BpfMapHandler) (g : Segment) : Prop :=
  if env.builtin h.attr.type.toInt then
    -- A ring buffer has a power of two as its size, a bloom filter has no keys.
    h.passes = true ∧ h.getContainerName ∉ g.names ∧ env.throws g h.getContainerName h.attr = false
  else env.allow_non_buildin_map_types = true ∧ ∃ i, mapOpsIndex h.attr.type.toInt = some i ∧
    ∀ alloc_map, env.alloc_map i = some alloc_map → alloc_map 0 h.name h.attr = 0

lemma BpfMapHandler.exists_initialised_iff (env : MapEnv) (h : BpfMapHandler) (g : Segment) :
    (∃ m, h.Initialised env g m) ↔ h.CanInit env g := by
  unfold Initialised CanInit mapInitIn
  by_cases hbuiltin : env.builtin h.attr.type.toInt = true
  · simp only [hbuiltin, true_imp_iff]
    by_cases hpasses : h.passes = true
    swap
    · simp [hpasses]
    simp only [if_pos hpasses, constructIn, Segment.construct]
    by_cases hname : h.getContainerName ∈ g.names
    · simp [hname]
    by_cases hthrows : env.throws g h.getContainerName h.attr = true
    · simp [hname, hthrows]
    · simp [hname, hthrows, hpasses]
  · simp only [hbuiltin]
    by_cases hallow : env.allow_non_buildin_map_types = true
    swap
    · simp [hallow]
    simp only [hallow, true_and]
    cases hindex : mapOpsIndex h.attr.type.toInt with
    | none => simp
    | some i =>
      cases halloc : env.alloc_map i with
      | none | some _ => simp [halloc]

def ShmReply.Failed : ShmReply → Prop
  | .ret n => n < 0
  | .error _ => True
  | .threw => False

namespace BpftimeShm

/-- `add_bpf_map` ends, a descriptor that it returns has a map that was initialised, and if
`map_init` fails the call returns an error and leaves the slot unused. -/
def CreationSound (env : MapEnv) (s : BpftimeShm) (fd : ℤ) (name : String) (attr : BpfMapAttr) : Prop :=
  let slot := (s.orFakeFd fd).1
  let h : BpfMapHandler := ⟨attr, name, none⟩
  ∃ s₁ r s', (s.orFakeFd fd).2.vacate env slot = some s₁ ∧ s.addBpfMapIn env fd name attr = some (r, s') ∧
    (∀ n, r = .ret n → 0 ≤ n → ∃ m, s'.getHandler n = some (.map m) ∧ h.Initialised env s₁.segment m) ∧
    ((∀ m, ¬ h.Initialised env s₁.segment m) → r.Failed ∧ s'.getHandler slot = some .unused)

/-- The descriptor, or the one that is opened for a negative one, lies in the table, what is there
can be closed, and then `map_init` succeeds. -/
def Creatable (env : MapEnv) (s : BpftimeShm) (fd : ℤ) (name : String) (attr : BpfMapAttr) : Prop :=
  ∃ s₁, (s.orFakeFd fd).2.vacate env (s.orFakeFd fd).1 = some s₁ ∧
    BpfMapHandler.CanInit env ⟨attr, name, none⟩ s₁.segment

/-- `add_bpf_map` does what it should exactly with the inputs with which `map_init` succeeds: it
never takes a map back. -/
theorem creationSound_iff (env : MapEnv) (s : BpftimeShm) (fd : ℤ) (name : String)
    (attr : BpfMapAttr) : CreationSound env s fd name attr ↔ Creatable env s fd name attr := by
  unfold CreationSound Creatable addBpfMapIn
  dsimp only
  generalize (s.orFakeFd fd).1 = slot
  generalize (s.orFakeFd fd).2 = s0
  generalize (⟨attr, name, none⟩ : BpfMapHandler) = h
  constructor
  · rintro ⟨s₁, r, s', hvacate, hadd, -, hfail⟩
    have hslot := getHandler_vacate hvacate
    refine ⟨s₁, hvacate, (h.exists_initialised_iff env s₁.segment).mp ?_⟩
    by_contra hnone
    -- The call returns the descriptor or throws.
    obtain ⟨hfailed, -⟩ := hfail (not_exists.mp hnone)
    rw [hvacate, bind_some, setHandlerIn_map hslot] at hadd
    obtain ⟨⟨reply, m, g⟩, -, heq⟩ := map_eq_some_iff.mp hadd
    obtain ⟨rfl, -⟩ := Prod.mk.inj heq
    cases reply with
    | ret n =>
      have hneg : slot < 0 := hfailed
      have hpos := (getHandler_eq_some.mp hslot).1
      omega
    | threw => exact hfailed
  · rintro ⟨s₁, hvacate, hcan⟩
    have hslot := getHandler_vacate hvacate
    obtain ⟨m, ⟨g, hinit⟩, hptr⟩ := (h.exists_initialised_iff env s₁.segment).mpr hcan
    have hset : s₁.setHandlerIn env slot (.map h) = _ := setHandlerIn_map hslot h
    rw [hinit, map_some] at hset
    refine ⟨s₁, _, _, hvacate, by rw [hvacate, bind_some, hset], fun n hn _ => ⟨m, ?_, ⟨g, hinit⟩, hptr⟩,
      fun hnone => absurd ⟨⟨g, hinit⟩, hptr⟩ (hnone m)⟩
    cases hn
    exact getHandler_put_self hslot _

/-- A build with libbpf and without CUDA, without external map types, and with room for every
container. -/
def plainEnv : MapEnv := ⟨true, false, false, fun _ => none, fun _ _ _ => false⟩

variable {m : BpfMapHandler}

def ringbufAttr (max_ents : UInt32) : BpfMapAttr := ⟨27, 0, 0, max_ents, 0, 0, 0, 0, 0, 0, 0, 0, 0⟩

def smallTable : BpftimeShm := create 8 (fun _ => 0) fun _ => 0

lemma vacate_smallTable : (smallTable.orFakeFd 3).2.vacate plainEnv (smallTable.orFakeFd 3).1 =
    some smallTable := rfl

/-- A ring buffer of 4096 bytes is created. -/
theorem creationSound_ringbuf : CreationSound plainEnv smallTable 3 "rb" (ringbufAttr 4096) := by
  refine (creationSound_iff plainEnv smallTable 3 "rb" (ringbufAttr 4096)).mpr ⟨smallTable,
    vacate_smallTable, ?_⟩
  unfold BpfMapHandler.CanInit
  rw [if_pos (by decide)]
  exact ⟨by decide, by decide, rfl⟩

/-- A ring buffer of 3000 bytes, which is no power of two, cannot be initialised. The call returns
its descriptor, and a map without a container is in the table. -/
theorem not_creationSound_ringbuf :
    (BpfMapHandler.mapInitIn plainEnv ⟨ringbufAttr 3000, "rb", none⟩ smallTable.segment).map (·.1) =
    some (.ret (-1)) ∧
    (smallTable.addBpfMapIn plainEnv 3 "rb" (ringbufAttr 3000)).map (fun p => (p.1, p.2.getHandler 3)) =
      some (.ret 3, some (.map ⟨ringbufAttr 3000, "rb", none⟩)) ∧
    ¬ CreationSound plainEnv smallTable 3 "rb" (ringbufAttr 3000) := by
  have hinit : (mapInitIn plainEnv ⟨ringbufAttr 3000, "rb", none⟩ smallTable.segment).map (·.1) =
      some (.ret (-1)) := by decide
  have hadd : (smallTable.addBpfMapIn plainEnv 3 "rb" (ringbufAttr 3000)).map (fun p =>
      (p.1, p.2.getHandler 3)) =
      some (.ret 3, some (.map ⟨ringbufAttr 3000, "rb", none⟩)) := by decide +kernel
  refine ⟨hinit, hadd, ?_⟩
  rintro ⟨s₁, r, s', hvacate, hr, -, hfail⟩
  rw [vacate_smallTable, some.injEq] at hvacate
  subst hvacate
  obtain ⟨hfailed, -⟩ := hfail fun m hm => by
    obtain ⟨g, hg⟩ := hm.1
    rw [hg] at hinit
    simp at hinit
  rw [hr, map_some, some.injEq, Prod.mk.injEq] at hadd
  have hret : r = .ret 3 := hadd.1
  subst hret
  exact absurd hfailed (by simp [ShmReply.Failed])

end BpftimeShm

end Bpftime
