import Bpftime.Basic
import Bpftime.Lib.Runs
import Bpftime.Lib.SharedMemory

/-!
# Arrays that are shared with the kernel

`array_map_kernel_user_impl` maps the array of the kernel into the process, and otherwise makes a
`bpf` call for each operation.
-/

namespace Bpftime.KernelUser

open Runs (run Along answers run_refines)
open SharedMemory (Memory load store)

/-- `roundup`. -/
def roundup (x y : ℕ) : ℕ := (x + (y - 1)) / y * y

variable {y x page_sz : ℕ} {flags : UInt64} {ops : List Op}

lemma le_roundup (hy : 0 < y) : x ≤ roundup x y := by
  unfold roundup
  have := Nat.lt_div_mul_add (a := x + (y - 1)) hy
  omega

lemma roundup_eq_self (hy : 0 < y) (h : y ∣ x) : roundup x y = x := by
  obtain ⟨q, rfl⟩ := h
  unfold roundup
  rw [Nat.mul_add_div hy, Nat.div_eq_of_lt (by omega), Nat.add_zero, mul_comm]

/-- `bpf_map_mmap_sz`. -/
def bpfMapMmapSz (page_sz : ℕ) (value_sz max_entries : UInt32) : ℕ :=
  roundup (((value_sz + 7) / 8 * 8).toNat * max_entries.toNat) page_sz

structure Kernel where
  value_size : UInt32
  max_entries : UInt32
  /-- Whether it has the flag `BPF_F_RDONLY_PROG`. -/
  rdonly_prog : Bool
  /-- The bytes of its mapping. -/
  cells : Memory

inductive Op
  | lookup (key : UInt32)
  | update (key : UInt32) (value : Memory) (flags : UInt64)

/-- The result of an operation: the bytes behind the pointer to a value, no value, or a number. -/
inductive Reply
  | value (bytes : List UInt8)
  | null (errno : Errno)
  | ret (n : ℤ) (errno : Option Errno)
deriving DecidableEq

namespace Kernel

variable (k : Kernel)

def offset (key : UInt32) : ℕ := key.toNat * roundup k.value_size.toNat 8

/-- What `BPF_MAP_LOOKUP_ELEM` copies. -/
def lookup (key : UInt32) : Except Errno (List UInt8) :=
  if k.max_entries ≤ key then .error .ENOENT
  else .ok (load k.cells (k.offset key) k.value_size.toNat)

/-- `BPF_MAP_UPDATE_ELEM`. -/
def update (key : UInt32) (value : Memory) (flags : UInt64) : Except Errno Kernel :=
  if 2 < flags then .error .EINVAL
  else if k.max_entries ≤ key then .error .E2BIG
  else if flags = 1 then .error .EEXIST
  else .ok { k with cells := store k.cells (k.offset key) (load value 0 k.value_size.toNat) }

/-- What an operation is to answer, and the array after it. -/
def answer (k : Kernel) : Op → Reply × Kernel
  | .lookup key =>
    match k.lookup key with
    | .ok bytes => (.value bytes, k)
    | .error e => (.null e, k)
  | .update key value flags =>
    match k.update key value flags with
    | .ok k => (.ret 0 none, k)
    | .error e => (.ret (-e.code) (some e), k)

end Kernel

/-! ## The class -/

/-- What `mmap_ptr` points to. -/
inductive Mapping
  | null
  /-- `MAP_FAILED`, or an address where nothing is mapped. -/
  | invalid
  /-- The anonymous mapping that is made first. -/
  | anonymous (size : ℕ) (mem : Memory)
  | kernel (size : ℕ) (writable : Bool)

/-- The members of an `array_map_kernel_user_impl`. -/
structure ArrayMapKernelUserImpl where
  value_data : List UInt8
  value_size : UInt32
  max_entries : UInt32
  map_fd : ℤ
  mmap_ptr : Mapping

/-- What becomes of the anonymous mapping when the array is to be mapped in its place. -/
inductive Remap
  | mapped
  | kept
  | unmapped
deriving DecidableEq

/-- What the calls of `init_map_fd` return. -/
structure Setup where
  page_sz : ℕ
  /-- `bpf_map_get_fd_by_id`. -/
  fd : ℤ
  /-- Whether `bpf_obj_get_info_by_fd` succeeds. -/
  info : Bool
  /-- Whether the anonymous mapping is made. -/
  anonymous : Bool
  remap : Remap

/-- The class and the array, with the number of `bpf` calls made on it. -/
structure Sys where
  impl : ArrayMapKernelUserImpl
  kernel : Kernel
  calls : ℕ

variable (setup : Setup)

/-- `init_map_fd`. -/
def initMapFd (k : Kernel) (m : ArrayMapKernelUserImpl) : ArrayMapKernelUserImpl :=
  if setup.fd < 0 then { m with map_fd := setup.fd }
  else
    let value_size := if setup.info then k.value_size else 0
    let max_entries := if setup.info then k.max_entries else 0
    let rdonly_prog := setup.info && k.rdonly_prog
    let mmap_sz := bpfMapMmapSz setup.page_sz value_size max_entries
    { m with
      map_fd := setup.fd
      value_size
      max_entries
      value_data := (m.value_data ++ List.replicate value_size.toNat 0).take value_size.toNat
      mmap_ptr :=
        if !setup.anonymous || mmap_sz = 0 then .invalid
        else
          match setup.remap with
          | .mapped => .kernel mmap_sz !rdonly_prog
          | .kept => .anonymous mmap_sz fun _ => 0
          | .unmapped => .invalid }

def ready (s : Sys) : Sys := if s.impl.map_fd < 0 then
    { s with impl := initMapFd setup s.kernel s.impl } else s

def Mapping.read (k : Kernel) (off n : ℕ) : Mapping → Option (List UInt8)
  | .anonymous size mem => if off + n ≤ size then some (load mem off n) else none
  | .kernel size _ => if off + n ≤ size then some (load k.cells off n) else none
  | _ => none

/-- A mapping and the array after some bytes were written at an offset. -/
def Mapping.write (k : Kernel) (off : ℕ) (bytes : List UInt8) : Mapping → Option (Mapping × Kernel)
  | .anonymous size mem => if off + bytes.length ≤ size then some (.anonymous size (store mem off bytes), k) else none
  | .kernel size true =>
    if off + bytes.length ≤ size then
      some (.kernel size true, { k with cells := store k.cells off bytes })
    else none
  | _ => none

/-- `bpf_map_lookup_elem` into `value_data`, which has to be large enough. -/
def lookupCall (key : UInt32) (s : Sys) : Option (Reply × Sys) :=
  if s.impl.map_fd < 0 then some (.null .EBADF, { s with calls := s.calls + 1 })
  else
    match s.kernel.lookup key with
    | .error e => some (.null e, { s with calls := s.calls + 1 })
    | .ok bytes =>
      if bytes.length ≤ s.impl.value_data.length then
        some (.value bytes, { s with
          impl := { s.impl with value_data := bytes ++ s.impl.value_data.drop bytes.length }
          calls := s.calls + 1 })
      else none

/-- `bpf_map_update_elem`. -/
def updateCall (key : UInt32) (value : Memory) (flags : UInt64) (s : Sys) : Option (Reply × Sys) :=
  if s.impl.map_fd < 0 then
    some (.ret (-Errno.EBADF.code) (some .EBADF), { s with calls := s.calls + 1 })
  else
    match s.kernel.update key value flags with
    | .error e => some (.ret (-e.code) (some e), { s with calls := s.calls + 1 })
    | .ok k => some (.ret 0 none, { s with kernel := k, calls := s.calls + 1 })

/-- `elem_lookup`, with the bytes behind the pointer that it returns. -/
def elemLookup (key : UInt32) (s : Sys) : Option (Reply × Sys) :=
  let s := ready setup s
  match s.impl.mmap_ptr with
  | .null => lookupCall key s
  | ptr =>
    if s.impl.max_entries ≤ key then some (.null .ENOENT, s)
    else
      (ptr.read s.kernel (key * s.impl.value_size).toNat s.impl.value_size.toNat).map fun bytes =>
      (.value bytes, s)

/-- `elem_update`. -/
def elemUpdate (key : UInt32) (value : Memory) (flags : UInt64) (s : Sys) : Option (Reply × Sys) :=
  let s := ready setup s
  match s.impl.mmap_ptr with
  | .null => updateCall key value flags s
  | ptr =>
    if s.impl.max_entries ≤ key then some (.ret (-1) (some .ENOENT), s)
    else
      (ptr.write s.kernel (key * s.impl.value_size).toNat (load value 0 s.impl.value_size.toNat)).map
        fun p => (.ret 0 none, { s with impl := { s.impl with mmap_ptr := p.1 }, kernel := p.2 })

def step (s : Sys) : Op → Option (Reply × Sys)
  | .lookup key => elemLookup setup key s
  | .update key value flags => elemUpdate setup key value flags s

def fresh (mmap_ptr : Mapping) (value_size max_entries : UInt32) (k : Kernel) : Sys :=
  ⟨⟨[0], value_size, max_entries, -1, mmap_ptr⟩, k, 0⟩

/-- An object that goes through the `bpf` call. -/
def direct (k : Kernel) : Sys :=
  ⟨⟨List.replicate k.value_size.toNat 0, k.value_size, k.max_entries, setup.fd, .null⟩, k, 0⟩

/-- The array is mapped when the class is set up. -/
def Mapped (k : Kernel) : Prop :=
  setup.anonymous = true ∧ 0 < bpfMapMmapSz setup.page_sz k.value_size k.max_entries ∧ setup.remap = .mapped

/-- A run of a new object gives the results, the errors and the stored values that it gives through
the `bpf` call, and if the array could not be mapped, it makes the same calls. -/
def Agrees (k : Kernel) (s : Sys) (ops : List Op) : Prop :=
  ∃ rs s₁ s₂, run (step setup) s ops = some (rs, s₁) ∧ run (step setup) (direct setup k) ops =
    some (rs, s₂) ∧
    s₁.kernel = s₂.kernel ∧ (¬Mapped setup k → s₁.calls = s₂.calls)

/-- The class looks for an element where it is: it is the first one, or the size of a value is a
multiple of eight and the offset is below `2^32`. -/
def Found (k : Kernel) (key : UInt32) : Prop :=
  key = 0 ∨ 8 ∣ k.value_size.toNat ∧ key.toNat * k.value_size.toNat < 2^32

def Fits (s : Sys) : Op → Prop
  | .lookup key => Mapped setup s.kernel ∧ (s.kernel.max_entries ≤ key ∨ Found s.kernel key)
  | .update key _ flags => Mapped setup s.kernel ∧ s.kernel.rdonly_prog = false ∧
    key < s.kernel.max_entries ∧ Found s.kernel key ∧ (flags = 0 ∨ flags = 2)

variable {setup} {k : Kernel} {s : Sys} {key : UInt32}

structure Direct (s : Sys) (k : Kernel) : Prop where
  map_fd : 0 ≤ s.impl.map_fd
  mmap_ptr : s.impl.mmap_ptr = .null
  value_data : s.impl.value_data.length = k.value_size.toNat
  kernel : s.kernel = k

lemma Kernel.length_of_lookup {bytes : List UInt8} (h : k.lookup key = .ok bytes) :
    bytes.length = k.value_size.toNat := by
  unfold Kernel.lookup at h
  split_ifs at h
  cases h
  exact SharedMemory.length_load

lemma Kernel.value_size_of_update {value : Memory} {k' : Kernel}
    (h : k.update key value flags = .ok k') : k'.value_size = k.value_size := by
  unfold Kernel.update at h
  split_ifs at h
  cases h
  rfl

lemma Direct.step_eq (h : Direct s k) (op : Op) :
    ∃ s', step setup s op = some ((k.answer op).1, s') ∧ Direct s' (k.answer op).2 := by
  obtain ⟨hfd, hptr, hdata, rfl⟩ := h
  have hfd' : ¬s.impl.map_fd < 0 := by omega
  have hready : ready setup s = s := if_neg hfd'
  cases op with
  | lookup key =>
    unfold step elemLookup Kernel.answer
    simp only [hready, hptr]
    unfold lookupCall
    rw [if_neg hfd']
    cases hlookup : s.kernel.lookup key with
    | error e => exact ⟨_, rfl, hfd, hptr, hdata, rfl⟩
    | ok bytes =>
      have hlen := Kernel.length_of_lookup hlookup
      simp only [hlen, hdata, le_refl, if_true]
      refine ⟨_, rfl, hfd, hptr, ?_, rfl⟩
      simp [hlen, hdata]
  | update key value flags =>
    unfold step elemUpdate Kernel.answer
    simp only [hready, hptr]
    unfold updateCall
    rw [if_neg hfd']
    cases hupdate : s.kernel.update key value flags with
    | error e => exact ⟨_, rfl, hfd, hptr, hdata, rfl⟩
    | ok k' => exact ⟨_, rfl, hfd, hptr, by rw [Kernel.value_size_of_update hupdate, hdata], rfl⟩

lemma syscall_refines (hfd : 0 ≤ setup.fd) (k : Kernel) (ops : List Op) :
    ∃ s, run (step setup) (direct setup k) ops = some ((answers Kernel.answer k ops).1, s) ∧
    Direct s (answers Kernel.answer k ops).2 :=
  run_refines (C := fun _ _ => True) (fun _ _ op h _ => h.step_eq op)
    ⟨hfd, rfl, List.length_replicate, rfl⟩ (Runs.along_of_forall_mem fun _ _ _ => trivial)

/-! ## Through the mapping -/

lemma Found.offset_eq (h : Found k key) : (key * k.value_size).toNat = k.offset key := by
  unfold Kernel.offset
  rw [UInt32.toNat_mul]
  rcases h with rfl | ⟨hdvd, hlt⟩
  · simp
  · rw [roundup_eq_self (by decide) hdvd, Nat.mod_eq_of_lt hlt]

lemma roundup_of_mapped {value_size max_entries : UInt32}
    (h : 0 < bpfMapMmapSz page_sz value_size max_entries) :
    ((value_size + 7) / 8 * 8).toNat = roundup value_size.toNat 8 := by
  have hval := value_size.toNat_lt
  have hsum : (value_size + 7).toNat = (value_size.toNat + 7) % 2^32 := UInt32.toNat_add _ _
  have hround : ((value_size + 7) / 8 * 8).toNat = (value_size + 7).toNat / 8 * 8 := by
    have hprod : ((value_size + 7) / 8 * 8).toNat = (value_size + 7).toNat / 8 * 8 % 2^32 := by
      rw [UInt32.toNat_mul, UInt32.toNat_div]
      rfl
    have := (value_size + 7).toNat_lt
    omega
  rw [hround, hsum, roundup]
  by_cases hlt : value_size.toNat + 7 < 2^32
  · rw [Nat.mod_eq_of_lt hlt]
  · -- The sum has wrapped to at most six, so nothing would be mapped.
    have hzero : ((value_size + 7) / 8 * 8).toNat = 0 := by
      rw [hround, hsum]
      omega
    unfold bpfMapMmapSz at h
    rw [hzero, Nat.zero_mul] at h
    have : roundup 0 page_sz = 0 := by
      unfold roundup
      rcases Nat.eq_zero_or_pos page_sz with rfl | hpos
      · rfl
      · rw [Nat.div_eq_of_lt (by omega), Nat.zero_mul]
    omega

lemma offset_add_le (h : 0 < bpfMapMmapSz page_sz k.value_size k.max_entries) (hkey : key < k.max_entries) :
    k.offset key + k.value_size.toNat ≤ bpfMapMmapSz page_sz k.value_size k.max_entries := by
  have hround := roundup_of_mapped h
  have hkey' : key.toNat + 1 ≤ k.max_entries.toNat := UInt32.lt_iff_toNat_lt.mp hkey
  have hpage : 0 < page_sz := by
    rcases Nat.eq_zero_or_pos page_sz with rfl | hpos
    · simp [bpfMapMmapSz, roundup] at h
    · exact hpos
  unfold bpfMapMmapSz Kernel.offset
  rw [hround]
  calc key.toNat * roundup k.value_size.toNat 8 + k.value_size.toNat
      ≤ key.toNat * roundup k.value_size.toNat 8 + roundup k.value_size.toNat 8 :=
        Nat.add_le_add_left (le_roundup (by decide)) _
    _ = (key.toNat + 1) * roundup k.value_size.toNat 8 := (Nat.succ_mul _ _).symm
    _ ≤ k.max_entries.toNat * roundup k.value_size.toNat 8 := Nat.mul_le_mul_right _ hkey'
    _ = roundup k.value_size.toNat 8 * k.max_entries.toNat := Nat.mul_comm _ _
    _ ≤ _ := le_roundup hpage

/-- An object whose array is mapped, once it is set up. -/
structure SetUp (setup : Setup) (s : Sys) (k : Kernel) : Prop where
  map_fd : 0 ≤ s.impl.map_fd
  value_size : s.impl.value_size = k.value_size
  max_entries : s.impl.max_entries = k.max_entries
  mmap_ptr : s.impl.mmap_ptr = .kernel (bpfMapMmapSz setup.page_sz k.value_size k.max_entries) !k.rdonly_prog
  kernel : s.kernel = k

/-- An object before its first operation, or one whose array is mapped. -/
def Shared (setup : Setup) (s : Sys) (k : Kernel) : Prop :=
  s.impl.map_fd < 0 ∧ s.kernel = k ∨ SetUp setup s k

lemma Shared.ready (hfd : 0 ≤ setup.fd) (hinfo : setup.info = true) (h : Shared setup s k)
    (hmapped : Mapped setup k) : SetUp setup (ready setup s) k := by
  obtain ⟨hanon, hsize, hremap⟩ := hmapped
  rcases h with ⟨hnew, rfl⟩ | h
  · unfold KernelUser.ready initMapFd
    rw [if_pos hnew, if_neg (by omega)]
    have hsize' : ¬bpfMapMmapSz setup.page_sz s.kernel.value_size s.kernel.max_entries = 0 := by omega
    constructor <;> simp [hinfo, hanon, hremap, hsize', hfd]
  · unfold KernelUser.ready
    rw [if_neg (by have := h.map_fd; omega)]
    exact h

lemma SetUp.elemLookup_eq (h : SetUp setup (ready setup s) k) (hmapped : Mapped setup k)
    (hfits : k.max_entries ≤ key ∨ Found k key) :
    ∃ s', elemLookup setup key s = some ((k.answer (.lookup key)).1, s') ∧ SetUp setup s' k := by
  refine ⟨ready setup s, ?_, h⟩
  obtain ⟨-, hvalue, hmax, hptr, hkernel⟩ := h
  unfold elemLookup Kernel.answer Kernel.lookup
  simp only [hptr, hvalue, hmax, hkernel]
  by_cases hkey : k.max_entries ≤ key
  · rw [if_pos hkey, if_pos hkey]
  · have hfound : Found k key := hfits.resolve_left hkey
    have hroom := offset_add_le hmapped.2.1 (UInt32.not_le.mp hkey)
    rw [if_neg hkey, if_neg hkey, Mapping.read, hfound.offset_eq, if_pos hroom]
    rfl

lemma SetUp.elemUpdate_eq (h : SetUp setup (ready setup s) k) (hmapped : Mapped setup k)
    (hwritable : k.rdonly_prog = false) (hkey : key < k.max_entries) (hfound : Found k key)
    (hflags : flags = 0 ∨ flags = 2) (value : Memory) :
    ∃ s', elemUpdate setup key value flags s = some ((k.answer (.update key value flags)).1, s') ∧
    SetUp setup s' (k.answer (.update key value flags)).2 := by
  obtain ⟨hfd, hvalue, hmax, hptr, hkernel⟩ := h
  have hroom := offset_add_le hmapped.2.1 hkey
  have hkey' : ¬k.max_entries ≤ key := UInt32.not_le.mpr hkey
  have hupdate : k.update key value flags =
      .ok { k with cells := store k.cells (k.offset key) (load value 0 k.value_size.toNat) } := by
    unfold Kernel.update
    rcases hflags with rfl | rfl
    all_goals rw [if_neg (by decide), if_neg hkey', if_neg (by decide)]
  unfold elemUpdate Kernel.answer
  rw [hwritable] at hptr
  simp only [hptr, hvalue, hmax, hkernel, hupdate, if_neg hkey', Bool.not_false, Mapping.write,
    hfound.offset_eq, SharedMemory.length_load, if_pos hroom, Option.map_some]
  exact ⟨_, rfl, hfd, rfl, rfl, by rw [hwritable]; rfl, rfl⟩

section

variable (hfd : 0 ≤ setup.fd) (hinfo : setup.info = true) (h : Shared setup s k)
include hfd hinfo h

lemma Shared.step_eq {op : Op} (hfits : Fits setup s op) :
    ∃ s', step setup s op = some ((k.answer op).1, s') ∧ Shared setup s' (k.answer op).2 := by
  have hkernel : s.kernel = k := by
    rcases h with ⟨-, hkernel⟩ | h
    · exact hkernel
    · exact h.kernel
  cases op with
  | lookup key =>
    obtain ⟨hmapped, hfits⟩ := hfits
    rw [hkernel] at hmapped hfits
    obtain ⟨s', hs', hup⟩ := (h.ready hfd hinfo hmapped).elemLookup_eq hmapped hfits
    have hsame : (k.answer (.lookup key)).2 = k := by
      unfold Kernel.answer
      cases hlookup : k.lookup key with
      | error _ | ok _ => simp only [hlookup]
    rw [hsame]
    exact ⟨s', hs', .inr hup⟩
  | update key value flags =>
    obtain ⟨hmapped, hwritable, hkey, hfound, hflags⟩ := hfits
    rw [hkernel] at hmapped hwritable hkey hfound
    obtain ⟨s', hs', hup⟩ := (h.ready hfd hinfo hmapped).elemUpdate_eq hmapped hwritable hkey hfound hflags value
    exact ⟨s', hs', .inr hup⟩

lemma mapped_refines (hfits : Along (step setup) (Fits setup) s ops) :
    ∃ s', run (step setup) s ops = some ((answers Kernel.answer k ops).1, s') ∧
    Shared setup s' (answers Kernel.answer k ops).2 :=
  run_refines (fun _ _ _ h hfits => h.step_eq hfd hinfo hfits) h hfits

end

/-- In every run whose operations meet the condition, a new object gives the results, errors and
stored values through the mapping that it gives through the `bpf` call. -/
theorem agrees_of_fits (hfd : 0 ≤ setup.fd) (hinfo : setup.info = true) {k : Kernel} {mmap_ptr : Mapping}
    {value_size max_entries : UInt32} {ops : List Op}
    (hfits : Along (step setup) (Fits setup) (fresh mmap_ptr value_size max_entries k) ops) :
    Agrees setup k (fresh mmap_ptr value_size max_entries k) ops := by
  have hnew : Shared setup (fresh mmap_ptr value_size max_entries k) k :=
    .inl ⟨show (-1 : ℤ) < 0 by decide, rfl⟩
  obtain ⟨s₁, hrun1, hs1⟩ := mapped_refines hfd hinfo hnew hfits
  obtain ⟨s₂, hrun2, hs2⟩ := syscall_refines hfd k ops
  refine ⟨_, s₁, s₂, hrun1, hrun2, ?_, fun hnot => ?_⟩
  · rw [hs2.kernel]
    rcases hs1 with ⟨-, hkernel⟩ | hs1
    · exact hkernel
    · exact hs1.kernel
  · -- An operation meets the condition only if the array is mapped.
    cases ops with
    | nil =>
      cases hrun1
      cases hrun2
      rfl
    | cons op ops =>
      refine absurd ?_ hnot
      cases op with
      | lookup _ | update _ _ _ => exact hfits.1.1

/-- An array with some bytes in its second element, if its values have at most eight. -/
def secondElement (value_size : UInt32) : Kernel :=
  ⟨value_size, 4, false, store (fun _ => 0) 8 [1, 2, 3, 4, 5, 6, 7, 8]⟩

def plainSetup (remap : Remap) : Setup := ⟨4096, 3, true, true, remap⟩

/-- Values of eight bytes are found, stored and missed alike. -/
theorem agrees_eight_bytes : Agrees (plainSetup .mapped) (secondElement 8)
    (fresh .null 0 0 (secondElement 8))
      [.lookup 1, .update 3 (fun _ => 9) 2, .lookup 3, .lookup 4] := by
  have hmapped : ∀ s : Sys, s.kernel.value_size = 8 → s.kernel.max_entries = 4 →
      Mapped (plainSetup .mapped) s.kernel := by
    intro s hvalue hmax
    rw [Mapped, hvalue, hmax]
    decide
  have hfound : ∀ k : Kernel, ∀ key : UInt32, key < 4 → k.value_size = 8 → Found k key := by
    intro k key hkey hvalue
    have hlt : key.toNat < 4 := UInt32.lt_iff_toNat_lt.mp hkey
    refine .inr ?_
    rw [hvalue]
    exact ⟨by decide, show key.toNat * 8 < 2^32 by omega⟩
  refine agrees_of_fits (by decide) rfl ⟨⟨hmapped _ rfl rfl, .inr (hfound _ _ (by decide) rfl)⟩, ?_⟩
  rintro r s hs
  cases hs
  refine ⟨⟨hmapped _ rfl rfl, rfl, by decide, hfound _ _ (by decide) rfl, .inr rfl⟩, ?_⟩
  rintro r s hs
  cases hs
  refine ⟨⟨hmapped _ rfl rfl, .inr (hfound _ _ (by decide) rfl)⟩, ?_⟩
  rintro r s hs
  cases hs
  exact ⟨⟨hmapped _ rfl rfl, .inl (by decide)⟩, fun _ _ _ => trivial⟩

lemma Agrees.results {s : Sys} (h : Agrees setup k s ops) :
    (run (step setup) s ops).map Prod.fst = (run (step setup) (direct setup k) ops).map Prod.fst := by
  obtain ⟨rs, s₁, s₂, hrun1, hrun2, -⟩ := h
  rw [hrun1, hrun2]
  rfl

/-- With values of four bytes the second element is not found. An update behind the end or one that
must create an element gives another error or none. When the array could not be mapped, the
anonymous mapping is read. -/
theorem not_agrees : (Mapped (plainSetup .mapped) (secondElement 4) ∧
      ¬Agrees (plainSetup .mapped) (secondElement 4) (fresh .null 0 0 (secondElement 4)) [.lookup 1]) ∧
    (Mapped (plainSetup .mapped) (secondElement 8) ∧
      ¬Agrees (plainSetup .mapped) (secondElement 8)
      (fresh .null 0 0 (secondElement 8)) [.update 4 (fun _ => 9) 0] ∧
      ¬Agrees (plainSetup .mapped) (secondElement 8) (fresh .null 0 0 (secondElement 8)) [.update 1 (fun _ => 9) 1]) ∧
    ¬Mapped (plainSetup .kept) (secondElement 8) ∧
      ¬Agrees (plainSetup .kept) (secondElement 8) (fresh .null 0 0 (secondElement 8)) [.lookup 1] := by
  refine ⟨⟨⟨rfl, by decide, rfl⟩, fun h => ?_⟩, ⟨⟨rfl, by decide, rfl⟩, fun h => ?_, fun h => ?_⟩,
    fun h => ?_, fun h => ?_⟩
  · exact absurd h.results (by decide)
  · exact absurd h.results (by decide)
  · exact absurd h.results (by decide)
  · exact absurd h.2.2 (by decide)
  · exact absurd h.results (by decide)

end Bpftime.KernelUser
