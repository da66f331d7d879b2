import Bpftime.Basic
import Bpftime.Lib.Bytes

/-!
# Array and per-CPU array maps

`array_map_impl` of `runtime/src/bpf_map/userspace/array_map.cpp` and `per_cpu_array_map_impl` of
`per_cpu_array_map.cpp` keep their values one behind the other in one vector.
-/

namespace Bpftime.Arrays

open Bytes (readRange writeRange)

/-- `map_get_next_key`, which is the same for both: the next index, from 0 on. -/
def mapGetNextKey (max_entries : ℕ) (key : Option ℕ) : Except Errno ℕ :=
  match key with
  | none => .ok 0
  | some key =>
    if max_entries ≤ key then .ok 0
    else if key = (max_entries + (2^32 - 1)) % 2^32 then .error .ENOENT
    else .ok (key + 1)

/-- How an update ends that does not store its value. -/
def refusal (max_entries key : ℕ) (flags : UInt64) : Option Errno :=
  if !checkUpdateFlags flags then some .EINVAL
  else if key < max_entries ∧ flags = 1 then some .EEXIST
  else if max_entries ≤ key then some .E2BIG
  else none

/-- `array_map_impl` -/
structure ArrayMap where
  data : List UInt8
  value_size : ℕ
  max_entries : ℕ

namespace ArrayMap

/-- The constructor. -/
def create (value_size max_entries : ℕ) : ArrayMap :=
  ⟨List.replicate (value_size * max_entries % 2^32) 0, value_size, max_entries⟩

variable (m : ArrayMap)

def offset (key : ℕ) : ℕ := key * m.value_size % 2^32

/-- `elem_lookup`: the value that the pointer points to. -/
def elemLookup (key : ℕ) : Option (Except Errno (List UInt8)) :=
  if m.max_entries ≤ key then some (.error .ENOENT)
  else (readRange m.data (m.offset key) m.value_size).map .ok

/-- `elem_update` -/
def elemUpdate (key : ℕ) (value : List UInt8) (flags : UInt64) : Option (Outcome × ArrayMap) :=
  match refusal m.max_entries key flags with
  | some e => some (.error e, m)
  | none => (writeRange m.data (m.offset key) value).map fun data => (.ok, { m with data })

/-- `elem_delete` -/
def elemDelete (_key : ℕ) : Outcome := .error .EINVAL

end ArrayMap

/-- `per_cpu_array_map_impl` -/
structure PerCpuArrayMap where
  data : List UInt8
  /-- The `int` that the member is, as a 32-bit word. -/
  ncpu : ℕ
  value_size : ℕ
  max_ent : ℕ

namespace PerCpuArrayMap

/-- The constructor. -/
def create (value_size max_entries ncpu : ℕ) : PerCpuArrayMap :=
  ⟨List.replicate (max_entries * ncpu % 2^32 * value_size % 2^32) 0, ncpu, value_size, max_entries⟩

variable (m : PerCpuArrayMap)

/-- The member `ncpu` as a `size_t`: its sign is extended. -/
def ncpuExtended : ℕ := if m.ncpu < 2^31 then m.ncpu else 2^64 - (2^32 - m.ncpu)

/-- `data_at`: where the value of an index and a CPU starts. -/
def dataAt (idx cpu : ℕ) : ℕ := add64 (idx * m.value_size % 2^64 * m.ncpuExtended % 2^64)
    (cpu * m.value_size % 2^64)

/-- `elem_lookup` on a CPU: the value that the pointer points to. -/
def elemLookup (cpu : ℕ) (key : Option ℕ) : Option (Except Errno (List UInt8)) :=
  match key with
  | none => some (.error .ENOENT)
  | some key =>
    if m.max_ent ≤ key then some (.error .ENOENT)
    else (readRange m.data (m.dataAt key cpu) m.value_size).map .ok

/-- What `elem_update` and `elem_update_userspace` do with a value that they store at the slot of a
CPU. -/
def store (cpu : ℕ) (key : Option ℕ) (value : List UInt8) (flags : UInt64) :
    Option (Outcome × PerCpuArrayMap) :=
  if !checkUpdateFlags flags then some (.error .EINVAL, m)
  else
    match key with
    | none => some (.error .ENOENT, m)
    | some key =>
      match refusal m.max_ent key flags with
      | some e => some (.error e, m)
      | none => (writeRange m.data (m.dataAt key cpu) value).map fun data => (.ok, { m with data })

/-- `elem_update` on a CPU. -/
def elemUpdate (cpu : ℕ) (key : Option ℕ) (value : List UInt8) (flags : UInt64) :
    Option (Outcome × PerCpuArrayMap) := m.store cpu key value flags

/-- The length of what `elem_update_userspace` copies. -/
def userspaceLength : ℕ := m.ncpu * m.value_size % 2^32

/-- `elem_lookup_userspace`: the values of all CPUs, as many bytes as an update copies. -/
def elemLookupUserspace (key : Option ℕ) : Option (Except Errno (List UInt8)) :=
  match key with
  | none => some (.error .ENOENT)
  | some key =>
    if m.max_ent ≤ key then some (.error .ENOENT)
    else (readRange m.data (m.dataAt key 0) m.userspaceLength).map .ok

/-- `elem_update_userspace`: the values of all CPUs, from the slot of the first one on. -/
def elemUpdateUserspace (key : Option ℕ) (value : List UInt8) (flags : UInt64) :
    Option (Outcome × PerCpuArrayMap) := m.store 0 key (value.take m.userspaceLength) flags

/-- `elem_delete` and `elem_delete_userspace` -/
def elemDelete (_key : Option ℕ) : Outcome := .error .EINVAL

end PerCpuArrayMap

end Bpftime.Arrays
