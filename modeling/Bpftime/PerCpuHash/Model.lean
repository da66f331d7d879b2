import Bpftime.Basic
import Bpftime.Lib.Bytes
import Bpftime.Lib.Runs
import Mathlib.Data.List.AList

/-!
# Per-CPU hash maps

`per_cpu_hash_map_impl` of `runtime/src/bpf_map/userspace/per_cpu_hash_map.cpp` keeps one vector of
bytes for each key, with the values of the CPUs one behind the other.
-/

namespace Bpftime.PerCpuHash

open Bytes

/-- `per_cpu_hash_map_impl` -/
structure PerCpuHashMap where
  value_size : ℕ
  ncpu : ℕ
  max_entries : ℕ
  impl : AList fun _ : List UInt8 => List UInt8

def concat {vs : ℕ} (n : ℕ) (slots : ℕ → MapValue vs) : List UInt8 :=
  (List.range n).flatMap fun cpu => (slots cpu).1

namespace PerCpuHashMap

/-- The constructor. -/
def create (value_size max_entries ncpu : ℕ) : PerCpuHashMap := ⟨value_size, ncpu, max_entries, ∅⟩

variable (m : PerCpuHashMap)

/-- `value_template`: zeros, with a length that is computed in 32 bits. -/
def valueTemplate : List UInt8 := List.replicate (m.value_size * m.ncpu % 2^32) 0

def offset (cpu : ℕ) : ℕ := m.value_size * cpu % 2^32

/-- `elem_lookup`: the value that the pointer points to. -/
def elemLookup (cpu : ℕ) (key : Option (List UInt8)) : Option (Except Errno (List UInt8)) :=
  match key with
  | none => some (.error .ENOENT)
  | some key =>
    match m.impl.lookup key with
    | some value => (readRange value (m.offset cpu) m.value_size).map .ok
    | none => some (.error .ENOENT)

/-- `elem_update` -/
def elemUpdate (cpu : ℕ) (key value : List UInt8) (flags : UInt64) : Option (Outcome × PerCpuHashMap) :=
  if checkUpdateFlags flags then
    match m.impl.lookup key with
    | some old => (writeRange old (m.offset cpu) value).map fun v => (.ok, { m with impl := m.impl.insert key v })
    | none =>
      (writeRange m.valueTemplate (m.offset cpu) value).map fun v =>
      (.ok, { m with impl := m.impl.insert key v })
  else some (.error .EINVAL, m)

/-- `elem_delete`: `std::fill` from the start of the vector to the value of the CPU. -/
def elemDelete (cpu : ℕ) (key : List UInt8) : Option (Outcome × PerCpuHashMap) :=
  match m.impl.lookup key with
  | some old =>
    (writeRange old 0 (List.replicate (m.offset cpu) 0)).map fun v =>
    (.ok, { m with impl := m.impl.insert key v })
  | none => some (.ok, m)

/-- `elem_lookup_userspace` -/
def elemLookupUserspace (key : Option (List UInt8)) : Except Errno (List UInt8) :=
  match key with
  | none => .error .ENOENT
  | some key =>
    match m.impl.lookup key with
    | some value => .ok value
    | none => .error .ENOENT

/-- `elem_update_userspace` -/
def elemUpdateUserspace (key value : List UInt8) (flags : UInt64) : Outcome × PerCpuHashMap :=
  if checkUpdateFlags flags then
    let value_vec := value.take (m.value_size * m.ncpu % 2^32)
    let elem_exists := (m.impl.lookup key).isSome
    if flags = 1 ∧ elem_exists then (.error .EEXIST, m)
    else if flags = 2 ∧ ¬elem_exists then (.error .ENOENT, m)
    else if ¬elem_exists ∧ m.impl.keys.length = m.max_entries then (.error .E2BIG, m)
    else (.ok, { m with impl := m.impl.insert key value_vec })
  else (.error .EINVAL, m)

/-- `elem_delete_userspace` -/
def elemDeleteUserspace (key : List UInt8) : Outcome × PerCpuHashMap :=
  match m.impl.lookup key with
  | some _ => (.ok, { m with impl := m.impl.erase key })
  | none => (.error .ENOENT, m)

/-- `lookup_and_delete_userspace` -/
def lookupAndDeleteUserspace (key : List UInt8) : Option (Except Errno (List UInt8) × PerCpuHashMap) :=
  match m.impl.lookup key with
  | some value =>
    (readRange value 0 (m.value_size * m.ncpu % 2^32)).map fun v =>
    (.ok v, { m with impl := m.impl.erase key })
  | none => some (.error .ENOENT, m)

end PerCpuHashMap

inductive Op (ks vs n : ℕ) where
  | lookup (cpu : Fin n) (key : Option (MapValue ks))
  | update (cpu : Fin n) (key : MapValue ks) (value : MapValue vs) (flags : UInt64)
  | delete (cpu : Fin n) (key : MapValue ks)
  | lookupUserspace (key : Option (MapValue ks))
  | updateUserspace (key : MapValue ks) (slots : ℕ → MapValue vs) (flags : UInt64)
  | deleteUserspace (key : MapValue ks)
  | lookupAndDeleteUserspace (key : MapValue ks)

inductive Reply where
  | done (o : Outcome)
  | value (r : Except Errno (List UInt8))

def step {ks vs n : ℕ} (m : PerCpuHashMap) : Op ks vs n → Option (Reply × PerCpuHashMap)
  | .lookup cpu key => (m.elemLookup cpu (key.map Subtype.val)).map fun r => (.value r, m)
  | .update cpu key value flags => (m.elemUpdate cpu key.1 value.1 flags).map fun p => (.done p.1, p.2)
  | .delete cpu key => (m.elemDelete cpu key.1).map fun p => (.done p.1, p.2)
  | .lookupUserspace key => some (.value (m.elemLookupUserspace (key.map Subtype.val)), m)
  | .updateUserspace key slots flags =>
    let p := m.elemUpdateUserspace key.1 (concat n slots) flags
    some (.done p.1, p.2)
  | .deleteUserspace key =>
    let p := m.elemDeleteUserspace key.1
    some (.done p.1, p.2)
  | .lookupAndDeleteUserspace key => (m.lookupAndDeleteUserspace key.1).map fun p => (.value p.1, p.2)

end Bpftime.PerCpuHash
