import Bpftime.HashMap.Primes
import Bpftime.Lib.Bytes
import Bpftime.Lib.Probing

/-!
# The hash map

`bpftime_hash_map` of `runtime/src/bpf_map/bpftime_hash_map.hpp`: open addressing with linear
probing in one array of bytes.
-/

namespace Bpftime

open Bytes Probing HashMap

/-- A `bpftime_hash_map`. -/
structure BpftimeHashMap where
  key_size : ℕ
  value_size : ℕ
  /-- The number of slots, a prime. -/
  num_buckets : ℕ
  /-- The number of buckets that was asked for, which bounds the number of elements. -/
  max_element_count : ℕ
  count : ℕ
  data_buffer : List UInt8
deriving DecidableEq

namespace BpftimeHashMap

/-- The constructor, in a memory segment that has room for the array. -/
def create (num_buckets key_size value_size : ℕ) : Option BpftimeHashMap :=
  (nextPrime num_buckets).map fun p =>
    { key_size, value_size
      num_buckets := p
      max_element_count := num_buckets
      count := 0
      data_buffer := List.replicate (p * (4 + key_size + value_size) % 2^64) 0 }

/-- `get_elem_offset`. -/
def getElemOffset (hm : BpftimeHashMap) (index : ℕ) : ℕ := index * (4 + hm.key_size + hm.value_size) % 2^64

/-- `hash_func`. -/
def hashFunc (key : List UInt8) : ℕ := key.foldl (fun hash b => (hash * 31 + b.toNat) % 2^64) 0

/-- `is_empty`. -/
def isEmpty (hm : BpftimeHashMap) (index : ℕ) : Option Bool :=
  (readRange hm.data_buffer (hm.getElemOffset index) 4).map fun word => ofLe word = 0

/-- `set_empty`. -/
def setEmpty (hm : BpftimeHashMap) (index : ℕ) : Option BpftimeHashMap :=
  (writeRange hm.data_buffer (hm.getElemOffset index) (toLe 4 0)).map fun data =>
    { hm with data_buffer := data }

/-- `set_filled`. -/
def setFilled (hm : BpftimeHashMap) (index : ℕ) : Option BpftimeHashMap :=
  (writeRange hm.data_buffer (hm.getElemOffset index) (toLe 4 1)).map fun data =>
    { hm with data_buffer := data }

/-- `get_key`. -/
def getKey (hm : BpftimeHashMap) (index : ℕ) : ℕ := add64 (hm.getElemOffset index) 4

/-- `get_value`. -/
def getValue (hm : BpftimeHashMap) (index : ℕ) : ℕ := add64 (add64 (hm.getElemOffset index) 4) hm.key_size

/-- `memcpy` to a pointer into the array. -/
def memcpy (hm : BpftimeHashMap) (ptr : ℕ) (bytes : List UInt8) : Option BpftimeHashMap :=
  (writeRange hm.data_buffer ptr bytes).map fun data => { hm with data_buffer := data }

def startIndex (hm : BpftimeHashMap) (key : List UInt8) : ℕ := hashFunc key % hm.num_buckets

/-- The loop that `elem_lookup`, `elem_update` and `elem_delete` share: it looks at one slot after
another until it meets an empty one, the key, or the slot where it started. -/
def searchFrom (hm : BpftimeHashMap) (key : List UInt8) : ℕ → ℕ → Option Probe
  | 0, _ => none
  | fuel + 1, index => do
    if ← hm.isEmpty index then
      return .vacant index
    if (← readRange hm.data_buffer (hm.getKey index) hm.key_size) = key then
      return .found index
    let index := (index + 1) % hm.num_buckets
    if index ≠ hm.startIndex key then
      hm.searchFrom key fuel index
    else
      return .exhausted

def search (hm : BpftimeHashMap) (key : List UInt8) : Option Probe :=
  hm.searchFrom key hm.num_buckets (hm.startIndex key)

/-- `elem_lookup`. -/
def elemLookup (hm : BpftimeHashMap) (key : List UInt8) : Option (Option ℕ) := do
  match ← hm.search key with
  | .vacant _ => return none
  | .found index => return some (hm.getValue index)
  | .exhausted => return none

/-- `elem_update`. -/
def elemUpdate (hm : BpftimeHashMap) (key value : List UInt8) : Option (Bool × BpftimeHashMap) := do
  match ← hm.search key with
  | .vacant index =>
    -- A new element, unless the map is full.
    if hm.count ≥ hm.max_element_count then
      return (false, hm)
    let hm ← hm.memcpy (hm.getKey index) key
    let hm ← hm.memcpy (hm.getValue index) value
    let hm ← hm.setFilled index
    return (true, { hm with count := add64 hm.count 1 })
  | .found index =>
    let hm ← hm.memcpy (hm.getValue index) value
    return (true, hm)
  | .exhausted => return (false, hm)

/-- `elem_delete`. -/
def elemDelete (hm : BpftimeHashMap) (key : List UInt8) : Option (Bool × BpftimeHashMap) := do
  match ← hm.search key with
  | .vacant _ => return (false, hm)
  | .found index =>
    let hm ← hm.setEmpty index
    return (true, { hm with count := sub64 hm.count 1 })
  | .exhausted => return (false, hm)

inductive Op (key_size value_size : ℕ) where
  | update (key : List.Vector UInt8 key_size) (value : List.Vector UInt8 value_size)
  | delete (key : List.Vector UInt8 key_size)
  | lookup (key : List.Vector UInt8 key_size)

inductive Result where
  | updated (ok : Bool)
  | deleted (ok : Bool)
  | value (bytes : Option (List UInt8))
deriving DecidableEq

def step {ks vs : ℕ} (hm : BpftimeHashMap) : Op ks vs → Option (Result × BpftimeHashMap)
  | .update key value =>
    (hm.elemUpdate key.toList value.toList).map fun p => (.updated p.1, p.2)
  | .delete key => (hm.elemDelete key.toList).map fun p => (.deleted p.1, p.2)
  | .lookup key => do
    match ← hm.elemLookup key.toList with
    | none => return (.value none, hm)
    | some ptr => return (.value (some (← readRange hm.data_buffer ptr hm.value_size)), hm)

end BpftimeHashMap

end Bpftime
