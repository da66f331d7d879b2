import Bpftime.Basic
import Bpftime.Lib.Links
import Mathlib.Data.List.AList

/-!
# The LRU hash map

`lru_var_hash_map_impl` of `runtime/src/bpf_map/userspace/lru_var_hash_map.cpp`: a hash table whose
keys also stand in a doubly linked list, the most recently used key first.
-/

namespace Bpftime

open Links Function

/-- A `lru_linklist_entry`. -/
structure LruLinklistEntry where
  key : List UInt8
  next_entry : Option ℕ
  /-- A weak pointer: its entry may be gone. -/
  previous_entry : Option ℕ
deriving DecidableEq

/-- A `hash_map_value`. -/
structure HashMapValue where
  value : List UInt8
  linked_list_entry : ℕ
deriving DecidableEq

/-- An `lru_var_hash_map_impl`. -/
structure LruVarHashMap where
  max_entries : ℕ
  map_impl : AList fun _ : List UInt8 => HashMapValue
  lru_link_list_head : Option ℕ
  lru_link_list_tail : Option ℕ
  /-- The entries in shared memory. -/
  entries : ℕ → Option LruLinklistEntry
  /-- The number of entries that were ever constructed. -/
  constructed : ℕ

/-- An allocation of `elem_update` that throws. -/
inductive LruFault where
  /-- One of `insert_new_entry`, before the list changes. -/
  | entry
  /-- One of those for the element of the table, behind `insert_new_entry`. -/
  | element
deriving DecidableEq

namespace LruVarHashMap

/-- The constructor. -/
def create (max_entries : ℕ) : LruVarHashMap :=
  { max_entries
    map_impl := ∅
    lru_link_list_head := none
    lru_link_list_tail := none
    entries := fun _ => none
    constructed := 0 }

variable (m : LruVarHashMap)

/-- `next_entry` of an entry. -/
def nextOf (p : ℕ) : Option ℕ := (m.entries p).bind LruLinklistEntry.next_entry

/-- `previous_entry` of an entry. -/
def prevOf (p : ℕ) : Option ℕ := (m.entries p).bind LruLinklistEntry.previous_entry

def keyOf (p : ℕ) : Option (List UInt8) := (m.entries p).map LruLinklistEntry.key

/-- `lock` of a weak pointer: null when the entry is gone. -/
def lock (p : Option ℕ) : Option ℕ := p.filter fun q => (m.entries q).isSome

/-- An assignment to `next_entry` of what `p` points at. -/
def setNext (p v : Option ℕ) : Option LruVarHashMap := do
  let q ← p
  let e ← m.entries q
  return { m with entries := update m.entries q (some { e with next_entry := v }) }

/-- An assignment to `previous_entry` of what `p` points at. -/
def setPrev (p v : Option ℕ) : Option LruVarHashMap := do
  let q ← p
  let e ← m.entries q
  return { m with entries := update m.entries q (some { e with previous_entry := v }) }

def Owned (p : ℕ) : Prop :=
  m.lru_link_list_head = some p ∨ m.lru_link_list_tail = some p ∨
    (∃ kv ∈ m.map_impl.entries, kv.2.linked_list_entry = p) ∨
    ∃ q < m.constructed, m.nextOf q = some p

instance (p : ℕ) : Decidable (m.Owned p) := inferInstanceAs (Decidable (_ ∨ _ ∨ _ ∨ _))

/-- The end of a pointer that owned `p`: an entry that nobody else owns is destroyed, and with it
the next pointer that it holds. -/
def releaseFrom : ℕ → Option ℕ → LruVarHashMap → LruVarHashMap
  | 0, _, m => m
  | _, none, m => m
  | fuel + 1, some p, m =>
    if m.Owned p then m
    else releaseFrom fuel (m.nextOf p) { m with entries := update m.entries p none }

/-- The end of a pointer that owned `p`. -/
def release (p : ℕ) : LruVarHashMap := releaseFrom (m.constructed + 1) (some p) m

/-- The part of `move_to_head` that takes an entry between `prev` and `next` out of the list. -/
def unhook (prev next : Option ℕ) : Option LruVarHashMap := do
  let m ← m.setNext prev next
  -- The entry is not the tail, or it is.
  if next.isSome then m.setPrev next prev
  else some { m with lru_link_list_tail := prev }

/-- The part of `move_to_head` that puts an entry in front of the list. -/
def hook (entry : ℕ) : Option LruVarHashMap := do
  let m ← m.setNext (some entry) m.lru_link_list_head
  let m ← m.setPrev (some entry) none
  let m ← m.setPrev m.lru_link_list_head (some entry)
  return { m with lru_link_list_head := some entry }

/-- `move_to_head`. -/
def moveToHead (entry : ℕ) : Option LruVarHashMap :=
  -- Case 1: the entry is the head.
  if m.lru_link_list_head = some entry then some m
  else do
    -- Case 2: the entry is not the head.
    let e ← m.entries entry
    let m ← m.unhook (m.lock e.previous_entry) e.next_entry
    m.hook entry

/-- `construct<lru_linklist_entry>`: a new entry that no pointer leads to yet. -/
def construct (key : List UInt8) : LruVarHashMap :=
  { m with
    entries := update m.entries m.constructed (some ⟨key, none, none⟩)
    constructed := m.constructed + 1 }

/-- `insert_new_entry`, where no allocation throws: the new entry and the map. -/
def insertNewEntry (key : List UInt8) : Option (ℕ × LruVarHashMap) :=
  let entry := m.constructed
  let m := m.construct key
  -- Case 1: the list is empty.
  if m.lru_link_list_head.isNone then
    some (entry, { m with lru_link_list_head := some entry, lru_link_list_tail := some entry })
  else do
    let m ← m.setNext (some entry) m.lru_link_list_head
    let m ← m.setPrev m.lru_link_list_head (some entry)
    return (entry, { m with lru_link_list_head := some entry })

/-- `evict_entry`. -/
def evictEntry (entry : ℕ) : Option LruVarHashMap := do
  let e ← m.entries entry
  -- Case 1: the entry is the tail.
  if m.lru_link_list_tail = some entry then
    -- Case 1.1: the entry is the only element.
    if m.lru_link_list_head = some entry then
      return { m with lru_link_list_head := none, lru_link_list_tail := none }
    -- Case 1.2: the entry is not the only element.
    let prev := m.lock e.previous_entry
    let m ← m.setNext prev none
    return { m with lru_link_list_tail := prev }
  -- Case 2.1: the entry is the head.
  if m.lru_link_list_head = some entry then
    let m ← m.setPrev e.next_entry none
    return { m with lru_link_list_head := e.next_entry }
  -- Case 2.2: the entry is in the middle of the list.
  let prev := m.lock e.previous_entry
  let next := e.next_entry
  let m ← m.setNext prev next
  m.setPrev next prev

/-- `is_good_update_flag`. -/
def isGoodUpdateFlag (flags : ℕ) : Bool := flags = bpfAny ∨ flags = bpfExist ∨ flags = bpfNoExist

/-- `elem_lookup`: the bytes of the value, or the error number. -/
def elemLookup (key : List UInt8) : Option (Except Errno (List UInt8) × LruVarHashMap) :=
  match m.map_impl.lookup key with
  | some itr => do
    let m ← m.moveToHead itr.linked_list_entry
    return (.ok itr.value, m)
  | none => some (.error .ENOENT, m)

/-- The part of `elem_update` that evicts the least recently used entry. -/
def evictTail : Option LruVarHashMap := do
  let tail ← m.lru_link_list_tail
  let e ← m.entries tail
  let m ← evictEntry { m with map_impl := m.map_impl.erase e.key } tail
  return m.release tail

/-- The part of `elem_update` that inserts a new element. -/
def insertElem (key value : List UInt8) (fault : Option LruFault) : Option (Outcome × LruVarHashMap) := do
  if fault = some .entry then
    return (.threw, m)
  let (entry_ptr, m) ← m.insertNewEntry key
  if fault = some .element then
    return (.threw, m)
  return (.ok, { m with map_impl := m.map_impl.insert key ⟨value, entry_ptr⟩ })

/-- `elem_update`. -/
def elemUpdate (key value : List UInt8) (flags : ℕ) (fault : Option LruFault) :
    Option (Outcome × LruVarHashMap) :=
  if ¬ isGoodUpdateFlag flags then some (.error .EINVAL, m)
  else
    match m.map_impl.lookup key with
    | some itr =>
      if flags = bpfNoExist then some (.error .EEXIST, m)
      else do
        let m : LruVarHashMap := { m with map_impl := m.map_impl.insert key { itr with value } }
        let m ← m.moveToHead itr.linked_list_entry
        return (.ok, m)
    | none =>
      if flags = bpfExist then some (.error .ENOENT, m)
      else do
        let m ← if m.map_impl.entries.length = m.max_entries then m.evictTail else some m
        m.insertElem key value fault

/-- `elem_delete`. -/
def elemDelete (key : List UInt8) : Option (Outcome × LruVarHashMap) :=
  match m.map_impl.lookup key with
  | none => some (.error .ENOENT, m)
  | some itr => do
    let m ← m.evictEntry itr.linked_list_entry
    let m := { m with map_impl := m.map_impl.erase key }
    return (.ok, m.release itr.linked_list_entry)

/-- A call on a map of keys of `ks` and values of `vs` bytes. -/
inductive Op (ks vs : ℕ) where
  | lookup (key : List.Vector UInt8 ks)
  | update (key : List.Vector UInt8 ks) (value : List.Vector UInt8 vs) (flags : UInt64)
    (fault : Option LruFault)
  | delete (key : List.Vector UInt8 ks)

inductive Reply where
  /-- The value that the returned pointer leads to, or the error number with a null pointer. -/
  | value (r : Except Errno (List UInt8))
  | outcome (o : Outcome)

def step {ks vs : ℕ} (m : LruVarHashMap) : Op ks vs → Option (Reply × LruVarHashMap)
  | .lookup key => (m.elemLookup key.toList).map fun p => (.value p.1, p.2)
  | .update key value flags fault =>
    (m.elemUpdate key.toList value.toList flags.toNat fault).map fun p => (.outcome p.1, p.2)
  | .delete key => (m.elemDelete key.toList).map fun p => (.outcome p.1, p.2)

/-- The keys that the next pointers lead through from the head, unless an entry is missing or they
lead on for ever. -/
def keysFromHead : Option (List (List UInt8)) :=
  (follow m.nextOf m.constructed m.lru_link_list_head).bind fun ps => ps.mapM m.keyOf

/-- The keys that the previous pointers lead through from the tail, unless an entry is missing or
they lead on for ever. -/
def keysFromTail : Option (List (List UInt8)) :=
  (follow (fun p => m.lock (m.prevOf p)) m.constructed m.lru_link_list_tail).bind fun ps => ps.mapM m.keyOf

end LruVarHashMap

end Bpftime
