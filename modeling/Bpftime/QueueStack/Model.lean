import Bpftime.Basic
import Bpftime.Lib.Bytes

/-!
# Queue and stack maps

`queue_map_impl` of `runtime/src/bpf_map/userspace/queue.cpp` keeps its values in a circular buffer
with a head, a tail and a count.
-/

namespace Bpftime.QueueStack

open Bytes (readRange writeRange)

inductive Op (value_size : ℕ) where
  | mapPushElem (value : Option (MapValue value_size)) (flags : ℕ)
  | mapPopElem (hasValue : Bool)
  | mapPeekElem (hasValue : Bool)
  | elemLookup
  | elemUpdate (value : Option (MapValue value_size)) (flags : ℕ)
  | elemDelete
deriving DecidableEq

/-- How an operation ends: with 0, with 0 or a pointer and a value, or with -1 or a null pointer and
an error number. -/
inductive Reply where
  | ok
  | value (bs : List UInt8)
  | failed (e : Errno)
deriving DecidableEq

/-- `queue_map_impl` -/
structure QueueMap (value_size : ℕ) where
  max_entries : ℕ
  data : List UInt8
  head : ℕ
  tail : ℕ
  count : ℕ

namespace QueueMap

variable {value_size : ℕ}

/-- The constructor, which throws for a size that is zero. -/
def create (value_size max_entries : ℕ) : Option (QueueMap value_size) :=
  if value_size = 0 ∨ max_entries = 0 then none
  else some
    { max_entries
      data := List.replicate (max_entries * value_size % 2^32) 0
      head := 0
      tail := 0
      count := 0 }

variable (q : QueueMap value_size)

/-- `is_full` -/
def isFull : Prop := q.max_entries ≤ q.count

instance : Decidable q.isFull := inferInstanceAs (Decidable (_ ≤ _))

/-- `is_empty` -/
def isEmpty : Prop := q.count = 0

instance : Decidable q.isEmpty := inferInstanceAs (Decidable (_ = _))

/-- `next_index` -/
def nextIndex (index : ℕ) : ℕ := (index + 1) % 2^32 % q.max_entries

def offset (_ : QueueMap value_size) (index : ℕ) : ℕ := index * value_size % 2^32

def dropHead : QueueMap value_size := { q with head := q.nextIndex q.head, count := q.count - 1 }

def writeTail (value : MapValue value_size) : Option (QueueMap value_size) :=
  (writeRange q.data (q.offset q.tail) value.1).map fun data =>
    { q with data, tail := q.nextIndex q.tail, count := q.count + 1 }

/-- What `elem_update` and `map_push_elem` do with a value that is not null. -/
def push (value : MapValue value_size) (flags : ℕ) : Option (Reply × QueueMap value_size) :=
  if q.isFull then
    if flags = bpfExist then (q.dropHead.writeTail value).map fun q => (.ok, q)
    else some (.failed .E2BIG, q)
  else (q.writeTail value).map fun q => (.ok, q)

def readHead : Option (List UInt8) := readRange q.data (q.offset q.head) value_size

/-- `elem_lookup` -/
def elemLookup : Option (Reply × QueueMap value_size) :=
  if q.isEmpty then some (.failed .ENOENT, q) else q.readHead.map fun bs => (.value bs, q)

/-- `elem_update` -/
def elemUpdate (value : Option (MapValue value_size)) (flags : ℕ) : Option (Reply × QueueMap value_size) :=
  match value with
  | none => some (.failed .EINVAL, q)
  | some value => q.push value flags

/-- `elem_delete` -/
def elemDelete : Option (Reply × QueueMap value_size) :=
  if q.isEmpty then some (.failed .ENOENT, q) else some (.ok, q.dropHead)

/-- `map_push_elem` -/
def mapPushElem (value : Option (MapValue value_size)) (flags : ℕ) : Option (Reply × QueueMap value_size) :=
  match value with
  | none => some (.failed .EINVAL, q)
  | some value =>
    if flags ≠ 0 ∧ flags ≠ bpfAny ∧ flags ≠ bpfExist then some (.failed .EINVAL, q)
    else q.push value flags

/-- `map_pop_elem` -/
def mapPopElem (hasValue : Bool) : Option (Reply × QueueMap value_size) :=
  if !hasValue then some (.failed .EINVAL, q)
  else if q.isEmpty then some (.failed .ENOENT, q)
  else q.readHead.map fun bs => (.value bs, q.dropHead)

/-- `map_peek_elem` -/
def mapPeekElem (hasValue : Bool) : Option (Reply × QueueMap value_size) :=
  if !hasValue then some (.failed .EINVAL, q)
  else if q.isEmpty then some (.failed .ENOENT, q)
  else q.readHead.map fun bs => (.value bs, q)

def step : Op value_size → Option (Reply × QueueMap value_size)
  | .mapPushElem value flags => q.mapPushElem value flags
  | .mapPopElem hasValue => q.mapPopElem hasValue
  | .mapPeekElem hasValue => q.mapPeekElem hasValue
  | .elemLookup => q.elemLookup
  | .elemUpdate value flags => q.elemUpdate value flags
  | .elemDelete => q.elemDelete

end QueueMap

/-- `stack_map_impl` -/
structure StackMap (value_size : ℕ) where
  max_entries : ℕ
  data : List UInt8

namespace StackMap

variable {value_size : ℕ}

/-- The constructor, which throws for a size that is zero. -/
def create (value_size max_entries : ℕ) : Option (StackMap value_size) :=
  if value_size = 0 ∨ max_entries = 0 then none else some { max_entries, data := [] }

variable (s : StackMap value_size)

/-- `get_current_size` -/
def getCurrentSize : ℕ := s.data.length / value_size

/-- `is_full` -/
def isFull : Prop := s.max_entries ≤ s.getCurrentSize

instance : Decidable s.isFull := inferInstanceAs (Decidable (_ ≤ _))

/-- `is_empty` -/
def isEmpty : Prop := s.data = []

instance : Decidable s.isEmpty := inferInstanceAs (Decidable (_ = _))

def eraseBottom : Option (StackMap value_size) :=
  if value_size ≤ s.data.length then some { s with data := s.data.drop value_size } else none

def eraseTop : Option (StackMap value_size) :=
  if value_size ≤ s.data.length then
    some { s with data := s.data.take (s.data.length - value_size) }
  else none

def insertTop (value : MapValue value_size) : StackMap value_size := { s with data := s.data ++ value.1 }

/-- What `elem_update` and `map_push_elem` do with a value that is not null. -/
def push (value : MapValue value_size) (flags : ℕ) : Option (Reply × StackMap value_size) :=
  if s.isFull then
    if flags = bpfExist then s.eraseBottom.map fun s => (.ok, s.insertTop value)
    else some (.failed .E2BIG, s)
  else some (.ok, s.insertTop value)

def readTop : Option (List UInt8) := readRange s.data ((s.getCurrentSize - 1) * value_size) value_size

/-- `elem_lookup` -/
def elemLookup : Option (Reply × StackMap value_size) :=
  if s.isEmpty then some (.failed .ENOENT, s) else s.readTop.map fun bs => (.value bs, s)

/-- `elem_update` -/
def elemUpdate (value : Option (MapValue value_size)) (flags : ℕ) : Option (Reply × StackMap value_size) :=
  match value with
  | none => some (.failed .EINVAL, s)
  | some value => s.push value flags

/-- `elem_delete` -/
def elemDelete : Option (Reply × StackMap value_size) :=
  if s.isEmpty then some (.failed .ENOENT, s) else s.eraseTop.map fun s => (.ok, s)

/-- `map_push_elem` -/
def mapPushElem (value : Option (MapValue value_size)) (flags : ℕ) : Option (Reply × StackMap value_size) :=
  match value with
  | none => some (.failed .EINVAL, s)
  | some value =>
    if flags ≠ 0 ∧ flags ≠ bpfAny ∧ flags ≠ bpfExist then some (.failed .EINVAL, s)
    else s.push value flags

/-- `map_pop_elem` -/
def mapPopElem (hasValue : Bool) : Option (Reply × StackMap value_size) :=
  if !hasValue then some (.failed .EINVAL, s)
  else if s.isEmpty then some (.failed .ENOENT, s)
  else s.readTop.bind fun bs => s.eraseTop.map fun s => (.value bs, s)

/-- `map_peek_elem` -/
def mapPeekElem (hasValue : Bool) : Option (Reply × StackMap value_size) :=
  if !hasValue then some (.failed .EINVAL, s)
  else if s.isEmpty then some (.failed .ENOENT, s)
  else s.readTop.map fun bs => (.value bs, s)

def step : Op value_size → Option (Reply × StackMap value_size)
  | .mapPushElem value flags => s.mapPushElem value flags
  | .mapPopElem hasValue => s.mapPopElem hasValue
  | .mapPeekElem hasValue => s.mapPeekElem hasValue
  | .elemLookup => s.elemLookup
  | .elemUpdate value flags => s.elemUpdate value flags
  | .elemDelete => s.elemDelete

end StackMap

end Bpftime.QueueStack
