import Bpftime.Basic
import Bpftime.Lib.Bytes
import Bpftime.Lib.Runs

/-!
# Stack trace maps

`stack_trace_map_impl` of `runtime/src/bpf_map/userspace/stack_trace_map.cpp` keeps a trace for each
of its buckets.
-/

namespace Bpftime.StackTrace

open Bytes Function

abbrev Trace := List UInt64

/-- `stack_trace_map_impl`, with the `value_size` of its handler. -/
structure StackTraceMap where
  value_size : ℕ
  max_entries : ℕ
  /-- The traces by their `uint32_t` keys. -/
  data : BitVec 32 → Option Trace

/-- The constructor, which throws for a key that is not of four bytes and for values that are not of
whole frames. -/
def StackTraceMap.create (key_size value_size max_entries : UInt32) : Option StackTraceMap :=
  if key_size ≠ 4 then none
  else if value_size % 8 ≠ 0 then none
  else some ⟨value_size.toNat, max_entries.toNat, fun _ => none⟩

namespace StackTraceMap

-- `hash_stack_trace`
variable (hashStackTrace : Trace → UInt64) (m : StackTraceMap)

/-- `elem_lookup`: the vector whose data is returned. -/
def elemLookup (key : Option (BitVec 32)) : Except Errno Trace :=
  match key with
  | none => .error .EINVAL
  | some index =>
    match m.data index with
    | none => .error .ENOENT
    | some stk => .ok stk

/-- `elem_delete`. -/
def elemDelete (key : Option (BitVec 32)) : Outcome × StackTraceMap :=
  match key with
  | none => (.error .EINVAL, m)
  | some index =>
    match m.data index with
    | none => (.error .ENOENT, m)
    | some _ => (.ok, { m with data := update m.data index none })

/-- `std::equal` of a trace and the start of another one. -/
def equalRange (stk old : Trace) : Bool := stk.isPrefixOf old

def bucket (stk : Trace) : BitVec 32 := BitVec.ofNat 32 ((hashStackTrace stk).toNat % m.max_entries)

def equals (stk old : Trace) (compare_only_by_hash : Bool) : Bool :=
  if !compare_only_by_hash then
    let equals := old.length == stk.length
    if !equals then equals && equalRange stk old else equals
  else true

/-- `fill_stack_trace`. -/
def fillStackTrace (stk : Trace) (discard_old_one compare_only_by_hash : Bool) :
    Option (BitVec 32 × StackTraceMap) :=
  if m.max_entries = 0 then none
  else
    let to_put_hash := m.bucket hashStackTrace stk
    match m.data to_put_hash with
    | none => some (to_put_hash, { m with data := update m.data to_put_hash (some stk) })
    | some old =>
      if equals stk old compare_only_by_hash then some (to_put_hash, m)
      else if discard_old_one then
        some (to_put_hash, { m with data := update m.data to_put_hash (some stk) })
      else some (to_put_hash, m)

/-- `BPF_F_SKIP_FIELD_MASK` -/
def bpfFSkipFieldMask : UInt64 := 0xff

/-- `BPF_F_USER_STACK` -/
def bpfFUserStack : UInt64 := 0x100

/-- `BPF_F_FAST_STACK_CMP` -/
def bpfFFastStackCmp : UInt64 := 0x200

/-- `BPF_F_REUSE_STACKID` -/
def bpfFReuseStackid : UInt64 := 0x400

/-- The result of `generate_stack`: the attach implementation may not be there, and may fail. -/
inductive Generated where
  | unregistered
  | failed
  | stack (frames : Trace)

def skipFrames (flags : UInt64) (result : Trace) : Trace := result.drop (flags &&& bpfFSkipFieldMask).toNat

/-- `bpftime_get_stackid`. -/
def getStackid (flags : UInt64) (generated : Generated) : Option (ℤ × StackTraceMap) :=
  if flags &&& bpfFUserStack = 0 then some (-Errno.ENOTSUP.code, m)
  else
    match generated with
    | .unregistered => some (-Errno.ENOTSUP.code, m)
    | .failed => some (-Errno.ENOENT.code, m)
    | .stack result =>
      (m.fillStackTrace hashStackTrace (skipFrames flags result) (flags &&& bpfFReuseStackid ≠ 0)
        (flags &&& bpfFFastStackCmp ≠ 0)).map fun p => (p.1.toNat, p.2)

/-- The system call for lookups, which copies `value_size` bytes. -/
def sysLookup (key : BitVec 32) : Option (Except Errno (List UInt8)) :=
  match m.elemLookup (some key) with
  | .error _ => some (.error .ENOENT)
  | .ok stk => (readRange (stk.flatMap fun frame => toLe 8 frame.toNat) 0 m.value_size).map .ok

end StackTraceMap

end Bpftime.StackTrace
