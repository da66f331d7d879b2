import Bpftime.Basic
import Bpftime.Lib.Circular
import Bpftime.Lib.Runs

/-!
# The ring of a software perf event

`software_perf_event_data` of `runtime/src/handler/perf_event_handler.cpp`: a ring of bytes behind a
page with the two positions `data_head` and `data_tail`.
-/

namespace Bpftime

open Bytes Circular

/-- A `software_perf_event_data`. -/
structure SoftwarePerfEventData where
  pagesize : ℕ
  data_head : ℕ
  data_tail : ℕ
  data_size : ℕ
  /-- The part of `mmap_buffer` behind the header page. -/
  data : List UInt8
  copy_buffer : List UInt8
deriving DecidableEq

/-- A 64-bit word read as an `int64_t`. -/
def toInt64 (w : ℕ) : ℤ := if w < 2^63 then w else (w : ℤ) - 2^64

namespace SoftwarePerfEventData

/-- The constructor. -/
def create (pagesize : ℕ) : SoftwarePerfEventData :=
  { pagesize
    data_head := 0
    data_tail := 0
    data_size := 0
    data := []
    copy_buffer := List.replicate pagesize 0 }

variable (e : SoftwarePerfEventData)

/-- `mmap_size`. -/
def mmapSize : ℕ := e.data.length

/-- `popcnt`. -/
def popcnt (x : ℕ) : ℕ := ((List.range 64).filter fun i => x.testBit i).length

/-- `ensure_mmap_buffer`, where the vector can grow: whether it returns a pointer. -/
def ensureMmapBuffer (buffer_size : ℕ) : Bool × SoftwarePerfEventData :=
  if buffer_size > e.pagesize + e.data.length then
    let data_size := buffer_size - e.pagesize
    (popcnt data_size = 1, { e with data := resize e.data data_size, data_size })
  else (true, e)

/-- `sizeof(perf_sample_raw)`. -/
def sizeofHead : ℕ := 12

/-- `head.header.size` for a payload of `size` bytes, a `__u16`. -/
def headerSize (size : ℕ) : ℕ := (sizeofHead + size) % 2^16

/-- The bytes of `head` for a payload of `size` bytes: the header with its type
`PERF_RECORD_SAMPLE`, `misc` and `size`, and the `uint32_t` behind it. -/
def sampleHead (size : ℕ) : List UInt8 := toLe 4 9 ++ toLe 2 0 ++ toLe 2 (headerSize size) ++ toLe 4 size

/-- `available_size`. -/
def availableSize : ℤ :=
  let available_size := toInt64 (sub64 e.mmapSize (sub64 e.data_head e.data_tail))
  if available_size = 0 then toInt64 e.mmapSize else available_size

/-- The test of `output_data` by which it drops a payload of `size` bytes. -/
def drops (size : ℕ) : Bool := e.availableSize ≤ headerSize size

/-- The part of `output_data` that fills `copy_buffer`. -/
def fillCopyBuffer (buf : List UInt8) : Option SoftwarePerfEventData := do
  let copy_buffer := resize e.copy_buffer (headerSize buf.length)
  let copy_buffer ← writeRange copy_buffer 0 (sampleHead buf.length)
  let copy_buffer ← writeRange copy_buffer sizeofHead buf
  return { e with copy_buffer }

/-- The part of `output_data` that copies `copy_buffer` into the ring, around its end. -/
def copyIn (data_head : ℕ) : Option SoftwarePerfEventData :=
  (writeAround e.data (data_head &&& sub64 e.mmapSize 1) e.copy_buffer).map fun data => { e with data }

/-- The part of `output_data` that stores the new `data_head`. -/
def publish (data_head : ℕ) : SoftwarePerfEventData :=
  { e with data_head := add64 data_head e.copy_buffer.length }

/-- `output_data`. -/
def outputData (buf : List UInt8) : Option SoftwarePerfEventData :=
  if e.drops buf.length then some e
  else do
    let e' ← e.fillCopyBuffer buf
    let e' ← e'.copyIn e.data_head
    return e'.publish e.data_head

/-- The record at a position: the eight bytes of its header are read in one piece, then as many
bytes as the header says around the end of the ring. -/
def readRecord (data_tail : ℕ) : Option (List UInt8) := do
  let start := data_tail &&& sub64 e.mmapSize 1
  let header ← readRange e.data start 8
  readAround e.data start (ofLe (header.drop 6))

/-- The payload of a record: the bytes behind its `perf_sample_raw`, as many as this says. -/
def payload (record : List UInt8) : Option (List UInt8) := do
  let size ← readRange record 8 4
  readRange record sizeofHead (ofLe size)

end SoftwarePerfEventData

namespace PerfEvent

/-- Where the producer is in `output_data`. -/
inductive Producer where
  | idle
  /-- `copy_buffer` is filled. -/
  | copying (data_head : ℕ) (buf : List UInt8)
  /-- The record is in the ring. -/
  | publishing (data_head : ℕ) (buf : List UInt8)
deriving DecidableEq

structure Consumer where
  data_head : ℕ
  data_tail : ℕ
deriving DecidableEq

/-- The ring and its producer. -/
structure Produced where
  event : SoftwarePerfEventData
  producer : Producer
  /-- The bytes of the calls of `output_data` that were not dropped. -/
  kept : List (List UInt8)
deriving DecidableEq

namespace Produced

variable (s : Produced)

/-- `output_data` up to the bytes in `copy_buffer`. -/
def output (buf : List UInt8) : Option Produced :=
  match s.producer with
  | .idle =>
    if s.event.drops buf.length then some s
    else (s.event.fillCopyBuffer buf).map fun event =>
      { s with event, producer := .copying s.event.data_head buf }
  | _ => some s

def copy : Option Produced :=
  match s.producer with
  | .copying data_head buf => (s.event.copyIn data_head).map fun event =>
    { s with event, producer := .publishing data_head buf }
  | _ => some s

def publish : Produced :=
  match s.producer with
  | .publishing data_head buf =>
    { event := s.event.publish data_head, producer := .idle, kept := s.kept ++ [buf] }
  | _ => s

end Produced

structure Sys extends Produced where
  consumer : Consumer
  /-- The payloads that the consumer handed over. -/
  handed : List (List UInt8)
deriving DecidableEq

inductive Op where
  /-- The producer calls `output_data`, which loads the positions. -/
  | output (buf : List UInt8)
  | copy
  | publish
  /-- The consumer loads `data_head`. -/
  | load
  /-- The consumer reads one record and hands its payload over. -/
  | read
  /-- The consumer stores `data_tail`. -/
  | store

/-- The system around a new ring of `size` bytes. -/
def init (pagesize size : ℕ) : Sys where
  event := ((SoftwarePerfEventData.create pagesize).ensureMmapBuffer (pagesize + size)).2
  producer := .idle
  consumer := ⟨0, 0⟩
  kept := []
  handed := []

def step (s : Sys) : Op → Option (Unit × Sys)
  | .output buf => (s.output buf).map fun p => ((), { s with toProduced := p })
  | .copy => s.copy.map fun p => ((), { s with toProduced := p })
  | .publish => some ((), { s with toProduced := s.publish })
  | .load => some ((), { s with consumer := { s.consumer with data_head := s.event.data_head } })
  | .read =>
    if s.consumer.data_tail = s.consumer.data_head then some ((), s)
    else do
      let record ← s.event.readRecord s.consumer.data_tail
      let payload ← SoftwarePerfEventData.payload record
      return ((), { s with
        consumer := { s.consumer with data_tail := add64 s.consumer.data_tail record.length }
        handed := s.handed ++ [payload] })
  | .store => some ((), { s with event := { s.event with data_tail := s.consumer.data_tail } })

end PerfEvent

lemma two_pow_le {k : ℕ} (hk : k ≤ 63) : 2^k ≤ 2^63 := Nat.pow_le_pow_right (by norm_num) hk

end Bpftime
