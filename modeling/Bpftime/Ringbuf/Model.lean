import Bpftime.Basic
import Bpftime.Lib.Bytes
import Bpftime.Lib.Runs

/-!
# The ring buffer

`ringbuf` of `runtime/src/bpf_map/userspace/ringbuf_map.cpp`.
-/

namespace Bpftime

open Bytes

/-- `BPF_RINGBUF_BUSY_BIT`: the record is reserved and not yet submitted. -/
def bpfRingbufBusyBit : ℕ := 2147483648

/-- `BPF_RINGBUF_DISCARD_BIT`: the record was submitted to be dropped. -/
def bpfRingbufDiscardBit : ℕ := 1073741824

/-- `BPF_RINGBUF_HDR_SZ`: the length of a record's header. -/
def bpfRingbufHdrSz : ℕ := 8

/-- The distance from a record's header to the next one, from the word in the header. -/
def roundupLen (len : ℕ) : ℕ :=
  let len := len <<< 2 % 2^32
  let len := len >>> 2
  let len := (len + bpfRingbufHdrSz) % 2^32
  (len + 7) % 2^32 / 8 * 8

/-- A `ringbuf`. -/
structure Ringbuf where
  max_ent : ℕ
  consumer_pos : ℕ
  producer_pos : ℕ
  /-- The part of `raw_buffer` behind the two pages of positions. -/
  data : List UInt8
deriving DecidableEq

namespace Ringbuf

/-- `mask()`, a `uint32_t`. -/
def mask (rb : Ringbuf) : ℕ := (rb.max_ent + (2^32 - 1)) % 2^32

/-- The constructor. -/
def create (page_size max_ent : ℕ) : Ringbuf where
  max_ent := max_ent
  consumer_pos := 0
  producer_pos := 0
  data := List.replicate ((page_size * 2 + max_ent * 2) % 2^32 - page_size * 2) 0

/-- The rounded length of a record, as `reserve` computes it. -/
def totalSize (size : ℕ) : ℕ := (size + bpfRingbufHdrSz + 7) % 2^64 / 8 * 8

/-- `reserve`: the offset of the record's payload, or the error that it sets. -/
def reserve (rb : Ringbuf) (size : ℕ) (self_fd : ℤ) : Option (Except Errno ℕ × Ringbuf) :=
  if size &&& (bpfRingbufBusyBit ||| bpfRingbufDiscardBit) ≠ 0 then
    some (.error .E2BIG, rb)
  else
    let cons_pos := rb.consumer_pos
    let prod_pos := rb.producer_pos
    let avail_size := sub64 rb.max_ent (sub64 prod_pos cons_pos)
    let total_size := totalSize size
    if total_size > rb.max_ent then
      some (.error .E2BIG, rb)
    else if avail_size < total_size then
      some (.error .ENOSPC, rb)
    else
      let header := prod_pos &&& rb.mask
      (writeRange rb.data header (toLe 4 (size ||| bpfRingbufBusyBit))).bind fun data =>
        (writeRange data (header + 4) (toLe 4 (self_fd % 2^32).toNat)).map fun data =>
          (.ok (add64 prod_pos bpfRingbufHdrSz &&& rb.mask),
            { rb with data := data, producer_pos := add64 prod_pos total_size })

def readLen (rb : Ringbuf) (off : ℕ) : Option ℕ := (readRange rb.data off 4).map ofLe

/-- `submit`: clears the busy bit of the header in front of `sample`, and sets the discard bit when
the record is to be dropped. -/
def submit (rb : Ringbuf) (sample : ℕ) (discard : Bool) : Option Ringbuf :=
  let hdr_offset := sub64 (rb.mask + 1 + sample) bpfRingbufHdrSz
  let hdr := hdr_offset &&& rb.mask
  (rb.readLen hdr).bind fun len =>
    let new_len := len &&& (2^32 - 1 - bpfRingbufBusyBit)
    let new_len := if discard then new_len ||| bpfRingbufDiscardBit else new_len
    (writeRange rb.data hdr (toLe 4 new_len)).map fun data => { rb with data := data }

/-- A callback: its return value, given the samples it was handed before in the same call of
`fetch_data`, and the new one. -/
abbrev Callback := List (List UInt8) → List UInt8 → ℤ

/-- The variables of `fetch_data`, and the samples handed to the callback so far. -/
structure Fetch where
  rb : Ringbuf
  cons_pos : ℕ
  cnt : ℕ
  got_new_data : Bool
  samples : List (List UInt8)
deriving DecidableEq

/-- How the inner loop of `fetch_data` ends. -/
inductive Exit where
  /-- The consumer has reached the producer. -/
  | drained
  /-- The next record is still busy. -/
  | busy
  /-- The callback returned a negative value. -/
  | stopped (err : ℤ)
deriving DecidableEq

/-- The inner loop of `fetch_data`, for at most the given number of rounds. -/
def drain (cb : Callback) (prod_pos : ℕ) : ℕ → Fetch → Option (Fetch × Exit)
  | 0, _ => none
  | fuel + 1, f =>
    if f.cons_pos < prod_pos then
      let len_ptr := f.cons_pos &&& f.rb.mask
      (f.rb.readLen len_ptr).bind fun len =>
        if len &&& bpfRingbufBusyBit ≠ 0 then
          some (f, .busy)
        else
          let cons_pos := add64 f.cons_pos (roundupLen len)
          let rb := { f.rb with consumer_pos := cons_pos }
          if len &&& bpfRingbufDiscardBit = 0 then
            (readRange f.rb.data (len_ptr + bpfRingbufHdrSz) len).bind fun sample =>
              let err := cb f.samples sample
              let samples := f.samples ++ [sample]
              if err < 0 then
                some ({ f with rb, cons_pos, samples, got_new_data := true }, .stopped err)
              else
                drain cb prod_pos fuel
                  { rb, cons_pos, samples, got_new_data := true, cnt := f.cnt + 1 }
          else
            drain cb prod_pos fuel { f with rb, cons_pos, got_new_data := true }
    else
      some (f, .drained)

/-- The outer loop of `fetch_data`, for at most the given number of rounds. -/
def fetchLoop (cb : Callback) (rounds : ℕ) : ℕ → Fetch → Option (Fetch × ℤ)
  | 0, _ => none
  | fuel + 1, f =>
    (drain cb f.rb.producer_pos rounds { f with got_new_data := false }).bind fun
      | (f, .busy) => some (f, f.cnt)
      | (f, .stopped err) => some (f, err)
      | (f, .drained) => if f.got_new_data then fetchLoop cb rounds fuel f else some (f, f.cnt)

/-- `fetch_data`. -/
def fetchData (rb : Ringbuf) (cb : Callback) : Option (Fetch × ℤ) :=
  let rounds := rb.producer_pos + 2
  fetchLoop cb rounds rounds
    { rb, cons_pos := rb.consumer_pos, cnt := 0, got_new_data := false, samples := [] }

end Ringbuf

inductive Status where
  | busy
  | submitted (discard : Bool)
deriving DecidableEq

structure Reservation where
  /-- The size passed to `reserve`. -/
  size : ℕ
  /-- The pointer that `reserve` returned. -/
  ptr : ℕ
  /-- The byte last written at each index through that pointer. -/
  written : ℕ → Option UInt8
  status : Status

/-- The ring with every reservation made so far, in order, and every sample delivered so far. -/
structure Sys where
  rb : Ringbuf
  reservations : List Reservation
  delivered : List (List UInt8)

inductive Op where
  | reserve (size : UInt64) (self_fd : ℤ)
  /-- Reservation `i` writes the byte `b` at index `j` of its payload. -/
  | write (i j : ℕ) (b : UInt8)
  | submit (i : ℕ) (discard : Bool)
  | fetch (cb : Ringbuf.Callback)

namespace Sys

def init (page_size max_ent : ℕ) : Sys := ⟨Ringbuf.create page_size max_ent, [], []⟩

def write (s : Sys) (i j : ℕ) (b : UInt8) (r : Reservation) : Option Sys :=
  (writeRange s.rb.data (r.ptr + j) [b]).map fun data =>
    { s with
      rb := { s.rb with data := data }
      reservations := s.reservations.set i { r with written := Function.update r.written j b } }

def step (s : Sys) : Op → Option (Unit × Sys)
  | .reserve size self_fd =>
    (s.rb.reserve size.toNat self_fd).map fun
      | (.error _, rb) => ((), { s with rb := rb })
      | (.ok ptr, rb) =>
        ((), { s with
          rb := rb
          reservations := s.reservations ++ [⟨size.toNat, ptr, fun _ => none, .busy⟩] })
  | .write i j b =>
    match s.reservations[i]? with
    | none => some ((), s)
    | some r =>
      if r.status = .busy ∧ j < r.size then (s.write i j b r).map fun s => ((), s)
      else some ((), s)
  | .submit i discard =>
    match s.reservations[i]? with
    | none => some ((), s)
    | some r =>
      if r.status = .busy then
        (s.rb.submit r.ptr discard).map fun rb =>
          ((), { s with
            rb := rb
            reservations := s.reservations.set i { r with status := .submitted discard } })
      else some ((), s)
  | .fetch cb =>
    (s.rb.fetchData cb).map fun p => ((), { s with rb := p.1.rb, delivered := s.delivered ++ p.1.samples })

end Sys

end Bpftime
