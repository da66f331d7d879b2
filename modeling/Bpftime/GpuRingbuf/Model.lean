import Bpftime.Lib.SharedMemory
import Bpftime.Lib.Runs

/-!
# The ring buffers of the GPU

`nv_gpu_ringbuf_map_impl` gives each device thread a ring of its own in one buffer that the device
shares with the host.
-/

namespace Bpftime.GpuRingbuf

open SharedMemory Function
open Bytes (toLe ofLe)

structure Config where
  value_size : ℕ
  max_entries : ℕ

namespace Config

variable (c : Config)

def slotSize : ℕ := c.value_size + 8

/-- The size of a ring, with the 24 bytes of `ringbuf_header`. -/
def entrySize : ℕ := c.slotSize * c.max_entries + 24

def header (i : ℕ) : ℕ := i * c.entrySize

def slot (i real : ℕ) : ℕ := c.header i + 24 + real * c.slotSize

/-- `MapBasicInfo` has the sizes as `int`, which the device widens to 64 bits. -/
def device : Config where
  value_size := ((BitVec.ofNat 32 c.value_size).signExtend 64).toNat
  max_entries := ((BitVec.ofNat 32 c.max_entries).signExtend 64).toNat

end Config

/-- The number in `header->head`. -/
def loadHead (c : Config) (m : Memory) (i : ℕ) : ℕ := ofLe (load m (c.header i) 8)

/-- The number in `header->tail`. -/
def loadTail (c : Config) (m : Memory) (i : ℕ) : ℕ := ofLe (load m (c.header i + 8) 8)

/-- The number in `header->dirty`. -/
def loadDirty (c : Config) (m : Memory) (i : ℕ) : ℕ := ofLe (load m (c.header i + 16) 4)

/-- What `simple_memcpy` copies: its `sz` is an `int`. -/
def memcpyBytes (data : List UInt8) : List UInt8 := data.take (BitVec.ofNat 32 data.length).toInt.toNat

/-- Where a device thread is in `_bpf_helper_ext_0025`. -/
inductive DevPc
  | idle
  | loadTail (data : List UInt8)
  | loadHead (data : List UInt8) (tail : ℕ)
  | setDirty (data : List UInt8)
  | addTail (data : List UInt8)
  | storeSize (data : List UInt8) (buffer : ℕ)
  | copy (data : List UInt8) (a : ℕ) (left : List UInt8)

/-- A device thread: the records that it is still going to put, where it is, and the records of its
calls with what they returned. -/
structure Thread where
  todo : List (List UInt8)
  pc : DevPc
  results : List (List UInt8 × ℕ)

inductive Stage
  | checkDirty
  | loadHead
  | loadTail (head : ℕ)
  | loadRealHead
  | addHead (real_head : ℕ)
  | loadSize (buffer_start : ℕ)
  | callback (a left : ℕ) (bytes : List UInt8)
  deriving DecidableEq

/-- Where the host is in `drain_data`. -/
inductive HostPc (n : ℕ)
  | idle
  | ring (i : Fin n) (stage : Stage)
  deriving DecidableEq

def HostPc.loop {n : ℕ} (i : ℕ) : HostPc n := if h : i < n then .ring ⟨i, h⟩ .checkDirty else .idle

structure Sys (n : ℕ) where
  mem : Memory
  threads : Fin n → Thread
  host : HostPc n
  received : List (Fin n × List UInt8)

inductive Op (n : ℕ)
  | dev (i : Fin n)
  | host

namespace Sys

variable {n : ℕ}

def init (todo : Fin n → List (List UInt8)) : Sys n where
  mem _ := 0
  threads i := ⟨todo i, .idle, []⟩
  host := .idle
  received := []

def goto (s : Sys n) (i : Fin n) (pc : DevPc) : Sys n :=
  { s with threads := update s.threads i { s.threads i with pc } }

def ret (s : Sys n) (i : Fin n) (data : List UInt8) (code : ℕ) : Sys n :=
  { s with
    threads := update s.threads i
      ⟨(s.threads i).todo, .idle, (s.threads i).results ++ [(data, code)]⟩ }

def devStep (c : Config) (s : Sys n) (i : Fin n) : Sys n :=
  match (s.threads i).pc with
  | .idle =>
    match (s.threads i).todo with
    | [] => s
    | data :: todo => { s with threads := update s.threads i ⟨todo, .loadTail data, (s.threads i).results⟩ }
  | .loadTail data => s.goto i (.loadHead data (loadTail c s.mem i))
  | .loadHead data tail =>
    -- Buffer is full.
    if (tail + 2^64 - loadHead c s.mem i) % 2^64 = c.max_entries then s.ret i data 2
    else s.goto i (.setDirty data)
  | .setDirty data => { s with mem := store s.mem (c.header i + 16) (toLe 4 1) }.goto i (.addTail data)
  | .addTail data =>
    { s with mem := store s.mem (c.header i + 8) (toLe 8 (loadTail c s.mem i + 1)) }.goto i
      (.storeSize data (c.slot i (loadTail c s.mem i % c.max_entries)))
  | .storeSize data buffer =>
    { s with mem := store s.mem buffer (toLe 8 data.length) }.goto i
      (.copy data (buffer + 8) (memcpyBytes data))
  | .copy data a (b :: left) => { s with mem := store s.mem a [b] }.goto i (.copy data (a + 1) left)
  | .copy data _ [] => { s with mem := store s.mem (c.header i + 16) (toLe 4 0) }.ret i data 0

def hostStep (c : Config) (s : Sys n) : Sys n :=
  match s.host with
  | .idle => { s with host := .loop 0 }
  | .ring i .checkDirty =>
    -- Ignored dirty pages.
    if loadDirty c s.mem i ≠ 0 then { s with host := .idle }
    else { s with host := .ring i .loadHead }
  | .ring i .loadHead => { s with host := .ring i (.loadTail (loadHead c s.mem i)) }
  | .ring i (.loadTail head) =>
    if head ≠ loadTail c s.mem i then { s with host := .ring i .loadRealHead }
    else { s with host := .loop (i + 1) }
  | .ring i .loadRealHead => { s with host := .ring i (.addHead (loadHead c s.mem i % c.max_entries)) }
  | .ring i (.addHead real_head) =>
    { s with
      mem := store s.mem (c.header i) (toLe 8 (loadHead c s.mem i + 1))
      host := .ring i (.loadSize (c.slot i real_head)) }
  | .ring i (.loadSize buffer_start) =>
    { s with host := .ring i (.callback (buffer_start + 8) (ofLe (load s.mem buffer_start 8)) []) }
  | .ring i (.callback a (left + 1) bytes) =>
    { s with host := .ring i (.callback (a + 1) left (bytes ++ [s.mem a])) }
  | .ring i (.callback _ 0 bytes) => { s with received := s.received ++ [(i, bytes)], host := .loop (i + 1) }

def step (c : Config) (s : Sys n) : Op n → Option (Unit × Sys n)
  | .dev i => some ((), s.devStep c.device i)
  | .host => some ((), s.hostStep c)

end Sys

end Bpftime.GpuRingbuf
