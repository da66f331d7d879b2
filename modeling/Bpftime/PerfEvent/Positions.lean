import Bpftime.PerfEvent.Delivery

/-!
# The positions of the ring of a perf event

`Ring` is the ring between its producer and a consumer of which only its moves of `data_tail` count,
to any position up to `data_head`.
-/

namespace Bpftime.PerfEvent

open Bytes Circular SoftwarePerfEventData List
open Runs (run Along run_invariant along_of_forall_mem)

/-- The ring with the number of bytes that `data_tail` has moved. -/
structure Ring extends Produced where
  passed : ℕ
deriving DecidableEq

inductive RingOp where
  | output (buf : List UInt8)
  | copy
  | publish
  /-- The consumer moves `data_tail` by some bytes. -/
  | move (n : ℕ)

namespace Ring

/-- A new ring of `size` bytes. -/
def init (pagesize size : ℕ) : Ring where
  event := ((SoftwarePerfEventData.create pagesize).ensureMmapBuffer (pagesize + size)).2
  producer := .idle
  kept := []
  passed := 0

def step (s : Ring) : RingOp → Option (Unit × Ring)
  | .output buf => (s.output buf).map fun p => ((), { s with toProduced := p })
  | .copy => s.copy.map fun p => ((), { s with toProduced := p })
  | .publish => some ((), { s with toProduced := s.publish })
  | .move n =>
    if n ≤ sub64 s.event.data_head s.event.data_tail then
      some ((), { s with
        event := { s.event with data_tail := add64 s.event.data_tail n }
        passed := s.passed + n })
    else some ((), s)

def total (bufs : List (List UInt8)) : ℕ := (bufs.map fun buf => 12 + buf.length).sum

/-- The records from position `p` on that do not end before position `t`. -/
def unreadFrom (t : ℕ) : ℕ → List (List UInt8) → List (List UInt8)
  | _, [] => []
  | p, buf :: bufs => if p + (12 + buf.length) ≤ t then unreadFrom t (p + (12 + buf.length)) bufs else buf :: bufs

def unread (s : Ring) : List (List UInt8) := unreadFrom s.passed 0 s.kept

def used (s : Ring) : ℕ := sub64 s.event.data_head s.event.data_tail

/-- The bytes that are not read yet in a state are the same in an event. -/
def Keeps (s : Ring) (e : SoftwarePerfEventData) : Prop :=
  ∀ i < s.used, e.data[(s.event.data_tail + i) % s.event.mmapSize]? =
    s.event.data[(s.event.data_tail + i) % s.event.mmapSize]?

def Short (_ : Ring) : RingOp → Prop
  | .output buf => buf.length < 65524
  | _ => True

structure Positions (s : Ring) : Prop where
  lt : s.used < s.event.mmapSize
  eq_iff : s.event.data_head = s.event.data_tail ↔ s.unread = []
  /-- A step changes no byte that is not read yet. -/
  step_keeps : ∀ op, Short s op → ∃ s', s.step op = some ((), s') ∧ s.Keeps s'.event
  /-- A whole call of `output_data` changes no byte that is not read yet. -/
  output_keeps : s.producer = .idle → ∀ buf : List UInt8, buf.length < 65524 →
    ∃ e, s.event.outputData buf = some e ∧ s.Keeps e

/-! ## The invariant -/

lemma unreadFrom_eq_nil_iff {t p : ℕ} {bufs : List (List UInt8)} :
    unreadFrom t p bufs = [] ↔ bufs = [] ∨ p + total bufs ≤ t := by
  induction bufs generalizing p with
  | nil => simp [unreadFrom]
  | cons buf bufs ih =>
    have htotal : total (buf :: bufs) = 12 + buf.length + total bufs := rfl
    rw [unreadFrom, htotal]
    split_ifs with hle
    · rw [ih]
      constructor
      · rintro (rfl | hle')
        · exact Or.inr (by simpa [total] using hle)
        · exact Or.inr (by omega)
      · rintro (hcontra | hle')
        · cases hcontra
        · exact Or.inr (by omega)
    · refine iff_of_false (by simp) ?_
      rintro (hcontra | hle')
      · cases hcontra
      · omega

/-- Where the producer is: its record ends before the position one turn after the tail. -/
def Filled (k : ℕ) (s : Ring) : Producer → Prop
  | .idle => True
  | .copying data_head buf | .publishing data_head buf =>
    data_head = total s.kept % 2^64 ∧ total s.kept + (12 + buf.length) < s.passed + 2^k ∧
      s.event.copy_buffer = record buf

structure Inv (k : ℕ) (s : Ring) : Prop where
  length : s.event.data.length = 2^k
  head : s.event.data_head = total s.kept % 2^64
  tail : s.event.data_tail = s.passed % 2^64
  le : s.passed ≤ total s.kept
  lt : total s.kept < s.passed + 2^k
  producer : Filled k s s.producer

variable {k : ℕ} {s : Ring}

lemma Inv.used_eq (h : Inv k s) (hk : k ≤ 63) : s.used = total s.kept - s.passed := by
  have hpow := two_pow_le hk
  have hle := h.le
  have hlt := h.lt
  unfold used
  rw [h.head, h.tail]
  exact sub64_mod hle (by omega)

variable {e : SoftwarePerfEventData}

lemma Inv.keeps_iff (h : Inv k s) (hk : k ≤ 63) :
    s.Keeps e ↔ ∀ i, s.passed ≤ i → i < total s.kept → e.data[i % 2^k]? = s.event.data[i % 2^k]? := by
  have hdvd : (2 : ℕ)^k ∣ 2^64 := pow_dvd_pow 2 (by omega)
  have hindex : ∀ i, (s.event.data_tail + i) % s.event.mmapSize = (s.passed + i) % 2^k := by
    intro i
    rw [h.tail, mmapSize, h.length, Nat.add_mod, Nat.mod_mod_of_dvd _ hdvd, ← Nat.add_mod]
  unfold Keeps
  rw [h.used_eq hk]
  constructor
  · intro hkeeps i hle hlt
    have hi := hkeeps (i - s.passed) (by omega)
    rwa [hindex, Nat.add_sub_cancel' hle] at hi
  · intro hkeeps i hi
    rw [hindex]
    exact hkeeps _ (by omega) (by omega)

variable {buf : List UInt8}

lemma Inv.copyIn (h : Inv k s) (hk : k ≤ 63) (hdata : e.data = s.event.data)
    (hcopy : e.copy_buffer = record buf)
    (hend : total s.kept + (12 + buf.length) < s.passed + 2^k) :
    ∃ data, e.copyIn s.event.data_head = some { e with data := data } ∧ data.length = 2^k ∧
      s.Keeps { e with data := data } := by
  have hlen := h.length
  have hle := h.le
  have hrec := length_record buf
  have hpos : 0 < s.event.data.length := by rw [hlen]; exact Nat.two_pow_pos k
  have hfits : (record buf).length ≤ s.event.data.length := by omega
  obtain ⟨data, hwrite, hlen', -, hkeep⟩ := writeAround_spec (total s.kept) hpos hfits
  refine ⟨data, ?_, hlen'.trans hlen, (h.keeps_iff hk).mpr fun i hle' hlt' => ?_⟩
  · unfold SoftwarePerfEventData.copyIn mmapSize
    rw [hcopy, hdata, hlen, h.head, and_mask hk, ← hlen, hwrite]
    rfl
  · rw [← hlen]
    exact hkeep i hlt' (by omega)

lemma Keeps.of_data (hdata : e.data = s.event.data) : s.Keeps e := by
  intro i _
  rw [hdata]

lemma Inv.step (h : Inv k s) (hk : k ≤ 63) (op : RingOp) (hC : Short s op) :
    ∃ s', s.step op = some ((), s') ∧ Inv k s' ∧ s.Keeps s'.event := by
  have hsame : ∃ s', some ((), s) = some ((), s') ∧ Inv k s' ∧ s.Keeps s'.event :=
    ⟨s, rfl, h, Keeps.of_data rfl⟩
  have hprod := h.producer
  cases op with
  | output buf =>
    rw [Ring.step, Produced.output]
    cases hp : s.producer with
    | idle =>
      dsimp only
      split_ifs with hdrops
      · exact hsame
      · have hkeep : s.event.drops buf.length = false := by simpa using hdrops
        have hend := lt_of_not_drops hk h.length h.head h.tail h.le h.lt hC hkeep
        rw [fillCopyBuffer_eq _ hC]
        refine ⟨{ s with
          event := { s.event with copy_buffer := record buf }
          producer := .copying s.event.data_head buf }, rfl, ?_, Keeps.of_data rfl⟩
        exact ⟨h.length, h.head, h.tail, h.le, h.lt, h.head, hend, rfl⟩
    | copying _ _ | publishing _ _ => exact hsame
  | copy =>
    rw [Ring.step, Produced.copy]
    cases hp : s.producer with
    | idle | publishing _ _ => exact hsame
    | copying data_head buf =>
      rw [hp] at hprod
      obtain ⟨rfl, hend, hcopy⟩ := hprod
      obtain ⟨data, hcopyIn, hlen, hkeeps⟩ := h.copyIn hk rfl hcopy hend
      dsimp only
      rw [← h.head, hcopyIn]
      refine ⟨{ s with
        event := { s.event with data := data }
        producer := .publishing s.event.data_head buf }, rfl, ?_, hkeeps⟩
      exact ⟨hlen, h.head, h.tail, h.le, h.lt, h.head, hend, hcopy⟩
  | publish =>
    rw [Ring.step, Produced.publish]
    cases hp : s.producer with
    | idle | copying _ _ => exact hsame
    | publishing data_head buf =>
      rw [hp] at hprod
      obtain ⟨rfl, hend, hcopy⟩ := hprod
      have htotal : total (s.kept ++ [buf]) = total s.kept + (12 + buf.length) := by simp [total]
      refine ⟨_, rfl, ⟨h.length, ?_, h.tail, ?_, ?_, trivial⟩, Keeps.of_data rfl⟩
      · unfold SoftwarePerfEventData.publish
        dsimp only
        rw [hcopy, length_record, add64_mod, htotal]
      · exact le_trans h.le (by dsimp only; omega)
      · dsimp only
        omega
  | move n =>
    rw [Ring.step]
    split_ifs with hn
    · have hused : n ≤ total s.kept - s.passed := by
        rw [← h.used_eq hk]
        exact hn
      have hle := h.le
      have hlt := h.lt
      refine ⟨_, rfl, ⟨h.length, h.head, ?_, ?_, ?_, ?_⟩, Keeps.of_data rfl⟩
      · dsimp only
        rw [h.tail, add64_mod]
      · dsimp only
        omega
      · dsimp only
        omega
      · -- The record of the producer has all the more room.
        dsimp only
        cases hp : s.producer with
        | idle => trivial
        | copying _ _ | publishing _ _ =>
          rw [hp] at hprod
          exact ⟨hprod.1, by have := hprod.2.1; dsimp only; omega, hprod.2.2⟩
    · exact hsame

lemma Inv.outputData (h : Inv k s) (hk : k ≤ 63) (hbuf : buf.length < 65524) :
    ∃ e, s.event.outputData buf = some e ∧ s.Keeps e := by
  unfold SoftwarePerfEventData.outputData
  split_ifs with hdrops
  · exact ⟨s.event, rfl, Keeps.of_data rfl⟩
  · have hkeep : s.event.drops buf.length = false := by simpa using hdrops
    have hend := lt_of_not_drops hk h.length h.head h.tail h.le h.lt hbuf hkeep
    obtain ⟨data, hcopyIn, -, hkeeps⟩ :=
      h.copyIn hk (e := { s.event with copy_buffer := record buf }) rfl rfl hend
    rw [fillCopyBuffer_eq _ hbuf, Option.bind_eq_bind, Option.bind_some, hcopyIn]
    exact ⟨_, rfl, hkeeps⟩

lemma Inv.positions (h : Inv k s) (hk : k ≤ 63) : Positions s where
  lt := by
    have hle := h.le
    have hlt := h.lt
    rw [h.used_eq hk, mmapSize, h.length]
    omega
  eq_iff := by
    have hpow := two_pow_le hk
    have hle := h.le
    have hlt := h.lt
    have hempty : s.kept = [] → total s.kept = 0 := fun heq => by rw [heq]; rfl
    rw [h.head, h.tail, unread, unreadFrom_eq_nil_iff]
    constructor
    · intro heq
      exact Or.inr (by omega)
    · rintro (hnil | hle')
      · have := hempty hnil
        congr 1
        omega
      · congr 1
        omega
  step_keeps op hC := by
    obtain ⟨s', hstep, -, hkeeps⟩ := h.step hk op hC
    exact ⟨s', hstep, hkeeps⟩
  output_keeps _ _ hbuf := h.outputData hk hbuf

lemma inv_init (pagesize k : ℕ) : Inv k (init pagesize (2^k)) := by
  have hpos : 0 < 2^k := Nat.two_pow_pos k
  have hinit : (init pagesize (2^k)).event =
      ⟨pagesize, 0, 0, 2^k, replicate (2^k) 0, replicate pagesize 0⟩ := by
    simp [init, create, ensureMmapBuffer, resize, hpos]
  refine ⟨?_, ?_, ?_, le_rfl, by simp [init, total], trivial⟩
  · rw [hinit, length_replicate]
  · rw [hinit]
    rfl
  · rw [hinit]
    rfl

/-- In every state that a ring reaches with payloads shorter than 65524 bytes, `data_head` is less
than one turn in front of `data_tail`, they are equal exactly if no record is unread, and no step of
`output_data` changes a byte that is not read yet. -/
theorem positions_of_short (pagesize k : ℕ) (hk : k ≤ 63) (ops : List RingOp)
    (hops : ∀ buf, .output buf ∈ ops → buf.length < 65524) :
    ∃ rs s, run step (init pagesize (2^k)) ops = some (rs, s) ∧ Positions s := by
  have hkeep : ∀ s op, Inv k s → Short s op → ∃ r s', step s op = some (r, s') ∧ Inv k s' := by
    intro s op h hC
    obtain ⟨s', hstep, h', -⟩ := h.step hk op hC
    exact ⟨(), s', hstep, h'⟩
  have hshort : Along step Short (init pagesize (2^k)) ops := by
    refine along_of_forall_mem fun op hop s => ?_
    cases op with
    | output buf => exact hops buf hop
    | copy => trivial
    | publish => trivial
    | move n => trivial
  obtain ⟨rs, s, hrun, h⟩ := run_invariant hkeep (inv_init pagesize k) hshort
  exact ⟨rs, s, hrun, h.positions hk⟩

/-- A record around the end of a ring of 32 bytes, of which the consumer has passed three bytes. -/
theorem positions_of_short_around_the_end :
    ∃ rs s, run step (init 4096 (2^5)) [.output (replicate 15 7), .copy, .publish, .move 27,
      .output [1, 2], .copy, .publish, .move 3] = some (rs, s) ∧ Positions s :=
  positions_of_short 4096 5 (by decide) _ (by simp)

end Ring

end Bpftime.PerfEvent
