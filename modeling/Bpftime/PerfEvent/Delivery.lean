import Bpftime.PerfEvent.Model

/-!
# Delivery of the perf ring

The consumer hands over the payloads of the calls of `output_data` that were not dropped, in order
and each once (`Delivers`), as long as no call puts the eight bytes of a record's header across the
end of the ring, where the consumer reads them in one piece, and none is given so many bytes that
the record's length does not fit its 16 bits (`Contiguous`).
-/

namespace Bpftime.PerfEvent

open Bytes Circular Runs SoftwarePerfEventData Option List Nat

def record (buf : List UInt8) : List UInt8 := sampleHead buf.length ++ buf

@[simp] lemma length_sampleHead (size : ℕ) : (sampleHead size).length = 12 := by simp [sampleHead]

lemma length_record (buf : List UInt8) : (record buf).length = 12 + buf.length := by
  rw [record, length_append, length_sampleHead]

lemma headerSize_eq {size : ℕ} (h : size < 65524) : headerSize size = 12 + size := by
  unfold headerSize sizeofHead
  exact mod_eq_of_lt (by omega)

variable {buf : List UInt8}

lemma ofLe_header (h : buf.length < 65524) : ofLe (((record buf).take 8).drop 6) = 12 + buf.length := by
  have hheader : ((record buf).take 8).drop 6 = toLe 2 (headerSize buf.length) := by
    simp [record, sampleHead, toLe]
  rw [hheader, ofLe_toLe, headerSize_eq h]
  exact mod_eq_of_lt (by omega)

lemma payload_record (h : buf.length < 65524) : payload (record buf) = some buf := by
  have hsize : readRange (record buf) 8 4 = some (toLe 4 buf.length) := by
    have hmid := readRange_append (toLe 4 9 ++ toLe 2 0 ++ toLe 2 (headerSize buf.length))
        (toLe 4 buf.length) buf
    simpa [record, sampleHead] using hmid
  have hbuf : readRange (record buf) 12 buf.length = some buf := by
    simpa [record] using readRange_append (sampleHead buf.length) buf []
  have hlen : ofLe (toLe 4 buf.length) = buf.length := by
    rw [ofLe_toLe]
    exact mod_eq_of_lt (by omega)
  unfold payload sizeofHead
  rw [hsize, bind_eq_bind, bind_some, hlen, hbuf]

lemma fillCopyBuffer_eq (e : SoftwarePerfEventData) (h : buf.length < 65524) :
    e.fillCopyBuffer buf = some { e with copy_buffer := record buf } := by
  unfold fillCopyBuffer
  rw [headerSize_eq h]
  generalize hb : resize e.copy_buffer (12 + buf.length) = base
  have hlen : base.length = 12 + buf.length := by rw [← hb, length_resize]
  have hfirst : writeRange base 0 (sampleHead buf.length) =
      some (sampleHead buf.length ++ base.drop 12) := by
    rw [writeRange, length_sampleHead, if_pos (by omega), take_zero, nil_append]
  have hsecond : writeRange (sampleHead buf.length ++ base.drop 12) 12 buf = some (record buf) := by
    rw [writeRange, if_pos (by rw [length_append, length_sampleHead, length_drop]; omega),
      some.injEq, take_left' (length_sampleHead _), drop_eq_nil_of_le, record,
      append_nil]
    rw [length_append, length_sampleHead, length_drop]
    omega
  simp only [hfirst, bind_eq_bind, bind_some, sizeofHead, hsecond]
  rfl

lemma sub64_mod {a b : ℕ} (hle : b ≤ a) (hlt : a < b + 2^64) : sub64 (a % 2^64) (b % 2^64) = a - b := by
  unfold sub64
  omega

lemma add64_mod (a n : ℕ) : add64 (a % 2^64) n = (a + n) % 2^64 := by
  unfold add64
  omega

lemma and_mask {k : ℕ} (hk : k ≤ 63) (a : ℕ) : a % 2^64 &&& sub64 (2^k) 1 = a % 2^k := by
  have hpow := two_pow_le hk
  have hsub : sub64 (2^k) 1 = 2^k - 1 := sub64_of_le (by omega) Nat.one_le_two_pow
  have hdvd : (2 : ℕ)^k ∣ 2^64 := pow_dvd_pow 2 (by omega)
  rw [hsub, and_two_pow_sub_one_eq_mod, mod_mod_of_dvd _ hdvd]

/-- From position `p` on the ring holds the records of `bufs`, the last of which ends at `q`. -/
def Stored (data : List UInt8) : ℕ → List (List UInt8) → ℕ → Prop
  | p, [], q => p = q
  | p, buf :: bufs, q =>
    buf.length < 65524 ∧ p % data.length + 8 ≤ data.length ∧ At data p (record buf) ∧
      Stored data (p + (12 + buf.length)) bufs q

variable {data data' : List UInt8} {p q r : ℕ} {bufs bufs' : List (List UInt8)}

lemma Stored.le (h : Stored data p bufs q) : p ≤ q := by
  induction bufs generalizing p with
  | nil => exact le_of_eq h
  | cons buf bufs ih => exact le_trans (by omega) (ih h.2.2.2)

lemma Stored.append (h : Stored data p bufs q) (h' : Stored data q bufs' r) :
    Stored data p (bufs ++ bufs') r := by
  induction bufs generalizing p with
  | nil =>
    obtain rfl : p = q := h
    exact h'
  | cons buf bufs ih => exact ⟨h.1, h.2.1, h.2.2.1, ih h.2.2.2⟩

lemma Stored.congr (h : Stored data p bufs q) (hlen : data'.length = data.length)
    (hkeep : ∀ i, p ≤ i → i < q → data'[i % data.length]? = data[i % data.length]?) :
    Stored data' p bufs q := by
  induction bufs generalizing p with
  | nil => exact h
  | cons buf bufs ih =>
    obtain ⟨hbuf, hheader, hat, hrest⟩ := h
    have hle := hrest.le
    refine ⟨hbuf, by rw [hlen]; exact hheader, hat.congr hlen fun i hi hi' => ?_,
      ih hrest fun i hi hi' => hkeep i (by omega) hi'⟩
    rw [length_record] at hi'
    exact hkeep i hi (by omega)

/-! ## The invariant -/

/-- A record for `buf` behind position `H` has its header in one piece, and ends before the position
one turn after `T`. -/
def Room (data : List UInt8) (H T : ℕ) (buf : List UInt8) : Prop :=
  buf.length < 65524 ∧ H % data.length + 8 ≤ data.length ∧ H + (12 + buf.length) < T + data.length

/-- Where the producer is, with `data_head` at position `H` and `data_tail` at position `T`. -/
def Midway (e : SoftwarePerfEventData) (H T : ℕ) : Producer → Prop
  | .idle => True
  | .copying data_head buf => data_head = H % 2^64 ∧ Room e.data H T buf ∧ e.copy_buffer = record buf
  | .publishing data_head buf =>
    data_head = H % 2^64 ∧ Room e.data H T buf ∧ e.copy_buffer = record buf ∧ At e.data H (record buf)

/-- The positions of the ring and of the consumer, and the records between them: `old` up to the
`data_head` that the consumer has loaded, `new` behind it. -/
structure Held (k : ℕ) (s : Sys) (H T C L : ℕ) (old new : List (List UInt8)) : Prop where
  length : s.event.data.length = 2^k
  head : s.event.data_head = H % 2^64
  tail : s.event.data_tail = T % 2^64
  consumer_tail : s.consumer.data_tail = C % 2^64
  consumer_head : s.consumer.data_head = L % 2^64
  le : T ≤ C
  lt : H < T + 2^k
  stored_old : Stored s.event.data C old L
  stored_new : Stored s.event.data L new H
  producer : Midway s.event H T s.producer
  kept : s.kept = s.handed ++ (old ++ new)

def Inv (k : ℕ) (s : Sys) : Prop := ∃ H T C L old new, Held k s H T C L old new

/-- A call of `output_data` is given less than 65524 bytes, and finds `data_head` eight bytes before
the end of the ring at least. -/
def Contiguous (s : Sys) : Op → Prop
  | .output buf => buf.length < 65524 ∧ s.event.data_head % s.event.mmapSize + 8 ≤ s.event.mmapSize
  | _ => True

instance (s : Sys) : (op : Op) → Decidable (Contiguous s op)
  | .output _ => inferInstanceAs (Decidable (_ ∧ _))
  | .copy | .publish | .load | .read | .store => isTrue trivial

variable {k : ℕ} {s : Sys} {H T C L : ℕ} {old new : List (List UInt8)}

lemma lt_of_not_drops {e : SoftwarePerfEventData} (hk : k ≤ 63) (hlength : e.data.length = 2^k)
    (hhead : e.data_head = H % 2^64) (htail : e.data_tail = T % 2^64) (hle : T ≤ H)
    (hlt : H < T + 2^k) (hbuf : buf.length < 65524)
    (hkeep : e.drops buf.length = false) : H + (12 + buf.length) < T + 2^k := by
  have hpow := two_pow_le hk
  have hpos : 0 < 2^k := Nat.two_pow_pos k
  have hfree : sub64 e.mmapSize (sub64 e.data_head e.data_tail) = 2^k - (H - T) := by
    rw [hhead, htail, sub64_mod (by omega) (by omega), mmapSize, hlength]
    exact sub64_of_le (by omega) (by omega)
  unfold drops availableSize at hkeep
  rw [hfree, headerSize_eq hbuf, mmapSize, hlength] at hkeep
  have hkeep := of_decide_eq_false hkeep
  dsimp only at hkeep
  -- The free space is at least one byte, and its sign bit is clear unless the ring is `2^63` long.
  unfold toInt64 at hkeep
  generalize 2^k = n at *
  split_ifs at hkeep <;> omega

lemma Held.room (h : Held k s H T C L old new) (hk : k ≤ 63)
    (hC : Contiguous s (.output buf)) (hkeep : s.event.drops buf.length = false) :
    Room s.event.data H T buf := by
  obtain ⟨hlen, hheader⟩ := hC
  have hold := h.stored_old.le
  have hnew := h.stored_new.le
  have hle := h.le
  have hdvd : (2 : ℕ)^k ∣ 2^64 := pow_dvd_pow 2 (by omega)
  unfold mmapSize at hheader
  rw [h.head, h.length, mod_mod_of_dvd _ hdvd] at hheader
  refine ⟨hlen, by rw [h.length]; exact hheader, ?_⟩
  rw [h.length]
  exact lt_of_not_drops hk h.length h.head h.tail (by omega) h.lt hlen hkeep

variable {data_head : ℕ}

section

variable (h : Held k s H T C L old new)
include h

lemma Held.copy (hk : k ≤ 63) (hp : s.producer = .copying data_head buf) :
    ∃ event, s.event.copyIn data_head = some event ∧
      Held k { s with event, producer := .publishing data_head buf } H T C L old new := by
  have hmid := h.producer
  rw [hp] at hmid
  obtain ⟨rfl, hroom, hcopy⟩ := hmid
  have hold := h.stored_old.le
  have hnew := h.stored_new.le
  have hle := h.le
  have hlen := h.length
  have hpos : 0 < s.event.data.length := by rw [hlen]; exact Nat.two_pow_pos k
  have hrec := length_record buf
  have hend := hroom.2.2
  have hfits : (record buf).length ≤ s.event.data.length := by omega
  obtain ⟨data', hwrite, hlen', hat, hkeep⟩ := writeAround_spec H hpos hfits
  have hwrite' : writeAround s.event.data (H % 2^64 &&& sub64 s.event.mmapSize 1)
      s.event.copy_buffer = some data' := by rw [mmapSize, hcopy, hlen, and_mask hk, ← hlen, hwrite]
  refine ⟨{ s.event with data := data' }, ?_, ?_⟩
  · unfold copyIn
    rw [hwrite']
    rfl
  · refine ⟨hlen'.trans hlen, h.head, h.tail, h.consumer_tail, h.consumer_head, h.le, h.lt,
      h.stored_old.congr hlen' fun i hi hi' => hkeep i (by omega) (by omega),
      h.stored_new.congr hlen' fun i hi hi' => hkeep i hi' (by omega), ?_, h.kept⟩
    refine ⟨rfl, ?_, hcopy, hat⟩
    unfold Room
    rw [hlen']
    exact hroom

lemma Held.publish (hp : s.producer = .publishing data_head buf) :
    Held k { s with event := s.event.publish data_head, producer := .idle, kept := s.kept ++ [buf] }
      (H + (12 + buf.length)) T C L old (new ++ [buf]) := by
  have hmid := h.producer
  rw [hp] at hmid
  obtain ⟨rfl, ⟨hlen, hheader, hend⟩, hcopy, hat⟩ := hmid
  refine ⟨h.length, ?_, h.tail, h.consumer_tail, h.consumer_head, h.le, by rw [← h.length]; exact hend,
    h.stored_old, h.stored_new.append ⟨hlen, hheader, hat, rfl⟩, trivial, ?_⟩
  · unfold SoftwarePerfEventData.publish
    rw [hcopy, length_record, add64_mod]
  · dsimp only
    rw [h.kept]
    simp

lemma Held.read (hk : k ≤ 63) (hne : s.consumer.data_tail ≠ s.consumer.data_head) :
    ∃ buf old', old = buf :: old' ∧
      s.event.readRecord s.consumer.data_tail = some (record buf) ∧ buf.length < 65524 ∧ Held k { s with
          consumer := { s.consumer with
            data_tail := add64 s.consumer.data_tail (record buf).length }
          handed := s.handed ++ [buf] }
        H T (C + (12 + buf.length)) L old' new := by
  rw [h.consumer_tail, h.consumer_head] at hne
  have hnew := h.stored_new.le
  have hle := h.le
  have hlt := h.lt
  have hlen := h.length
  have hstored := h.stored_old
  cases old with
  | nil =>
    obtain rfl : C = L := hstored
    exact absurd rfl hne
  | cons buf old =>
    obtain ⟨hbuf, hheader, hat, hrest⟩ := hstored
    have hrest' := hrest.le
    have hrec := length_record buf
    have hpos : 0 < s.event.data.length := by rw [hlen]; exact Nat.two_pow_pos k
    have hread := hat.readRange_eq (n := 8) (by omega) hheader
    have haround := hat.readAround_eq hpos (by omega)
    refine ⟨buf, old, rfl, ?_, hbuf, hlen, h.head, h.tail, ?_, h.consumer_head, by omega, hlt,
      hrest, h.stored_new, h.producer, ?_⟩
    · unfold readRecord mmapSize
      rw [h.consumer_tail, hlen, and_mask hk, ← hlen]
      simp only [hread, bind_eq_bind, bind_some]
      rw [ofLe_header hbuf, ← hrec, haround]
    · dsimp only
      rw [h.consumer_tail, hrec, add64_mod]
    · dsimp only
      rw [h.kept]
      simp

lemma Held.store : Held k { s with event := { s.event with data_tail := s.consumer.data_tail } } H C C L old new := by
  have hle := h.le
  have hlt := h.lt
  refine ⟨h.length, h.head, h.consumer_tail, h.consumer_tail, h.consumer_head, le_rfl, by omega,
    h.stored_old, h.stored_new, ?_, h.kept⟩
  have hmid := h.producer
  -- The room behind `data_head` only grows.
  have hroom : ∀ buf, Room s.event.data H T buf → Room s.event.data H C buf := by
    intro buf hroom
    exact ⟨hroom.1, hroom.2.1, hroom.2.2.trans_le (by omega)⟩
  cases hp : s.producer with
  | idle => trivial
  | copying _ buf | publishing _ buf =>
    rw [hp] at hmid
    exact ⟨hmid.1, hroom buf hmid.2.1, hmid.2.2⟩

end

lemma inv_step (hk : k ≤ 63) (s : Sys) (op : Op) (h : Inv k s) (hC : Contiguous s op) :
    ∃ r s', step s op = some (r, s') ∧ Inv k s' := by
  obtain ⟨H, T, C, L, old, new, h⟩ := h
  have hsame : ∃ r s', some ((), s) = some (r, s') ∧ Inv k s' := ⟨(), s, rfl, H, T, C, L, old, new, h⟩
  cases op with
  | output buf =>
    dsimp only [step, Produced.output]
    cases hp : s.producer with
    | idle =>
      dsimp only
      split_ifs with hdrop
      · exact hsame
      · have hroom := h.room hk hC (Bool.eq_false_iff.mpr hdrop)
        rw [fillCopyBuffer_eq _ hC.1]
        exact ⟨(), _, rfl, H, T, C, L, old, new, h.length, h.head, h.tail, h.consumer_tail,
          h.consumer_head, h.le, h.lt, h.stored_old, h.stored_new, ⟨h.head, hroom, rfl⟩, h.kept⟩
    | copying _ _ | publishing _ _ => exact hsame
  | copy =>
    dsimp only [step, Produced.copy]
    cases hp : s.producer with
    | copying data_head buf =>
      obtain ⟨event, hcopy, hheld⟩ := h.copy hk hp
      dsimp only
      rw [hcopy]
      exact ⟨(), _, rfl, H, T, C, L, old, new, hheld⟩
    | idle | publishing _ _ => exact hsame
  | publish =>
    dsimp only [step, Produced.publish]
    cases hp : s.producer with
    | publishing data_head buf => exact ⟨(), _, rfl, _, T, C, L, old, _, h.publish hp⟩
    | idle | copying _ _ => exact hsame
  | load =>
    exact ⟨(), _, rfl, H, T, C, H, old ++ new, [], h.length, h.head, h.tail, h.consumer_tail, h.head,
      h.le, h.lt, h.stored_old.append h.stored_new, rfl, h.producer,
      by rw [append_nil]; exact h.kept⟩
  | read =>
    dsimp only [step]
    split_ifs with hne
    · exact hsame
    · obtain ⟨buf, old', rfl, hread, hbuf, hheld⟩ := h.read hk hne
      refine ⟨(), _, ?_, H, T, _, L, old', new, hheld⟩
      simp only [hread, bind_eq_bind, bind_some, payload_record hbuf]
      rfl
  | store => exact ⟨(), _, rfl, H, C, C, L, old, new, h.store⟩

/-- The ring of `size` bytes delivers along a run: no access leaves the data area, what was handed
over are the first payloads of the calls that were not dropped, and all of them once the consumer
has reached `data_head`. -/
def Delivers (pagesize size : ℕ) (ops : List Op) : Prop :=
  ∃ rs s, run step (init pagesize size) ops = some (rs, s) ∧ s.handed <+: s.kept ∧
    (s.consumer.data_tail = s.event.data_head → s.handed = s.kept)

lemma inv_init (pagesize k : ℕ) : Inv k (init pagesize (2^k)) := by
  have hpos : 0 < 2^k := Nat.two_pow_pos k
  have hinit : (init pagesize (2^k)).event =
      ⟨pagesize, 0, 0, 2^k, replicate (2^k) 0, replicate pagesize 0⟩ := by
    simp [init, create, ensureMmapBuffer, resize, hpos]
  refine ⟨0, 0, 0, 0, [], [], ?_, ?_, ?_, rfl, rfl, le_rfl, by omega, rfl, rfl, trivial, rfl⟩
  · rw [hinit, length_replicate]
  all_goals rw [hinit, zero_mod]

/-- The ring delivers along every run in which no call of `output_data` puts a header across the end
of the ring or is given too many bytes. -/
theorem delivers_of_contiguous (pagesize k : ℕ) (hk : k ≤ 63) (ops : List Op)
    (hC : Along step Contiguous (init pagesize (2^k)) ops) : Delivers pagesize (2^k) ops := by
  obtain ⟨rs, s, hrun, H, T, C, L, old, new, h⟩ := run_invariant (inv_step hk) (inv_init pagesize k) hC
  refine ⟨rs, s, hrun, ?_, fun hreached => ?_⟩
  · rw [h.kept]
    exact prefix_append _ _
  · -- The consumer is less than one turn behind, so that equal words are equal positions.
    have hold := h.stored_old.le
    have hnew := h.stored_new.le
    have hle := h.le
    have hlt := h.lt
    have hpow := two_pow_le hk
    rw [h.consumer_tail, h.head] at hreached
    have hCH : C = H := by omega
    have hnil : ∀ {p q : ℕ} {bufs : List (List UInt8)}, Stored s.event.data p bufs q → q ≤ p →
        bufs = [] := by
      intro p q bufs hst hqp
      cases bufs with
      | nil => rfl
      | cons buf bufs =>
        have hrest := hst.2.2.2.le
        omega
    rw [h.kept, hnil h.stored_old (by omega), hnil h.stored_new (by omega)]
    simp

def outputAndRead (buf : List UInt8) : List Op := [.output buf, .copy, .publish, .load, .read, .store]

/-- Two records with their headers in one piece, the second around the end of the ring. -/
theorem delivers_twice : Delivers 4096 (2^5)
    (outputAndRead [1, 2, 3, 4, 5, 6, 7, 8] ++ outputAndRead [9]) := by
  exact delivers_of_contiguous 4096 5 (by norm_num) _ (by decide +kernel)

/-- A record of 27 bytes in a ring of 32, then one whose header begins five bytes before the end. -/
def acrossTheEnd : List Op := outputAndRead (List.replicate 15 7) ++ outputAndRead []

/-- The consumer reads the header of the second record beyond the end of the ring. -/
theorem not_delivers_acrossTheEnd : ¬ Delivers 4096 (2^5) acrossTheEnd := by
  rintro ⟨rs, s, hrun, -⟩
  have hnone : run step (init 4096 (2^5)) acrossTheEnd = none := by decide +kernel
  rw [hnone] at hrun
  simp at hrun

end Bpftime.PerfEvent
