import Bpftime.PerfEvent.Output

/-!
# Growing the ring

`ensure_mmap_buffer` grows the buffer of a software perf event, writes the new size into the header,
and only then finds that the data area is not a power of two long and returns no pointer.
-/

namespace Bpftime

open Bytes Circular Option List Nat SoftwarePerfEventData

/-- The consumer reads the next record and stores `data_tail` behind it. -/
def SoftwarePerfEventData.readNext (e : SoftwarePerfEventData) :
    Option (Option (List UInt8) × SoftwarePerfEventData) :=
  if e.data_tail = e.data_head then some (none, e)
  else do
    let record ← e.readRecord e.data_tail
    let payload ← SoftwarePerfEventData.payload record
    return (some payload, { e with data_tail := add64 e.data_tail record.length })

namespace PerfEvent

open SoftwarePerfEventData
open Runs (run Along along_of_invariant)

/-- An event, and the payloads of the calls of `output_data` that were not dropped and are not read
yet. -/
structure Feed where
  event : SoftwarePerfEventData
  unread : List (List UInt8)
deriving DecidableEq

inductive FeedOp where
  | ensure (buffer_size : ℕ)
  | output (buf : List UInt8)
  | read

inductive FeedReply where
  | pointer
  | null
  | ret
  | payload (buf : Option (List UInt8))
deriving DecidableEq

namespace Feed

def create (pagesize : ℕ) : Feed := ⟨SoftwarePerfEventData.create pagesize, []⟩

def step (s : Feed) : FeedOp → Option (FeedReply × Feed)
  | .ensure buffer_size =>
    let (ok, event) := s.event.ensureMmapBuffer buffer_size
    some (if ok then .pointer else .null, { s with event })
  | .output buf => (s.event.outputData buf).map fun event =>
    (.ret, ⟨event, if s.event.drops buf.length then s.unread else s.unread ++ [buf]⟩)
  | .read => s.event.readNext.map fun p => (.payload p.1, ⟨p.2, if p.1.isSome then s.unread.tail else s.unread⟩)

/-- Reading an event to its end gives these payloads. -/
def Readable (e : SoftwarePerfEventData) : List (List UInt8) → Prop
  | [] => e.data_tail = e.data_head
  | buf :: bufs => ∃ e', e.readNext = some (some buf, e') ∧ Readable e' bufs

/-- A call that returns no pointer changes nothing, growing keeps what is not read yet readable, and
the data area is empty or a power of two long. -/
def GrowSafe (s : Feed) (op : FeedOp) : Prop :=
  ∀ r s', s.step op = some (r, s') →
    (r = .null → s' = s) ∧ (s.event.mmapSize < s'.event.mmapSize → Readable s'.event s.unread) ∧
      (s'.event.mmapSize = 0 ∨ ∃ j, s'.event.mmapSize = 2^j)

/-- A larger data area is `2^j` bytes long, and there is nothing to read, or what is not read yet
would end within the old area if it began at the index of `data_tail` in the new one. -/
def Grows (s : Feed) : FeedOp → Prop
  | .ensure buffer_size => buffer_size ≤ s.event.pagesize + s.event.mmapSize ∨
    ∃ j < 64, buffer_size = s.event.pagesize + 2^j ∧ (s.event.data_tail = s.event.data_head ∨
      s.event.data_tail % 2^j + sub64 s.event.data_head s.event.data_tail ≤ s.event.mmapSize)
  | _ => True

instance (s : Feed) : (op : FeedOp) → Decidable (s.Grows op)
  | .ensure _ => inferInstanceAs (Decidable (_ ∨ _))
  | .output _ | .read => isTrue trivial

/-! ## The records in the ring -/

def stream (bufs : List (List UInt8)) : List UInt8 := bufs.flatMap record

@[simp] lemma stream_cons (buf : List UInt8) (bufs : List (List UInt8)) :
    stream (buf :: bufs) = record buf ++ stream bufs := rfl

@[simp] lemma stream_concat (bufs : List (List UInt8)) (buf : List UInt8) :
    stream (bufs ++ [buf]) = stream bufs ++ record buf := by simp [stream]

/-- A ring of `2^k` bytes holds the records of some payloads from position `T` on. -/
structure Laid (k T : ℕ) (e : SoftwarePerfEventData) (bufs : List (List UInt8)) : Prop where
  length : e.data.length = 2^k
  tail : e.data_tail = T % 2^64
  head : e.data_head = (T + (stream bufs).length) % 2^64
  lt : (stream bufs).length < 2^k
  short : ∀ buf ∈ bufs, buf.length < 65524
  stored : At e.data T (stream bufs)

variable {k T : ℕ} {e e' : SoftwarePerfEventData} {buf : List UInt8} {bufs : List (List UInt8)}

lemma Laid.used_eq (h : Laid k T e bufs) (hk : k ≤ 63) :
    sub64 e.data_head e.data_tail = (stream bufs).length := by
  have hpow := two_pow_le hk
  have hlt := h.lt
  rw [h.head, h.tail, sub64_mod (by omega) (by omega), Nat.add_sub_cancel_left]

lemma Laid.eq_iff (h : Laid k T e bufs) (hk : k ≤ 63) : e.data_tail = e.data_head ↔ bufs = [] := by
  have hpow := two_pow_le hk
  have hlt := h.lt
  rw [h.head, h.tail]
  cases bufs with
  | nil => simp [stream]
  | cons buf bufs =>
    rw [stream_cons, length_append, length_record] at hlt ⊢
    refine iff_of_false ?_ (by simp)
    omega

lemma Laid.readNext (h : Laid k T e (buf :: bufs)) (hk : k ≤ 63) (hheader : T % 2^k + 8 ≤ 2^k) :
    e.readNext = some (some buf, { e with data_tail := add64 e.data_tail (12 + buf.length) }) ∧
      Laid k (T + (12 + buf.length)) { e with data_tail := add64 e.data_tail (12 + buf.length) } bufs := by
  have hrec := length_record buf
  have hlen := h.length
  have hlt := h.lt
  have hbuf := h.short buf mem_cons_self
  have hstored := h.stored
  have hhead := h.head
  rw [stream_cons] at hstored hlt hhead
  rw [length_append] at hlt hhead
  have hat := hstored.left
  have hread : readRange e.data (T % e.data.length) 8 = some ((record buf).take 8) :=
    hat.readRange_eq (by omega) (by rwa [hlen])
  have haround := hat.readAround_eq (by omega) (by omega)
  have hrecord : e.readRecord e.data_tail = some (record buf) := by
    unfold readRecord mmapSize
    rw [h.tail, hlen, and_mask hk, ← hlen]
    simp only [hread, bind_eq_bind, bind_some]
    rw [ofLe_header hbuf, ← hrec, haround]
  have hne : e.data_tail ≠ e.data_head := fun heq => by cases (h.eq_iff hk).mp heq
  constructor
  · unfold SoftwarePerfEventData.readNext
    rw [if_neg hne]
    simp only [hrecord, payload_record hbuf, bind_eq_bind, bind_some, hrec]
    rfl
  · refine ⟨hlen, ?_, ?_, by omega, fun b hb => h.short b (mem_cons_of_mem _ hb), ?_⟩
    · dsimp only
      rw [h.tail, add64_mod]
    · dsimp only
      rw [hhead, hrec, ← Nat.add_assoc T]
    · rw [← hrec]
      exact hstored.right

lemma Laid.readable (h : Laid k T e bufs) (hk : k ≤ 63)
    (hfit : T % 2^k + (stream bufs).length ≤ 2^k) : Readable e bufs := by
  induction bufs generalizing e T with
  | nil => exact (h.eq_iff hk).mpr rfl
  | cons buf bufs ih =>
    rw [stream_cons, length_append, length_record] at hfit
    obtain ⟨hread, hnext⟩ := h.readNext hk (by omega)
    refine ⟨_, hread, ih hnext ?_⟩
    cases bufs with
    | nil =>
      have hlt : (T + (12 + buf.length)) % 2^k < 2^k := mod_lt _ (Nat.two_pow_pos k)
      simpa [stream] using hlt.le
    | cons buf' bufs =>
      -- Another record begins before the end of the ring.
      rw [stream_cons, length_append, length_record] at hfit ⊢
      rw [← mod_add_mod, mod_eq_of_lt (by omega)]
      omega

/-- There is no data area, or it holds the records of the payloads that are not read yet. -/
def Inv (s : Feed) : Prop :=
  (s.event.data = [] ∧ s.event.data_tail = s.event.data_head ∧ s.event.data_head < 2^64 ∧
    s.unread = []) ∨ ∃ k ≤ 63, ∃ T, Laid k T s.event s.unread

lemma Inv.mmapSize_eq {s : Feed} (h : s.Inv) : s.event.mmapSize = 0 ∨ ∃ j, s.event.mmapSize = 2^j := by
  rcases h with ⟨hdata, -⟩ | ⟨k, -, T, h⟩
  · left
    rw [mmapSize, hdata, length_nil]
  · exact Or.inr ⟨k, h.length⟩

lemma drops_of_empty (hdata : e.data = []) (heq : e.data_tail = e.data_head)
    (hlt : e.data_head < 2^64) (size : ℕ) :
    e.drops size = true := by
  have hused : sub64 e.data_head e.data_tail = 0 := by
    rw [heq, sub64]
    omega
  have hsize : e.mmapSize = 0 := by rw [mmapSize, hdata, length_nil]
  unfold drops availableSize
  rw [hused, hsize]
  simp [sub64, toInt64]

lemma Laid.outputData (h : Laid k T e bufs) (hk : k ≤ 63) (hdrops : e.drops buf.length = false)
    (hout : e.outputData buf = some e') : Laid k T e' (bufs ++ [buf]) := by
  have hbuf : buf.length < 65524 := by
    by_contra hlong
    unfold SoftwarePerfEventData.outputData at hout
    rw [if_neg (by rw [hdrops]; decide), fillCopyBuffer_eq_none e (by omega)] at hout
    cases hout
  have hlt := h.lt
  have hlen := h.length
  have hend := lt_of_not_drops hk hlen h.head h.tail (Nat.le_add_right _ _) (by omega) hbuf hdrops
  have hindex : e.data_head % e.data.length = (T + (stream bufs).length) % e.data.length := by
    rw [h.head, hlen]
    exact mod_mod_of_dvd _ (pow_dvd_pow 2 (by omega))
  have hhead : e.data_head < 2^64 := by
    rw [h.head]
    exact mod_lt _ (by norm_num)
  obtain ⟨data, hout', hlen', hat, hkeep⟩ := outputData_eq hk hlen hhead hdrops hbuf (by omega) hindex
  rw [hout] at hout'
  cases hout'
  refine ⟨hlen'.trans hlen, h.tail, ?_, ?_, ?_, ?_⟩
  · dsimp only
    rw [h.head, add64_mod, stream_concat, length_append, length_record, Nat.add_assoc]
  · rw [stream_concat, length_append, length_record]
    omega
  · intro b hb
    rcases mem_append.mp hb with hb | hb
    · exact h.short b hb
    · rwa [mem_singleton.mp hb]
  · rw [stream_concat]
    exact (h.stored.congr hlen' fun i hi hi' => hkeep i hi' (by omega)).append hat

variable {j : ℕ}

lemma Laid.grow (h : Laid k T e bufs) (hkj : k ≤ j)
    (hfit : bufs = [] ∨ T % 2^j + (stream bufs).length ≤ 2^k) :
    Laid j T { e with data := resize e.data (2^j), data_size := 2^j } bufs := by
  have hpow : (2 : ℕ)^k ≤ 2^j := Nat.pow_le_pow_right (by norm_num) hkj
  have hlen := h.length
  have hresize : resize e.data (2^j) = e.data ++ replicate (2^j - 2^k) 0 := by
    rw [resize, take_of_length_le (by omega), hlen]
  have hlen' := length_resize e.data (2^j)
  refine ⟨hlen', h.tail, h.head, h.lt.trans_le hpow, h.short, ?_⟩
  rcases hfit with rfl | hfit
  · intro i hi
    simp [stream] at hi
  · dsimp only
    rw [hresize] at hlen' ⊢
    exact h.stored.extend (by rw [hlen', hlen]; exact pow_dvd_pow 2 hkj) (by rwa [hlen', hlen])

/-! ## Every run -/

lemma ensureMmapBuffer_of_le {n : ℕ} (h : n ≤ e.pagesize + e.mmapSize) :
    e.ensureMmapBuffer n = (true, e) := by
  unfold ensureMmapBuffer
  exact if_neg (not_lt.mpr h)

lemma ensureMmapBuffer_of_lt (hj : j < 64) (h : e.mmapSize < 2^j) : e.ensureMmapBuffer
    (e.pagesize + 2^j) = (true, { e with data := resize e.data (2^j), data_size := 2^j }) := by
  have hpopcnt : ∀ j < 64, popcnt (2^j) = 1 := by decide +kernel
  unfold mmapSize at h
  unfold ensureMmapBuffer
  rw [if_pos (by omega), Nat.add_sub_cancel_left]
  dsimp only
  rw [hpopcnt j hj]
  rfl

variable {s s' : Feed} {op : FeedOp} {r : FeedReply}

lemma Inv.grow (h : s.Inv) (hlt : s.event.mmapSize < 2^j) (hfit : s.event.data_tail = s.event.data_head ∨
    s.event.data_tail % 2^j + sub64 s.event.data_head s.event.data_tail ≤ s.event.mmapSize) (hj : j < 64) :
    ∃ T, Laid j T { s.event with data := resize s.event.data (2^j), data_size := 2^j } s.unread ∧
      T % 2^j + (stream s.unread).length ≤ 2^j := by
  have hmod : ∀ T, T % 2^j < 2^j := fun T => mod_lt _ (Nat.two_pow_pos j)
  rcases h with ⟨-, heq, hhead, hunread⟩ | ⟨k, hk, T, h⟩
  · refine ⟨s.event.data_tail, ?_, by rw [hunread]; exact (hmod _).le⟩
    rw [hunread]
    refine ⟨length_resize _ _, ?_, ?_, Nat.two_pow_pos j, by simp, fun i hi => by simp [stream] at hi⟩
    · rw [heq, mod_eq_of_lt hhead]
    · dsimp only
      rw [heq]
      exact (mod_eq_of_lt hhead).symm
  · unfold mmapSize at hlt hfit
    rw [h.eq_iff hk, h.used_eq hk, h.tail, h.length, mod_mod_of_dvd _ (pow_dvd_pow 2 hj.le)] at hfit
    rw [h.length] at hlt
    have hkj : k ≤ j := (Nat.pow_lt_pow_iff_right (by norm_num)).mp hlt |>.le
    refine ⟨T, h.grow hkj hfit, ?_⟩
    rcases hfit with hnil | hfit
    · rw [hnil]
      exact (hmod _).le
    · omega

lemma Inv.ensure (h : s.Inv) {buffer_size : ℕ} (hgrows : s.Grows (.ensure buffer_size))
    (hstep : s.step (.ensure buffer_size) = some (r, s')) :
    s'.Inv ∧ (r = .null → s' = s) ∧ (s.event.mmapSize < s'.event.mmapSize → Readable s'.event s.unread) := by
  simp only [Feed.step, some.injEq, Prod.mk.injEq] at hstep
  obtain ⟨rfl, rfl⟩ := hstep
  rcases le_or_gt buffer_size (s.event.pagesize + s.event.mmapSize) with hle | hgt
  · rw [ensureMmapBuffer_of_le hle]
    exact ⟨h, fun _ => rfl, fun hlt => absurd hlt (lt_irrefl _)⟩
  · rcases hgrows with hle | ⟨j, hj, rfl, hfit⟩
    · omega
    · have hlt : s.event.mmapSize < 2^j := by omega
      obtain ⟨T, hlaid, hend⟩ := h.grow hlt hfit hj
      rw [ensureMmapBuffer_of_lt hj hlt]
      exact ⟨Or.inr ⟨j, by omega, T, hlaid⟩, by simp, fun _ => hlaid.readable (by omega) hend⟩

lemma Inv.output (h : s.Inv) {buf : List UInt8} (hstep : s.step (.output buf) = some (r, s')) :
    s'.Inv ∧ r = .ret ∧ s'.event.mmapSize = s.event.mmapSize := by
  obtain ⟨e', hout, heq⟩ := map_eq_some_iff.mp hstep
  obtain ⟨rfl, rfl⟩ := Prod.mk.inj heq
  cases hdrops : s.event.drops buf.length with
  | true =>
    unfold outputData at hout
    rw [if_pos hdrops] at hout
    cases hout
    exact ⟨h, rfl, rfl⟩
  | false =>
    rcases h with ⟨hdata, heq, hhead, -⟩ | ⟨k, hk, T, h⟩
    · rw [drops_of_empty hdata heq hhead] at hdrops
      cases hdrops
    · have hlaid := h.outputData hk hdrops hout
      exact ⟨Or.inr ⟨k, hk, T, hlaid⟩, rfl, hlaid.length.trans h.length.symm⟩

lemma Inv.read (h : s.Inv) (hstep : s.step .read = some (r, s')) :
    s'.Inv ∧ r ≠ .null ∧ s'.event.mmapSize = s.event.mmapSize := by
  obtain ⟨⟨p, e'⟩, hread, heq⟩ := map_eq_some_iff.mp hstep
  obtain ⟨rfl, rfl⟩ := Prod.mk.inj heq
  by_cases hempty : s.event.data_tail = s.event.data_head
  · unfold readNext at hread
    rw [if_pos hempty] at hread
    cases hread
    exact ⟨h, by simp, rfl⟩
  · rcases h with ⟨-, heq, -⟩ | ⟨k, hk, T, h⟩
    · exact absurd heq hempty
    · cases hunread : s.unread with
      | nil => exact absurd ((h.eq_iff hk).mpr hunread) hempty
      | cons buf bufs =>
        rw [hunread] at h
        by_cases hheader : T % 2^k + 8 ≤ 2^k
        · obtain ⟨hread', hnext⟩ := h.readNext hk hheader
          rw [hread] at hread'
          cases hread'
          exact ⟨Or.inr ⟨k, hk, _, hnext⟩, by simp, rfl⟩
        · -- The header goes around the end of the ring, and reading it leaves the area.
          have hnone : readRange s.event.data (T % 2^k) 8 = none := by
            unfold readRange
            rw [if_neg (by rw [h.length]; exact hheader)]
          unfold readNext readRecord mmapSize at hread
          rw [if_neg hempty, h.tail, h.length, and_mask hk] at hread
          simp [hnone] at hread

/-- Along every run in which the data area grows to powers of two and what is not read yet keeps its
place, growing is safe. -/
theorem growSafe_of_grows (pagesize : ℕ) (ops : List FeedOp)
    (hops : Along step Grows (create pagesize) ops) :
    Along step GrowSafe (create pagesize) ops := by
  have hstep : ∀ (s : Feed) op r s', s.Inv → s.Grows op → s.step op = some (r, s') → s'.Inv ∧
      (r = .null → s' = s) ∧
        (s.event.mmapSize < s'.event.mmapSize → Readable s'.event s.unread) := by
    intro s op r s' hs hgrows hstep
    cases op with
    | ensure buffer_size => exact hs.ensure hgrows hstep
    | output buf =>
      obtain ⟨hs', rfl, hsize⟩ := hs.output hstep
      exact ⟨hs', by simp, fun hlt => absurd hsize hlt.ne'⟩
    | read =>
      obtain ⟨hs', hne, hsize⟩ := hs.read hstep
      exact ⟨hs', fun heq => absurd heq hne, fun hlt => absurd hsize hlt.ne'⟩
  refine along_of_invariant (C := Grows) (fun s op hs hgrows r s' hop => ?_)
    (fun s op r s' hs hgrows hop => (hstep s op r s' hs hgrows hop).1)
    (Or.inl ⟨rfl, rfl, Nat.two_pow_pos 64, rfl⟩) hops
  obtain ⟨hs', hnull, hread⟩ := hstep s op r s' hs hgrows hop
  exact ⟨hnull, hread, hs'.mmapSize_eq⟩

/-- An area of 32 bytes grows to 64 while a record is in it, and nothing more to read is left when
it grows to 128. -/
theorem growSafe_unread : Along step GrowSafe (create 4096)
    [.ensure 4128, .output [1, 2, 3], .ensure 4160, .read, .output [4, 5], .read, .ensure 4224] :=
  growSafe_of_grows 4096 _ (by decide +kernel)

/-- A record around the end of an area of 32 bytes. -/
def aroundTheEnd : List FeedOp := [.ensure 4128, .output [1, 2, 3], .read, .output [1, 2, 3, 4, 5, 6, 7, 8]]

/-- A call for an area of 48 bytes returns no pointer and leaves one. An area that grows to 64 bytes
takes the last bytes of a record that went around its end from behind the old end. -/
theorem not_growSafe : ¬ Along step GrowSafe (create 4096) [.ensure 4128, .ensure 4144] ∧
    ¬ Along step GrowSafe (create 4096) (aroundTheEnd ++ [.ensure 4160]) := by
  constructor
  · intro h
    have hsizes : (run step (create 4096) [.ensure 4128]).bind (fun p =>
        (p.2.step (.ensure 4144)).map fun q =>
        (q.1, p.2.event.mmapSize, q.2.event.mmapSize)) = some (.null, 32, 48) := by decide +kernel
    obtain ⟨⟨rs, s⟩, hrun, hstep⟩ := bind_eq_some_iff.mp hsizes
    obtain ⟨⟨r, s'⟩, hstep, heq⟩ := map_eq_some_iff.mp hstep
    simp only [Prod.mk.injEq] at heq
    obtain ⟨hnull, hsize, hsize'⟩ := heq
    have h' : Along step GrowSafe (create 4096) ([.ensure 4128] ++ [.ensure 4144]) := h
    have hlast : GrowSafe s (.ensure 4144) := h'.last hrun
    rw [(hlast r s' hstep).1 hnull, hsize] at hsize'
    cases hsize'
  · intro h
    have hread : (run step (create 4096) aroundTheEnd).bind (fun p => (p.2.step (.ensure 4160)).map fun q =>
        (p.2.unread, p.2.event.mmapSize, q.2.event.mmapSize, q.2.event.readNext.map (·.1))) =
        some ([[1, 2, 3, 4, 5, 6, 7, 8]], 32, 64, some (some [1, 2, 3, 4, 5, 0, 0, 0])) := by decide +kernel
    obtain ⟨⟨rs, s⟩, hrun, hstep⟩ := bind_eq_some_iff.mp hread
    obtain ⟨⟨r, s'⟩, hstep, heq⟩ := map_eq_some_iff.mp hstep
    simp only [Prod.mk.injEq] at heq
    obtain ⟨hunread, hsize, hsize', hread⟩ := heq
    have hreadable := (h.last hrun r s' hstep).2.1 (by rw [hsize, hsize']; decide)
    rw [hunread] at hreadable
    obtain ⟨e', hread', -⟩ := hreadable
    rw [hread'] at hread
    cases hread

end Feed

end PerfEvent

end Bpftime
