import Bpftime.Ringbuf.Delivery

/-!
# The positions of the ring buffer

The two positions and the headers between them say where the records in the ring are.
-/

namespace Bpftime

open Bytes Option List
open Runs (run Along run_invariant run_append)

namespace Ringbuf

/-- `has_data`. -/
def hasData (rb : Ringbuf) : Option Bool :=
  if rb.consumer_pos < rb.producer_pos then
    (rb.readLen (rb.consumer_pos &&& rb.mask)).map fun len => len &&& bpfRingbufBusyBit = 0
  else some false

/-- The positions that are visited from a position to `producer_pos` when each header says how far
the next one is. -/
def walk (rb : Ringbuf) : ℕ → ℕ → Option (List ℕ)
  | 0, pos => if pos = rb.producer_pos then some [] else none
  | fuel + 1, pos =>
    if pos = rb.producer_pos then some []
    else
      (rb.readLen (pos &&& rb.mask)).bind fun len => (walk rb fuel (pos + roundupLen len)).map (pos :: ·)

end Ringbuf

namespace Sys

def unconsumed (s : Sys) : List ℕ :=
  (List.range s.reservations.length).filter fun i => s.rb.consumer_pos ≤ start s.reservations i

def headerOff (s : Sys) (i : ℕ) : ℕ := start s.reservations i % s.rb.max_ent

/-- What the positions and the headers say about the records in the ring. -/
structure Positions (s : Sys) : Prop where
  le : s.rb.consumer_pos ≤ s.rb.producer_pos
  le_add : s.rb.producer_pos ≤ s.rb.consumer_pos + s.rb.max_ent
  eight_dvd : 8 ∣ s.rb.consumer_pos ∧ 8 ∣ s.rb.producer_pos
  /-- The headers lead from record to record. -/
  walk : ∃ fuel, s.rb.walk fuel s.rb.consumer_pos = some (s.unconsumed.map (start s.reservations))
  /-- The pointer that `reserve` returned is behind the header. -/
  ptr : ∀ i r, s.reservations[i]? = some r → r.ptr = (start s.reservations i + 8) % s.rb.max_ent
  inside : ∀ i r, i ∈ s.unconsumed → s.reservations[i]? = some r →
    s.headerOff i + 8 ≤ s.rb.max_ent * 2 ∧ r.ptr + r.size ≤ s.rb.max_ent * 2
  length_data : s.rb.data.length = s.rb.max_ent * 2
  apart : ∀ i j r t, i ∈ s.unconsumed → j ∈ s.unconsumed → i ≠ j → s.reservations[i]? = some r →
    s.reservations[j]? = some t → Apart (s.headerOff i) 8 (s.headerOff j) 8 ∧
      Apart (s.headerOff i) 8 t.ptr t.size ∧ Apart r.ptr r.size t.ptr t.size
  hasData : ∀ cb, ∃ f ret b, s.rb.fetchData cb = some (f, ret) ∧ s.rb.hasData = some b ∧
    (b = true ↔ s.rb.consumer_pos < f.rb.consumer_pos)

def stepLate (s : Sys) : Op → Option (Unit × Sys)
  | .write i j b =>
    match s.reservations[i]? with
    | none => some ((), s)
    | some r =>
      if s.rb.consumer_pos ≤ start s.reservations i ∧ j < r.size then
        (s.write i j b r).map fun s => ((), s)
      else some ((), s)
  | .reserve size self_fd => s.step (.reserve size self_fd)
  | .submit i discard => s.step (.submit i discard)
  | .fetch cb => s.step (.fetch cb)

/-- An admitted reservation does not move the producer past `2^64`. -/
def NoWrap (s : Sys) : Op → Prop
  | .reserve size _ => admits s.rb size.toNat → s.rb.producer_pos + recLen size.toNat < 2^64
  | _ => True

instance (s : Sys) : ∀ op, Decidable (NoWrap s op)
  | .reserve size _ =>
    inferInstanceAs (Decidable (admits s.rb size.toNat → s.rb.producer_pos + recLen size.toNat < 2^64))
  | .write .. | .submit .. | .fetch _ => isTrue trivial

/-! ## What the layout says -/

section

variable {e k : ℕ} {rb : Ringbuf} {rs : List Reservation} {s : Sys} {i : ℕ}

lemma start_le_iff (hi : i < rs.length) : start rs k ≤ start rs i ↔ k ≤ i := by
  refine ⟨fun hle => ?_, fun hle => start_mono rs hle⟩
  by_contra hlt
  have hr := getElem?_eq_getElem hi
  have hend := start_add_le hr (show i < k by omega)
  have hrec := add_eight_le_recLen (rs[i]).size
  omega

lemma Layout.unconsumed_eq (h : Layout e k s.rb s.reservations) :
    s.unconsumed = range' k (s.reservations.length - k) := by
  have hk := h.k_le
  have hsplit : range s.reservations.length = range' 0 k ++ range' k (s.reservations.length - k) := by
    have happ : range' 0 k ++ range' (0 + k) (s.reservations.length - k) =
        range' 0 (k + (s.reservations.length - k)) := range'_append_1
    rw [Nat.zero_add, Nat.add_sub_cancel' hk] at happ
    rw [range_eq_range', happ]
  unfold unconsumed
  rw [hsplit, filter_append, filter_eq_nil_iff.mpr, filter_eq_self.mpr, nil_append]
  · intro i hi
    obtain ⟨hle, hlt⟩ := mem_range'_1.mp hi
    rw [h.consumer_pos]
    exact decide_eq_true ((start_le_iff (by omega)).mpr hle)
  · intro i hi
    have hlt := (mem_range'_1.mp hi).2
    rw [h.consumer_pos, decide_eq_true_iff, start_le_iff (by omega)]
    omega

lemma Layout.mem_unconsumed (h : Layout e k s.rb s.reservations) (hi : i ∈ s.unconsumed) : k ≤ i := by
  rw [h.unconsumed_eq] at hi
  exact (mem_range'_1.mp hi).1

section

variable (h : Layout e k rb rs)
include h

lemma Layout.readLen_start {r : Reservation} (hki : k ≤ i)
    (hi : rs[i]? = some r) : rb.readLen (start rs i &&& rb.mask) = some r.headerWord := by
  rw [Ringbuf.and_mask h.e_le h.max_ent]
  exact h.header i r hki hi

lemma Layout.walk {n : ℕ} (hki : k ≤ i) (hn : i + n = rs.length) :
    rb.walk n (start rs i) = some ((range' i n).map (start rs)) := by
  induction n generalizing i with
  | zero =>
    rw [Ringbuf.walk, if_pos (by rw [h.producer_pos, ← hn]; rfl)]
    rfl
  | succ n ih =>
    have hlt : i < rs.length := by omega
    have hr := getElem?_eq_getElem hlt
    have hsize := (h.fits _ (mem_of_getElem? hr)).1
    have hend := h.end_le hr
    have hrec := add_eight_le_recLen (rs[i]).size
    rw [Ringbuf.walk, if_neg (by omega), h.readLen_start hki hr, bind_some,
      roundupLen_headerWord _ hsize, ← start_succ hr, ih (by omega) (by omega), map_some]
    rfl

lemma Layout.hasData : rb.hasData = some (decide (∃ r, rs[k]? = some r ∧ r.status ≠ .busy)) := by
  unfold Ringbuf.hasData
  split_ifs with hlt
  · have hk : k < rs.length := by
      by_contra hge
      have heq : k = rs.length := le_antisymm h.k_le (Nat.not_lt.mp hge)
      rw [h.consumer_pos, h.producer_pos, heq] at hlt
      exact lt_irrefl _ hlt
    have hr := getElem?_eq_getElem hk
    have hsize := (h.fits _ (mem_of_getElem? hr)).1
    rw [h.consumer_pos, h.readLen_start le_rfl hr, map_some]
    congr 1
    rw [decide_eq_decide, headerWord_and_busy _ hsize, hr]
    simp
  · -- Without a record between the positions there is none at all.
    congr 1
    rw [eq_comm, decide_eq_false_iff_not]
    rintro ⟨r, hr, -⟩
    have hend := h.end_le hr
    have hrec := add_eight_le_recLen r.size
    rw [h.consumer_pos] at hlt
    omega

lemma Layout.hasData_iff (cb : Ringbuf.Callback) :
    ∃ f ret b, rb.fetchData cb = some (f, ret) ∧ rb.hasData = some b ∧
      (b = true ↔ rb.consumer_pos < f.rb.consumer_pos) := by
  obtain ⟨k', f, ret, hf, hkk, hL, hready, -, -⟩ := h.fetchData cb
  refine ⟨f, ret, _, hf, h.hasData, ?_⟩
  have hk' := hL.k_le
  rw [decide_eq_true_iff, h.consumer_pos, hL.consumer_pos]
  constructor
  · rintro ⟨r, hr, hb⟩
    have hlt := hready r hr hb
    have hend := start_add_le hr hlt
    have hrec := add_eight_le_recLen r.size
    omega
  · intro hlt
    have hkk' : k < k' := lt_of_le_of_ne hkk fun heq => by
      rw [heq] at hlt
      exact lt_irrefl _ hlt
    have hr := getElem?_eq_getElem (l := rs) (i := k) (by omega)
    exact ⟨_, hr, hL.consumed k _ hkk' hr⟩

end

lemma Layout.positions (h : Layout e k s.rb s.reservations) : Positions s where
  le := by
    rw [h.consumer_pos, h.producer_pos]
    exact start_mono _ h.k_le
  le_add := by
    rw [h.consumer_pos, h.max_ent]
    exact h.window
  eight_dvd := by
    rw [h.consumer_pos, h.producer_pos]
    exact ⟨eight_dvd_startPos _ _, eight_dvd_startPos _ _⟩
  walk := by
    have hk := h.k_le
    refine ⟨s.reservations.length - k, ?_⟩
    rw [h.consumer_pos, h.walk le_rfl (by omega), h.unconsumed_eq]
  ptr := by
    rw [h.max_ent]
    exact h.ptr
  inside i r _ hi := by
    have hheader := h.header_add_le hi
    have hpayload := h.ptr_add_le hi
    rw [h.length_data] at hheader hpayload
    unfold headerOff
    rw [h.max_ent]
    exact ⟨hheader, hpayload⟩
  length_data := by
    rw [h.max_ent]
    exact h.length_data
  apart i j r t hi hj hij hr ht := by
    have hki := h.mem_unconsumed hi
    have hkj := h.mem_unconsumed hj
    have hrec := add_eight_le_recLen r.size
    have hrec' := add_eight_le_recLen t.size
    unfold headerOff
    rw [h.max_ent]
    refine ⟨h.apart_of_ne 0 8 0 8 hki hkj hij hr ht (by omega) (by omega),
      h.header_apart_payload hki hkj hr ht, ?_⟩
    rw [h.ptr i r hr, h.ptr j t ht]
    exact h.apart_of_ne 8 r.size 8 t.size hki hkj hij hr ht (by omega) (by omega)
  hasData := h.hasData_iff

end

section

variable {e : ℕ}

lemma layout_stepLate (s : Sys) (op : Op) (h : ∃ k, Layout e k s.rb s.reservations) (hC : NoWrap s op) :
    ∃ u s', stepLate s op = some (u, s') ∧ ∃ k, Layout e k s'.rb s'.reservations := by
  obtain ⟨k, hL⟩ := h
  cases op with
  | reserve size self_fd =>
    by_cases hyes : admits s.rb size.toNat
    · obtain ⟨data, hres, hag, hhead⟩ := hL.reserve_admitted self_fd size.toNat_lt hyes
      exact ⟨(), _, by rw [stepLate, step, hres, map_some], k, hL.reserve hyes (hC hyes) hag hhead⟩
    · obtain ⟨err, hres⟩ := hL.reserve_refused self_fd size.toNat_lt hyes
      exact ⟨(), s, by rw [stepLate, step, hres, map_some], k, hL⟩
  | write i j b =>
    rw [stepLate]
    cases hi : s.reservations[i]? with
    | none => exact ⟨(), s, rfl, k, hL⟩
    | some r =>
      dsimp only
      split_ifs with hw
      · have hki : k ≤ i := by
          rw [hL.consumer_pos] at hw
          exact (start_le_iff (List.getElem?_eq_some_iff.mp hi).1).mp hw.1
        obtain ⟨data, hwr, hL'⟩ := hL.write (b := b) hki hi hw.2
        exact ⟨(), _, by rw [write, hwr, map_some, map_some], k, hL'⟩
      · exact ⟨(), s, rfl, k, hL⟩
  | submit i discard =>
    rw [stepLate, step]
    cases hi : s.reservations[i]? with
    | none => exact ⟨(), s, rfl, k, hL⟩
    | some r =>
      dsimp only
      split_ifs with hb
      · obtain ⟨rb, hsub, hL'⟩ := hL.submit discard hi hb
        exact ⟨(), _, by rw [hsub, map_some], k, hL'⟩
      · exact ⟨(), s, rfl, k, hL⟩
  | fetch cb =>
    obtain ⟨k', f, ret, hf, -, hL', -⟩ := hL.fetchData cb
    exact ⟨(), _, by rw [stepLate, step, hf, map_some], k', hL'⟩

lemma layout_init {page_size : ℕ} (he : e ≤ 30) (hpage : page_size < 2^30) :
    ∃ k, Layout e k (init page_size (2^e)).rb (init page_size (2^e)).reservations := by
  have h30 : 2^e ≤ 2^30 := Nat.pow_le_pow_right (by norm_num) he
  have hinv : Inv e (init page_size (2^e)) := inv_init (by omega)
  obtain ⟨k, hL, -⟩ := hinv
  exact ⟨k, hL⟩

/-- As long as fewer than `2^64` bytes have been reserved, the positions and the headers say where
the records in the ring are. -/
theorem positions_of_noWrap (page_size : ℕ) (he : e ≤ 30) (hpage : page_size < 2^30) (ops : List Op)
    (hops : Along stepLate NoWrap (init page_size (2^e)) ops) :
    ∃ us s, run stepLate (init page_size (2^e)) ops = some (us, s) ∧ Positions s := by
  obtain ⟨us, s, hrun, k, hL⟩ := run_invariant layout_stepLate (layout_init he hpage) hops
  exact ⟨us, s, hrun, hL.positions⟩

def lateWrite : List Op :=
  [.reserve 0 3, .submit 0 false, .fetch fun _ _ => 0, .reserve 1 3, .submit 1 false, .write 1 0 0xab]

theorem positions_of_noWrap_lateWrite : Along stepLate NoWrap (init 4096 (2^4)) lateWrite ∧
      ∃ us s, run stepLate (init 4096 (2^4)) lateWrite = some (us, s) ∧ Positions s := by
  have hops : Along stepLate NoWrap (init 4096 (2^4)) lateWrite := by decide +kernel
  exact ⟨hops, positions_of_noWrap 4096 (by decide) (by decide) lateWrite hops⟩

end

variable {n : ℕ}

lemma Layout.consumer_eq {e : ℕ} {rb : Ringbuf} {rs : List Reservation} (h : Layout e n rb rs)
    (hn : rs.length = n) : rb.consumer_pos = rb.producer_pos := by rw [h.consumer_pos, h.producer_pos, hn]

lemma Layout.admits_zero {rb : Ringbuf} {rs : List Reservation} (h : Layout 3 n rb rs)
    (hn : rs.length = n) : admits rb 0 := by
  refine ⟨Nat.zero_and _, ?_, ?_⟩
  · rw [h.max_ent]
    decide
  · rw [h.max_ent, h.consumer_eq hn]
    exact le_rfl

/-- An empty record that was reserved at a position in a ring of eight bytes. -/
def emptyRecord (pos : ℕ) : Reservation := ⟨0, (pos + 8) % 2^3, fun _ => none, .busy⟩

lemma Layout.reserve_zero {s : Sys} (h : Layout 3 n s.rb s.reservations)
    (hn : s.reservations.length = n) : ∃ data, stepLate s (.reserve 0 3) = some ((), { s with
        rb := { s.rb with data := data, producer_pos := add64 s.rb.producer_pos 8 }
        reservations := s.reservations ++ [emptyRecord s.rb.producer_pos] }) ∧
      (s.rb.producer_pos + 8 < 2^64 →
        Layout 3 n { s.rb with data := data, producer_pos := add64 s.rb.producer_pos 8 }
          (s.reservations ++ [emptyRecord s.rb.producer_pos])) := by
  have hyes := h.admits_zero hn
  obtain ⟨data, hres, hag, hhead⟩ := h.reserve_admitted 3 (by decide) hyes
  refine ⟨data, ?_, fun hpos => h.reserve hyes hpos hag hhead⟩
  rw [stepLate, step, show (0 : UInt64).toNat = 0 from rfl, hres, map_some]
  rfl

lemma exists_round {s : Sys} (h : Layout 3 n s.rb s.reservations)
    (hn : s.reservations.length = n) (hpos : s.rb.producer_pos + 8 < 2^64) :
    ∃ us s', run stepLate s [.reserve 0 3, .submit n false, .fetch fun _ _ => 0] = some (us, s') ∧
      Layout 3 (n + 1) s'.rb s'.reservations ∧ s'.reservations.length = n + 1 ∧
      s'.rb.producer_pos = s.rb.producer_pos + 8 := by
  obtain ⟨data, hstep, hL1⟩ := h.reserve_zero hn
  replace hL1 := hL1 hpos
  have hlast : (s.reservations ++ [emptyRecord s.rb.producer_pos])[n]? =
      some (emptyRecord s.rb.producer_pos) := by
    rw [← hn]
    exact getElem?_concat_length
  have hlen : n < (s.reservations ++ [emptyRecord s.rb.producer_pos]).length := by simp [hn]
  obtain ⟨rb2, hsub, hL2⟩ := hL1.submit false hlast rfl
  obtain ⟨k', f, ret, hf, -, hL3, hready, -⟩ := hL2.fetchData fun _ _ => 0
  -- The record is submitted, so that the consumer passes it.
  have hk' : k' = n + 1 := by
    have hlt := hready _ (getElem?_set_self hlen) (by simp)
    have hle := hL3.k_le
    rw [length_set, length_append, hn, length_singleton] at hle
    omega
  subst hk'
  have hset : ∀ j, start ((s.reservations ++ [emptyRecord s.rb.producer_pos]).set n
      { emptyRecord s.rb.producer_pos with status := .submitted false }) j =
        start (s.reservations ++ [emptyRecord s.rb.producer_pos]) j := start_set hlast rfl
  refine ⟨[(), (), ()], ⟨f.rb, _, s.delivered ++ f.samples⟩, ?_, hL3, ?_, ?_⟩
  · have hbusy : (emptyRecord s.rb.producer_pos).status = .busy := rfl
    rw [Runs.run_cons hstep]
    simp only [run, stepLate, step, hlast, hbusy, if_true, hsub, map_some, hf]
  · rw [length_set, length_append, hn, length_singleton]
  · rw [hL3.producer_pos, length_set, length_append, length_singleton, hset,
      start_succ (by rw [hn]; exact hlast), start_append le_rfl, ← h.producer_pos]
    simp [emptyRecord, recLen]

lemma exists_rounds (n : ℕ) (hn : 8 * n < 2^64) : ∃ ops us s,
    run stepLate (init 4096 (2^3)) ops = some (us, s) ∧ Layout 3 n s.rb s.reservations ∧
      s.reservations.length = n ∧ s.rb.producer_pos = 8 * n := by
  induction n with
  | zero =>
    obtain ⟨k, hL⟩ : ∃ k, Layout 3 k (init 4096 (2^3)).rb (init 4096 (2^3)).reservations :=
      layout_init (by decide) (by decide)
    obtain rfl : k = 0 := Nat.le_zero.mp hL.k_le
    exact ⟨[], [], _, rfl, hL, rfl, rfl⟩
  | succ n ih =>
    obtain ⟨ops, us, s, hrun, hL, hlen, hpos⟩ := ih (by omega)
    obtain ⟨us', s', hrun', hL', hlen', hpos'⟩ := exists_round hL hlen (by omega)
    refine ⟨ops ++ [.reserve 0 3, .submit n false, .fetch fun _ _ => 0], us ++ us', s', ?_, hL',
      hlen', by omega⟩
    rw [run_append hrun, hrun']
    rfl

/-- After `2^64` bytes the producer stands before the consumer. -/
theorem not_positions_of_wrap : ∃ ops us s,
    run stepLate (init 4096 (2^3)) ops = some (us, s) ∧ s.rb.consumer_pos = 2^64 - 8 ∧
      s.rb.producer_pos = 0 ∧ ¬ Positions s := by
  obtain ⟨ops, us, s, hrun, hL, hlen, hpos⟩ := exists_rounds (2^61 - 1) (by decide)
  have hcons := hL.consumer_eq hlen
  obtain ⟨data, hstep, -⟩ := hL.reserve_zero hlen
  have hzero : add64 s.rb.producer_pos 8 = 0 := by
    rw [hpos]
    rfl
  refine ⟨ops ++ [.reserve 0 3], us ++ [()], { s with
    rb := { s.rb with data := data, producer_pos := add64 s.rb.producer_pos 8 }
    reservations := s.reservations ++ [emptyRecord s.rb.producer_pos] }, ?_, ?_, hzero, fun hP => ?_⟩
  · rw [run_append hrun, Runs.run_cons hstep]
    rfl
  · dsimp only
    omega
  · have hle : s.rb.consumer_pos ≤ add64 s.rb.producer_pos 8 := hP.le
    omega

end Sys

end Bpftime
