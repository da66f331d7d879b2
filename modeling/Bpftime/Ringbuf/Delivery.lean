import Bpftime.Ringbuf.Steps

/-!
# What the consumer receives

`fetch_data` walks the chain of headers from the consumer to the producer.
-/

namespace Bpftime

open Bytes Runs Option List Nat

def Reservation.kept (r : Reservation) : Bool := r.status = .submitted false

def Reservation.ready (r : Reservation) : Bool := r.status ≠ .busy

/-- The sample is the record: as long as the size reserved, with the bytes written. -/
def Matches (sample : List UInt8) (r : Reservation) : Prop :=
  sample.length = r.size ∧ ∀ j b, r.written j = some b → sample[j]? = some b

namespace Ringbuf

section Rounds

variable {cb : Callback} {prod_pos fuel len : ℕ} {f : Fetch}

lemma drain_end (h : ¬ f.cons_pos < prod_pos) : drain cb prod_pos (fuel + 1) f = some (f, .drained) := by
  rw [drain, if_neg h]

variable (hpos : f.cons_pos < prod_pos)
  (hlen : f.rb.readLen (f.cons_pos &&& f.rb.mask) = some len)

include hpos hlen

lemma drain_busy (hb : len &&& bpfRingbufBusyBit ≠ 0) :
    drain cb prod_pos (fuel + 1) f = some (f, .busy) := by
  rw [drain, if_pos hpos]
  dsimp only
  rw [hlen, bind_some, if_pos hb]

lemma drain_discard (hb : len &&& bpfRingbufBusyBit = 0) (hd : len &&& bpfRingbufDiscardBit ≠ 0) :
    drain cb prod_pos (fuel + 1) f = let cons_pos := add64 f.cons_pos (roundupLen len)
      drain cb prod_pos fuel
        { f with rb := { f.rb with consumer_pos := cons_pos }, cons_pos, got_new_data := true } := by
  rw [drain, if_pos hpos]
  dsimp only
  rw [hlen, bind_some, if_neg (not_not.mpr hb), if_neg hd]

lemma drain_deliver {sample : List UInt8} (hb : len &&& bpfRingbufBusyBit = 0)
    (hd : len &&& bpfRingbufDiscardBit = 0)
    (hs : readRange f.rb.data ((f.cons_pos &&& f.rb.mask) + bpfRingbufHdrSz) len = some sample) :
    drain cb prod_pos (fuel + 1) f = let cons_pos := add64 f.cons_pos (roundupLen len)
      let rb := { f.rb with consumer_pos := cons_pos }
      let samples := f.samples ++ [sample]
      if cb f.samples sample < 0 then
        some ({ f with rb, cons_pos, samples, got_new_data := true }, .stopped (cb f.samples sample))
      else
        drain cb prod_pos fuel
          { rb, cons_pos, samples, got_new_data := true, cnt := f.cnt + 1 } := by
  rw [drain, if_pos hpos]
  dsimp only
  rw [hlen, bind_some, if_neg (not_not.mpr hb), if_pos hd, hs, bind_some]

end Rounds

end Ringbuf

namespace Sys

/-- No record with a payload has its header in the last eight bytes of the ring. -/
def Straight (e : ℕ) (rs : List Reservation) : Prop :=
  ∀ i r, rs[i]? = some r → r.size = 0 ∨ start rs i % 2^e + 8 ≠ 2^e

/-! ## The whole loop -/

variable {i : ℕ} {r : Reservation}

lemma le_start {rs : List Reservation} (h : i ≤ rs.length) : i ≤ start rs i := by
  induction i with
  | zero => exact Nat.zero_le _
  | succ i ih =>
    have hr := getElem?_eq_getElem (l := rs) (i := i) (by omega)
    have hlen := add_eight_le_recLen (rs[i]).size
    have hi := ih (by omega)
    rw [start_succ hr]
    omega

variable {e k : ℕ} {rb : Ringbuf} {rs : List Reservation}

lemma Layout.advance (h : Layout e k rb rs) (hr : rs[k]? = some r) (hb : r.status ≠ .busy) :
    Layout e (k + 1) { rb with consumer_pos := start rs (k + 1) } rs where
  e_le := h.e_le
  max_ent := h.max_ent
  length_data := h.length_data
  producer_pos := h.producer_pos
  producer_lt := h.producer_lt
  consumer_pos := rfl
  k_le := (List.getElem?_eq_some_iff.mp hr).1
  window := by
    have hwin := h.window
    have hmono := start_mono rs (Nat.le_add_right k 1)
    dsimp only
    omega
  fits := h.fits
  ptr := h.ptr
  header i t hi ht := h.header i t (by omega) ht
  written i t hi ht := h.written i t (by omega) ht
  consumed i t hi ht := by
    rcases Nat.lt_succ_iff_lt_or_eq.mp hi with hlt | rfl
    · exact h.consumed i t hlt ht
    · rw [ht, some.injEq] at hr
      rw [hr]
      exact hb

lemma Layout.sample (h : Layout e k rb rs) (hki : k ≤ i) (hr : rs[i]? = some r) :
    ∃ sample, readRange rb.data (start rs i % 2^e + 8) r.size = some sample ∧
    (Straight e rs → Matches sample r) := by
  have hle := (h.fits r (mem_of_getElem? hr)).2
  have hrec := add_eight_le_recLen r.size
  have hM : start rs i % 2^e < 2^e := mod_lt _ (Nat.two_pow_pos e)
  have hlen := h.length_data
  obtain ⟨sample, hsample⟩ := readRange_isSome rb.data (start rs i % 2^e + 8) r.size (by omega)
  refine ⟨sample, hsample, fun hst => ⟨(readRange_eq_some.mp hsample).2.1, fun j b hj => ?_⟩⟩
  obtain ⟨hjs, hbyte⟩ := h.written i r hki hr j b hj
  have hptr : r.ptr = start rs i % 2^e + 8 := by
    -- Offsets are multiples of eight, so that the header ends inside the ring.
    have h8 : 8 ∣ 2^e := by
      have he : 3 ≤ e := by
        by_contra hlt
        have : 2^e ≤ 2^2 := Nat.pow_le_pow_right (by norm_num) (by omega)
        omega
      exact pow_dvd_pow 2 he
    have hd : 8 ∣ start rs i % 2^e := (dvd_mod_iff h8).mpr (eight_dvd_startPos _ i)
    have hne := (hst i r hr).resolve_left (by omega)
    rw [h.ptr i r hr, add_mod, mod_eq_of_lt (show 8 < 2^e by omega), mod_eq_of_lt]
    omega
  rw [(readRange_eq_some.mp hsample).2.2 j hjs, ← hptr, hbyte]

/-- What the end of the inner loop at record `k'` says about that record. -/
def EndsAt (cb : Ringbuf.Callback) (rs : List Reservation) (k' : ℕ) : Ringbuf.Exit → Prop
  | .drained => k' = rs.length
  | .busy => ∃ r, rs[k']? = some r ∧ r.status = .busy
  | .stopped _ => ∃ samples sample, cb samples sample < 0

/-- The records from `k` to `k'` that are to be delivered. -/
def keptBetween (rs : List Reservation) (k k' : ℕ) : List Reservation :=
  ((rs.take k').drop k).filter Reservation.kept

lemma keptBetween_self (rs : List Reservation) (k : ℕ) : keptBetween rs k k = [] := by
  unfold keptBetween
  rw [drop_eq_nil_of_le (by rw [length_take]; omega), filter_nil]

lemma keptBetween_cons {rs : List Reservation} {k k' : ℕ} (hr : rs[k]? = some r) (hk : k < k') :
    keptBetween rs k k' = if r.kept then r :: keptBetween rs (k + 1) k'
    else keptBetween rs (k + 1) k' := by
  obtain ⟨hlt, rfl⟩ := List.getElem?_eq_some_iff.mp hr
  unfold keptBetween
  rw [drop_eq_getElem_cons (by rw [length_take]; omega), getElem_take, filter_cons]

lemma filter_take_append (rs : List Reservation) {k k' : ℕ} (h : k ≤ k') :
    (rs.take k').filter Reservation.kept = (rs.take k).filter Reservation.kept ++ keptBetween rs k k' := by
  unfold keptBetween
  rw [← filter_append]
  congr 1
  conv_lhs => rw [← take_append_drop k (rs.take k')]
  rw [take_take, Nat.min_eq_left h]

/-- What the inner loop does from record `k` to `k'`, with the samples that it delivers. -/
structure Drained (cb : Ringbuf.Callback) (e : ℕ) (rs : List Reservation) (k k' : ℕ) (f f' : Ringbuf.Fetch)
    (ex : Ringbuf.Exit) (samples : List (List UInt8)) : Prop where
  le : k ≤ k'
  layout : Layout e k' f'.rb rs
  producer_pos : f'.rb.producer_pos = f.rb.producer_pos
  cons_pos : f'.cons_pos = f'.rb.consumer_pos
  ends : EndsAt cb rs k' ex
  samples_eq : f'.samples = f.samples ++ samples
  matched : Straight e rs → List.Forall₂ Matches samples (keptBetween rs k k')

section Drained

variable {cb : Ringbuf.Callback} {k' : ℕ} {f f1 f' : Ringbuf.Fetch} {ex : Ringbuf.Exit}
  {samples : List (List UInt8)}

lemma Drained.stay (h : Layout e k f.rb rs) (hcons : f.cons_pos = f.rb.consumer_pos)
    (hends : EndsAt cb rs k ex) : Drained cb e rs k k f f ex [] where
  le := le_rfl
  layout := h
  producer_pos := rfl
  cons_pos := hcons
  ends := hends
  samples_eq := (append_nil _).symm
  matched _ := by
    rw [keptBetween_self]
    exact Forall₂.nil

/-- The loop passes a record, which is delivered if it is to be. -/
lemma Drained.pass (hr : rs[k]? = some r) {new : List (List UInt8)}
    (h : Drained cb e rs (k + 1) k' f1 f' ex samples)
    (hprod : f1.rb.producer_pos = f.rb.producer_pos) (hsamples : f1.samples = f.samples ++ new)
    (hnew : Straight e rs → Forall₂ Matches new (if r.kept then [r] else [])) :
    Drained cb e rs k k' f f' ex (new ++ samples) where
  le := le_of_succ_le h.le
  layout := h.layout
  producer_pos := h.producer_pos.trans hprod
  cons_pos := h.cons_pos
  ends := h.ends
  samples_eq := by rw [h.samples_eq, hsamples, append_assoc]
  matched hst := by
    have happend : keptBetween rs k k' = (if r.kept then [r] else []) ++ keptBetween rs (k + 1) k' := by
      rw [keptBetween_cons hr h.le]
      split_ifs <;> rfl
    rw [happend]
    exact rel_append (hnew hst) (h.matched hst)

end Drained

open Ringbuf in
/-- The inner loop delivers the records submitted to be delivered, up to where it ends. -/
lemma drain_spec (cb : Callback) (fuel k : ℕ) (f : Fetch) (h : Layout e k f.rb rs)
    (hcons : f.cons_pos = f.rb.consumer_pos) (hfuel : rs.length < fuel + k) :
    ∃ k' f' ex samples, drain cb f.rb.producer_pos fuel f = some (f', ex) ∧
    Drained cb e rs k k' f f' ex samples ∧ ∀ r, rs[k]? = some r → r.status ≠ .busy → k < k' := by
  have hk := h.k_le
  induction fuel generalizing k f with
  | zero => omega
  | succ fuel ih =>
    rcases Nat.lt_or_ge k rs.length with hlt | hge
    · -- There is a record at the consumer.
      have hr := getElem?_eq_getElem hlt
      generalize rs[k] = r at hr
      have hsize := (h.fits r (mem_of_getElem? hr)).1
      have hend := h.end_le hr
      have hplt := h.producer_lt
      have hsucc := start_succ hr
      have hrec := add_eight_le_recLen r.size
      have hpos : f.cons_pos < f.rb.producer_pos := by rw [hcons, h.consumer_pos]; omega
      have hlen : f.rb.readLen (f.cons_pos &&& f.rb.mask) = some r.headerWord := by
        rw [and_mask h.e_le h.max_ent, hcons, h.consumer_pos]
        exact h.header k r le_rfl hr
      by_cases hb : r.status = .busy
      · refine ⟨k, f, .busy, [], ?_, .stay h hcons ⟨r, hr, hb⟩, fun t ht hready => ?_⟩
        · exact drain_busy hpos hlen fun h0 => ((headerWord_and_busy r hsize).mp h0) hb
        · rw [hr, some.injEq] at ht
          exact absurd (ht ▸ hb) hready
      · -- It is submitted, and the consumer passes it.
        have hnext : add64 f.cons_pos (roundupLen r.headerWord) = start rs (k + 1) := by
          rw [roundupLen_headerWord r hsize, hcons, h.consumer_pos, hsucc, add64_of_lt (by omega)]
        obtain ⟨d, hd⟩ : ∃ d, r.status = .submitted d := by
          cases hst' : r.status with
          | busy => exact absurd hst' hb
          | submitted d => exact ⟨d, rfl⟩
        have hadv := h.advance hr hb
        have hnb := (headerWord_and_busy r hsize).mpr hb
        cases d with
        | true =>
          have hkept : r.kept = false := by unfold Reservation.kept; rw [hd]; rfl
          obtain ⟨k', f', ex, samples, hrun, hdrained, -⟩ :=
            ih (k + 1) ⟨_, _, f.cnt, true, f.samples⟩ hadv rfl (by omega) hadv.k_le
          refine ⟨k', f', ex, samples, ?_, hdrained.pass (f :=
            f) hr rfl (append_nil _).symm fun _ => ?_, fun _ _ _ => hdrained.le⟩
          · rw [drain_discard hpos hlen hnb
              ((headerWord_and_discard r true hsize hd).not.mpr (by simp)), hnext]
            exact hrun
          · rw [hkept]
            exact Forall₂.nil
        | false =>
          have hkept : r.kept = true := by unfold Reservation.kept; rw [hd]; rfl
          have hword : r.headerWord = r.size := by unfold Reservation.headerWord; rw [hd]
          have hnd := (headerWord_and_discard r false hsize hd).mpr rfl
          obtain ⟨sample, hsample, hmatch⟩ := h.sample le_rfl hr
          have hread : readRange f.rb.data ((f.cons_pos &&& f.rb.mask) + bpfRingbufHdrSz)
              r.headerWord = some sample := by
            rw [and_mask h.e_le h.max_ent, hcons, h.consumer_pos, hword]
            exact hsample
          have hnew : Straight e rs → Forall₂ Matches [sample] (if r.kept then [r] else []) := fun hst => by
            rw [hkept]
            exact Forall₂.cons (hmatch hst) Forall₂.nil
          by_cases herr : cb f.samples sample < 0
          · have hstopped : Drained cb e rs (k + 1) (k + 1) ⟨_, _, f.cnt, true, f.samples ++ [sample]⟩ _
              (.stopped (cb f.samples sample)) [] := .stay hadv rfl ⟨_, _, herr⟩
            refine ⟨k + 1, _, _, _, ?_, hstopped.pass hr rfl rfl hnew, fun _ _ _ => hstopped.le⟩
            rw [drain_deliver hpos hlen hnb hnd hread, hnext]
            exact if_pos herr
          · obtain ⟨k', f', ex, samples, hrun, hdrained, -⟩ :=
              ih (k + 1) ⟨_, _, f.cnt + 1, true, f.samples ++ [sample]⟩ hadv rfl (by omega) hadv.k_le
            refine ⟨k', f', ex, _, ?_, hdrained.pass hr rfl rfl hnew, fun _ _ _ => hdrained.le⟩
            rw [drain_deliver hpos hlen hnb hnd hread, hnext]
            exact (if_neg herr).trans hrun
    · -- The consumer has reached the producer.
      have hkn : k = rs.length := by omega
      refine ⟨k, f, .drained, [], drain_end ?_, .stay h hcons hkn, fun t ht => ?_⟩
      · rw [hcons, h.consumer_pos, h.producer_pos, hkn]
        exact lt_irrefl _
      · exact absurd (List.getElem?_eq_some_iff.mp ht).1 (by omega)

open Ringbuf in
lemma Layout.fetchData (h : Layout e k rb rs) (cb : Callback) :
    ∃ k' f ret, rb.fetchData cb = some (f, ret) ∧ k ≤ k' ∧ Layout e k' f.rb rs ∧
    (∀ r, rs[k]? = some r → r.status ≠ .busy → k < k') ∧
    (Straight e rs → Forall₂ Matches f.samples (keptBetween rs k k')) ∧
    ((∀ samples sample, 0 ≤ cb samples sample) → k' = rs.length ∨ ∃ r, rs[k']? = some r ∧
    r.status = .busy) := by
  have hn : rs.length ≤ rb.producer_pos := by
    rw [h.producer_pos]
    exact le_start le_rfl
  obtain ⟨k', f', ex, samples, hrun, ⟨hkk, hL, hp, hc, hends, hsamp, hall⟩, hready⟩ :=
    drain_spec cb (rb.producer_pos + 2) k ⟨rb, rb.consumer_pos, 0, false, []⟩ h rfl (by omega)
  rw [nil_append] at hsamp
  subst hsamp
  unfold Ringbuf.fetchData
  dsimp only
  rw [fetchLoop, hrun, bind_some]
  cases ex with
  | busy => exact ⟨k', f', f'.cnt, rfl, hkk, hL, hready, hall, fun _ => .inr hends⟩
  | stopped err =>
    refine ⟨k', f', err, rfl, hkk, hL, hready, hall, fun hcb => ?_⟩
    obtain ⟨samples, sample, hneg⟩ := hends
    exact absurd (hcb samples sample) (by omega)
  | drained =>
    dsimp only
    split_ifs with hnew
    · -- The second round finds the consumer at the producer.
      have hend : ¬ f'.cons_pos < f'.rb.producer_pos := by
        rw [hc, hL.consumer_pos, hp, h.producer_pos, show k' = rs.length from hends]
        exact lt_irrefl _
      refine ⟨k', { f' with got_new_data := false }, f'.cnt, ?_, hkk, hL, hready, hall, fun _ => .inl hends⟩
      rw [fetchLoop, drain_end (by exact hend), bind_some]
      rfl
    · exact ⟨k', f', f'.cnt, rfl, hkk, hL, hready, hall, fun _ => .inl hends⟩

/-! ## Runs -/

/-- The records that are to be delivered: those submitted to be delivered with no busy record
before them. -/
def deliverable (rs : List Reservation) : List Reservation :=
  (rs.takeWhile Reservation.ready).filter Reservation.kept

/-- The samples delivered so far are the records to be delivered among the first ones, in order,
each once and as it was written. -/
def DeliveredInOrder (s : Sys) : Prop :=
  ∃ k, (∀ r ∈ s.reservations.take k, r.status ≠ .busy) ∧
    List.Forall₂ Matches s.delivered ((s.reservations.take k).filter Reservation.kept)

/-- The ring of `max_ent` bytes delivers along a run: what was delivered after it is in order, and a
call of `fetch_data` after it leaves exactly the records that are to be delivered. -/
def Delivers (page_size max_ent : ℕ) (ops : List Op) : Prop :=
  ∃ rs s, run step (init page_size max_ent) ops = some (rs, s) ∧ DeliveredInOrder s ∧
    ∀ cb, (∀ samples sample, 0 ≤ cb samples sample) →
      ∃ s', step s (.fetch cb) = some ((), s') ∧ s'.reservations = s.reservations ∧
        List.Forall₂ Matches s'.delivered (deliverable s.reservations)

/-- An admitted reservation with a payload does not put its header into the last eight bytes of the
ring, nor move the producer past `2^64`. -/
def Clear (s : Sys) : Op → Prop
  | .reserve size _ => admits s.rb size.toNat → (size = 0 ∨ s.rb.producer_pos % s.rb.max_ent + 8 ≠ s.rb.max_ent) ∧
        s.rb.producer_pos + recLen size.toNat < 2^64
  | _ => True

def Inv (e : ℕ) (s : Sys) : Prop :=
  ∃ k, Layout e k s.rb s.reservations ∧ Straight e s.reservations ∧
    List.Forall₂ Matches s.delivered ((s.reservations.take k).filter Reservation.kept)

lemma Inv.set {s : Sys} {r' : Reservation} {rb : Ringbuf} (hki : k ≤ i)
    (hi : s.reservations[i]? = some r) (hsize : r'.size = r.size)
    (hL : Layout e k rb (s.reservations.set i r'))
    (hst : Straight e s.reservations)
    (hall : Forall₂ Matches s.delivered ((s.reservations.take k).filter Reservation.kept)) :
    Inv e { s with rb := rb, reservations := s.reservations.set i r' } := by
  refine ⟨k, hL, ?_, ?_⟩
  · intro j t hj
    rw [start_set hi hsize]
    rw [getElem?_set] at hj
    split_ifs at hj with hij
    · rw [← some.inj hj, hsize, ← hij]
      exact hst i r hi
    · exact hst j t hj
  · rw [take_set_of_le hki]
    exact hall

lemma inv_step (s : Sys) (op : Op) (h : Inv e s) (hC : Clear s op) :
    ∃ u s', step s op = some (u, s') ∧ Inv e s' := by
  obtain ⟨k, hL, hst, hall⟩ := h
  cases op with
  | reserve size self_fd =>
    by_cases hyes : admits s.rb size.toNat
    · obtain ⟨hend, hwrap⟩ := hC hyes
      obtain ⟨data, hres, hag, hhead⟩ := hL.reserve_admitted self_fd size.toNat_lt hyes
      refine ⟨(), _, by rw [step, hres, map_some], k, hL.reserve hyes hwrap hag hhead, ?_, ?_⟩
      · intro j t hj
        rw [getElem?_append] at hj
        split_ifs at hj with hlt
        · rw [start_append (by omega)]
          exact hst j t hj
        · -- The new record.
          rw [getElem?_singleton] at hj
          split_ifs at hj with h0
          have hjn : j = s.reservations.length := by omega
          rw [← some.inj hj, hjn, start_append le_rfl, ← hL.producer_pos, ← hL.max_ent]
          rcases hend with rfl | hne
          · exact .inl rfl
          · exact .inr hne
      · rw [take_append_of_le_length hL.k_le]
        exact hall
    · obtain ⟨err, hres⟩ := hL.reserve_refused self_fd size.toNat_lt hyes
      exact ⟨(), s, by rw [step, hres, map_some], k, hL, hst, hall⟩
  | write i j b =>
    rw [step]
    cases hi : s.reservations[i]? with
    | none => exact ⟨(), s, rfl, k, hL, hst, hall⟩
    | some r =>
      dsimp only
      split_ifs with hw
      · obtain ⟨data, hwr, hL'⟩ := hL.write (b := b) (hL.le_of_busy hi hw.1) hi hw.2
        refine ⟨(), _, by rw [write, hwr, map_some, map_some], ?_⟩
        exact Inv.set (hL.le_of_busy hi hw.1) hi rfl hL' hst hall
      · exact ⟨(), s, rfl, k, hL, hst, hall⟩
  | submit i discard =>
    rw [step]
    cases hi : s.reservations[i]? with
    | none => exact ⟨(), s, rfl, k, hL, hst, hall⟩
    | some r =>
      dsimp only
      split_ifs with hb
      · obtain ⟨rb, hsub, hL'⟩ := hL.submit discard hi hb
        refine ⟨(), _, by rw [hsub, map_some], ?_⟩
        exact Inv.set (hL.le_of_busy hi hb) hi rfl hL' hst hall
      · exact ⟨(), s, rfl, k, hL, hst, hall⟩
  | fetch cb =>
    obtain ⟨k', f, ret, hf, hkk, hL', -, hsamp, -⟩ := hL.fetchData cb
    refine ⟨(), { s with rb := f.rb, delivered := s.delivered ++ f.samples },
      by rw [step, hf, map_some], k', hL', hst, ?_⟩
    rw [filter_take_append _ hkk]
    exact rel_append hall (hsamp hst)

lemma inv_init {page_size : ℕ} (hfit : page_size * 2 + 2^e * 2 < 2^32) : Inv e (init page_size (2^e)) := by
  refine ⟨0, ⟨?_, rfl, ?_, rfl, ?_, rfl, le_rfl, ?_, ?_, ?_, ?_, ?_, ?_⟩, ?_, Forall₂.nil⟩
  · by_contra hlt
    have : 2^31 ≤ 2^e := Nat.pow_le_pow_right (by norm_num) (by omega)
    omega
  · rw [init, Ringbuf.create, length_replicate, mod_eq_of_lt hfit]
    omega
  all_goals simp [init, Ringbuf.create, Straight]

lemma takeWhile_ready {rs : List Reservation} {k : ℕ}
    (hready : ∀ i r, i < k → rs[i]? = some r → r.status ≠ .busy)
    (hk : k = rs.length ∨ ∃ r, rs[k]? = some r ∧ r.status = .busy) :
    rs.takeWhile Reservation.ready = rs.take k := by
  induction rs generalizing k with
  | nil => rw [takeWhile_nil, take_nil]
  | cons r rs ih =>
    cases k with
    | zero =>
      have hb : r.ready = false := by
        rcases hk with hk | ⟨t, ht, hb⟩
        · exact absurd hk (by simp)
        · rw [getElem?_cons_zero, some.injEq] at ht
          unfold Reservation.ready
          rw [ht, hb]
          rfl
      rw [takeWhile_cons, hb, take_zero]
      rfl
    | succ k =>
      have hb : r.ready = true := by
        unfold Reservation.ready
        exact decide_eq_true (hready 0 r (by omega) rfl)
      rw [takeWhile_cons, hb, if_pos rfl, take_succ_cons]
      congr 1
      apply ih
      · intro i t hi ht
        exact hready (i + 1) t (by omega) ht
      · rcases hk with hk | ⟨t, ht, hb⟩
        · exact .inl (by rw [length_cons] at hk; omega)
        · exact .inr ⟨t, ht, hb⟩

/-- A ring whose size the constructor can compute delivers along every run of clear steps. -/
theorem delivers_of_clear (page_size e : ℕ) (hfit : page_size * 2 + 2^e * 2 < 2^32) (ops : List Op)
    (hC : Along step Clear (init page_size (2^e)) ops) : Delivers page_size (2^e) ops := by
  obtain ⟨us, s, hrun, k, hL, hst, hall⟩ := run_invariant inv_step (inv_init hfit) hC
  refine ⟨us, s, hrun, ⟨k, ?_, hall⟩, fun cb hcb => ?_⟩
  · intro r hr
    obtain ⟨i, hi, rfl⟩ := mem_iff_getElem.mp hr
    rw [length_take] at hi
    rw [getElem_take]
    exact hL.consumed i _ (by omega) (getElem?_eq_getElem (by omega))
  · obtain ⟨k', f, ret, hf, hkk, hL', -, hsamp, hmax⟩ := hL.fetchData cb
    refine ⟨{ s with rb := f.rb, delivered := s.delivered ++ f.samples },
      by rw [step, hf, map_some], rfl, ?_⟩
    unfold deliverable
    rw [takeWhile_ready hL'.consumed (hmax hcb), filter_take_append _ hkk]
    exact rel_append hall (hsamp hst)

/-- A record of one byte at the start of a ring of sixteen bytes is delivered. -/
theorem delivers_at_the_start :
    Delivers 4096 (2^4) [.reserve 1 3, .write 0 0 0xab, .submit 0 false, .fetch fun _ _ => 0] :=
  delivers_of_clear 4096 4 (by norm_num) _
    ⟨fun _ => ⟨.inr (by decide), by decide⟩, fun _ _ _ => ⟨trivial, fun _ _ _ => ⟨trivial,
      fun _ _ _ => ⟨trivial, fun _ _ _ => trivial⟩⟩⟩⟩

/-- A run on a ring of sixteen bytes: an empty record is reserved, submitted and fetched, then a
record of one byte is reserved with its header in the last eight bytes of the ring, written and
submitted. -/
def endOfRing : List Op :=
  [.reserve 0 3, .submit 0 false, .fetch fun _ _ => 0, .reserve 1 3, .write 1 0 0xab, .submit 1 false]

/-- The record at the end of the ring is not delivered as it was written: the callback is handed a
zero byte. -/
theorem not_delivers_at_the_end : ¬ Delivers 4096 16 endOfRing := by
  rintro ⟨us, s, hrun, -, hfetch⟩
  obtain ⟨s', hs', -, hall⟩ := hfetch (fun _ _ => 0) fun _ _ => le_rfl
  -- What was delivered, and what was to be delivered.
  have hgot : (run step (init 4096 16) endOfRing).map
      (fun p => (step p.2 (.fetch fun _ _ => 0)).map fun q => q.2.delivered) =
      some (some [[], [0]]) := by decide +kernel
  have hwant : (run step (init 4096 16) endOfRing).map
      (fun p => (deliverable p.2.reservations).map fun r => r.written 0) =
      some [none, some 0xab] := by decide +kernel
  rw [hrun, map_some, some.injEq] at hgot hwant
  rw [hs', map_some, some.injEq] at hgot
  rw [hgot] at hall
  generalize deliverable s.reservations = rs at hall hwant
  cases hall with
  | cons h0 hall =>
    cases hall with
    | cons h1 hall =>
      cases hall
      rw [map_cons, map_cons, map_nil] at hwant
      have hbyte := h1.2 0 0xab (by simp_all)
      exact absurd hbyte (by decide)

end Sys

end Bpftime
