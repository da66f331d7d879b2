import Bpftime.Ringbuf.Layout

/-!
# Producers keep the layout

Each step of a producer changes the bytes of one record only, its header or a part of its payload,
and `Layout.set` says that such a change keeps the layout.
-/

namespace Bpftime

open Bytes Option List Nat Ringbuf Function

lemma Ringbuf.and_mask {rb : Ringbuf} {e : ℕ} (he : e ≤ 30) (h : rb.max_ent = 2^e) (a : ℕ) :
    a &&& rb.mask = a % 2^e := by
  have hlt : 2^e ≤ 2^30 := Nat.pow_le_pow_right (by norm_num) he
  have hpos : 0 < 2^e := Nat.two_pow_pos e
  have hmask : rb.mask = 2^e - 1 := by
    unfold mask
    rw [h]
    omega
  rw [hmask, and_two_pow_sub_one_eq_mod]

lemma add64_mod {e : ℕ} (he : e ≤ 30) (a b : ℕ) : add64 a b % 2^e = (a + b) % 2^e :=
  mod_mod_of_dvd _ (Nat.pow_dvd_pow 2 (by omega))

lemma add_mod_sub_eight {M : ℕ} (a : ℕ) (hM : 8 ≤ M) : (M + (a + 8) % M - 8) % M = a % M := by
  have ha : a % M < M := mod_lt a (by omega)
  have hmod : (a + 8) % M = (a % M + 8) % M := by rw [mod_add_mod]
  rw [hmod]
  rcases lt_or_ge (a % M + 8) M with h | h
  · rw [mod_eq_of_lt h, show M + (a % M + 8) - 8 = M + a % M by omega, add_mod_left, mod_mod]
  · rw [mod_eq_sub_mod h, mod_eq_of_lt (show a % M + 8 - M < M by omega),
      show M + (a % M + 8 - M) - 8 = a % M by omega, mod_mod]

lemma Ringbuf.readLen_of_writeRange (rb : Ringbuf) {off w : ℕ} {data : List UInt8}
    (h : writeRange rb.data off (toLe 4 w) = some data) :
    readLen { rb with data := data } off = some (w % 2^32) := by
  have hread := readRange_writeRange_self h
  rw [length_toLe] at hread
  unfold readLen
  rw [hread, map_some, ofLe_toLe]
  norm_num

namespace Sys

variable {e k : ℕ} {rb : Ringbuf} {rs : List Reservation} {r : Reservation} {i size : ℕ}

lemma Layout.header_add_le (h : Layout e k rb rs) (hi : rs[i]? = some r) :
    start rs i % 2^e + 8 ≤ rb.data.length := by
  have hM : start rs i % 2^e < 2^e := mod_lt _ (Nat.two_pow_pos e)
  have hle := (h.fits r (mem_of_getElem? hi)).2
  have hrec := add_eight_le_recLen r.size
  rw [h.length_data]
  omega

lemma Layout.ptr_add_le (h : Layout e k rb rs) (hi : rs[i]? = some r) : r.ptr + r.size ≤ rb.data.length := by
  have hM : (start rs i + 8) % 2^e < 2^e := mod_lt _ (Nat.two_pow_pos e)
  have hle := (h.fits r (mem_of_getElem? hi)).2
  have hrec := add_eight_le_recLen r.size
  rw [h.length_data, h.ptr i r hi]
  omega

variable {data : List UInt8}

section

variable (h : Layout e k rb rs)
include h

lemma Layout.set {a n : ℕ} (r' : Reservation) (hki : k ≤ i) (hi : rs[i]? = some r) (hsize : r'.size = r.size)
    (hptr : r'.ptr = r.ptr) (hag : AgreeOff rb.data data a n)
    (hin : (a = start rs i % 2^e ∧ n ≤ 8) ∨ (r.ptr ≤ a ∧ a + n ≤ r.ptr + r.size))
    (hhead : readLen { rb with data := data } (start rs i % 2^e) = some r'.headerWord)
    (hwr : ∀ j b, r'.written j = some b → j < r'.size ∧ data[r.ptr + j]? = some b) :
    Layout e k { rb with data := data } (rs.set i r') := by
  -- The bytes that changed belong to no other record.
  have hother : ∀ j t, k ≤ j → j ≠ i → rs[j]? = some t → Apart (start rs j % 2^e) 8 a n ∧
      Apart t.ptr t.size a n := by
    intro j t hkj hji hj
    have hr := add_eight_le_recLen r.size
    have ht := add_eight_le_recLen t.size
    rcases hin with ⟨rfl, hn⟩ | ⟨ha, hn⟩
    · have h1 := h.apart_of_ne 0 8 0 8 hkj hki hji hj hi (by omega) (by omega)
      have h2 := h.header_apart_payload hki hkj hi hj
      exact ⟨h1.mono le_rfl le_rfl le_rfl (Nat.add_le_add_left hn _),
        h2.symm.mono le_rfl le_rfl le_rfl (Nat.add_le_add_left hn _)⟩
    · have h1 := h.header_apart_payload hkj hki hj hi
      have h2 := h.apart_of_ne 8 t.size 8 r.size hkj hki hji hj hi (by omega) (by omega)
      rw [← h.ptr j t hj, ← h.ptr i r hi] at h2
      exact ⟨h1.mono le_rfl le_rfl ha hn, h2.mono le_rfl le_rfl ha hn⟩
  have hlen : i < rs.length := (List.getElem?_eq_some_iff.mp hi).1
  have hstart := start_set hi hsize
  have hget : ∀ j t, (rs.set i r')[j]? = some t → (j = i ∧ t = r') ∨ (j ≠ i ∧ rs[j]? = some t) := by
    intro j t hj
    rw [getElem?_set] at hj
    split_ifs at hj with hij
    · exact .inl ⟨hij.symm, (some.inj hj).symm⟩
    · exact .inr ⟨Ne.symm hij, hj⟩
  refine ⟨h.e_le, h.max_ent, hag.1.trans h.length_data, ?_, h.producer_lt, ?_, ?_, ?_, ?_, ?_, ?_, ?_, ?_⟩
  · rw [hstart, length_set]
    exact h.producer_pos
  · rw [hstart]
    exact h.consumer_pos
  · rw [length_set]
    exact h.k_le
  · rw [hstart]
    exact h.window
  · intro t ht
    obtain ⟨j, hj⟩ := getElem?_of_mem ht
    rcases hget j t hj with ⟨-, rfl⟩ | ⟨-, hj⟩
    · rw [hsize]
      exact h.fits r (mem_of_getElem? hi)
    · exact h.fits t (mem_of_getElem? hj)
  · intro j t hj
    rw [hstart]
    rcases hget j t hj with ⟨rfl, rfl⟩ | ⟨-, hj⟩
    · rw [hptr]
      exact h.ptr _ r hi
    · exact h.ptr j t hj
  · intro j t hkj hj
    rw [hstart]
    rcases hget j t hj with ⟨rfl, rfl⟩ | ⟨hji, hj⟩
    · exact hhead
    · have hap := (hother j t hkj hji hj).1
      rw [← h.header j t hkj hj]
      unfold readLen
      rw [hag.readRange_eq (hap.mono le_rfl (by omega) le_rfl le_rfl)]
  · intro j t hkj hj x b hb
    rcases hget j t hj with ⟨rfl, rfl⟩ | ⟨hji, hj⟩
    · rw [hptr]
      exact hwr x b hb
    · obtain ⟨hx, hbyte⟩ := h.written j t hkj hj x b hb
      refine ⟨hx, ?_⟩
      have hap := (hother j t hkj hji hj).2
      rw [← hbyte]
      apply hag.2
      unfold Apart at hap
      omega
  · intro j t hjk hj
    rcases hget j t hj with ⟨rfl, rfl⟩ | ⟨-, hj⟩
    · omega
    · exact h.consumed j t hjk hj

lemma Layout.le_of_busy (hi : rs[i]? = some r) (hb : r.status = .busy) : k ≤ i := by
  by_contra hlt
  exact h.consumed i r (by omega) hi hb

lemma Layout.write {j : ℕ} {b : UInt8} (hki : k ≤ i) (hi : rs[i]? = some r) (hj : j < r.size) :
    ∃ data, writeRange rb.data (r.ptr + j) [b] = some data ∧ Layout e k { rb with data := data }
        (rs.set i { r with written := update r.written j b }) := by
  have hbound := h.ptr_add_le hi
  obtain ⟨data, hdata⟩ := writeRange_isSome rb.data (r.ptr + j) [b] (by rw [length_singleton]; omega)
  have hag := agreeOff_writeRange hdata
  rw [length_singleton] at hag
  refine ⟨data, hdata, h.set { r with written := update r.written j b } hki hi rfl
    rfl hag (.inr ⟨by omega, by omega⟩) ?_ ?_⟩
  · -- The header is where it was.
    have hap := h.apart_self hi
    have hhead := h.header i r hki hi
    unfold readLen at hhead ⊢
    rw [hag.readRange_eq (hap.mono le_rfl (by omega) (by omega) (by omega)), hhead]
    rfl
  · intro x c hx
    dsimp only at hx
    rw [update_apply] at hx
    split_ifs at hx with hxj
    · subst hxj
      refine ⟨hj, ?_⟩
      rw [getElem?_writeRange hdata, if_pos ⟨le_rfl, by rw [length_singleton]; omega⟩,
        Nat.sub_self, getElem?_cons_zero, hx]
    · obtain ⟨hlt, hbyte⟩ := h.written i r hki hi x c hx
      exact ⟨hlt, by rw [hag.2 _ (by omega), hbyte]⟩

lemma Layout.submit_header (hi : rs[i]? = some r) :
    sub64 (rb.mask + 1 + r.ptr) bpfRingbufHdrSz &&& rb.mask = start rs i % 2^e := by
  have hle := (h.fits r (mem_of_getElem? hi)).2
  have hrec := add_eight_le_recLen r.size
  have h30 : 2^e ≤ 2^30 := Nat.pow_le_pow_right (by norm_num) h.e_le
  have hM : (start rs i + 8) % 2^e < 2^e := mod_lt _ (Nat.two_pow_pos e)
  have hmask : rb.mask + 1 = 2^e := by
    unfold mask
    rw [h.max_ent]
    omega
  rw [and_mask h.e_le h.max_ent, hmask, h.ptr i r hi, bpfRingbufHdrSz,
    sub64_of_le (by omega) (by omega), add_mod_sub_eight _ (by omega)]

end

lemma submit_word (d : Bool) (hs : r.size < 2^30) (hb : r.status = .busy) :
    (if d then r.headerWord &&& (2^32 - 1 - bpfRingbufBusyBit) ||| bpfRingbufDiscardBit
    else r.headerWord &&& (2^32 - 1 - bpfRingbufBusyBit)) =
    Reservation.headerWord { r with status := .submitted d } := by
  have hw : r.headerWord = r.size + 2^31 := by unfold Reservation.headerWord; rw [hb]
  rw [hw, and_not_busy hs]
  cases d
  · rfl
  · exact or_discard hs

lemma Layout.submit (h : Layout e k rb rs) (d : Bool) (hi : rs[i]? = some r) (hb : r.status = .busy) :
    ∃ rb', rb.submit r.ptr d = some rb' ∧ Layout e k rb' (rs.set i { r with status := .submitted d }) := by
  have hki := h.le_of_busy hi hb
  have hsize := (h.fits r (mem_of_getElem? hi)).1
  have hbound := h.header_add_le hi
  let r' : Reservation := { r with status := .submitted d }
  obtain ⟨data, hdata⟩ := writeRange_isSome rb.data (start rs i % 2^e)
    (toLe 4 r'.headerWord) (by rw [length_toLe]; omega)
  have hag := agreeOff_writeRange hdata
  rw [length_toLe] at hag
  refine ⟨{ rb with data := data }, ?_, h.set r' hki hi rfl rfl hag (.inl ⟨rfl, by omega⟩) ?_ ?_⟩
  · unfold Ringbuf.submit
    dsimp only
    rw [h.submit_header hi, h.header i r hki hi, bind_some, submit_word d hsize hb, hdata, map_some]
  · rw [readLen_of_writeRange rb hdata, mod_eq_of_lt (headerWord_lt r' hsize)]
  · intro j b hj
    obtain ⟨hlt, hbyte⟩ := h.written i r hki hi j b hj
    refine ⟨hlt, ?_⟩
    have hap := h.apart_self hi
    rw [hag.2 _ (by unfold Apart at hap; omega), hbyte]

/-- When `reserve` lets a size through. -/
def admits (rb : Ringbuf) (size : ℕ) : Prop :=
  size &&& (bpfRingbufBusyBit ||| bpfRingbufDiscardBit) = 0 ∧ recLen size ≤ rb.max_ent ∧
    rb.producer_pos + recLen size ≤ rb.consumer_pos + rb.max_ent

instance (rb : Ringbuf) (size : ℕ) : Decidable (admits rb size) := inferInstanceAs (Decidable (_ ∧ _))

lemma totalSize_eq (h : size < 2^64) (hb : size &&& (bpfRingbufBusyBit ||| bpfRingbufDiscardBit) = 0) :
    totalSize size = recLen size := by
  have hlt := lt_of_and_eq_zero h hb
  unfold totalSize recLen bpfRingbufHdrSz
  rw [mod_eq_of_lt (by omega)]

lemma Layout.reserve_refused (h : Layout e k rb rs) (self_fd : ℤ) (hsize : size < 2^64)
    (hno : ¬ admits rb size) : ∃ err, rb.reserve size self_fd = some (.error err, rb) := by
  have hcp : rb.consumer_pos ≤ rb.producer_pos := by
    rw [h.consumer_pos, h.producer_pos]
    exact start_mono rs h.k_le
  have hwin := h.window
  rw [← h.consumer_pos, ← h.max_ent] at hwin
  have h30 : rb.max_ent ≤ 2^30 := by
    rw [h.max_ent]
    exact Nat.pow_le_pow_right (by norm_num) h.e_le
  have hlt := h.producer_lt
  unfold reserve
  dsimp only
  split_ifs with hbits htotal havail
  · exact ⟨.E2BIG, rfl⟩
  · exact ⟨.E2BIG, rfl⟩
  · exact ⟨.ENOSPC, rfl⟩
  · exfalso
    rw [not_not] at hbits
    rw [totalSize_eq hsize hbits] at htotal havail
    rw [sub64_of_le hlt hcp, sub64_of_le (by omega) (by omega)] at havail
    exact hno ⟨hbits, by omega, by omega⟩

lemma Layout.reserve_admitted (h : Layout e k rb rs) (self_fd : ℤ) (hsize : size < 2^64)
    (hyes : admits rb size) : ∃ data, rb.reserve size self_fd = some (.ok ((rb.producer_pos + 8) % 2^e),
    { rb with data := data, producer_pos := add64 rb.producer_pos (recLen size) }) ∧
      AgreeOff rb.data data (rb.producer_pos % 2^e) 8 ∧
      readLen { rb with data := data } (rb.producer_pos % 2^e) = some (size + 2^31) := by
  obtain ⟨hbits, hfit, hroom⟩ := hyes
  have hrec := add_eight_le_recLen size
  have hcp : rb.consumer_pos ≤ rb.producer_pos := by
    rw [h.consumer_pos, h.producer_pos]
    exact start_mono rs h.k_le
  have h30 : 2^e ≤ 2^30 := Nat.pow_le_pow_right (by norm_num) h.e_le
  have hlt := h.producer_lt
  have hmax := h.max_ent
  have hM : rb.producer_pos % 2^e < 2^e := mod_lt _ (Nat.two_pow_pos e)
  have hs30 : size < 2^30 := by omega
  have hlen := h.length_data
  -- The two words of the header.
  obtain ⟨data, hdata⟩ := writeRange_isSome rb.data (rb.producer_pos % 2^e)
    (toLe 4 (size ||| bpfRingbufBusyBit)) (by rw [length_toLe]; omega)
  have hag := agreeOff_writeRange hdata
  rw [length_toLe] at hag
  obtain ⟨data', hdata'⟩ := writeRange_isSome data (rb.producer_pos % 2^e + 4)
    (toLe 4 (self_fd % 2^32).toNat) (by rw [length_toLe, hag.1]; omega)
  have hag' := agreeOff_writeRange hdata'
  rw [length_toLe] at hag'
  refine ⟨data', ?_, hag.trans hag' (by omega) (by omega) (by omega) (by omega), ?_⟩
  · have hptr : add64 rb.producer_pos bpfRingbufHdrSz % 2^e = (rb.producer_pos + 8) % 2^e := add64_mod h.e_le _ _
    unfold reserve
    dsimp only
    rw [totalSize_eq hsize hbits, if_neg (not_not.mpr hbits), if_neg (by omega),
      sub64_of_le hlt hcp, sub64_of_le (by omega) (by omega), if_neg (by omega),
      and_mask h.e_le hmax, and_mask h.e_le hmax, hdata, bind_some, hdata',
      map_some, hptr]
  · have hread := readLen_of_writeRange rb hdata
    rw [or_busy hs30] at hread
    rw [← hread]
    unfold readLen
    rw [hag'.readRange_eq (.inl le_rfl)]

lemma Layout.reserve (h : Layout e k rb rs) (hyes : admits rb size)
    (hwrap : rb.producer_pos + recLen size < 2^64)
    (hag : AgreeOff rb.data data (rb.producer_pos % 2^e) 8)
    (hhead : readLen { rb with data := data } (rb.producer_pos % 2^e) = some (size + 2^31)) :
    Layout e k { rb with data := data, producer_pos := add64 rb.producer_pos (recLen size) }
      (rs ++ [⟨size, (rb.producer_pos + 8) % 2^e, fun _ => none, .busy⟩]) := by
  rw [add64_of_lt hwrap]
  obtain ⟨hbits, hfit, hroom⟩ := hyes
  have hrec := add_eight_le_recLen size
  have h30 : 2^e ≤ 2^30 := Nat.pow_le_pow_right (by norm_num) h.e_le
  have hmax := h.max_ent
  have hcons := h.consumer_pos
  -- The new record lies within one ring length of every record in the ring.
  have hother : ∀ j t, k ≤ j → rs[j]? = some t → Apart (start rs j % 2^e) 8 (rb.producer_pos % 2^e) 8 ∧
        Apart t.ptr t.size (rb.producer_pos % 2^e) 8 := by
    intro j t hkj hj
    have hM := Nat.two_pow_pos e
    have hend := h.end_le hj
    have hkj' : start rs k ≤ start rs j := start_mono rs hkj
    have ht := add_eight_le_recLen t.size
    rw [h.ptr j t hj]
    exact ⟨apart_mod hM (by omega) (by omega), apart_mod hM (by omega) (by omega)⟩
  have hget : ∀ j (t : Reservation), (rs ++ [⟨size, (rb.producer_pos + 8) % 2^e, fun _ =>
      none, .busy⟩])[j]? = some t →
      (j < rs.length ∧ rs[j]? = some t) ∨ (j = rs.length ∧
          t = ⟨size, (rb.producer_pos + 8) % 2^e, fun _ => none, .busy⟩) := by
    intro j t hj
    rw [getElem?_append] at hj
    split_ifs at hj with hlt
    · exact .inl ⟨hlt, hj⟩
    · rw [getElem?_singleton] at hj
      split_ifs at hj with h0
      exact .inr ⟨by omega, (some.inj hj).symm⟩
  refine ⟨h.e_le, hmax, hag.1.trans h.length_data, ?_, ?_, ?_, ?_, ?_, ?_, ?_, ?_, ?_, ?_⟩
  · rw [length_append, length_singleton]
    rw [start_succ getElem?_concat_length, start_append le_rfl, ← h.producer_pos]
  · exact hwrap
  · rw [start_append h.k_le]
    exact hcons
  · rw [length_append]
    exact le_add_right_of_le h.k_le
  · rw [start_append h.k_le]
    dsimp only
    omega
  · intro t ht
    rcases mem_append.mp ht with ht | ht
    · exact h.fits t ht
    · rw [mem_singleton.mp ht]
      dsimp only
      omega
  · intro j t hj
    rcases hget j t hj with ⟨hlt, hj⟩ | ⟨rfl, rfl⟩
    · rw [start_append (by omega)]
      exact h.ptr j t hj
    · rw [start_append le_rfl, h.producer_pos]
  · intro j t hkj hj
    rcases hget j t hj with ⟨hlt, hj⟩ | ⟨rfl, rfl⟩
    · rw [start_append (by omega), ← h.header j t hkj hj]
      have hap := (hother j t hkj hj).1
      unfold readLen
      rw [hag.readRange_eq (hap.mono le_rfl (by omega) le_rfl le_rfl)]
    · rw [start_append le_rfl, ← h.producer_pos]
      exact hhead
  · intro j t hkj hj x b hb
    rcases hget j t hj with ⟨hlt, hj⟩ | ⟨rfl, rfl⟩
    · obtain ⟨hx, hbyte⟩ := h.written j t hkj hj x b hb
      have hap := (hother j t hkj hj).2
      refine ⟨hx, ?_⟩
      rw [← hbyte]
      apply hag.2
      unfold Apart at hap
      omega
    · exact absurd hb (by simp)
  · intro j t hjk hj
    have hk := h.k_le
    rcases hget j t hj with ⟨hlt, hj⟩ | ⟨rfl, rfl⟩
    · exact h.consumed j t hjk hj
    · omega

end Sys

end Bpftime
