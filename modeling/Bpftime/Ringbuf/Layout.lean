import Bpftime.Ringbuf.Model

/-!
# Where the records of the ring lie

The positions `producer_pos` and `consumer_pos` count bytes from the start of time, and a position's
remainder modulo the ring's length `2^e` is its offset in the data area.
-/

namespace Bpftime

open Bytes Option List Nat

def Reservation.headerWord (r : Reservation) : ℕ :=
  match r.status with
  | .busy => r.size + 2^31
  | .submitted false => r.size
  | .submitted true => r.size + 2^30

def recLen (size : ℕ) : ℕ := (size + 15) / 8 * 8

variable {size n i : ℕ} {sizes : List ℕ}

lemma or_busy (h : size < 2^30) : (size ||| bpfRingbufBusyBit) % 2^32 = size + 2^31 := by
  have hor := two_pow_add_eq_or_of_lt (i := 31) (b := size) (by omega) 1
  rw [bpfRingbufBusyBit, Nat.or_comm, show 2147483648 = 2^31 * 1 by norm_num, ← hor]
  omega

lemma and_not_busy (h : size < 2^30) : (size + 2^31) &&& (2^32 - 1 - bpfRingbufBusyBit) = size := by
  rw [bpfRingbufBusyBit, show 2^32 - 1 - 2147483648 = 2^31 - 1 by norm_num, and_two_pow_sub_one_eq_mod]
  omega

lemma or_discard (h : size < 2^30) : size ||| bpfRingbufDiscardBit = size + 2^30 := by
  have hor := two_pow_add_eq_or_of_lt (i := 30) (b := size) h 1
  rw [bpfRingbufDiscardBit, Nat.or_comm, show 1073741824 = 2^30 * 1 by norm_num, ← hor]
  omega

lemma and_two_pow_eq_zero (w i : ℕ) : w &&& 2^i = 0 ↔ w / 2^i % 2 = 0 := by
  rw [and_two_pow, testBit_eq_decide_div_mod_eq]
  rcases mod_two_eq_zero_or_one (w / 2^i) with h | h
  · simp [h]
  · simp [h]

lemma headerWord_and_busy (r : Reservation) (h : r.size < 2^30) :
    r.headerWord &&& bpfRingbufBusyBit = 0 ↔ r.status ≠ .busy := by
  rw [bpfRingbufBusyBit, show 2147483648 = 2^31 by norm_num, and_two_pow_eq_zero]
  unfold Reservation.headerWord
  split <;> simp_all <;> omega

lemma headerWord_and_discard (r : Reservation) (d : Bool) (h : r.size < 2^30)
    (hs : r.status = .submitted d) : r.headerWord &&& bpfRingbufDiscardBit = 0 ↔ d = false := by
  rw [bpfRingbufDiscardBit, show 1073741824 = 2^30 by norm_num, and_two_pow_eq_zero]
  unfold Reservation.headerWord
  rw [hs]
  cases d <;> simp <;> omega

lemma roundupLen_headerWord (r : Reservation) (h : r.size < 2^30) :
    roundupLen r.headerWord = recLen r.size := by
  unfold roundupLen bpfRingbufHdrSz recLen Reservation.headerWord
  simp only [shiftLeft_eq, shiftRight_eq_div_pow]
  split <;> omega

lemma headerWord_lt (r : Reservation) (h : r.size < 2^30) : r.headerWord < 2^32 := by
  unfold Reservation.headerWord
  split <;> omega

lemma lt_of_and_eq_zero (h : size < 2^64)
    (hb : size &&& (bpfRingbufBusyBit ||| bpfRingbufDiscardBit) = 0) : size < 2^64 - 2^30 := by
  by_contra hc
  have hbit : (size &&& (bpfRingbufBusyBit ||| bpfRingbufDiscardBit)).testBit 31 = false := by
    rw [hb]; exact zero_testBit 31
  have hmask : (bpfRingbufBusyBit ||| bpfRingbufDiscardBit).testBit 31 = true := by decide
  rw [testBit_and, testBit_eq_decide_div_mod_eq, hmask, Bool.and_true, decide_eq_false_iff_not] at hbit
  omega

/-- The position of the header of record `i`, from the sizes of the records before it. -/
def startPos (sizes : List ℕ) (i : ℕ) : ℕ := ((sizes.take i).map recLen).sum

lemma startPos_succ (h : sizes[i]? = some n) : startPos sizes (i + 1) = startPos sizes i + recLen n := by
  unfold startPos
  rw [take_add_one, h, toList_some, map_append, List.sum_append, map_singleton, sum_singleton]

variable {j : ℕ}

lemma startPos_mono (sizes : List ℕ) (h : i ≤ j) : startPos sizes i ≤ startPos sizes j := by
  unfold startPos
  obtain ⟨d, rfl⟩ := Nat.exists_eq_add_of_le h
  rw [take_add, map_append, List.sum_append]
  omega

lemma startPos_append (h : i ≤ sizes.length) : startPos (sizes ++ [n]) i = startPos sizes i := by
  unfold startPos
  rw [take_append_of_le_length h]

lemma startPos_add_le (h : sizes[i]? = some n) (hij : i < j) :
    startPos sizes i + recLen n ≤ startPos sizes j := by
  rw [← startPos_succ h]
  exact startPos_mono sizes hij

lemma add_eight_le_recLen (size : ℕ) : 8 + size ≤ recLen size := by
  unfold recLen
  omega

lemma eight_dvd_startPos (sizes : List ℕ) (i : ℕ) : 8 ∣ startPos sizes i := by
  unfold startPos
  apply dvd_sum
  intro x hx
  obtain ⟨n, -, rfl⟩ := mem_map.mp hx
  exact Dvd.intro_left _ rfl

lemma apart_mod {M a b k : ℕ} (hM : 0 < M) (hab : a + n ≤ b) (hba : b + k ≤ a + M) :
    Apart (a % M) n (b % M) k := by
  obtain ⟨d, rfl⟩ := Nat.exists_eq_add_of_le (show a ≤ b by omega)
  have ha : a % M < M := mod_lt a hM
  have hmod : (a + d) % M = (a % M + d) % M := by rw [mod_add_mod]
  unfold Apart
  rw [hmod]
  rcases lt_or_ge (a % M + d) M with h | h
  · rw [mod_eq_of_lt h]
    omega
  · rw [mod_eq_sub_mod h]
    rcases lt_or_ge (a % M + d - M) M with h' | h'
    · rw [mod_eq_of_lt h']
      omega
    · omega

namespace Sys

/-- The position of the header of record `i`. -/
def start (rs : List Reservation) (i : ℕ) : ℕ := startPos (rs.map Reservation.size) i

/-- The state of a ring of length `2^e` whose first `k` records are consumed. -/
structure Layout (e k : ℕ) (rb : Ringbuf) (rs : List Reservation) : Prop where
  /-- The lengths of the ring and of the array behind it. -/
  e_le : e ≤ 30
  max_ent : rb.max_ent = 2^e
  length_data : rb.data.length = 2^e * 2
  /-- The producer stands behind the last record, the consumer at record `k`. -/
  producer_pos : rb.producer_pos = start rs rs.length
  producer_lt : rb.producer_pos < 2^64
  consumer_pos : rb.consumer_pos = start rs k
  k_le : k ≤ rs.length
  /-- What is not consumed fits in the ring, and so does every record. -/
  window : rb.producer_pos ≤ start rs k + 2^e
  fits : ∀ r ∈ rs, r.size < 2^30 ∧ recLen r.size ≤ 2^e
  /-- The pointer that `reserve` returned is behind the header. -/
  ptr : ∀ i r, rs[i]? = some r → r.ptr = (start rs i + 8) % 2^e
  /-- Each header in the ring says where its record stands. -/
  header : ∀ i r, k ≤ i → rs[i]? = some r → rb.readLen (start rs i % 2^e) = some r.headerWord
  /-- The bytes written are still there. -/
  written : ∀ i r, k ≤ i → rs[i]? = some r → ∀ j b, r.written j = some b →
    j < r.size ∧ rb.data[r.ptr + j]? = some b
  /-- What is consumed was submitted. -/
  consumed : ∀ i r, i < k → rs[i]? = some r → r.status ≠ .busy

variable {i : ℕ} {r : Reservation} {j : ℕ}

lemma start_mono (rs : List Reservation) (h : i ≤ j) : start rs i ≤ start rs j := startPos_mono _ h

lemma start_add_le {rs : List Reservation} (h : rs[i]? = some r)
    (hij : i < j) : start rs i + recLen r.size ≤ start rs j :=
    startPos_add_le (by rw [getElem?_map, h, map_some]) hij

lemma start_succ {rs : List Reservation} (h : rs[i]? = some r) :
    start rs (i + 1) = start rs i + recLen r.size :=
  startPos_succ (by rw [getElem?_map, h, map_some])

lemma start_append {rs : List Reservation} (h : i ≤ rs.length) : start (rs ++ [r]) i = start rs i := by
  unfold start
  rw [map_append, map_singleton, startPos_append (by rw [length_map]; exact h)]

lemma start_set {rs : List Reservation} {r' : Reservation} (h : rs[i]? = some r)
    (hr : r'.size = r.size) (j : ℕ) : start (rs.set i r') j = start rs j := by
  have hmap : (rs.set i r').map Reservation.size = rs.map Reservation.size := by
    apply ext_getElem?
    intro x
    rw [getElem?_map, getElem?_map, getElem?_set]
    split_ifs with hx hi
    · rw [← hx, h, map_some, map_some, hr]
    · rw [← hx, h]
      exact absurd (List.getElem?_eq_some_iff.mp h).1 (by omega)
    · rfl
  unfold start
  rw [hmap]

section Apart

variable {e k : ℕ} {rb : Ringbuf} {rs : List Reservation} {i : ℕ} {r : Reservation}

lemma Layout.end_le (h : Layout e k rb rs) (hi : rs[i]? = some r) :
    start rs i + recLen r.size ≤ rb.producer_pos := by
  rw [h.producer_pos]
  exact start_add_le hi (List.getElem?_eq_some_iff.mp hi).1

variable {t : Reservation} {j : ℕ}

lemma Layout.apart_of_ne (h : Layout e k rb rs) (o n o' n' : ℕ)
    (hki : k ≤ i) (hkj : k ≤ j) (hij : i ≠ j) (hi : rs[i]? = some r)
    (hj : rs[j]? = some t) (hn : o + n ≤ recLen r.size) (hn' : o' + n' ≤ recLen t.size) :
    Apart ((start rs i + o) % 2^e) n ((start rs j + o') % 2^e) n' := by
  have hM : 0 < 2^e := Nat.two_pow_pos e
  have hwin := h.window
  have hsi : start rs k ≤ start rs i := start_mono rs hki
  have hsj : start rs k ≤ start rs j := start_mono rs hkj
  have hei := h.end_le hi
  have hej := h.end_le hj
  rcases lt_or_gt_of_ne hij with hlt | hlt
  · have hle := start_add_le hi hlt
    exact apart_mod hM (by omega) (by omega)
  · have hle := start_add_le hj hlt
    exact (apart_mod hM (by omega) (by omega)).symm

lemma Layout.apart_self (h : Layout e k rb rs) (hi : rs[i]? = some r) :
    Apart (start rs i % 2^e) 8 r.ptr r.size := by
  rw [h.ptr i r hi]
  have hle := (h.fits r (mem_of_getElem? hi)).2
  have hrec := add_eight_le_recLen r.size
  exact apart_mod (Nat.two_pow_pos e) (by omega) (by omega)

lemma Layout.header_apart_payload (h : Layout e k rb rs) (hki : k ≤ i) (hkj : k ≤ j) (hi : rs[i]? = some r)
    (hj : rs[j]? = some t) : Apart (start rs i % 2^e) 8 t.ptr t.size := by
  by_cases hij : i = j
  · subst hij
    rw [hi, some.injEq] at hj
    subst hj
    exact h.apart_self hi
  · rw [h.ptr j t hj]
    have hr := add_eight_le_recLen r.size
    have ht := add_eight_le_recLen t.size
    exact h.apart_of_ne 0 _ _ _ hki hkj hij hi hj (by omega) (by omega)

end Apart

end Sys

end Bpftime
