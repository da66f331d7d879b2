import Mathlib.Data.Nat.Bitwise
import Mathlib.Tactic

/-!
# Arrays read and written by ranges

An array of fixed length is a list, read and written a range at a time.
-/

namespace Bpftime.Bytes

open List

variable {α : Type*}

/-! ## Ranges -/

/-- The `n` elements from `off` on, when they lie inside the array. -/
def readRange (m : List α) (off n : ℕ) : Option (List α) :=
  if off + n ≤ m.length then some ((m.drop off).take n) else none

/-- The array with `bs` stored from `off` on, when it fits there. -/
def writeRange (m : List α) (off : ℕ) (bs : List α) : Option (List α) :=
  if off + bs.length ≤ m.length then some (m.take off ++ bs ++ m.drop (off + bs.length)) else none

/-- `resize` of a vector of bytes: those that are added are zero. -/
def resize (data : List UInt8) (n : ℕ) : List UInt8 := data.take n ++ List.replicate (n - data.length) 0

@[simp] lemma length_resize (data : List UInt8) (n : ℕ) : (resize data n).length = n := by
  unfold resize
  rw [length_append, length_take, length_replicate]
  omega

def Apart (a n b k : ℕ) : Prop := a + n ≤ b ∨ b + k ≤ a

variable {b a n k : ℕ} {m' bs m : List α}

lemma Apart.symm (h : Apart a n b k) : Apart b k a n := Or.symm h

lemma Apart.mono {a' n' b' k' : ℕ} (h : Apart a n b k) (ha : a ≤ a')
    (ha' : a' + n' ≤ a + n) (hb : b ≤ b') (hb' : b' + k' ≤ b + k) : Apart a' n' b' k' := by
  unfold Apart at h ⊢
  omega

lemma writeRange_bounds {off : ℕ} (h : writeRange m off bs = some m') : off + bs.length ≤ m.length := by
  unfold writeRange at h
  split_ifs at h with hb
  exact hb

lemma writeRange_isSome (m : List α) (off : ℕ) (bs : List α) (h : off + bs.length ≤ m.length) :
    ∃ m', writeRange m off bs = some m' := ⟨_, if_pos h⟩

lemma length_writeRange {off : ℕ} (h : writeRange m off bs = some m') : m'.length = m.length := by
  have hb := writeRange_bounds h
  unfold writeRange at h
  rw [if_pos hb, Option.some.injEq] at h
  subst h
  simp only [length_append, length_take, length_drop]
  omega

lemma getElem?_writeRange {off : ℕ} (h : writeRange m off bs = some m') (i : ℕ) :
    m'[i]? = if off ≤ i ∧ i < off + bs.length then bs[i - off]? else m[i]? := by
  have hb := writeRange_bounds h
  unfold writeRange at h
  rw [if_pos hb, Option.some.injEq] at h
  subst h
  have htake : (m.take off).length = off := by rw [length_take]; omega
  rw [append_assoc, getElem?_append, htake]
  split_ifs with h1 h2 h2
  · omega
  · rw [getElem?_take, if_pos h1]
  · rw [getElem?_append_left (by omega)]
  · rw [getElem?_append_right (by omega), getElem?_drop]
    congr 1
    omega

lemma readRange_eq_some {off : ℕ} : readRange m off n = some bs ↔
    off + n ≤ m.length ∧ bs.length = n ∧ ∀ i < n, bs[i]? = m[off + i]? := by
  unfold readRange
  constructor
  · intro h
    split_ifs at h with hb
    rw [Option.some.injEq] at h
    subst h
    refine ⟨hb, ?_, ?_⟩
    · simp only [length_take, length_drop]
      omega
    · intro i hi
      rw [getElem?_take, if_pos hi, getElem?_drop]
  · rintro ⟨hb, hlen, hel⟩
    rw [if_pos hb, Option.some.injEq]
    apply ext_getElem?
    intro i
    rw [getElem?_take]
    split_ifs with hi
    · rw [getElem?_drop, hel i hi]
    · rw [getElem?_eq_none (by omega)]

lemma readRange_isSome (m : List α) (off n : ℕ) (h : off + n ≤ m.length) :
    ∃ bs, readRange m off n = some bs :=
  ⟨_, if_pos h⟩

lemma readRange_append (xs ys zs : List α) : readRange (xs ++ ys ++ zs) xs.length ys.length = some ys := by
  rw [readRange_eq_some]
  refine ⟨by simp, rfl, fun i hi => ?_⟩
  rw [append_assoc, getElem?_append_right (by omega), Nat.add_sub_cancel_left, getElem?_append_left hi]

lemma readRange_append_add (xs ys : List α) (off n : ℕ) :
    readRange (xs ++ ys) (xs.length + off) n = readRange ys off n := by
  unfold readRange
  rw [length_append, drop_append, drop_eq_nil_of_le (by omega), nil_append, Nat.add_sub_cancel_left]
  simp only [Nat.add_assoc, Nat.add_le_add_iff_left]

lemma readRange_part {off : ℕ} (h : readRange m' off n = readRange m off n)
    (hin : off + n ≤ m.length) (hk : a + k ≤ n) : readRange m' (off + a) k = readRange m (off + a) k := by
  obtain ⟨bs, hbs⟩ := readRange_isSome m off n hin
  rw [hbs] at h
  obtain ⟨-, -, hel⟩ := readRange_eq_some.mp hbs
  obtain ⟨hin', -, hel'⟩ := readRange_eq_some.mp h
  obtain ⟨cs, hcs⟩ := readRange_isSome m (off + a) k (by omega)
  obtain ⟨-, hlen, hcel⟩ := readRange_eq_some.mp hcs
  rw [hcs, readRange_eq_some]
  refine ⟨by omega, hlen, fun i hi => ?_⟩
  rw [hcel i hi, Nat.add_assoc, ← hel (a + i) (by omega), hel' (a + i) (by omega)]

lemma readRange_writeRange_self {off : ℕ}
    (h : writeRange m off bs = some m') : readRange m' off bs.length = some bs := by
  rw [readRange_eq_some, length_writeRange h]
  refine ⟨writeRange_bounds h, rfl, fun i hi => ?_⟩
  rw [getElem?_writeRange h, if_pos ⟨by omega, by omega⟩, Nat.add_sub_cancel_left]

/-- Arrays of one length that agree outside a range. -/
def AgreeOff (m m' : List α) (off n : ℕ) : Prop :=
  m'.length = m.length ∧ ∀ x, x < off ∨ off + n ≤ x → m'[x]? = m[x]?

lemma agreeOff_writeRange {off : ℕ} (h : writeRange m off bs = some m') : AgreeOff m m' off bs.length := by
  refine ⟨length_writeRange h, fun x hx => ?_⟩
  rw [getElem?_writeRange h, if_neg (by omega)]

lemma AgreeOff.mono {off : ℕ} (h : AgreeOff m m' a k) (ha : off ≤ a) (ha' : a + k ≤ off + n) :
    AgreeOff m m' off n :=
  ⟨h.1, fun x hx => h.2 x (by omega)⟩

lemma AgreeOff.trans {m'' : List α} {off l : ℕ} (h : AgreeOff m m' a k)
    (h' : AgreeOff m' m'' b l) (ha : off ≤ a) (ha' : a + k ≤ off + n) (hb : off ≤ b)
    (hb' : b + l ≤ off + n) : AgreeOff m m'' off n := by
  refine ⟨h'.1.trans h.1, fun x hx => ?_⟩
  rw [h'.2 x (by omega), h.2 x (by omega)]

lemma AgreeOff.readRange_eq {off : ℕ} (h : AgreeOff m m' off n)
    (hd : Apart a k off n) : readRange m' a k = readRange m a k := by
  unfold readRange
  rw [h.1]
  split_ifs with hb
  · rw [Option.some.injEq]
    apply ext_getElem?
    intro i
    rw [getElem?_take, getElem?_take]
    split_ifs with hi
    · rw [getElem?_drop, getElem?_drop, h.2]
      unfold Apart at hd
      omega
    · rfl
  · rfl

/-- The low `n` bytes of a number, least significant first. -/
def toLe : ℕ → ℕ → List UInt8
  | 0, _ => []
  | n + 1, v => UInt8.ofNat v :: toLe n (v / 256)

def ofLe : List UInt8 → ℕ
  | [] => 0
  | b :: bs => b.toNat + 256 * ofLe bs

@[simp] lemma length_toLe (n v : ℕ) : (toLe n v).length = n := by
  induction n generalizing v with
  | zero => rfl
  | succ n ih => rw [toLe, length_cons, ih]

lemma ofLe_toLe (n v : ℕ) : ofLe (toLe n v) = v % 256^n := by
  induction n generalizing v with
  | zero => rw [toLe, ofLe, pow_zero, Nat.mod_one]
  | succ n ih =>
    have hb : (UInt8.ofNat v).toNat = v % 256 := UInt8.toNat_ofNat'
    rw [toLe, ofLe, ih, hb, pow_succ', Nat.mod_mul]

lemma ofLe_lt (bs : List UInt8) : ofLe bs < 256^bs.length := by
  induction bs with
  | nil => simp [ofLe]
  | cons b bs ih =>
    have := b.toNat_lt
    rw [ofLe, length_cons, pow_succ]
    omega

lemma ofLe_replicate_zero (n : ℕ) : ofLe (List.replicate n 0) = 0 := by
  induction n with
  | zero => rfl
  | succ n ih => rw [replicate_succ, ofLe, ih]; rfl

lemma map_toNat_toLe (n v : ℕ) : (toLe n v).map UInt8.toNat = (List.range n).map fun i =>
  v / 256^i % 256 := by
  induction n generalizing v with
  | zero => rfl
  | succ n ih =>
    have hb : (UInt8.ofNat v).toNat = v % 256 := UInt8.toNat_ofNat'
    rw [toLe, map_cons, ih, hb, range_succ_eq_map, map_cons, map_map, pow_zero, Nat.div_one]
    refine congrArg _ (map_congr_left fun i _ => ?_)
    rw [Function.comp_apply, Nat.succ_eq_add_one, pow_succ', Nat.div_div_eq_div_mul]

def ofBe (bs : List ℕ) : ℕ := bs.foldl (fun acc b => acc * 256 + b) 0

lemma ofLe_append_singleton (bs : List UInt8) (b : UInt8) :
    ofLe (bs ++ [b]) = ofLe bs + 256^bs.length * b.toNat := by
  induction bs with
  | nil => simp [ofLe]
  | cons c bs ih =>
    rw [cons_append, ofLe, ih, ofLe, length_cons]
    ring

lemma ofLe_reverse (bs : List UInt8) : ofLe bs.reverse = ofBe (bs.map UInt8.toNat) := by
  -- The bytes that are still to come shift what has been read.
  have hfold : ∀ acc, (bs.map UInt8.toNat).foldl (fun acc b => acc * 256 + b) acc =
      256^bs.length * acc + ofLe bs.reverse := by
    induction bs with
    | nil => intro acc; simp [ofLe]
    | cons b bs ih =>
      intro acc
      rw [map_cons, foldl_cons, ih, reverse_cons, ofLe_append_singleton, length_reverse, length_cons]
      ring
  rw [ofBe, hfold, mul_zero, zero_add]

end Bpftime.Bytes
