import Bpftime.Lib.Bytes

/-!
# Circular arrays

An array that is written and read around its end.
-/

namespace Bpftime.Circular

open Bytes List Nat

variable {α : Type*}

/-- The array with `bs` stored from `start` on, where what does not fit goes to the front. -/
def writeAround (m : List α) (start : ℕ) (bs : List α) : Option (List α) :=
  if bs.length + start ≤ m.length then writeRange m start bs
  else
    let len_first := m.length - start
    (writeRange m start (bs.take len_first)).bind fun m => writeRange m 0 (bs.drop len_first)

/-- The `n` elements from `start` on, where those behind the end are taken from the front. -/
def readAround (m : List α) (start n : ℕ) : Option (List α) :=
  if start + n ≤ m.length then readRange m start n
  else do
    let len_first := m.length - start
    let first ← readRange m start len_first
    let second ← readRange m 0 (n - len_first)
    return first ++ second

/-- The elements `bs` stand in the circular array from position `p` on. -/
def At (m : List α) (p : ℕ) (bs : List α) : Prop := ∀ i < bs.length, m[(p + i) % m.length]? = bs[i]?

lemma add_mod_cases (p : ℕ) {i n : ℕ} (hi : i < n) :
    (p % n + i < n ∧ (p + i) % n = p % n + i) ∨ (n ≤ p % n + i ∧ (p + i) % n = p % n + i - n) := by
  have hp : p % n < n := mod_lt _ (by omega)
  rw [← mod_add_mod]
  rcases Nat.lt_or_ge (p % n + i) n with hlt | hge
  · exact Or.inl ⟨hlt, mod_eq_of_lt hlt⟩
  · refine Or.inr ⟨hge, ?_⟩
    rw [mod_eq_sub_mod hge, mod_eq_of_lt (by omega)]

lemma mod_ne_mod {a b n : ℕ} (hab : a < b) (hba : b < a + n) : a % n ≠ b % n := by
  intro heq
  have hdvd : n ∣ b - a := (modEq_iff_dvd' hab.le).mp heq
  have hle := le_of_dvd (by omega) hdvd
  omega

lemma getElem?_writeAround {m bs : List α} {start : ℕ} (hstart : start < m.length)
    (hlen : bs.length ≤ m.length) :
    ∃ m', writeAround m start bs = some m' ∧ m'.length = m.length ∧ ∀ x < m.length, m'[x]? =
    if start ≤ x ∧ x < start + bs.length then bs[x - start]?
    else if x + m.length < start + bs.length then bs[x + m.length - start]?
    else m[x]? := by
  unfold writeAround
  split_ifs with hfit
  · obtain ⟨m', hm'⟩ := writeRange_isSome m start bs (by omega)
    refine ⟨m', hm', length_writeRange hm', fun x hx => ?_⟩
    rw [getElem?_writeRange hm' x]
    split_ifs with h1 h2
    · rfl
    · omega
    · rfl
  · obtain ⟨m1, hm1⟩ := writeRange_isSome m start (bs.take (m.length - start)) (by rw [length_take]; omega)
    have hlen1 := length_writeRange hm1
    obtain ⟨m2, hm2⟩ := writeRange_isSome m1 0 (bs.drop (m.length - start)) (by rw [length_drop]; omega)
    refine ⟨m2, by simp only [hm1, Option.bind_some, hm2], (length_writeRange hm2).trans hlen1, fun x hx => ?_⟩
    rw [getElem?_writeRange hm2 x, getElem?_writeRange hm1 x, length_take, length_drop,
      getElem?_drop, getElem?_take]
    split_ifs with h1 h2 h3 h4 h5
    all_goals first
      | omega
      | rfl
      | (congr 1; omega)

lemma writeAround_spec {m bs : List α} (p : ℕ) (hpos : 0 < m.length) (hlen : bs.length ≤ m.length) :
    ∃ m', writeAround m (p % m.length) bs = some m' ∧ m'.length = m.length ∧ At m' p bs ∧
    ∀ i, i < p → p + bs.length ≤ i + m.length → m'[i % m.length]? = m[i % m.length]? := by
  have hp : p % m.length < m.length := mod_lt _ hpos
  obtain ⟨m', hm', hlen', hget⟩ := getElem?_writeAround hp hlen
  refine ⟨m', hm', hlen', fun j hj => ?_, fun i hi hle => ?_⟩
  · rw [hlen', hget _ (mod_lt _ hpos)]
    rcases add_mod_cases p (show j < m.length by omega) with ⟨hlt, heq⟩ | ⟨hge, heq⟩
    · rw [heq, if_pos (by omega), Nat.add_sub_cancel_left]
    · rw [heq, if_neg (by omega), if_pos (by omega)]
      congr 1
      omega
  · -- The index of `i` is none of those that were written.
    have hne : ∀ j < bs.length, i % m.length ≠ (p + j) % m.length := fun j hj =>
        mod_ne_mod (by omega) (by omega)
    have hi' : i % m.length < m.length := mod_lt _ hpos
    rw [hget _ hi', if_neg, if_neg]
    · intro hlt
      refine hne (i % m.length + m.length - p % m.length) (by omega) ?_
      rcases add_mod_cases p (show i % m.length + m.length - p % m.length < m.length by omega) with
        ⟨hlt', heq⟩ | ⟨hge, heq⟩
      · omega
      · omega
    · rintro ⟨hle', hlt⟩
      refine hne (i % m.length - p % m.length) (by omega) ?_
      rcases add_mod_cases p (show i % m.length - p % m.length < m.length by omega) with
        ⟨hlt', heq⟩ | ⟨hge, heq⟩
      · omega
      · omega

variable {m m' bs : List α} {p : ℕ}

lemma At.readRange_eq (h : At m p bs) {n : ℕ} (hn : n ≤ bs.length)
    (hfit : p % m.length + n ≤ m.length) : readRange m (p % m.length) n = some (bs.take n) := by
  rw [readRange_eq_some]
  refine ⟨hfit, by rw [length_take]; omega, fun i hi => ?_⟩
  rw [getElem?_take, if_pos hi, ← h i (by omega)]
  rcases add_mod_cases p (show i < m.length by omega) with ⟨-, heq⟩ | ⟨hge, -⟩
  · rw [heq]
  · omega

lemma At.readAround_eq (h : At m p bs) (hpos : 0 < m.length) (hlen : bs.length ≤ m.length) :
    readAround m (p % m.length) bs.length = some bs := by
  have hp : p % m.length < m.length := mod_lt _ hpos
  unfold readAround
  split_ifs with hfit
  · rw [h.readRange_eq le_rfl hfit, take_length]
  · have hfirst : readRange m (p % m.length) (m.length - p % m.length) =
        some (bs.take (m.length - p % m.length)) := h.readRange_eq (by omega) (by omega)
    have hsecond : readRange m 0 (bs.length - (m.length - p % m.length)) =
        some (bs.drop (m.length - p % m.length)) := by
      rw [readRange_eq_some]
      refine ⟨by omega, by rw [length_drop], fun i hi => ?_⟩
      rw [getElem?_drop, ← h _ (by omega), Nat.zero_add]
      rcases add_mod_cases p (show m.length - p % m.length + i < m.length by omega) with
        ⟨hlt, -⟩ | ⟨-, heq⟩
      · omega
      · rw [heq]
        congr 1
        omega
    simp only [hfirst, hsecond, Option.bind_eq_bind, Option.bind_some, Option.pure_def, take_append_drop]

lemma At.congr (h : At m p bs) (hlen : m'.length = m.length)
    (hkeep : ∀ i, p ≤ i → i < p + bs.length → m'[i % m.length]? = m[i % m.length]?) : At m' p bs := by
  intro i hi
  rw [hlen, hkeep _ (by omega) (by omega), h i hi]

variable {bs' : List α}

lemma At.append (h : At m p bs) (h' : At m (p + bs.length) bs') : At m p (bs ++ bs') := by
  intro i hi
  rw [length_append] at hi
  rcases Nat.lt_or_ge i bs.length with hlt | hge
  · rw [getElem?_append_left hlt, h i hlt]
  · have hi' := h' (i - bs.length) (by omega)
    rwa [Nat.add_assoc, Nat.add_sub_cancel' hge, ← getElem?_append_right hge] at hi'

lemma At.left (h : At m p (bs ++ bs')) : At m p bs := by
  intro i hi
  rw [h i (by rw [length_append]; omega), getElem?_append_left hi]

lemma At.right (h : At m p (bs ++ bs')) : At m (p + bs.length) bs' := by
  intro i hi
  rw [Nat.add_assoc, h (bs.length + i) (by rw [length_append]; omega),
    getElem?_append_right (Nat.le_add_right _ _), Nat.add_sub_cancel_left]

lemma At.extend (h : At m p bs) (hdvd : m.length ∣ (m ++ m').length)
    (hfit : p % (m ++ m').length + bs.length ≤ m.length) : At (m ++ m') p bs := by
  intro i hi
  have hle : m.length ≤ (m ++ m').length := by simp
  have hmod : p % (m ++ m').length % m.length = p % m.length := mod_mod_of_dvd p hdvd
  rw [mod_eq_of_lt (by omega)] at hmod
  have hlong : (p + i) % (m ++ m').length = p % m.length + i := by
    rw [← mod_add_mod, hmod, mod_eq_of_lt (by omega)]
  have hshort : (p + i) % m.length = p % m.length + i := by rw [← mod_add_mod, mod_eq_of_lt (by omega)]
  rw [← h i hi, hlong, hshort, getElem?_append_left (by omega)]

end Bpftime.Circular
