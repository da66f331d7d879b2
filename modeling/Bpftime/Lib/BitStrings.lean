import Mathlib.Tactic

/-!
# Bit strings

The first `n` values of a function on indices, as a string of bits (`bits`), and how far two such
functions agree (`agreeLen`).
-/

namespace Bpftime.BitStrings

open List

/-- The first `n` bits of `f`. -/
def bits (f : ℕ → Bool) (n : ℕ) : List Bool := (List.range n).map f

/-- The first index from `i` on at which `f` and `g` differ, or the end of the `fuel` indices. -/
def agreeLen (f g : ℕ → Bool) : ℕ → ℕ → ℕ
  | 0, i => i
  | fuel + 1, i => if f i ≠ g i then i else agreeLen f g fuel (i + 1)

variable {f g : ℕ → Bool} {n k : ℕ}

@[simp] lemma length_bits (f : ℕ → Bool) (n : ℕ) : (bits f n).length = n := by
  rw [bits, length_map, length_range]

lemma getElem?_bits {i : ℕ} (h : i < n) : (bits f n)[i]? = some (f i) := by
  rw [bits, getElem?_map, getElem?_range h, Option.map_some]

lemma bits_succ (f : ℕ → Bool) (n : ℕ) : bits f (n + 1) = bits f n ++ [f n] := by
  rw [bits, bits, range_succ, map_append, map_singleton]

lemma bits_isPrefix_iff : bits f n <+: bits g k ↔ n ≤ k ∧ ∀ i < n, f i = g i := by
  constructor
  · intro h
    have hle := h.length_le
    rw [length_bits, length_bits] at hle
    refine ⟨hle, fun i hi => ?_⟩
    obtain ⟨t, ht⟩ := h
    have hget := congrArg (fun l => l[i]?) ht
    rw [getElem?_append_left (by rw [length_bits]; exact hi), getElem?_bits hi,
      getElem?_bits (by omega)] at hget
    exact Option.some.inj hget
  · rintro ⟨hle, hag⟩
    induction k with
    | zero =>
      obtain rfl : n = 0 := by omega
      exact prefix_rfl
    | succ k ih =>
      rcases Nat.lt_or_ge k n with hlt | hge
      · obtain rfl : n = k + 1 := by omega
        have heq : bits f (k + 1) = bits g (k + 1) := map_congr_left fun i hi => hag i (mem_range.mp hi)
        rw [heq]
      · rw [bits_succ g]
        exact (ih hge).trans (prefix_append _ _)

lemma bits_eq_iff : bits f n = bits g k ↔ n = k ∧ ∀ i < n, f i = g i := by
  constructor
  · intro h
    have hlen := congrArg length h
    rw [length_bits, length_bits] at hlen
    have hpre : bits f n <+: bits g k := by rw [h]
    exact ⟨hlen, (bits_isPrefix_iff.mp hpre).2⟩
  · rintro ⟨rfl, hag⟩
    exact map_congr_left fun i hi => hag i (mem_range.mp hi)

lemma bits_snoc_isPrefix (hag : ∀ i < n, f i = g i) (hlt : n < k) : bits f n ++ [g n] <+: bits g k := by
  rw [bits_eq_iff.mpr ⟨rfl, hag⟩, ← bits_succ]
  exact bits_isPrefix_iff.mpr ⟨hlt, fun _ _ => rfl⟩

lemma agreeLen_spec (f g : ℕ → Bool) (fuel i : ℕ) :
    i ≤ agreeLen f g fuel i ∧ agreeLen f g fuel i ≤ i + fuel ∧
    (∀ j, i ≤ j → j < agreeLen f g fuel i → f j = g j) ∧
    (agreeLen f g fuel i < i + fuel → f (agreeLen f g fuel i) ≠ g (agreeLen f g fuel i)) := by
  induction fuel generalizing i with
  | zero =>
    rw [agreeLen]
    exact ⟨le_rfl, le_rfl, fun j h1 h2 => by omega, fun h => by omega⟩
  | succ fuel ih =>
    rw [agreeLen]
    split_ifs with hne
    · exact ⟨le_rfl, by omega, fun j h1 h2 => by omega, fun _ => hne⟩
    · obtain ⟨h1, h2, h3, h4⟩ := ih (i + 1)
      refine ⟨by omega, by omega, fun j hj hlt => ?_, fun hlt => h4 (by omega)⟩
      rcases hj.lt_or_eq with hlt' | rfl
      · exact h3 j hlt' hlt
      · exact not_not.mp hne

end Bpftime.BitStrings
