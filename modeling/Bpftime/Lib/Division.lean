import Mathlib.Tactic

/-!
# Truncating division by the low part of a divisor

When a division by `t` has the quotient or the remainder of the division by `b`.
-/

namespace Bpftime.Division

open Int Nat

variable {a b t : ℤ} {m : ℕ}

lemma natAbs_le_of_tdiv_ne_zero (h : a.tdiv b ≠ 0) : b.natAbs ≤ a.natAbs := by
  by_contra hlt
  have hsign := sign_tdiv a b
  rw [if_pos (by omega), sign_eq_zero_iff_zero] at hsign
  exact h hsign

lemma tdiv_eq_zero (h : a.natAbs < b.natAbs) : a.tdiv b = 0 := by
  by_contra hne
  have := natAbs_le_of_tdiv_ne_zero hne
  omega

lemma sign_eq_of_tdiv_eq (h : a.tdiv t = a.tdiv b) (hne : a.tdiv b ≠ 0) : t.sign = b.sign := by
  have ht := natAbs_le_of_tdiv_ne_zero (h ▸ hne)
  have hb := natAbs_le_of_tdiv_ne_zero hne
  have ha : a.sign ≠ 0 := by
    rw [Ne, sign_eq_zero_iff_zero]
    rintro rfl
    exact hne (Int.zero_tdiv b)
  have hsign := congrArg sign h
  rw [sign_tdiv, sign_tdiv, if_neg (by omega), if_neg (by omega)] at hsign
  exact mul_left_cancel₀ ha hsign

lemma natAbs_lt_of_tdiv_eq (h : a.tdiv t = a.tdiv b) (hne : a.tdiv b ≠ 0) (ht : t ≠ 0) :
    b.natAbs < 2 * t.natAbs := by
  have hq : a.natAbs / t.natAbs = a.natAbs / b.natAbs := by
    have := congrArg natAbs h
    rwa [natAbs_tdiv, natAbs_tdiv] at this
  have hpos : 0 < a.natAbs / b.natAbs := by
    have := natAbs_pos.mpr hne
    rwa [natAbs_tdiv] at this
  have htpos : 0 < t.natAbs := natAbs_pos.mpr ht
  -- The dividend lies between the quotient times `b` and the next multiple of `t`.
  have hlow : a.natAbs / b.natAbs * b.natAbs ≤ a.natAbs := div_mul_le_self _ _
  have hhigh : a.natAbs < (a.natAbs / t.natAbs + 1) * t.natAbs := by
    rw [mul_comm]
    exact lt_mul_div_succ _ htpos
  rw [hq] at hhigh
  generalize a.natAbs / b.natAbs = q at hpos hlow hhigh
  by_contra hge
  have hmul : q * (2 * t.natAbs) ≤ q * b.natAbs := Nat.mul_le_mul_left q (by omega)
  have hone : 1 * t.natAbs ≤ q * t.natAbs := Nat.mul_le_mul_right _ hpos
  linarith

lemma tdiv_bmod_eq_iff (hm : 0 < m) (ht : b.bmod m ≠ 0) :
    a.tdiv (b.bmod m) = a.tdiv b ↔ b.bmod m = b ∨ a.natAbs < (b.bmod m).natAbs := by
  have hdecomp := bmod_add_bdiv b m
  have hlow := le_bmod (x := b) hm
  have hhigh := bmod_lt (x := b) hm
  generalize b.bmod m = t at *
  generalize b.bdiv m = j at hdecomp
  -- A divisor that is not its low part is at least as large.
  have hlarge : t ≠ b → (m : ℤ) ≤ |m * j| := by
    intro hne
    have hj : j ≠ 0 := by
      rintro rfl
      exact hne (by omega)
    rw [abs_mul, abs_cast]
    exact le_mul_of_one_le_right (by omega) (one_le_abs hj)
  constructor
  · intro h
    by_contra hnot
    rw [not_or] at hnot
    have hne : a.tdiv b ≠ 0 := by
      rw [← h, ← natAbs_pos, natAbs_tdiv]
      exact Nat.div_pos (by omega) (natAbs_pos.mpr ht)
    have hsign := sign_eq_of_tdiv_eq h hne
    have hsize := natAbs_lt_of_tdiv_eq h hne ht
    have hmj := hlarge hnot.1
    rcases lt_trichotomy t 0 with htneg | htzero | htpos
    · rw [sign_eq_neg_one_of_neg htneg] at hsign
      have hb := neg_of_sign_eq_neg_one hsign.symm
      rcases abs_cases ((m : ℤ) * j) with ⟨habs, -⟩ | ⟨habs, -⟩ <;> omega
    · exact ht htzero
    · rw [sign_eq_one_of_pos htpos] at hsign
      have hb := pos_of_sign_eq_one hsign.symm
      rcases abs_cases ((m : ℤ) * j) with ⟨habs, -⟩ | ⟨habs, -⟩ <;> omega
  · rintro (h | h)
    · rw [h]
    · by_cases hne : t = b
      · rw [hne]
      · have hmj := hlarge hne
        have hle : t.natAbs ≤ b.natAbs := by
          rcases abs_cases ((m : ℤ) * j) with ⟨habs, -⟩ | ⟨habs, -⟩ <;> omega
        rw [tdiv_eq_zero h, tdiv_eq_zero (by omega)]

lemma tmod_eq_iff (ht : t ≠ 0) : a.tmod t = a.tmod b ↔ (a.tmod b).natAbs < t.natAbs ∧ t ∣ a - a.tmod b := by
  constructor
  · intro h
    rw [← h]
    constructor
    · rw [natAbs_tmod]
      exact mod_lt _ (natAbs_pos.mpr ht)
    · have := tmod_add_mul_tdiv a t
      exact ⟨a.tdiv t, by omega⟩
  · rintro ⟨hlt, hdvd⟩
    -- The case of a dividend that is not negative gives the other one by symmetry.
    have hnonneg : ∀ a : ℤ, 0 ≤ a → (a.tmod b).natAbs < t.natAbs → t ∣ a - a.tmod b → a.tmod t =
        a.tmod b := by
      intro a ha hlt ⟨c, hc⟩
      have hr := tmod_nonneg b ha
      have hdecomp : a = a.tmod b + t * c := by omega
      calc a.tmod t = a % t := tmod_eq_emod_of_nonneg ha
        _ = (a.tmod b + t * c) % t := congrArg (· % t) hdecomp
        _ = a.tmod b % t := add_mul_emod_self_left _ _ _
        _ = a.tmod b % |t| := (emod_abs _ _).symm
        _ = a.tmod b := emod_eq_of_lt hr (by rw [abs_eq_natAbs]; omega)
    rcases le_total 0 a with ha | ha
    · exact hnonneg a ha hlt hdvd
    · have hneg := hnonneg (-a) (by omega)
      rw [neg_tmod, neg_tmod, natAbs_neg] at hneg
      have := hneg hlt (by rw [show -a - -a.tmod b = -(a - a.tmod b) by ring]; exact hdvd.neg_right)
      omega

end Bpftime.Division
