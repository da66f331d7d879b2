import Mathlib.NumberTheory.Bertrand
import Bpftime.Basic

/-!
# The number of buckets

`is_prime` and `next_prime` of `runtime/src/bpf_map/bpftime_hash_map.hpp`, which turn the number of
buckets that was asked for into the number that the table gets.
-/

namespace Bpftime.HashMap

open Nat

/-- The loop of `is_prime`, from the divisor `i` on. -/
def trialDivision (n : ℕ) : ℕ → ℕ → Bool
  | 0, _ => true
  | fuel + 1, i =>
    if i * i % 2^64 ≤ n then
      if n % i = 0 ∨ n % add64 i 2 = 0 then false
      else trialDivision n fuel (add64 i 6)
    else true

/-- `is_prime`. -/
def isPrime (n : ℕ) : Bool :=
  if n ≤ 1 then false
  else if n ≤ 3 then true
  else if n % 2 = 0 ∨ n % 3 = 0 then false
  else trialDivision n n 5

/-- The loop of `next_prime`. -/
def nextPrimeFrom : ℕ → ℕ → Option ℕ
  | 0, _ => none
  | fuel + 1, n => if isPrime n then some n else nextPrimeFrom fuel (add64 n 1)

/-- `next_prime`. -/
def nextPrime (n : ℕ) : Option ℕ := nextPrimeFrom (n + 3) n

variable {n : ℕ}

lemma no_divisor_step {i : ℕ} (h2 : n % 2 ≠ 0) (h3 : n % 3 ≠ 0) (hi : i % 6 = 5)
    (hno : ∀ d, 2 ≤ d → d < i → ¬ d ∣ n) (hd : n % i ≠ 0) (hd2 : n % (i + 2) ≠ 0) :
    ∀ d, 2 ≤ d → d < i + 6 → ¬ d ∣ n := by
  intro d hd1 hlt hdvd
  rcases Nat.lt_or_ge d i with hlow | hge
  · exact hno d hd1 hlow hdvd
  -- Of six numbers in a row, only two are prime to six.
  have hcase : d = i ∨ d = i + 2 ∨ 2 ∣ d ∨ 3 ∣ d := by omega
  rcases hcase with rfl | rfl | heven | hthree
  · exact hd (mod_eq_zero_of_dvd hdvd)
  · exact hd2 (mod_eq_zero_of_dvd hdvd)
  · exact h2 (mod_eq_zero_of_dvd (heven.trans hdvd))
  · exact h3 (mod_eq_zero_of_dvd (hthree.trans hdvd))

lemma trialDivision_iff (hn : n < 2^62) (hn4 : 4 ≤ n) (h2 : n % 2 ≠ 0) (h3 : n % 3 ≠ 0) :
    ∀ fuel i, i % 6 = 5 → n < i + 6 * fuel → i < 2^31 + 6 →
    (∀ d, 2 ≤ d → d < i → ¬ d ∣ n) → (trialDivision n fuel i = true ↔ n.Prime) := by
  intro fuel
  induction fuel with
  | zero =>
    intro i _ hf _ hno
    -- Every number up to `n` has been ruled out, `n` among them.
    exact absurd dvd_rfl (hno n (by omega) (by omega))
  | succ fuel ih =>
    intro i hi hf hsmall hno
    have hsq : i * i < 2^64 := by nlinarith
    have hadd2 : add64 i 2 = i + 2 := add64_of_lt (by omega)
    have hadd6 : add64 i 6 = i + 6 := add64_of_lt (by omega)
    rw [trialDivision, mod_eq_of_lt hsq, hadd2, hadd6]
    split_ifs with hle hdiv
    · -- A divisor between one and `n`.
      have hi5 : 5 ≤ i := by omega
      have hbig : i + 2 < n := by nlinarith
      constructor
      · simp
      · intro hp
        rcases hdiv with hd | hd
        · rcases hp.eq_one_or_self_of_dvd i (dvd_of_mod_eq_zero hd) with h | h <;> omega
        · rcases hp.eq_one_or_self_of_dvd (i + 2) (dvd_of_mod_eq_zero hd) with h | h <;> omega
    · rw [not_or] at hdiv
      have hroot : i < 2^31 := by nlinarith
      exact ih (i + 6) (by omega) (by omega) (by omega) (no_divisor_step h2 h3 hi hno hdiv.1 hdiv.2)
    · -- Past the square root, `n` has no divisor left.
      refine ⟨fun _ => ?_, fun _ => rfl⟩
      by_contra hnp
      have hmin : n.minFac^2 ≤ n := minFac_sq_le_self (by omega) hnp
      have hprime : n.minFac.Prime := minFac_prime (by omega)
      have hlow : n.minFac < i := by nlinarith
      exact hno n.minFac hprime.two_le hlow (minFac_dvd n)

lemma isPrime_iff (hn : n < 2^62) : isPrime n = true ↔ n.Prime := by
  unfold isPrime
  split_ifs with h1 h3 hdiv
  · have hnp : ¬ n.Prime := fun hp => by have := hp.two_le; omega
    simp [hnp]
  · have hcase : n = 2 ∨ n = 3 := by omega
    rcases hcase with rfl | rfl <;> norm_num
  · refine ⟨by simp, fun hp => ?_⟩
    rcases hdiv with hd | hd
    · rcases hp.eq_one_or_self_of_dvd 2 (dvd_of_mod_eq_zero hd) with h | h <;> omega
    · rcases hp.eq_one_or_self_of_dvd 3 (dvd_of_mod_eq_zero hd) with h | h <;> omega
  · rw [not_or] at hdiv
    apply trialDivision_iff hn (by omega) hdiv.1 hdiv.2 n 5 rfl (by omega) (by omega)
    intro d hd hlt hdvd
    have hcase : d = 2 ∨ d = 3 ∨ d = 4 := by omega
    rcases hcase with rfl | rfl | rfl <;> omega

/-- The least prime that is not below `n`. -/
def leastPrime (n : ℕ) : ℕ := Nat.find (exists_infinite_primes n)

lemma le_leastPrime (n : ℕ) : n ≤ leastPrime n := (Nat.find_spec (exists_infinite_primes n)).1

lemma leastPrime_prime (n : ℕ) : (leastPrime n).Prime := (Nat.find_spec (exists_infinite_primes n)).2

lemma leastPrime_lt (n : ℕ) : leastPrime n < 2 * n + 3 := by
  rcases Nat.eq_zero_or_pos n with rfl | hpos
  · have hle : leastPrime 0 ≤ 2 := Nat.find_min' _ ⟨by omega, prime_two⟩
    omega
  · obtain ⟨p, hp, hlt, hle⟩ := exists_prime_lt_and_le_two_mul n (by omega)
    have hmin : leastPrime n ≤ p := Nat.find_min' _ ⟨hlt.le, hp⟩
    omega

lemma nextPrimeFrom_eq (hn : leastPrime n < 2^62) :
    ∀ fuel a, n ≤ a → a ≤ leastPrime n → leastPrime n < a + fuel →
    nextPrimeFrom fuel a = some (leastPrime n) := by
  intro fuel
  induction fuel with
  | zero => intro a _ _ hf; omega
  | succ fuel ih =>
    intro a hna hle hf
    rw [nextPrimeFrom]
    have hiff := isPrime_iff (show a < 2^62 by omega)
    split_ifs with hp
    · have hmin : leastPrime n ≤ a := Nat.find_min' _ ⟨hna, hiff.mp hp⟩
      rw [le_antisymm hmin hle]
    · have hne : a ≠ leastPrime n := by
        rintro rfl
        exact hp (hiff.mpr (leastPrime_prime n))
      rw [add64_of_lt (by omega)]
      exact ih (a + 1) (by omega) (by omega) (by omega)

lemma nextPrime_eq (hn : leastPrime n < 2^62) : nextPrime n = some (leastPrime n) := by
  have hlt := leastPrime_lt n
  exact nextPrimeFrom_eq hn (n + 3) n le_rfl (le_leastPrime n) (by omega)

/-- The numbers that the loop of `is_prime` squares, from `i` on. -/
def squared (n : ℕ) : ℕ → ℕ → List ℕ
  | 0, _ => []
  | fuel + 1, i =>
    i :: if i * i % 2^64 ≤ n then if n % i = 0 ∨ n % add64 i 2 =
    0 then [] else squared n fuel (add64 i 6) else []

lemma squared_spec (hn : n < 2^62) : ∀ fuel i, 5 ≤ i → i < 2^31 + 6 →
    (squared n fuel i).length ≤ n - i + 2 ∧ ∀ j ∈ squared n fuel i, j * j < 2^64 := by
  intro fuel
  induction fuel with
  | zero => simp [squared]
  | succ fuel ih =>
    intro i hi hsmall
    have hsq : i * i < 2^64 := by nlinarith
    rw [squared, mod_eq_of_lt hsq]
    split_ifs with hle hdiv
    · simpa using hsq
    · have hroot : i < 2^31 := by nlinarith
      have hfar : i + 6 ≤ n := by nlinarith
      rw [add64_of_lt (by omega)]
      obtain ⟨hlength, hall⟩ := ih (i + 6) (by omega) (by omega)
      refine ⟨?_, fun j hj => ?_⟩
      · rw [List.length_cons]
        omega
      · rcases List.mem_cons.mp hj with rfl | hj
        · exact hsq
        · exact hall j hj
    · simpa using hsq

/-- `next_prime` finds the least prime, and every `is_prime` on the way there decides: however long
its loop is let run, it ends and squares no number that is too large. -/
theorem nextPrime_least (n : ℕ) (hn : n < 2^32) :
    ∃ p, nextPrime n = some p ∧ IsLeast {q | q.Prime ∧ n ≤ q} p ∧
    ∀ a, n ≤ a → a ≤ p → (isPrime a = true ↔ a.Prime) ∧
      ∀ fuel, (squared a fuel 5).length ≤ a + 2 ∧ ∀ i ∈ squared a fuel 5, i * i < 2^64 := by
  have hlt := leastPrime_lt n
  refine ⟨leastPrime n, nextPrime_eq (by omega), ⟨⟨leastPrime_prime n, le_leastPrime n⟩, fun q hq =>
    ?_⟩, fun a _ ha => ⟨isPrime_iff (by omega), fun fuel => ?_⟩⟩
  · exact Nat.find_min' _ ⟨hq.2, hq.1⟩
  · obtain ⟨hlength, hall⟩ := squared_spec (n := a) (by omega) fuel 5 le_rfl (by norm_num)
    exact ⟨by omega, hall⟩

theorem nextPrime_least_eight : ∃ p, nextPrime 8 = some p ∧ IsLeast {q | q.Prime ∧ 8 ≤ q} p :=
  (nextPrime_least 8 (by norm_num)).imp fun _ h => ⟨h.1, h.2.1⟩

end Bpftime.HashMap
