import Mathlib.Data.Finmap
import Mathlib.Tactic

/-!
# Linear probing

A table of `n` cells holds entries under keys, and a key is looked for from the cell `h k` on, cell
after cell and around the end of the table, until it or an empty cell is met.
-/

namespace Bpftime.Probing

open Option Nat Function Prod Finmap

variable {K V : Type*}

/-- Where a search ends: at an empty cell, at the entry of the key, or where it began. -/
inductive Probe where
  | vacant (i : ℕ)
  | found (i : ℕ)
  | exhausted
deriving DecidableEq

section Search

variable [DecidableEq K]

/-- The search for `k` from cell `i` on, which ends when it comes back to `start`. -/
def probe (cell : ℕ → Option (K × V)) (n start : ℕ) (k : K) : ℕ → ℕ → Option Probe
  | 0, _ => none
  | fuel + 1, i =>
    match cell i with
    | none => some (.vacant i)
    | some (k', _) =>
      if k' = k then some (.found i)
      else if (i + 1) % n ≠ start then probe cell n start k fuel ((i + 1) % n)
      else some .exhausted

variable {cell : ℕ → Option (K × V)} {n : ℕ}

/-- The first `t` cells from `start` on hold entries of other keys. -/
def Passed (cell : ℕ → Option (K × V)) (n start t : ℕ) (k : K) : Prop :=
  ∀ x < t, ∃ k' v, cell ((start + x) % n) = some (k', v) ∧ k' ≠ k

/-- What the end of a search says: how many cells it passed, and what it met there. -/
def EndsAt (cell : ℕ → Option (K × V)) (n start : ℕ) (k : K) : Probe → Prop
  | .vacant i => ∃ t < n, i = (start + t) % n ∧ Passed cell n start t k ∧ cell i = none
  | .found i => ∃ t < n, i = (start + t) % n ∧ Passed cell n start t k ∧ ∃ v, cell i = some (k, v)
  | .exhausted => Passed cell n start n k

lemma probe_spec {start : ℕ} (hs : start < n) (k : K) :
    ∃ p, probe cell n start k n start = some p ∧ EndsAt cell n start k p := by
  -- The induction is on the number of cells left, `t` of them being passed.
  have key : ∀ fuel t, fuel + t = n → 0 < fuel → Passed cell n start t k →
      ∃ p, probe cell n start k fuel ((start + t) % n) = some p ∧ EndsAt cell n start k p := by
    intro fuel
    induction fuel with
    | zero => intro t _ h0 _; omega
    | succ fuel ih =>
      intro t ht _ hpass
      rw [probe]
      cases hc : cell ((start + t) % n) with
      | none => exact ⟨_, rfl, t, by omega, rfl, hpass, hc⟩
      | some entry =>
        obtain ⟨k', v⟩ := entry
        dsimp only
        split_ifs with hk hback
        · subst hk
          exact ⟨_, rfl, t, by omega, rfl, hpass, v, hc⟩
        · have hpass' : Passed cell n start (t + 1) k := by
            intro x hx
            rcases Nat.lt_succ_iff_lt_or_eq.mp hx with hlt | rfl
            · exact hpass x hlt
            · exact ⟨k', v, hc, hk⟩
          have hnext : ((start + t) % n + 1) % n = (start + (t + 1)) % n := by
            rw [mod_add_mod, Nat.add_assoc]
          rw [hnext] at hback ⊢
          have hfuel : fuel ≠ 0 := by
            rintro rfl
            apply hback
            rw [show start + (t + 1) = start + n by omega, add_mod_right, mod_eq_of_lt hs]
          exact ih (t + 1) (by omega) (by omega) hpass'
        · -- Back at the start, every cell has been passed.
          have hnext : ((start + t) % n + 1) % n = (start + (t + 1)) % n := by
            rw [mod_add_mod, Nat.add_assoc]
          rw [hnext, not_not] at hback
          have hlast : t + 1 = n := by
            by_contra hne
            rcases Nat.lt_or_ge (start + (t + 1)) n with hlt | hge
            · rw [mod_eq_of_lt hlt] at hback
              omega
            · rw [mod_eq_sub_mod hge, mod_eq_of_lt (by omega)] at hback
              omega
          refine ⟨_, rfl, fun x hx => ?_⟩
          rcases Nat.lt_succ_iff_lt_or_eq.mp (hlast ▸ hx : x < t + 1) with hlt | rfl
          · exact hpass x hlt
          · exact ⟨k', v, hc, hk⟩
  have hrun := key n 0 (by omega) (by omega) fun x hx => absurd hx (Nat.not_lt_zero x)
  rwa [Nat.add_zero, mod_eq_of_lt hs] at hrun

end Search

variable {cell : ℕ → Option (K × V)} {n : ℕ} {h : K → ℕ}

/-- Every entry lies behind entries only, counted from the cell where the search for it starts. -/
def Chained (cell : ℕ → Option (K × V)) (n : ℕ) (h : K → ℕ) : Prop :=
  ∀ i < n, ∀ k v, cell i = some (k, v) → ∃ d < n, (h k + d) % n = i ∧ ∀ t < d, cell ((h k + t) % n) ≠ none

def Distinct (cell : ℕ → Option (K × V)) (n : ℕ) : Prop :=
  ∀ i < n, ∀ j < n, ∀ k v w, cell i = some (k, v) → cell j = some (k, w) → i = j

/-- No other entry is found across cell `i`. -/
def Uncrossed (cell : ℕ → Option (K × V)) (n : ℕ) (h : K → ℕ) (i : ℕ) : Prop :=
  ∀ j < n, j ≠ i → ∀ k v, cell j = some (k, v) → ∀ d < n, (h k + d) % n = j → ∀ t < d, (h k + t) % n ≠ i

variable {i : ℕ} {v : V} {k : K}

lemma exists_offset {s : ℕ} (hi : i < n) : ∃ t < n, (s + t) % n = i := by
  refine ⟨(i + (n - s % n)) % n, mod_lt _ (by omega), ?_⟩
  have hs : s % n < n := mod_lt _ (by omega)
  rw [add_mod_mod, ← mod_add_mod, show s % n + (i + (n - s % n)) = i + n by omega,
    add_mod_right, mod_eq_of_lt hi]

section

variable (hc : Chained cell n h)
include hc

lemma Chained.endsAt_found (hd : Distinct cell n)
    {p : Probe} (hi : i < n) (hcell : cell i = some (k, v)) (hp : EndsAt cell n (h k) k p) :
    p = .found i := by
  obtain ⟨d, hdn, hdi, hpath⟩ := hc i hi k v hcell
  -- A search that passed the entry would have met another key there.
  have hle : ∀ t, Passed cell n (h k) t k → t ≤ d := by
    intro t hpass
    by_contra hlt
    obtain ⟨k', w, hk', hne⟩ := hpass d (by omega)
    rw [hdi, hcell, Option.some.injEq, Prod.mk.injEq] at hk'
    exact hne hk'.1.symm
  cases p with
  | vacant j =>
    obtain ⟨t, htn, rfl, hpass, hnone⟩ := hp
    rcases (hle t hpass).lt_or_eq with hlt | rfl
    · exact absurd hnone (hpath t hlt)
    · rw [hdi, hcell] at hnone
      exact absurd hnone (by simp)
  | found j =>
    obtain ⟨t, htn, rfl, hpass, w, hw⟩ := hp
    rw [hd _ (mod_lt _ (by omega)) i hi k w v hw hcell]
  | exhausted =>
    have := hle n hp
    omega

lemma Chained.update (hself : ∃ d < n, (h k + d) % n = i ∧ ∀ t < d, cell ((h k + t) % n) ≠ none) :
    Chained (update cell i (some (k, v))) n h := by
  -- What was not empty is not empty now.
  have hkeep : ∀ j, cell j ≠ none → Function.update cell i (some (k, v)) j ≠ none := by
    intro j hj
    rw [update_apply]
    split_ifs
    · simp
    · exact hj
  intro j hj k' v' hj'
  rw [update_apply] at hj'
  split_ifs at hj' with hji
  · rw [Option.some.injEq, Prod.mk.injEq] at hj'
    obtain ⟨rfl, rfl⟩ := hj'
    obtain ⟨d, hdn, hdi, hpath⟩ := hself
    exact ⟨d, hdn, by rw [hji, hdi], fun x hx => hkeep _ (hpath x hx)⟩
  · obtain ⟨d, hdn, hdj, hpath⟩ := hc j hj k' v' hj'
    exact ⟨d, hdn, hdj, fun x hx => hkeep _ (hpath x hx)⟩

lemma Chained.insert (hp : EndsAt cell n (h k) k (.vacant i)) :
    Chained (Function.update cell i (some (k, v))) n h := by
  obtain ⟨t, htn, hti, hpass, hnone⟩ := hp
  refine hc.update ⟨t, htn, hti.symm, fun x hx => ?_⟩
  obtain ⟨k', w, hk', -⟩ := hpass x hx
  rw [hk']
  simp

lemma Chained.replace {w : V} (hi : i < n)
    (hcell : cell i = some (k, w)) : Chained (Function.update cell i (some (k, v))) n h :=
    hc.update (hc i hi k w hcell)

lemma Chained.erase (hu : Uncrossed cell n h i) : Chained (Function.update cell i none) n h := by
  intro j hj k v hj'
  rw [update_apply] at hj'
  split_ifs at hj' with hji
  obtain ⟨d, hdn, hdj, hpath⟩ := hc j hj k v hj'
  refine ⟨d, hdn, hdj, fun x hx => ?_⟩
  rw [update_of_ne (hu j hj hji k v hj' d hdn hdj x hx)]
  exact hpath x hx

end

/-! ## The map that a table stands for -/

section Represents

variable [DecidableEq K]

/-- A table of `n` cells that stands for the finite map `m`, and in which every search ends
right. -/
structure Represents (cell : ℕ → Option (K × V)) (n : ℕ) (h : K → ℕ) (m : Finmap fun _ : K => V) : Prop where
  home_lt : ∀ k, h k < n
  chained : Chained cell n h
  distinct : Distinct cell n
  lookup_iff : ∀ k v, m.lookup k = some v ↔ ∃ i < n, cell i = some (k, v)

variable {m : Finmap fun _ : K => V}

lemma represents_empty (hn : ∀ k, h k < n) (hempty : ∀ i < n, cell i = none) : Represents cell n h ∅ where
  home_lt := hn
  chained i hi k v hcell := by simp [hempty i hi] at hcell
  distinct i hi j hj k v w hcell := by simp [hempty i hi] at hcell
  lookup_iff k v := by
    rw [lookup_empty]
    constructor
    · simp
    · rintro ⟨i, hi, hcell⟩
      simp [hempty i hi] at hcell

lemma keys_insert (m : Finmap fun _ : K => V) (k : K) (v : V) : (m.insert k v).keys = insert k m.keys := by
  ext k'
  rw [mem_keys, mem_insert, Finset.mem_insert, mem_keys]

variable {k : K} {i : ℕ}

section

variable (hm : Represents cell n h m)
include hm

lemma Represents.of_found (hp : EndsAt cell n (h k) k (.found i)) :
    i < n ∧ ∃ v, cell i = some (k, v) ∧ m.lookup k = some v := by
  obtain ⟨t, htn, rfl, -, v, hv⟩ := hp
  have hi : (h k + t) % n < n := mod_lt _ (by omega)
  exact ⟨hi, v, hv, (hm.lookup_iff k v).mpr ⟨_, hi, hv⟩⟩

lemma Represents.lookup_eq_none {p : Probe}
    (hp : EndsAt cell n (h k) k p) (hne : ∀ i, p ≠ .found i) : m.lookup k = none := by
  rw [eq_none_iff_forall_ne_some]
  intro v hv
  obtain ⟨i, hi, hcell⟩ := (hm.lookup_iff k v).mp hv
  exact hne i (hm.chained.endsAt_found hm.distinct hi hcell hp)

lemma Represents.le_card (hp : EndsAt cell n (h k) k .exhausted) : n ≤ m.keys.card := by
  -- Every cell is met in the round, and holds a key of its own.
  have hfull : ∀ i : Fin n, ∃ k' v, cell i = some (k', v) := by
    intro i
    obtain ⟨t, htn, hti⟩ := exists_offset i.isLt (s := h k)
    obtain ⟨k', v, hk', -⟩ := hp t htn
    rw [hti] at hk'
    exact ⟨k', v, hk'⟩
  choose key val hcell using hfull
  have hmem : ∀ i, key i ∈ m.keys := fun i =>
    mem_keys.mpr (mem_of_lookup_eq_some
      ((hm.lookup_iff (key i) (val i)).mpr ⟨i, i.isLt, hcell i⟩))
  have hinj : Injective key := by
    intro i j hij
    have hj := hcell j
    rw [← hij] at hj
    exact Fin.ext (hm.distinct i i.isLt j j.isLt _ _ _ (hcell i) hj)
  calc n = (Finset.univ : Finset (Fin n)).card := (Finset.card_fin n).symm
    _ ≤ m.keys.card := Finset.card_le_card_of_injOn key (fun i _ => hmem i) hinj.injOn

lemma Represents.insert {v : V} (hp : EndsAt cell n (h k) k (.vacant i)) :
    Represents (update cell i (some (k, v))) n h (m.insert k v) := by
  have habsent := hm.lookup_eq_none hp (by simp)
  have hother : ∀ j < n, ∀ w, cell j ≠ some (k, w) := by
    intro j hj w hcell
    rw [(hm.lookup_iff k w).mpr ⟨j, hj, hcell⟩] at habsent
    simp at habsent
  have hin : i < n := by
    obtain ⟨t, htn, rfl, -, -⟩ := hp
    exact mod_lt _ (by omega)
  have hnone : cell i = none := by
    obtain ⟨t, htn, -, -, hnone⟩ := hp
    exact hnone
  refine ⟨hm.home_lt, hm.chained.insert hp, ?_, ?_⟩
  · intro a ha b hb k' w w' hwa hwb
    rw [update_apply] at hwa hwb
    split_ifs at hwa hwb with hai hbi hbi
    · rw [hai, hbi]
    · obtain ⟨rfl, rfl⟩ := mk.inj (some.inj hwa)
      exact absurd hwb (hother b hb w')
    · obtain ⟨rfl, rfl⟩ := mk.inj (some.inj hwb)
      exact absurd hwa (hother a ha w)
    · exact hm.distinct a ha b hb k' w w' hwa hwb
  · intro k' w
    by_cases hk : k' = k
    · subst hk
      rw [lookup_insert]
      constructor
      · intro hw
        exact ⟨i, hin, by rw [update_self, some.inj hw]⟩
      · rintro ⟨j, hj, hcell⟩
        rw [update_apply] at hcell
        split_ifs at hcell with hji
        · rw [(mk.inj (some.inj hcell)).2]
        · exact absurd hcell (hother j hj w)
    · rw [lookup_insert_of_ne _ hk, hm.lookup_iff]
      constructor
      · rintro ⟨j, hj, hcell⟩
        refine ⟨j, hj, ?_⟩
        rw [update_of_ne, hcell]
        rintro rfl
        simp [hnone] at hcell
      · rintro ⟨j, hj, hcell⟩
        rw [update_apply] at hcell
        split_ifs at hcell with hji
        · exact absurd (mk.inj (some.inj hcell)).1.symm hk
        · exact ⟨j, hj, hcell⟩

lemma Represents.replace {v w : V} (hi : i < n) (hcell : cell i = some (k, w)) :
    Represents (update cell i (some (k, v))) n h (m.insert k v) := by
  -- Cells hold the keys that they held.
  have hkeys : ∀ j k' u, update cell i (some (k, v)) j = some (k', u) → ∃ u', cell j = some (k', u') := by
    intro j k' u hj
    rw [update_apply] at hj
    split_ifs at hj with hji
    · obtain ⟨rfl, rfl⟩ := mk.inj (some.inj hj)
      exact ⟨w, by rw [hji, hcell]⟩
    · exact ⟨u, hj⟩
  refine ⟨hm.home_lt, hm.chained.replace hi hcell, ?_, ?_⟩
  · intro a ha b hb k' u u' hua hub
    obtain ⟨x, hx⟩ := hkeys a k' u hua
    obtain ⟨y, hy⟩ := hkeys b k' u' hub
    exact hm.distinct a ha b hb k' x y hx hy
  · intro k' u
    by_cases hk : k' = k
    · subst hk
      rw [lookup_insert]
      constructor
      · intro hu
        exact ⟨i, hi, by rw [update_self, some.inj hu]⟩
      · rintro ⟨j, hj, hu⟩
        obtain ⟨u', hu'⟩ := hkeys j k' u hu
        have hji := hm.distinct j hj i hi k' u' w hu' hcell
        rw [hji, update_self] at hu
        rw [(mk.inj (some.inj hu)).2]
    · rw [lookup_insert_of_ne _ hk, hm.lookup_iff]
      constructor
      · rintro ⟨j, hj, hu⟩
        refine ⟨j, hj, ?_⟩
        rw [update_of_ne, hu]
        rintro rfl
        rw [hcell] at hu
        exact hk (mk.inj (some.inj hu)).1.symm
      · rintro ⟨j, hj, hu⟩
        rw [update_apply] at hu
        split_ifs at hu with hji
        · exact absurd (mk.inj (some.inj hu)).1.symm hk
        · exact ⟨j, hj, hu⟩

lemma Represents.erase {w : V} (hi : i < n) (hcell : cell i = some (k, w))
    (hu : Uncrossed cell n h i) : Represents (update cell i none) n h (m.erase k) := by
  have hsub : ∀ j k' u, update cell i none j = some (k', u) → j ≠ i ∧ cell j = some (k', u) := by
    intro j k' u hj
    rw [update_apply] at hj
    split_ifs at hj with hji
    exact ⟨hji, hj⟩
  refine ⟨hm.home_lt, hm.chained.erase hu, ?_, ?_⟩
  · intro a ha b hb k' u u' hua hub
    exact hm.distinct a ha b hb k' u u' (hsub a k' u hua).2 (hsub b k' u' hub).2
  · intro k' u
    by_cases hk : k' = k
    · subst hk
      rw [lookup_erase]
      constructor
      · simp
      · rintro ⟨j, hj, hju⟩
        obtain ⟨hji, hju'⟩ := hsub j k' u hju
        exact absurd (hm.distinct j hj i hi k' u w hju' hcell) hji
    · rw [lookup_erase_ne hk, hm.lookup_iff]
      constructor
      · rintro ⟨j, hj, hju⟩
        refine ⟨j, hj, ?_⟩
        rw [update_of_ne, hju]
        rintro rfl
        rw [hcell] at hju
        exact hk (mk.inj (some.inj hju)).1.symm
      · rintro ⟨j, hj, hju⟩
        exact ⟨j, hj, (hsub j k' u hju).2⟩

end

end Represents

end Bpftime.Probing
