import Bpftime.HashMap.FixSize
import Bpftime.Lib.Scanning

/-!
# Iteration over the hash map

`map_get_next_key` of `fix_size_hash_map_impl` returns the key in the first filled slot behind that
of the key it is given.
-/

namespace Bpftime

open Bytes Probing HashMap Runs Scanning List Option
open BpftimeHashMap (Contents)

/-- `get_index_of_value`. -/
def BpftimeHashMap.getIndexOfValue (hm : BpftimeHashMap) (value : ℕ) : ℕ :=
  if hm.data_buffer.length ≤ value then 2^64 - 1 else value / (4 + hm.key_size + hm.value_size)

namespace FixSizeHashMap

variable {ks vs : ℕ}

/-- The loops of `map_get_next_key`: the key in the first filled slot from `i` on, of so many
slots. -/
def scanFrom (f : FixSizeHashMap) : ℕ → ℕ → Option (Except Errno (List UInt8))
  | 0, _ => some (.error .ENOENT)
  | fuel + 1, i => do
    if ← f.map_impl.isEmpty i then
      f.scanFrom fuel (i + 1)
    else
      return .ok (← readRange f.map_impl.data_buffer (f.map_impl.getKey i) f.map_impl.key_size)

def scan (f : FixSizeHashMap) (i : ℕ) : Option (Except Errno (List UInt8)) :=
  f.scanFrom (f.num_buckets - i) i

/-- `map_get_next_key`: the key that is copied to `next_key`. -/
def mapGetNextKey (f : FixSizeHashMap) (key : Option (List UInt8)) (hasNextKey : Bool) :
    Option (Except Errno (List UInt8)) :=
  if !hasNextKey then some (.error .EINVAL)
  else
    match key with
    | none => f.scan 0
    | some key => do
      match ← f.map_impl.elemLookup key with
      | none => f.scan 0
      | some value_ptr => f.scan (add64 (f.map_impl.getIndexOfValue value_ptr) 1)

/-- The keys that a user gets who feeds each key back in, until there are no more. -/
inductive Iterates (f : FixSizeHashMap) : Option (List UInt8) → List (List UInt8) → Prop
  | stop {key : Option (List UInt8)} (h : f.mapGetNextKey key true = some (.error .ENOENT)) : Iterates f key []
  | next {key : Option (List UInt8)} {k : List UInt8} {keys : List (List UInt8)}
      (h : f.mapGetNextKey key true = some (.ok k)) (hrest : Iterates f (some k) keys) :
      Iterates f key (k :: keys)

/-- Iteration ends, and gives each key of the contents once and nothing else. -/
def IterationRight (f : FixSizeHashMap) (m : Contents) : Prop :=
  ∃ keys, Iterates f none keys ∧ keys.Nodup ∧ ∀ k, k ∈ keys ↔ k ∈ m

def Filled (f : FixSizeHashMap) (i : ℕ) : Prop := i < f.map_impl.num_buckets ∧ (f.map_impl.slot i).isSome

/-- The filled slots are among those that `map_get_next_key` looks at. -/
def InReach (f : FixSizeHashMap) : Prop :=
  (∀ i, f.Filled i → i < f.num_buckets) ∧ (f.map_impl.value_size = 0 →
      (∀ i, f.Filled i → ¬f.Filled (i + 1)) ∧ ¬f.Filled (f.map_impl.num_buckets - 1))

/-! ## One step -/

/-- Where the loop starts after the key in slot `i`. -/
def jump (f : FixSizeHashMap) (i : ℕ) : ℕ :=
  if f.map_impl.value_size = 0 then if i + 1 = f.map_impl.num_buckets then 0 else i + 2 else i + 1

def keyOf (f : FixSizeHashMap) (i : ℕ) : List UInt8 := ((f.map_impl.slot i).map Prod.fst).getD []

section Step

variable {num_buckets : ℕ} {f : FixSizeHashMap} {m : Contents} {i j : ℕ}

lemma Filled.slot (h : f.Filled i) : ∃ value, f.map_impl.slot i = some (f.keyOf i, value) := by
  obtain ⟨⟨k, v⟩, hslot⟩ := isSome_iff_exists.mp h.2
  refine ⟨v, ?_⟩
  unfold keyOf
  rw [hslot]
  rfl

lemma Stands.mem_iff (h : Stands num_buckets ks vs f m) (k : List UInt8) : k ∈ m ↔
    ∃ i, f.Filled i ∧ f.keyOf i = k := by
  constructor
  · intro hk
    obtain ⟨v, hv⟩ := Finmap.mem_iff.mp hk
    obtain ⟨i, hi, hslot⟩ := (h.rel.represents.lookup_iff k v).mp hv
    refine ⟨i, ⟨hi, by rw [hslot]; rfl⟩, ?_⟩
    unfold keyOf
    rw [hslot]
    rfl
  · rintro ⟨i, hfilled, rfl⟩
    obtain ⟨v, hv⟩ := hfilled.slot
    exact Finmap.mem_of_lookup_eq_some ((h.rel.represents.lookup_iff _ v).mpr ⟨i, hfilled.1, hv⟩)

lemma Stands.keyOf_inj (h : Stands num_buckets ks vs f m) (hi : f.Filled i) (hj : f.Filled j)
    (heq : f.keyOf i = f.keyOf j) : i = j := by
  obtain ⟨v, hv⟩ := hi.slot
  obtain ⟨w, hw⟩ := hj.slot
  rw [← heq] at hw
  exact h.rel.represents.distinct i hi.1 j hj.1 _ v w hv hw

lemma scanFrom_spec (hshape : BpftimeHashMap.Shape f.map_impl) (fuel i : ℕ)
    (hle : i + fuel ≤ f.map_impl.num_buckets) :
    (∃ j, Next f.Filled (i + fuel) i j ∧ f.scanFrom fuel i = some (.ok (f.keyOf j))) ∨
    Done f.Filled (i + fuel) i ∧ f.scanFrom fuel i = some (.error .ENOENT) := by
  induction fuel generalizing i with
  | zero => exact .inr ⟨fun l hl hlt => absurd hlt (by omega), rfl⟩
  | succ fuel ih =>
    have hi : i < f.map_impl.num_buckets := by omega
    obtain ⟨word, key, value, hword, hkey, -, hslot⟩ := hshape.reads hi
    have hempty : f.map_impl.isEmpty i = some (decide (ofLe word = 0)) := by
      unfold BpftimeHashMap.isEmpty
      rw [hword, map_some]
    by_cases hzero : ofLe word = 0
    · -- The slot is empty, and the loop goes on behind it.
      have hnot : ¬f.Filled i := by
        rintro ⟨-, hsome⟩
        rw [hslot, if_pos hzero] at hsome
        cases hsome
      have hscan : f.scanFrom (fuel + 1) i = f.scanFrom fuel (i + 1) := by simp [scanFrom, hempty, hzero]
      have hsum : i + (fuel + 1) = i + 1 + fuel := by omega
      rw [hscan, hsum]
      rcases ih (i + 1) (by omega) with ⟨j, ⟨hj, hlt, hfilled, hbefore⟩, hres⟩ | ⟨hdone, hres⟩
      · refine .inl ⟨j, ⟨by omega, hlt, hfilled, fun l hl hlj => ?_⟩, hres⟩
        rcases Nat.eq_or_lt_of_le hl with rfl | hgt
        · exact hnot
        · exact hbefore l hgt hlj
      · refine .inr ⟨fun l hl hlt => ?_, hres⟩
        rcases Nat.eq_or_lt_of_le hl with rfl | hgt
        · exact hnot
        · exact hdone l hgt hlt
    · rw [if_neg hzero] at hslot
      refine .inl ⟨i, ⟨le_rfl, by omega, ⟨hi, by rw [hslot]; rfl⟩, fun l hl hlt => absurd hlt (by omega)⟩, ?_⟩
      have hkeyOf : f.keyOf i = key := by
        unfold keyOf
        rw [hslot]
        rfl
      simp [scanFrom, hempty, hzero, hkey, hkeyOf]

section

variable (h : Stands num_buckets ks vs f m)
include h

lemma Stands.scan_spec (i : ℕ) : (∃ j, Next f.Filled num_buckets i j ∧ f.scan i = some (.ok (f.keyOf j))) ∨
    Done f.Filled num_buckets i ∧ f.scan i = some (.error .ENOENT) := by
  unfold scan
  rw [h.buckets]
  rcases Nat.lt_or_ge i num_buckets with hlt | hge
  · have hsum : i + (num_buckets - i) = num_buckets := by omega
    have hspec := scanFrom_spec h.rel.shape (num_buckets - i) i (by rw [hsum]; exact h.rel.le_buckets)
    rw [hsum] at hspec
    exact hspec
  · have hzero : num_buckets - i = 0 := by omega
    rw [hzero]
    exact .inr ⟨fun l hl hlt => absurd hlt (by omega), rfl⟩

lemma Stands.add_getIndexOfValue (hi : i < f.map_impl.num_buckets) :
    add64 (f.map_impl.getIndexOfValue (f.map_impl.getValue i)) 1 = f.jump i := by
  obtain ⟨-, -, hvalue⟩ := h.rel.shape.pointers hi
  have hend := h.rel.shape.slot_end hi
  have hlength := h.rel.shape.length_data
  have hsize := h.rel.shape.size_lt
  have hbuckets : f.map_impl.num_buckets * 4 ≤
      f.map_impl.num_buckets * (4 + f.map_impl.key_size + f.map_impl.value_size) :=
    Nat.mul_le_mul_left _ (by omega)
  unfold BpftimeHashMap.getIndexOfValue jump
  rw [hvalue]
  generalize hw : 4 + f.map_impl.key_size + f.map_impl.value_size = w at *
  have hwpos : 0 < w := by omega
  by_cases hzero : f.map_impl.value_size = 0
  · -- The value has no bytes: the pointer is the end of the slot.
    have hptr : i * w + 4 + f.map_impl.key_size = (i + 1) * w := by
      rw [Nat.succ_mul]
      omega
    rw [if_pos hzero, hptr]
    by_cases hlast : i + 1 = f.map_impl.num_buckets
    · rw [if_pos hlast, if_pos (by rw [hlength, hlast])]
      rfl
    · have hlt : (i + 1) * w < f.map_impl.data_buffer.length := by
        rw [hlength]
        exact Nat.mul_lt_mul_of_pos_right (by omega) hwpos
      rw [if_neg hlast, if_neg (by omega), Nat.mul_div_cancel _ hwpos]
      exact add64_of_lt (by omega)
  · have hdiv : (i * w + 4 + f.map_impl.key_size) / w = i := by
      rw [Nat.add_assoc, Nat.mul_comm, Nat.mul_add_div hwpos, Nat.div_eq_of_lt (by omega), Nat.add_zero]
    rw [if_neg hzero, if_neg (by omega), hdiv]
    exact add64_of_lt (by omega)

lemma Stands.elemLookup_keyOf (hi : f.Filled i) :
    f.map_impl.elemLookup (f.keyOf i) = some (some (f.map_impl.getValue i)) := by
  obtain ⟨p, hp, hend⟩ := h.rel.shape.search_eq (f.keyOf i)
  obtain ⟨v, hslot⟩ := hi.slot
  obtain rfl := h.rel.represents.chained.endsAt_found h.rel.represents.distinct hi.1 hslot hend
  simp [BpftimeHashMap.elemLookup, hp]

end

/-- Where the loop starts after a key, or without one. -/
def StartsAt (f : FixSizeHashMap) (key : Option (List UInt8)) (j : ℕ) : Prop :=
  (key = none ∧ j = 0) ∨ ∃ i, f.Filled i ∧ key = some (f.keyOf i) ∧ j = f.jump i

variable {key : Option (List UInt8)}

lemma Stands.mapGetNextKey_eq (h : Stands num_buckets ks vs f m)
    (hstart : StartsAt f key j) : f.mapGetNextKey key true = f.scan j := by
  rcases hstart with ⟨rfl, rfl⟩ | ⟨i, hi, rfl, rfl⟩
  · rfl
  · have hlookup := h.elemLookup_keyOf hi
    have hadd := h.add_getIndexOfValue hi.1
    simp [mapGetNextKey, hlookup, hadd]

lemma Stands.iterates_iff (h : Stands num_buckets ks vs f m) (hstart : StartsAt f key j)
    (keys : List (List UInt8)) :
    Iterates f key keys ↔ ∃ slots, Scan f.Filled num_buckets f.jump j slots ∧ keys = slots.map f.keyOf := by
  constructor
  · intro hiter
    induction hiter generalizing j with
    | stop hstop =>
      rw [h.mapGetNextKey_eq hstart] at hstop
      rcases h.scan_spec j with ⟨i, -, hres⟩ | ⟨hdone, -⟩
      · rw [hres] at hstop
        cases hstop
      · exact ⟨[], .done hdone, rfl⟩
    | next hnext _ ih =>
      rw [h.mapGetNextKey_eq hstart] at hnext
      rcases h.scan_spec j with ⟨i, hfirst, hres⟩ | ⟨-, hres⟩
      · rw [hres] at hnext
        cases hnext
        obtain ⟨slots, hscan, rfl⟩ := ih (.inr ⟨i, hfirst.2.2.1, rfl, rfl⟩)
        exact ⟨i :: slots, .next hfirst hscan, rfl⟩
      · rw [hres] at hnext
        cases hnext
  · rintro ⟨slots, hscan, rfl⟩
    induction hscan generalizing key with
    | done hdone =>
      refine .stop ?_
      rw [h.mapGetNextKey_eq hstart]
      rcases h.scan_spec _ with ⟨i, hfirst, -⟩ | ⟨-, hres⟩
      · exact absurd hdone hfirst.not_done
      · exact hres
    | @next j i slots hfirst _ ih =>
      refine .next ?_ (ih (.inr ⟨i, hfirst.2.2.1, rfl, rfl⟩))
      rw [h.mapGetNextKey_eq hstart]
      rcases h.scan_spec j with ⟨i', hfirst', hres⟩ | ⟨hdone, -⟩
      · rw [hres, next_unique hfirst hfirst']
      · exact absurd hdone hfirst.not_done

lemma InReach.jump_spec (hreach : f.InReach) (hi : f.Filled i) :
    i < f.jump i ∧ ∀ l, i < l → l < f.jump i → ¬f.Filled l := by
  unfold jump
  by_cases hzero : f.map_impl.value_size = 0
  · obtain ⟨hneighbour, hlast⟩ := hreach.2 hzero
    have hne : i + 1 ≠ f.map_impl.num_buckets := by
      intro heq
      have hpred : f.map_impl.num_buckets - 1 = i := by omega
      rw [hpred] at hlast
      exact hlast hi
    rw [if_pos hzero, if_neg hne]
    refine ⟨by omega, fun l hl hlt => ?_⟩
    have hl' : l = i + 1 := by omega
    rw [hl']
    exact hneighbour i hi
  · rw [if_neg hzero]
    exact ⟨by omega, fun l hl hlt => absurd hlt (by omega)⟩

section

variable (h : Stands num_buckets ks vs f m)
include h

lemma Stands.iterationRight_of_inReach (hreach : f.InReach) : IterationRight f m := by
  obtain ⟨slots, hscan, hsorted, hmem⟩ := exists_scan (n := num_buckets)
      (fun i _ hi => hreach.jump_spec hi) 0
  refine ⟨slots.map f.keyOf, (h.iterates_iff (.inl ⟨rfl, rfl⟩) _).mpr ⟨slots, hscan, rfl⟩, ?_, fun k => ?_⟩
  · rw [nodup_map_iff_inj_on (hsorted.imp fun hlt => hlt.ne)]
    intro i hi j hj heq
    exact h.keyOf_inj ((hmem i).mp hi).2.2 ((hmem j).mp hj).2.2 heq
  · rw [List.mem_map, h.mem_iff]
    constructor
    · rintro ⟨i, hi, hk⟩
      exact ⟨i, ((hmem i).mp hi).2.2, hk⟩
    · rintro ⟨i, hi, hk⟩
      refine ⟨i, (hmem i).mpr ⟨Nat.zero_le i, ?_, hi⟩, hk⟩
      rw [← h.buckets]
      exact hreach.1 i hi

lemma Stands.scan_of_iterationRight (hright : IterationRight f m) :
    ∃ slots, Scan f.Filled num_buckets f.jump 0 slots ∧ ∀ i, f.Filled i → i ∈ slots := by
  obtain ⟨keys, hiter, -, hmem⟩ := hright
  obtain ⟨slots, hscan, rfl⟩ := (h.iterates_iff (.inl ⟨rfl, rfl⟩) _).mp hiter
  refine ⟨slots, hscan, fun i hi => ?_⟩
  obtain ⟨j, hj, heq⟩ := mem_map.mp ((hmem _).mpr ((h.mem_iff _).mpr ⟨i, hi, rfl⟩))
  rwa [← h.keyOf_inj (hscan.filled_of_mem j hj).2 hi heq]

lemma Stands.inReach_of_iterationRight (hright : IterationRight f m) :
    f.InReach := by
  obtain ⟨slots, hscan, hall⟩ := h.scan_of_iterationRight hright
  refine ⟨fun i hi => ?_, fun hzero => ?_⟩
  · rw [h.buckets]
    exact (hscan.filled_of_mem i (hall i hi)).1
  have hlast : ¬f.Filled (f.map_impl.num_buckets - 1) := by
    intro hfilled
    have hpos := h.rel.shape.buckets_pos
    refine hscan.jump_ne (hall _ hfilled) ?_
    unfold jump
    rw [if_pos hzero, if_pos (by omega)]
  refine ⟨?_, hlast⟩
  -- The first pair of neighbours: nothing jumps to the second of them.
  by_contra hpair
  rw [not_forall] at hpair
  classical
  have hpair' : ∃ i, f.Filled i ∧ f.Filled (i + 1) := by
    obtain ⟨i, hi⟩ := hpair
    exact ⟨i, by simpa using hi⟩
  obtain ⟨hfirst, hsecond⟩ := Nat.find_spec hpair'
  refine hscan.not_mem hfirst (by omega) (fun l _ hl heq => ?_) (hall _ hsecond)
  have hne : l + 1 ≠ f.map_impl.num_buckets := by
    intro hlast'
    have hpred : f.map_impl.num_buckets - 1 = l := by omega
    rw [hpred] at hlast
    exact hlast hl
  unfold jump at heq
  rw [if_pos hzero, if_neg hne] at heq
  have hprev : l + 1 = Nat.find hpair' := by omega
  refine Nat.find_min hpair' (m := l) (by omega) ⟨hl, ?_⟩
  rw [hprev]
  exact hfirst

end

end Step

/-- In every state that calls lead to without cutting off a key, iteration gives each key once and
nothing else, and ends, exactly when the filled slots are in reach. -/
theorem iterationRight_iff_inReach (max_entries ks vs : ℕ)
    (hfit : leastPrime max_entries * (4 + ks + vs) < 2^64)
    (calls : List (Call ks vs)) (f : FixSizeHashMap) (hcreate : create max_entries ks vs = some f)
    (hC : Along step Undisturbed f calls) :
    ∃ rs f', run step f calls = some (rs, f') ∧ Holds ks f' (afterCalls max_entries calls) ∧
      (IterationRight f' (afterCalls max_entries calls) ↔ f'.InReach) := by
  obtain ⟨rs, f', hrun, hstands'⟩ := stands_run (stands_create hfit hcreate) hC
  exact ⟨rs, f', hrun, hstands'.holds, hstands'.inReach_of_iterationRight,
    hstands'.iterationRight_of_inReach⟩

/-- A map with room for two keys that holds both. -/
theorem iterationRight_both_keys : ∃ rs f', run step twoKeys [(.update ⟨[0], rfl⟩ ⟨[7], rfl⟩ 0 : Call 1 1),
        .update ⟨[1], rfl⟩ ⟨[8], rfl⟩ 0] = some (rs, f') ∧
      IterationRight f' (afterCalls 2 [(.update ⟨[0], rfl⟩ ⟨[7], rfl⟩ 0 : Call 1 1),
        .update ⟨[1], rfl⟩ ⟨[8], rfl⟩ 0]) := by
  have hfit : leastPrime 2 * (4 + 1 + 1) < 2^64 := by
    have hlt := leastPrime_lt 2
    omega
  obtain ⟨rs, f', hrun, -, hright⟩ := iterationRight_iff_inReach 2 1 1 hfit
    [.update ⟨[0], rfl⟩ ⟨[7], rfl⟩ 0, .update ⟨[1], rfl⟩ ⟨[8], rfl⟩ 0] twoKeys
    (by decide +kernel) ⟨trivial, fun _ _ _ => ⟨trivial, fun _ _ _ => trivial⟩⟩
  have hboth : run step twoKeys [(.update ⟨[0], rfl⟩ ⟨[7], rfl⟩ 0 : Call 1 1),
      .update ⟨[1], rfl⟩ ⟨[8], rfl⟩ 0] =
      some ([.ok, .ok], ⟨BpftimeHashMap.bothKeys, 2⟩) := by decide +kernel
  obtain ⟨-, rfl⟩ := Prod.mk.inj (some.inj (hboth.symm.trans hrun))
  exact ⟨rs, _, hrun, hright.mpr ⟨fun i hi => hi.1, fun hzero => absurd hzero (by decide)⟩⟩

/-- A map with room for one key, whose table has two slots, with the value 7 under the key 1 in the
second one. -/
def secondSlot : FixSizeHashMap := ⟨⟨1, 1, 2, 1, 1, [0, 0, 0, 0, 0, 0, 1, 0, 0, 0, 1, 7]⟩, 1⟩

/-- The only key is not found by the iteration. -/
theorem not_iterationRight_second_slot :
    ((create 1 1 1).bind fun f => run step f [(.update ⟨[1], rfl⟩ ⟨[7], rfl⟩ 0 : Call 1 1)]) =
      some ([.ok], secondSlot) ∧
    ¬IterationRight secondSlot (afterCalls 1 [(.update ⟨[1], rfl⟩ ⟨[7], rfl⟩ 0 : Call 1 1)]) := by
  refine ⟨by decide +kernel, ?_⟩
  rintro ⟨keys, hiter, -, hmem⟩
  have hnone : secondSlot.mapGetNextKey none true = some (.error .ENOENT) := by rfl
  have hkey : [1] ∈ afterCalls 1 [(.update ⟨[1], rfl⟩ ⟨[7], rfl⟩ 0 : Call 1 1)] := by decide +kernel
  cases hiter with
  | stop _ => exact not_mem_nil ((hmem [1]).mpr hkey)
  | next hnext _ =>
    rw [hnone] at hnext
    cases hnext

end FixSizeHashMap

end Bpftime
