import Bpftime.HashMap.Slots
import Bpftime.Lib.Runs

/-!
# The hash map as a bounded finite map

What a `bpftime_hash_map` is for: a finite map from keys to values with room for a fixed number of
keys (`mapStep`).
-/

namespace Bpftime.BpftimeHashMap

open Bytes Probing HashMap Runs Option Finmap Nat Prod Function

abbrev Contents := Finmap fun _ : List UInt8 => List UInt8

variable {ks vs : ℕ}

/-- One call on a finite map with room for `capacity` keys. -/
def mapStep (capacity : ℕ) (m : Contents) : Op ks vs → Result × Contents
  | .update key value =>
    if key.toList ∈ m ∨ m.keys.card < capacity then
      (.updated true, m.insert key.toList value.toList)
    else (.updated false, m)
  | .delete key => (.deleted (key.toList ∈ m), m.erase key.toList)
  | .lookup key => (.value (m.lookup key.toList), m)

/-- The calls on a new hash map answer as those on the empty finite map do. -/
def AnswersAsMap (num_buckets ks vs : ℕ) (ops : List (Op ks vs)) : Prop :=
  ∃ hm hm', create num_buckets ks vs = some hm ∧
    run step hm ops = some ((answers (mapStep num_buckets) ∅ ops).1, hm')

/-- An `elem_delete` empties no slot across which another key is found. -/
def Undisturbed (hm : BpftimeHashMap) : Op ks vs → Prop
  | .delete key => ∀ i < hm.num_buckets, ∀ value, hm.slot i = some (key.toList, value) →
      Uncrossed hm.slot hm.num_buckets hm.startIndex i
  | _ => True

/-- The hash map stands for `m`, and counts its keys. -/
structure Rel (num_buckets ks vs : ℕ) (hm : BpftimeHashMap) (m : Contents) : Prop where
  key_size : hm.key_size = ks
  value_size : hm.value_size = vs
  max_element_count : hm.max_element_count = num_buckets
  le_buckets : num_buckets ≤ hm.num_buckets
  shape : Shape hm
  represents : Represents hm.slot hm.num_buckets hm.startIndex m
  count : hm.count = m.keys.card
  card_le : m.keys.card ≤ num_buckets

variable {num_buckets : ℕ} {hm : BpftimeHashMap} {m : Contents}

lemma Rel.buckets_lt (h : Rel num_buckets ks vs hm m) : num_buckets < 2^64 := by
  have hlt := h.shape.size_lt
  have hbuckets := h.le_buckets
  have hle : hm.num_buckets ≤ hm.num_buckets * (4 + hm.key_size + hm.value_size) :=
    Nat.le_mul_of_pos_right _ (by omega)
  omega

lemma rel_create (hfit : leastPrime num_buckets * (4 + ks + vs) < 2^64) :
    ∃ hm, create num_buckets ks vs = some hm ∧ Rel num_buckets ks vs hm ∅ := by
  have hp : leastPrime num_buckets < 2^62 := by
    have h4 : leastPrime num_buckets * 4 ≤ leastPrime num_buckets * (4 + ks + vs) :=
      Nat.mul_le_mul_left _ (by omega)
    omega
  have hpos : 0 < leastPrime num_buckets := (leastPrime_prime num_buckets).pos
  unfold create
  rw [nextPrime_eq hp, map_some, mod_eq_of_lt hfit]
  refine ⟨_, rfl, rfl, rfl, rfl, le_leastPrime num_buckets,
    ⟨hpos, List.length_replicate, hfit⟩, represents_empty (fun k => mod_lt _ hpos) ?_, rfl,
    Nat.zero_le _⟩
  -- The array is all zero, so that no slot is filled.
  intro i _
  unfold slot slotAt
  dsimp only
  cases hw : readRange (List.replicate (leastPrime num_buckets * (4 + ks + vs)) (0 : UInt8))
    (i * (4 + ks + vs)) 4 with
  | none => rfl
  | some word =>
    have hzero : ofLe word = 0 := by
      unfold readRange at hw
      split_ifs at hw
      rw [some.injEq, List.drop_replicate, List.take_replicate] at hw
      subst hw
      exact ofLe_replicate_zero _
    split
    · rename_i heq _ _
      rw [some.inj heq] at hzero
      rw [if_pos hzero]
    · rfl

/-! ## One call -/

section

variable (h : Rel num_buckets ks vs hm m) (key : List.Vector UInt8 ks)
include h

lemma Rel.lookup : step hm (.lookup key : Op ks vs) = some (.value (m.lookup key.toList), hm) := by
  obtain ⟨p, hp, hend⟩ := h.shape.search_eq key.toList
  cases p with
  | found i =>
    obtain ⟨hi, v, hslot, hv⟩ := h.represents.of_found hend
    obtain ⟨word, k, v', -, -, hread, hslot'⟩ := h.shape.reads hi
    rw [hslot] at hslot'
    split_ifs at hslot'
    obtain ⟨-, rfl⟩ := Prod.mk.inj (some.inj hslot')
    simp [step, elemLookup, hp, hread, hv]
  | vacant _ | exhausted =>
    have hnone := h.represents.lookup_eq_none hend (by simp)
    simp [step, elemLookup, hp, hnone]

lemma Rel.update (value : List.Vector UInt8 vs) :
    ∃ hm', step hm (.update key value) = some ((mapStep num_buckets m (.update key value)).1, hm') ∧
    Rel num_buckets ks vs hm' (mapStep num_buckets m (.update key value)).2 := by
  obtain ⟨p, hp, hend⟩ := h.shape.search_eq key.toList
  have hklen : key.toList.length = hm.key_size := by rw [h.key_size]; exact key.toList_length
  have hvlen : value.toList.length = hm.value_size := by rw [h.value_size]; exact value.toList_length
  have hlt := h.buckets_lt
  dsimp only [mapStep]
  cases p with
  | found i =>
    obtain ⟨hi, v, hslot, hv⟩ := h.represents.of_found hend
    have hmem : key.toList ∈ m := mem_of_lookup_eq_some hv
    obtain ⟨data, hup, hlen, hdata⟩ := h.shape.overwrite hi hvlen hp hslot
    have hcard : (m.insert key.toList value.toList).keys.card = m.keys.card := by
      rw [keys_insert, Finset.insert_eq_of_mem (mem_keys.mpr hmem)]
    rw [if_pos (Or.inl hmem)]
    refine ⟨{ hm with data_buffer := data }, by rw [step, hup, map_some],
      h.key_size, h.value_size, h.max_element_count, h.le_buckets, h.shape.of_length _ hlen, ?_,
      h.count.trans hcard.symm, hcard.trans_le h.card_le⟩
    rw [slot_with, startIndex_with, hdata]
    exact h.represents.replace hi hslot
  | vacant i =>
    have hnone := h.represents.lookup_eq_none hend (by simp)
    have hmem : key.toList ∉ m := lookup_eq_none.mp hnone
    have hi : i < hm.num_buckets := by
      obtain ⟨t, -, rfl, -⟩ := hend
      exact mod_lt _ h.shape.buckets_pos
    by_cases hroom : m.keys.card < num_buckets
    · have hnotfull : hm.count < hm.max_element_count := by
        rw [h.count, h.max_element_count]
        exact hroom
      obtain ⟨data, hup, hlen, hdata⟩ := h.shape.fill hi hklen hvlen hp hnotfull
      have hcard : (m.insert key.toList value.toList).keys.card = m.keys.card + 1 := by
        rw [keys_insert, Finset.card_insert_of_notMem (mt mem_keys.mp hmem)]
      rw [if_pos (Or.inr hroom)]
      refine ⟨{ hm with data_buffer := data, count := add64 hm.count 1 },
        by rw [step, hup, map_some], h.key_size, h.value_size, h.max_element_count,
        h.le_buckets, h.shape.of_length _ hlen, ?_, ?_, by rw [hcard]; exact hroom⟩
      · rw [slot_with, startIndex_with, hdata]
        exact h.represents.insert hend
      · have hcount := h.count
        have hadd : add64 hm.count 1 = hm.count + 1 := add64_of_lt (by omega)
        rw [hcard, ← hcount]
        exact hadd
    · have hcount : hm.max_element_count ≤ hm.count := by
        rw [h.count, h.max_element_count]
        omega
      rw [if_neg (by simp [hmem, hroom])]
      refine ⟨hm, ?_, h⟩
      simp [step, elemUpdate, hp, hcount]
  | exhausted =>
    -- Every slot is filled, so that the map is full.
    have hnone := h.represents.lookup_eq_none hend (by simp)
    have hmem : key.toList ∉ m := lookup_eq_none.mp hnone
    have hfull := h.represents.le_card hend
    have hle := h.le_buckets
    rw [if_neg (by rw [not_or]; exact ⟨hmem, by omega⟩)]
    refine ⟨hm, ?_, h⟩
    simp [step, elemUpdate, hp]

lemma Rel.delete (hC : Undisturbed hm (.delete key : Op ks vs)) :
    ∃ hm', step hm (.delete key : Op ks vs) = some (.deleted (key.toList ∈ m), hm') ∧
    Rel num_buckets ks vs hm' (m.erase key.toList) := by
  obtain ⟨p, hp, hend⟩ := h.shape.search_eq key.toList
  -- A search that finds nothing was for a key that is not there.
  have habsent : (∀ i, p ≠ .found i) → key.toList ∉ m ∧ m.erase key.toList = m := by
    intro hne
    have hnone := h.represents.lookup_eq_none hend hne
    refine ⟨lookup_eq_none.mp hnone, ext_lookup fun k => ?_⟩
    by_cases hk : k = key.toList
    · rw [hk, lookup_erase, hnone]
    · rw [lookup_erase_ne hk]
  cases p with
  | found i =>
    obtain ⟨hi, v, hslot, hv⟩ := h.represents.of_found hend
    have hmem : key.toList ∈ m := mem_of_lookup_eq_some hv
    obtain ⟨data, hdel, hlen, hdata⟩ := h.shape.clear hi hp
    have hcard : (m.erase key.toList).keys.card = m.keys.card - 1 := by
      rw [keys_erase, Finset.card_erase_of_mem (mem_keys.mpr hmem)]
    have hpos : 0 < m.keys.card := Finset.card_pos.mpr ⟨_, mem_keys.mpr hmem⟩
    have hlt := h.buckets_lt
    have hle := h.card_le
    refine ⟨{ hm with data_buffer := data, count := sub64 hm.count 1 },
      by rw [step, hdel, map_some, decide_eq_true hmem], h.key_size, h.value_size,
      h.max_element_count, h.le_buckets, h.shape.of_length _ hlen, ?_, ?_, by omega⟩
    · rw [slot_with, startIndex_with, hdata]
      exact h.represents.erase hi hslot (hC i hi v hslot)
    · have hcount := h.count
      have hsub : sub64 hm.count 1 = hm.count - 1 := sub64_of_le (by omega) (by omega)
      rw [hcard, ← hcount]
      exact hsub
  | vacant _ | exhausted =>
    obtain ⟨hmem, herase⟩ := habsent (by simp)
    refine ⟨hm, ?_, by rwa [herase]⟩
    simp [step, elemDelete, hp, hmem]

end

lemma rel_step (hm : BpftimeHashMap) (m : Contents) (op : Op ks vs)
    (h : Rel num_buckets ks vs hm m) (hC : Undisturbed hm op) :
    ∃ hm', step hm op = some ((mapStep num_buckets m op).1, hm') ∧
    Rel num_buckets ks vs hm' (mapStep num_buckets m op).2 := by
  cases op with
  | update key value => exact h.update key value
  | delete key => exact h.delete key hC
  | lookup key => exact ⟨hm, h.lookup key, h⟩

/-- A hash map whose array is not too long answers as a finite map along every run in which no
`elem_delete` cuts another key off. -/
theorem answersAsMap_of_undisturbed (num_buckets ks vs : ℕ)
    (hfit : leastPrime num_buckets * (4 + ks + vs) < 2^64) (ops : List (Op ks vs))
    (hC : ∀ hm, create num_buckets ks vs = some hm → Along step Undisturbed hm ops) :
    AnswersAsMap num_buckets ks vs ops := by
  obtain ⟨hm, hcreate, hrel⟩ := rel_create hfit
  obtain ⟨hm', hrun, -⟩ := run_refines rel_step hrel (hC hm hcreate)
  exact ⟨hm, hm', hcreate, hrun⟩

def oneKey : BpftimeHashMap := ⟨1, 1, 2, 2, 1, [1, 0, 0, 0, 0, 7, 0, 0, 0, 0, 0, 0]⟩

/-- Two keys, each in its first slot. -/
def bothKeys : BpftimeHashMap := ⟨1, 1, 2, 2, 2, [1, 0, 0, 0, 0, 7, 1, 0, 0, 0, 1, 8]⟩

/-- Of two keys that do not share a slot one is deleted, and the other found. -/
theorem answersAsMap_apart : AnswersAsMap 2 1 1 [.update ⟨[0], rfl⟩ ⟨[7], rfl⟩,
      .update ⟨[1], rfl⟩ ⟨[8], rfl⟩, .delete ⟨[0], rfl⟩, .lookup ⟨[1], rfl⟩] := by
  apply answersAsMap_of_undisturbed
  · have hlt := leastPrime_lt 2
    omega
  · intro hm hcreate
    have hnew : create 2 1 1 = some ⟨1, 1, 2, 2, 0, List.replicate 12 0⟩ := by decide +kernel
    obtain rfl := some.inj (hnew.symm.trans hcreate)
    have hone : step ⟨1, 1, 2, 2, 0, List.replicate 12 0⟩
        (.update ⟨[0], rfl⟩ ⟨[7], rfl⟩ : Op 1 1) = some (.updated true, oneKey) := by decide +kernel
    have hboth : step oneKey (.update ⟨[1], rfl⟩ ⟨[8], rfl⟩ : Op 1 1) = some (.updated true, bothKeys) := by
      decide +kernel
    refine ⟨trivial, fun r hm' hstep => ⟨trivial, fun r' hm'' hstep' => ?_⟩⟩
    obtain ⟨-, rfl⟩ := Prod.mk.inj (some.inj (hone.symm.trans hstep))
    obtain ⟨-, rfl⟩ := Prod.mk.inj (some.inj (hboth.symm.trans hstep'))
    refine ⟨?_, fun _ _ _ => ⟨trivial, fun _ _ _ => trivial⟩⟩
    -- The other key starts in its own slot.
    intro i hi value hslot j hj hji k v hjslot d hd hdj t ht
    have hsecond : bothKeys.slot 1 = some ([1], [8]) := by decide +kernel
    have hi1 : i ≠ 1 := by
      rintro rfl
      simp [hsecond] at hslot
    change i < 2 at hi
    change j < 2 at hj
    obtain rfl : j = 1 := by omega
    rw [hsecond] at hjslot
    cases hjslot
    have hstart : bothKeys.startIndex [1] = 1 := by decide +kernel
    have hbuckets : bothKeys.num_buckets = 2 := rfl
    rw [hstart, hbuckets] at hdj
    omega

/-- Two keys that share their first slot in a table of two; the first of them is deleted, and the
second looked up. -/
def cutOff : List (Op 1 1) :=
  [.update ⟨[0], rfl⟩ ⟨[7], rfl⟩, .update ⟨[2], rfl⟩ ⟨[9], rfl⟩, .delete ⟨[0], rfl⟩, .lookup ⟨[2], rfl⟩]

/-- The key that was not deleted is not found any more. -/
theorem not_answersAsMap_cutOff : ¬ AnswersAsMap 2 1 1 cutOff := by
  rintro ⟨hm, hm', hcreate, hrun⟩
  have hgot : ((create 2 1 1).bind fun hm => run step hm cutOff).map fst =
      some [.updated true, .updated true, .deleted true, .value none] := by decide +kernel
  have hwant : (answers (mapStep 2) ∅ cutOff).1 =
      [.updated true, .updated true, .deleted true, .value (some [9])] := by decide +kernel
  rw [hcreate, bind_some, hrun, map_some, hwant] at hgot
  simp at hgot

/-! ## The number of elements -/

/-- The slots that hold an entry. -/
def filled {α : Type*} (slot : ℕ → Option α) (n : ℕ) : Finset ℕ := (Finset.range n).filter fun i =>
  (slot i).isSome

variable {α : Type*} {slot : ℕ → Option α} {n i : ℕ}

lemma filled_update_some (hi : i < n) (e : α) :
    filled (update slot i (some e)) n = insert i (filled slot n) := by
  ext j
  by_cases hj : j = i
  · simp [filled, hj, hi]
  · simp [filled, hj]

lemma filled_update_none : filled (update slot i none) n = (filled slot n).erase i := by
  ext j
  by_cases hj : j = i
  · simp [filled, hj]
  · simp [filled, hj]

lemma card_filled_le : (filled slot n).card ≤ n := (Finset.card_filter_le _ _).trans_eq (Finset.card_range n)

structure Counted (num_buckets ks vs : ℕ) (hm : BpftimeHashMap) : Prop where
  key_size : hm.key_size = ks
  value_size : hm.value_size = vs
  max_element_count : hm.max_element_count = num_buckets
  shape : Shape hm
  count : hm.count = (filled hm.slot hm.num_buckets).card
  count_le : hm.count ≤ num_buckets

lemma Counted.count_lt (h : Counted num_buckets ks vs hm) : hm.count + 1 < 2^64 := by
  have hle : hm.count ≤ hm.num_buckets := h.count.trans_le card_filled_le
  have hbytes := h.shape.size_lt
  have hmul : hm.num_buckets * 4 ≤ hm.num_buckets * (4 + hm.key_size + hm.value_size) :=
    Nat.mul_le_mul_left _ (by omega)
  omega

lemma counted_step (hm : BpftimeHashMap) (op : Op ks vs) (h : Counted num_buckets ks vs hm) :
    ∃ r hm', step hm op = some (r, hm') ∧ Counted num_buckets ks vs hm' := by
  have hlt := h.count_lt
  cases op with
  | update key value =>
    obtain ⟨p, hp, hend⟩ := h.shape.search_eq key.toList
    have hklen : key.toList.length = hm.key_size := by rw [h.key_size, key.toList_length]
    have hvlen : value.toList.length = hm.value_size := by rw [h.value_size, value.toList_length]
    cases p with
    | vacant i =>
      obtain ⟨t, -, rfl, -, hnone⟩ := hend
      have hi := mod_lt (hm.startIndex key.toList + t) h.shape.buckets_pos
      by_cases hroom : hm.count < hm.max_element_count
      · obtain ⟨data, hup, hlen, hdata⟩ := h.shape.fill hi hklen hvlen hp hroom
        refine ⟨.updated true, { hm with data_buffer := data, count := add64 hm.count 1 }, by simp [step, hup],
          h.key_size, h.value_size, h.max_element_count, h.shape.of_length _ hlen, ?_, ?_⟩
        · rw [slot_with, hdata, filled_update_some hi, Finset.card_insert_of_notMem (by simp [filled, hnone]), ← h.count]
          exact add64_of_lt hlt
        · rw [h.max_element_count] at hroom
          exact (add64_of_lt hlt).trans_le hroom
      · exact ⟨.updated false, hm, by simp [step, elemUpdate, hp, Nat.not_lt.mp hroom], h⟩
    | found i =>
      obtain ⟨t, -, rfl, -, v, hslot⟩ := hend
      have hi := mod_lt (hm.startIndex key.toList + t) h.shape.buckets_pos
      obtain ⟨data, hup, hlen, hdata⟩ := h.shape.overwrite hi hvlen hp hslot
      refine ⟨.updated true, { hm with data_buffer := data }, by simp [step, hup],
        h.key_size, h.value_size, h.max_element_count, h.shape.of_length _ hlen, ?_, h.count_le⟩
      rw [slot_with, hdata, filled_update_some hi, Finset.insert_eq_of_mem (by simp [filled, hslot, hi])]
      exact h.count
    | exhausted => exact ⟨.updated false, hm, by simp [step, elemUpdate, hp], h⟩
  | delete key =>
    obtain ⟨p, hp, hend⟩ := h.shape.search_eq key.toList
    cases p with
    | found i =>
      obtain ⟨t, -, rfl, -, v, hslot⟩ := hend
      have hi := mod_lt (hm.startIndex key.toList + t) h.shape.buckets_pos
      obtain ⟨data, hdel, hlen, hdata⟩ := h.shape.clear hi hp
      have hmem : (hm.startIndex key.toList + t) % hm.num_buckets ∈ filled hm.slot hm.num_buckets := by
        simp [filled, hslot, hi]
      have hpos : 0 < hm.count := h.count ▸ Finset.card_pos.mpr ⟨_, hmem⟩
      have hsub : sub64 hm.count 1 = hm.count - 1 := sub64_of_le (by omega) hpos
      refine ⟨.deleted true, { hm with data_buffer := data, count := sub64 hm.count 1 }, by simp [step, hdel],
        h.key_size, h.value_size, h.max_element_count, h.shape.of_length _ hlen, ?_, hsub.trans_le ((Nat.sub_le _ _).trans h.count_le)⟩
      rw [slot_with, hdata, filled_update_none, Finset.card_erase_of_mem hmem, ← h.count]
      exact hsub
    | vacant _ | exhausted => exact ⟨.deleted false, hm, by simp [step, elemDelete, hp], h⟩
  | lookup key =>
    obtain ⟨p, hp, hend⟩ := h.shape.search_eq key.toList
    cases p with
    | found i =>
      obtain ⟨t, -, rfl, -⟩ := hend
      obtain ⟨word, k, v, -, -, hread, -⟩ :=
        h.shape.reads (mod_lt (hm.startIndex key.toList + t) h.shape.buckets_pos)
      exact ⟨.value (some v), hm, by simp [step, elemLookup, hp, hread], h⟩
    | vacant _ | exhausted => exact ⟨.value none, hm, by simp [step, elemLookup, hp], h⟩

lemma Shape.isEmpty_eq (h : Shape hm) (hi : i < hm.num_buckets) : hm.isEmpty i = some (hm.slot i).isNone ∧
    ∃ key value, readRange hm.data_buffer (hm.getKey i) hm.key_size = some key ∧
    readRange hm.data_buffer (hm.getValue i) hm.value_size = some value := by
  obtain ⟨word, key, value, hw, hk, hv, hslot⟩ := h.reads hi
  refine ⟨?_, key, value, hk, hv⟩
  unfold isEmpty
  rw [hw, hslot]
  by_cases hword : ofLe word = 0 <;> simp [hword]

/-- After every run, the counter is the number of slots that are marked filled and not above the
maximum, the slots lie in the array, and each search ends before it has looked at more slots than
there are. -/
theorem count_of_run (num_buckets ks vs : ℕ) (hfit : leastPrime num_buckets * (4 + ks + vs) < 2^64)
    (ops : List (Op ks vs)) : ∃ hm rs hm', create num_buckets ks vs = some hm ∧ run step hm ops =
    some (rs, hm') ∧
      hm'.count = ((Finset.range hm'.num_buckets).filter fun i => hm'.isEmpty i = some false).card ∧
      hm'.count ≤ num_buckets ∧
      (∀ i < hm'.num_buckets, ∃ key value, readRange hm'.data_buffer (hm'.getKey i) ks = some key ∧
        readRange hm'.data_buffer (hm'.getValue i) vs = some value) ∧ ∀ key, (hm'.search key).isSome := by
  obtain ⟨hm, hcreate, hrel⟩ := rel_create hfit
  have hnew : Counted num_buckets ks vs hm := by
    have hnone : filled hm.slot hm.num_buckets = ∅ := by
      refine Finset.filter_eq_empty_iff.mpr fun i hi hsome => ?_
      obtain ⟨⟨k, v⟩, hslot⟩ := isSome_iff_exists.mp hsome
      have hlookup := (hrel.represents.lookup_iff k v).mpr ⟨i, Finset.mem_range.mp hi, hslot⟩
      simp at hlookup
    refine ⟨hrel.key_size, hrel.value_size, hrel.max_element_count, hrel.shape, ?_,
      hrel.count.trans_le hrel.card_le⟩
    rw [hrel.count, hnone]
    rfl
  obtain ⟨rs, hm', hrun, h⟩ := run_invariant (C := fun _ _ => True)
      (fun hm op h _ => counted_step hm op h) hnew
    (along_of_forall_mem fun _ _ _ => trivial)
  refine ⟨hm, rs, hm', hcreate, hrun, ?_, h.count_le, fun i hi => ?_, fun key => ?_⟩
  · rw [h.count]
    congr 1
    ext i
    simp only [filled, Finset.mem_filter, Finset.mem_range, and_congr_right_iff]
    intro hi
    rw [(h.shape.isEmpty_eq hi).1]
    cases hm'.slot i <;> simp
  · have hreads := (h.shape.isEmpty_eq hi).2
    rwa [h.key_size, h.value_size] at hreads
  · obtain ⟨p, hp, -⟩ := h.shape.search_eq key
    rw [hp, isSome_some]

theorem count_of_run_two : ∃ hm rs hm', create 2 1 1 = some hm ∧ run step hm cutOff = some (rs, hm') ∧
    hm'.count = ((Finset.range hm'.num_buckets).filter fun i => hm'.isEmpty i = some false).card := by
  have hlt := leastPrime_lt 2
  obtain ⟨hm, rs, hm', hcreate, hrun, hcount, -⟩ := count_of_run 2 1 1 (by omega) cutOff
  exact ⟨hm, rs, hm', hcreate, hrun, hcount⟩

end Bpftime.BpftimeHashMap
