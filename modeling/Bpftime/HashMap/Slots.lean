import Bpftime.HashMap.Model

/-!
# The slots of the array

What the array of a `bpftime_hash_map` says slot by slot (`slotAt`), and what each operation does to
the slots.
-/

namespace Bpftime.BpftimeHashMap

open Bytes Probing HashMap Function Nat

/-- The key and the value in slot `i`, when the slot is filled. -/
def slotAt (ks vs : ℕ) (data : List UInt8) (i : ℕ) : Option (List UInt8 × List UInt8) :=
  match readRange data (i * (4 + ks + vs)) 4, readRange data (i * (4 + ks + vs) + 4) ks,
      readRange data (i * (4 + ks + vs) + 4 + ks) vs with
  | some word, some key, some value => if ofLe word = 0 then none else some (key, value)
  | _, _, _ => none

def slot (hm : BpftimeHashMap) : ℕ → Option (List UInt8 × List UInt8) :=
  slotAt hm.key_size hm.value_size hm.data_buffer

/-- The array has exactly the slots, and its length is a `size_t`. -/
structure Shape (hm : BpftimeHashMap) : Prop where
  buckets_pos : 0 < hm.num_buckets
  length_data : hm.data_buffer.length = hm.num_buckets * (4 + hm.key_size + hm.value_size)
  size_lt : hm.num_buckets * (4 + hm.key_size + hm.value_size) < 2^64

variable {hm : BpftimeHashMap} {ks vs : ℕ}

variable {i : ℕ} {data key : List UInt8} {j : ℕ} {data' : List UInt8}

lemma slot_apart {w : ℕ} (hne : j ≠ i) : Apart (j * w) w (i * w) w := by
  unfold Apart
  rcases Nat.lt_or_gt_of_ne hne with hlt | hlt
  · left
    calc j * w + w = (j + 1) * w := by ring
      _ ≤ i * w := Nat.mul_le_mul_right w hlt
  · right
    calc i * w + w = (i + 1) * w := by ring
      _ ≤ j * w := Nat.mul_le_mul_right w hlt

lemma slotAt_of_agreeOff (hag : AgreeOff data data' (i * (4 + ks + vs)) (4 + ks + vs))
    (hne : j ≠ i) : slotAt ks vs data' j = slotAt ks vs data j := by
  have hap : Apart (j * (4 + ks + vs)) (4 + ks + vs) (i * (4 + ks + vs)) (4 + ks + vs) := slot_apart hne
  unfold slotAt
  rw [hag.readRange_eq (hap.mono le_rfl (by omega) le_rfl le_rfl),
    hag.readRange_eq (hap.mono (by omega) (by omega) le_rfl le_rfl),
    hag.readRange_eq (hap.mono (by omega) (by omega) le_rfl le_rfl)]

lemma slotAt_eq {word value : List UInt8} (hw : readRange data (i * (4 + ks + vs)) 4 = some word)
    (hk : readRange data (i * (4 + ks + vs) + 4) ks = some key)
    (hv : readRange data (i * (4 + ks + vs) + 4 + ks) vs = some value) :
    slotAt ks vs data i = if ofLe word = 0 then none else some (key, value) := by
  unfold slotAt
  rw [hw, hk, hv]

lemma slotAt_update {entry : Option (List UInt8 × List UInt8)}
    (hag : AgreeOff data data' (i * (4 + ks + vs)) (4 + ks + vs)) (hi : slotAt ks vs data' i = entry) :
    slotAt ks vs data' = update (slotAt ks vs data) i entry := by
  funext j
  rw [update_apply]
  split_ifs with hji
  · rw [hji, hi]
  · exact slotAt_of_agreeOff hag hji

section

variable (h : Shape hm) (hi : i < hm.num_buckets)
include h hi

lemma Shape.slot_end :
    i * (4 + hm.key_size + hm.value_size) + (4 + hm.key_size + hm.value_size) ≤ hm.data_buffer.length := by
  rw [h.length_data]
  calc i * (4 + hm.key_size + hm.value_size) + (4 + hm.key_size + hm.value_size)
      = (i + 1) * (4 + hm.key_size + hm.value_size) := by ring
    _ ≤ hm.num_buckets * (4 + hm.key_size + hm.value_size) := Nat.mul_le_mul_right _ hi

lemma Shape.pointers : hm.getElemOffset i = i * (4 + hm.key_size + hm.value_size) ∧
    hm.getKey i = i * (4 + hm.key_size + hm.value_size) + 4 ∧
    hm.getValue i = i * (4 + hm.key_size + hm.value_size) + 4 + hm.key_size := by
  have hend := h.slot_end hi
  have hlt := h.size_lt
  rw [← h.length_data] at hlt
  have hoff : hm.getElemOffset i = i * (4 + hm.key_size + hm.value_size) := mod_eq_of_lt (by omega)
  have hkey : hm.getKey i = i * (4 + hm.key_size + hm.value_size) + 4 := by
    unfold getKey
    rw [hoff, add64_of_lt (by omega)]
  refine ⟨hoff, hkey, ?_⟩
  unfold getKey at hkey
  unfold getValue
  rw [hkey, add64_of_lt (by omega)]

lemma Shape.reads : ∃ word key value, readRange hm.data_buffer (hm.getElemOffset i) 4 = some word ∧
    readRange hm.data_buffer (hm.getKey i) hm.key_size = some key ∧
    readRange hm.data_buffer (hm.getValue i) hm.value_size = some value ∧
    hm.slot i = if ofLe word = 0 then none else some (key, value) := by
  obtain ⟨hoff, hkey, hval⟩ := h.pointers hi
  have hend := h.slot_end hi
  rw [hoff, hkey, hval]
  obtain ⟨word, hw⟩ := readRange_isSome hm.data_buffer (i * (4 + hm.key_size + hm.value_size)) 4 (by omega)
  obtain ⟨key, hk⟩ := readRange_isSome hm.data_buffer (i * (4 + hm.key_size + hm.value_size) + 4) hm.key_size (by omega)
  obtain ⟨value, hv⟩ := readRange_isSome hm.data_buffer
    (i * (4 + hm.key_size + hm.value_size) + 4 + hm.key_size) hm.value_size (by omega)
  exact ⟨word, key, value, hw, hk, hv, slotAt_eq hw hk hv⟩

end

section

variable (h : Shape hm) (key : List UInt8)
include h

lemma Shape.startIndex_lt : hm.startIndex key < hm.num_buckets := mod_lt _ h.buckets_pos

lemma Shape.searchFrom_eq (fuel index : ℕ) (hi : index < hm.num_buckets) :
    hm.searchFrom key fuel index = probe hm.slot hm.num_buckets (hm.startIndex key) key fuel index := by
  induction fuel generalizing index with
  | zero => rfl
  | succ fuel ih =>
    obtain ⟨word, k, v, hw, hk, -, hslot⟩ := h.reads hi
    have hnext : (index + 1) % hm.num_buckets < hm.num_buckets := mod_lt _ h.buckets_pos
    rw [searchFrom, probe, hslot]
    unfold isEmpty
    rw [hw, hk]
    by_cases hword : ofLe word = 0
    · simp [hword]
    · simp [hword, ih _ hnext]

lemma Shape.search_eq : ∃ p, hm.search key = some p ∧ EndsAt hm.slot hm.num_buckets
    (hm.startIndex key) key p := by
  unfold search
  rw [h.searchFrom_eq key _ _ (h.startIndex_lt key)]
  exact probe_spec (h.startIndex_lt key) key

end

lemma slot_with (hm : BpftimeHashMap) (data : List UInt8) (count : ℕ) :
    slot { hm with data_buffer := data, count := count } = slotAt hm.key_size hm.value_size data := rfl

lemma startIndex_with (hm : BpftimeHashMap) (data : List UInt8) (count : ℕ) :
    startIndex { hm with data_buffer := data, count := count } = hm.startIndex := rfl

lemma Shape.of_length (h : Shape hm) (count : ℕ) (hlen : data.length = hm.data_buffer.length) :
    Shape { hm with data_buffer := data, count := count } :=
    ⟨h.buckets_pos, hlen.trans h.length_data, h.size_lt⟩

lemma memcpy_eq {ptr : ℕ} {bytes : List UInt8} (hw : writeRange hm.data_buffer ptr bytes = some data) :
    hm.memcpy ptr bytes = some { hm with data_buffer := data } := by
  unfold memcpy
  rw [hw, Option.map_some]

section

variable (h : Shape hm) (hi : i < hm.num_buckets)
include h hi

lemma Shape.fill {value : List UInt8} (hkey : key.length = hm.key_size)
    (hvalue : value.length = hm.value_size)
    (hs : hm.search key = some (.vacant i)) (hcount : hm.count < hm.max_element_count) :
    ∃ data, hm.elemUpdate key value = some (true,
    { hm with data_buffer := data, count := add64 hm.count 1 }) ∧
      data.length = hm.data_buffer.length ∧
      slotAt hm.key_size hm.value_size data = update hm.slot i (some (key, value)) := by
  obtain ⟨hoff, hkp, hvp⟩ := h.pointers hi
  have hend := h.slot_end hi
  -- The key, the value and the word in front of them, in the order of the writes.
  obtain ⟨d1, hd1⟩ := writeRange_isSome hm.data_buffer (hm.getKey i) key (by omega)
  have hag1 := agreeOff_writeRange hd1
  obtain ⟨d2, hd2⟩ := writeRange_isSome d1 (hm.getValue i) value (by rw [hag1.1]; omega)
  have hag2 := agreeOff_writeRange hd2
  obtain ⟨d3, hd3⟩ := writeRange_isSome d2 (hm.getElemOffset i) (toLe 4 1)
      (by rw [hag2.1, hag1.1, length_toLe]; omega)
  have hag3 := agreeOff_writeRange hd3
  rw [length_toLe] at hag3
  have hag : AgreeOff hm.data_buffer d3 (i * (4 + hm.key_size + hm.value_size))
      (4 + hm.key_size + hm.value_size) := by
    have h12 : AgreeOff hm.data_buffer d2 (i * (4 + hm.key_size + hm.value_size))
        (4 + hm.key_size + hm.value_size) :=
      hag1.trans hag2 (by omega) (by omega) (by omega) (by omega)
    exact h12.trans hag3 le_rfl le_rfl (by omega) (by omega)
  refine ⟨d3, ?_, hag.1, slotAt_update hag ?_⟩
  · have hm1 := memcpy_eq hd1
    have hm2 : memcpy { hm with data_buffer := d1 } (getValue { hm with data_buffer := d1 } i) value =
        some { hm with data_buffer := d2 } := memcpy_eq hd2
    have hm3 : setFilled { hm with data_buffer := d2 } i = some { hm with data_buffer := d3 } :=
      memcpy_eq hd3
    unfold elemUpdate
    simp [hs, Nat.not_le.mpr hcount, hm1, hm2, hm3]
  · have hread1 := readRange_writeRange_self hd1
    have hread2 := readRange_writeRange_self hd2
    have hread3 := readRange_writeRange_self hd3
    rw [length_toLe, hoff] at hread3
    rw [hkey, hkp] at hread1
    rw [hvalue, hvp] at hread2
    rw [← hag2.readRange_eq (Or.inl (by omega)), ← hag3.readRange_eq (Or.inr (by omega))] at hread1
    rw [← hag3.readRange_eq (Or.inr (by omega))] at hread2
    rw [slotAt_eq hread3 hread1 hread2, ofLe_toLe]
    norm_num

lemma Shape.overwrite {value old : List UInt8} (hvalue : value.length = hm.value_size)
    (hs : hm.search key = some (.found i)) (hslot : hm.slot i = some (key, old)) :
    ∃ data, hm.elemUpdate key value = some (true, { hm with data_buffer := data }) ∧
      data.length = hm.data_buffer.length ∧
      slotAt hm.key_size hm.value_size data = update hm.slot i (some (key, value)) := by
  obtain ⟨hoff, hkp, hvp⟩ := h.pointers hi
  have hend := h.slot_end hi
  obtain ⟨word, k, v, hw, hk, -, hread⟩ := h.reads hi
  rw [hslot] at hread
  split_ifs at hread with hword
  obtain ⟨rfl, -⟩ := Prod.mk.inj (Option.some.inj hread)
  obtain ⟨d, hd⟩ := writeRange_isSome hm.data_buffer (hm.getValue i) value (by omega)
  have hag := agreeOff_writeRange hd
  refine ⟨d, ?_, hag.1, slotAt_update (hag.mono (by omega) (by omega)) ?_⟩
  · unfold elemUpdate
    simp [hs, memcpy_eq hd]
  · -- The word and the key lie in front of the value.
    have hread3 := readRange_writeRange_self hd
    rw [hvalue, hvp] at hread3
    rw [← hag.readRange_eq (Or.inl (by omega)), hoff] at hw
    rw [← hag.readRange_eq (Or.inl (by omega)), hkp] at hk
    rw [slotAt_eq hw hk hread3, if_neg hword]

lemma Shape.clear (hs : hm.search key = some (.found i)) :
    ∃ data, hm.elemDelete key = some (true, { hm with data_buffer := data, count := sub64 hm.count 1 }) ∧
      data.length = hm.data_buffer.length ∧ slotAt hm.key_size hm.value_size data =
      update hm.slot i none := by
  obtain ⟨hoff, hkp, hvp⟩ := h.pointers hi
  have hend := h.slot_end hi
  obtain ⟨word, k, v, -, hk, hv, -⟩ := h.reads hi
  obtain ⟨d, hd⟩ := writeRange_isSome hm.data_buffer (hm.getElemOffset i) (toLe 4 0)
      (by rw [length_toLe]; omega)
  have hag := agreeOff_writeRange hd
  rw [length_toLe] at hag
  refine ⟨d, ?_, hag.1, slotAt_update (hag.mono (by omega) (by omega)) ?_⟩
  · have hm1 : setEmpty hm i = some { hm with data_buffer := d } := memcpy_eq hd
    unfold elemDelete
    simp [hs, hm1]
  · have hread := readRange_writeRange_self hd
    rw [length_toLe, hoff] at hread
    rw [← hag.readRange_eq (Or.inr (by omega)), hkp] at hk
    rw [← hag.readRange_eq (Or.inr (by omega)), hvp] at hv
    rw [slotAt_eq hread hk hv, ofLe_toLe, if_pos (zero_mod _)]

end

end Bpftime.BpftimeHashMap
