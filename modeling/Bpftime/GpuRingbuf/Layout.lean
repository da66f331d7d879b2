import Bpftime.GpuRingbuf.Model

/-!
# The rings in the buffer

The buffer is a family of rings, each with the three numbers of its header and a memory for each
slot.
-/

namespace Bpftime.GpuRingbuf

open SharedMemory Function List
open Bytes (toLe ofLe)

namespace Config

variable {c : Config} {i j k l : ℕ}

lemma header_add_le (h : i < j) : c.header i + c.entrySize ≤ c.header j := by
  unfold header
  calc i * c.entrySize + c.entrySize = (i + 1) * c.entrySize := (Nat.succ_mul _ _).symm
    _ ≤ j * c.entrySize := Nat.mul_le_mul_right _ h

lemma header_add_le_slot : c.header i + 24 ≤ c.slot i k := Nat.le_add_right _ _

lemma slot_add_le (h : k < l) : c.slot i k + c.slotSize ≤ c.slot i l := by
  have hmul : k * c.slotSize + c.slotSize ≤ l * c.slotSize :=
    calc k * c.slotSize + c.slotSize = (k + 1) * c.slotSize := (Nat.succ_mul _ _).symm
      _ ≤ l * c.slotSize := Nat.mul_le_mul_right _ h
  unfold slot
  omega

lemma slot_add_le_header (h : k < c.max_entries) : c.slot i k + c.slotSize ≤ c.header i + c.entrySize := by
  have hmul : k * c.slotSize + c.slotSize ≤ c.slotSize * c.max_entries :=
    calc k * c.slotSize + c.slotSize = (k + 1) * c.slotSize := (Nat.succ_mul _ _).symm
      _ ≤ c.max_entries * c.slotSize := Nat.mul_le_mul_right _ h
      _ = c.slotSize * c.max_entries := Nat.mul_comm _ _
  unfold slot entrySize
  omega

/-- Sizes that fit an `int`, with which the numbers of all headers and slots are aligned: the device
traps at an access to others. -/
structure Sane (c : Config) : Prop where
  aligned : c.value_size % 8 = 0
  value_size_lt : c.value_size < 2^31
  max_entries_lt : c.max_entries < 2^31

lemma toNat_signExtend {n : ℕ} (h : n < 2^31) : ((BitVec.ofNat 32 n).signExtend 64).toNat = n := by
  have hmsb : (BitVec.ofNat 32 n).msb = false := by
    rw [BitVec.msb_eq_false_iff_two_mul_lt, BitVec.toNat_ofNat]
    omega
  rw [BitVec.signExtend_eq_setWidth_of_msb_false hmsb, BitVec.toNat_setWidth, BitVec.toNat_ofNat]
  omega

lemma Sane.device_eq (h : c.Sane) : c.device = c := by
  obtain ⟨value_size, max_entries⟩ := c
  simp only [device, toNat_signExtend h.value_size_lt, toNat_signExtend h.max_entries_lt]

end Config

lemma memcpyBytes_eq {data : List UInt8} (h : data.length < 2^31) : memcpyBytes data = data := by
  have hcount : (BitVec.ofNat 32 data.length).toInt.toNat = data.length := by
    have hnat : (BitVec.ofNat 32 data.length).toNat = data.length := by
      rw [BitVec.toNat_ofNat]
      omega
    rw [BitVec.toInt_eq_toNat_of_lt (by rw [hnat]; omega), hnat, Int.toNat_natCast]
  rw [memcpyBytes, hcount, take_length]

@[ext] structure Ring where
  head : ℕ
  tail : ℕ
  dirty : ℕ
  slot : ℕ → Memory

def ringOf (c : Config) (m : Memory) (i : ℕ) : Ring where
  head := loadHead c m i
  tail := loadTail c m i
  dirty := loadDirty c m i
  slot k o := if k < c.max_entries ∧ o < c.slotSize then m (c.slot i k + o) else 0

section

variable {c : Config} {m m' : Memory} {i j k o n x : ℕ} {bs : List UInt8}

lemma load_slot (hk : k < c.max_entries) (ho : o + n ≤ c.slotSize) :
    load ((ringOf c m i).slot k) o n = load m (c.slot i k + o) n := by
  refine map_congr_left fun x hx => ?_
  have := mem_range.mp hx
  simp only [ringOf]
  rw [if_pos ⟨hk, by omega⟩, Nat.add_assoc]

lemma slot_store_header (ho : o + bs.length ≤ 24) :
    (ringOf c (store m (c.header i + o) bs) i).slot = (ringOf c m i).slot := by
  funext k x
  have := c.header_add_le_slot (i := i) (k := k)
  simp only [ringOf]
  rw [store_apply_of_apart (by omega)]

lemma ringOf_store_head (hx : x < 2^64) :
    ringOf c (store m (c.header i) (toLe 8 x)) i = { ringOf c m i with head := x } := by
  have hslot : (ringOf c (store m (c.header i + 0) (toLe 8 x)) i).slot = (ringOf c m i).slot :=
    slot_store_header (by simp)
  rw [Nat.add_zero] at hslot
  ext1
  · exact ofLe_load_store (by simpa using hx)
  · exact congrArg ofLe (load_store_of_apart (.inr (by simp)))
  · exact congrArg ofLe (load_store_of_apart (.inr (by simp)))
  · exact hslot

lemma ringOf_store_tail (hx : x < 2^64) :
    ringOf c (store m (c.header i + 8) (toLe 8 x)) i = { ringOf c m i with tail := x } := by
  ext1
  · exact congrArg ofLe (load_store_of_apart (.inl le_rfl))
  · exact ofLe_load_store (by simpa using hx)
  · exact congrArg ofLe (load_store_of_apart (.inr (by simp)))
  · exact slot_store_header (by simp)

lemma ringOf_store_dirty (hx : x < 2^32) :
    ringOf c (store m (c.header i + 16) (toLe 4 x)) i = { ringOf c m i with dirty := x } := by
  ext1
  · exact congrArg ofLe (load_store_of_apart (.inl (by omega)))
  · exact congrArg ofLe (load_store_of_apart (.inl (by omega)))
  · exact ofLe_load_store (by simpa using hx)
  · exact slot_store_header (by simp)

lemma ringOf_store_slot (hk : k < c.max_entries) (ho : o + bs.length ≤ c.slotSize) :
    ringOf c (store m (c.slot i k + o) bs) i = { ringOf c m i with
    slot := update (ringOf c m i).slot k (store ((ringOf c m i).slot k) o bs) } := by
  have hbehind := c.header_add_le_slot (i := i) (k := k)
  ext1
  · exact congrArg ofLe (load_store_of_apart (.inl (by omega)))
  · exact congrArg ofLe (load_store_of_apart (.inl (by omega)))
  · exact congrArg ofLe (load_store_of_apart (.inl (by omega)))
  · funext l x
    by_cases hl : l = k
    · subst hl
      simp only [update_self, ringOf]
      by_cases hx : x < c.slotSize
      · simp only [store, hk, hx, and_self, if_true]
        by_cases hox : o ≤ x
        · rw [if_pos (by omega), if_pos hox, show c.slot i l + x - (c.slot i l + o) = x - o by omega]
        · rw [if_neg (by omega), if_neg hox]
      · rw [if_neg (by omega), store_apply_of_apart (.inr (by omega)), if_neg (by omega)]
    · simp only [update_of_ne hl, ringOf]
      split_ifs with hin
      · -- The two slots follow one another, in some order.
        refine store_apply_of_apart ?_
        rcases Nat.lt_or_gt_of_ne hl with hlt | hgt
        · have := c.slot_add_le (i := i) hlt
          omega
        · have := c.slot_add_le (i := i) hgt
          omega
      · rfl

lemma ringOf_store_of_ne {a : ℕ} (hij : i ≠ j) (ha : c.header j ≤ a)
    (hlen : a + bs.length ≤ c.header j + c.entrySize) : ringOf c (store m a bs) i = ringOf c m i := by
  have hentry : 24 ≤ c.entrySize := Nat.le_add_left _ _
  have hapart : c.header i + c.entrySize ≤ a ∨ a + bs.length ≤ c.header i := by
    rcases Nat.lt_or_gt_of_ne hij with hlt | hgt
    · exact .inl (le_trans (c.header_add_le hlt) ha)
    · exact .inr (le_trans hlen (c.header_add_le hgt))
  have hload : ∀ o n, o + n ≤ 24 → load (store m a bs) (c.header i + o) n = load m (c.header i + o) n :=
    fun o n hon => load_store_of_apart (by unfold Bytes.Apart; omega)
  ext1
  · exact congrArg ofLe (hload 0 8 (by omega))
  · exact congrArg ofLe (hload 8 8 (by omega))
  · exact congrArg ofLe (hload 16 4 (by omega))
  · funext k x
    simp only [ringOf]
    split_ifs with hin
    · have hbehind := c.header_add_le_slot (i := i) (k := k)
      have hinside := c.slot_add_le_header (i := i) hin.1
      exact store_apply_of_apart (by omega)
    · rfl

end

end Bpftime.GpuRingbuf
