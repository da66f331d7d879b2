import Bpftime.BloomFilter.Model
import Bpftime.Lib.Runs

/-!
# A Bloom filter forgets nothing

No operation clears a bit, and every bit index is inside the array.
-/

namespace Bpftime.BloomFilter

open BitVec List Option

open Runs (run)

lemma calculateOptimalBitArraySize_bounds (max_entries nr_hashes : ℕ) :
    64 ≤ calculateOptimalBitArraySize max_entries nr_hashes ∧
    calculateOptimalBitArraySize max_entries nr_hashes ≤ 2^31 := by
  unfold calculateOptimalBitArraySize
  dsimp only
  generalize max_entries * nr_hashes * 7 % 2^64 / 5 = optimal_size
  split_ifs <;> constructor <;> omega

variable {n : ℕ}

lemma powerOf2Bits_spec {fuel k bits : ℕ} (hk : k ≤ n) (hn : n < 64) (hbits : bits ≤ 2^n)
    (hfuel : n - k < fuel) :
    ∃ m, powerOf2Bits fuel (2^k) bits = some (2^m) ∧ m ≤ n ∧ bits ≤ 2^m := by
  induction fuel generalizing k with
  | zero => omega
  | succ fuel ih =>
    rw [powerOf2Bits]
    split_ifs with hlt
    · -- The power is below the size, so its exponent is below the bound.
      have hkn : k < n := by
        by_contra hge
        have : k = n := by omega
        subst this
        omega
      have hwrap : 2^k * 2 % 2^64 = 2^(k + 1) := by
        rw [← pow_succ]
        exact Nat.mod_eq_of_lt (Nat.pow_lt_pow_right (by decide) (by omega))
      rw [hwrap]
      exact ih (by omega) (by omega)
    · exact ⟨k, rfl, hk, by omega⟩

lemma byte_set_self (b : BitVec 8) (hn : n < 8) :
    (b ||| (1 : BitVec 8) <<< n) &&& (1 : BitVec 8) <<< n ≠ 0 := by
  have hself : ∀ m : BitVec 8, (b ||| m) &&& m = m := by
    intro m
    ext i hi
    simp only [getElem_and, getElem_or]
    cases m[i] <;> simp
  rw [hself]
  interval_cases n <;> decide

lemma byte_set_of_set {b m : BitVec 8} (h : b &&& m ≠ 0) (x : BitVec 8) : (b ||| x) &&& m ≠ 0 := by
  intro hzero
  apply h
  have hle : b &&& m = (b &&& m) &&& ((b ||| x) &&& m) := by
    ext i hi
    simp only [getElem_and, getElem_or]
    cases b[i] <;> cases m[i] <;> simp
  rw [hle, hzero]
  exact and_zero

namespace BloomFilterMap

variable {value_size : ℕ} {f f' f'' : BloomFilterMap value_size}

/-- The array has a size that is a power of two, and the mask keeps indices inside. -/
structure Sized (f : BloomFilterMap value_size) : Prop where
  power : ∃ k ≤ 31, f.bit_array_size_bits = 2^k
  mask : f.bit_array_mask = BitVec.ofNat 32 (f.bit_array_size_bits - 1)
  length : f.bit_array.length = (f.bit_array_size_bits + 7) / 8

variable {nr_hashes max_entries : ℕ}

lemma create_sized {hash_algorithm : BloomHashAlgorithm}
    {seed : BitVec 32} (h : create value_size max_entries nr_hashes hash_algorithm seed = some f) :
    f.Sized := by
  unfold create at h
  split_ifs at h
  obtain ⟨bits, hbits, rfl⟩ := map_eq_some_iff.mp h
  obtain ⟨-, hmax⟩ := calculateOptimalBitArraySize_bounds max_entries nr_hashes
  obtain ⟨m, hm, hle, -⟩ := powerOf2Bits_spec (Nat.zero_le 31) (by decide) hmax (show 31 - 0 < 64 by decide)
  rw [pow_zero, hbits, some.injEq] at hm
  exact ⟨⟨m, hle, hm⟩, rfl, length_replicate⟩

lemma create_isSome (hash_algorithm : BloomHashAlgorithm)
    (seed : BitVec 32) (hvalue : 0 < value_size) (hmax : 0 < max_entries) (hnr : 0 < nr_hashes)
    (hnr' : nr_hashes ≤ 15) : ∃ f, create value_size max_entries nr_hashes hash_algorithm seed =
    some f := by
  obtain ⟨-, hbound⟩ := calculateOptimalBitArraySize_bounds max_entries nr_hashes
  obtain ⟨m, hm, -⟩ := powerOf2Bits_spec (Nat.zero_le 31) (by decide) hbound (show 31 - 0 < 64 by decide)
  unfold create
  rw [if_neg (by omega), if_neg (by omega), show (1 : ℕ) = 2^0 from rfl, hm]
  exact ⟨_, rfl⟩

lemma Sized.hashValue_lt (h : f.Sized) (value : MapValue value_size) (i : ℕ) :
    (f.hashValue value i).toNat < f.bit_array_size_bits ∧ (f.hashValue value i).toNat / 8 <
    f.bit_array.length := by
  obtain ⟨k, hk, hbits⟩ := h.power
  have hpos : 0 < f.bit_array_size_bits := hbits ▸ Nat.two_pow_pos k
  have hle : f.bit_array_size_bits ≤ 2^31 := hbits ▸ Nat.pow_le_pow_right (by decide) hk
  have hmask : f.bit_array_mask.toNat = f.bit_array_size_bits - 1 := by
    rw [h.mask, toNat_ofNat]
    exact Nat.mod_eq_of_lt (by omega)
  have hhash : (f.hashValue value i).toNat ≤ f.bit_array_mask.toNat := by
    unfold hashValue
    rw [toNat_and]
    exact Nat.and_le_right
  rw [h.length]
  omega

/-! ## Growth -/

/-- Only the bits of the array differ, and those that were set are set. -/
structure Grows (f f' : BloomFilterMap value_size) : Prop where
  same : f' = { f with bit_array := f'.bit_array }
  length : f'.bit_array.length = f.bit_array.length
  kept : ∀ i, f.testBit i = true → f'.testBit i = true

lemma Grows.refl (f : BloomFilterMap value_size) : Grows f f := ⟨rfl, rfl, fun _ => id⟩

lemma Grows.trans (h : Grows f f') (h' : Grows f' f'') : Grows f f'' where
  same := by rw [h'.same, h.same]
  length := h'.length.trans h.length
  kept i hi := h'.kept i (h.kept i hi)

lemma Grows.hashValue_eq (h : Grows f f') (value : MapValue value_size) (i : ℕ) :
    f'.hashValue value i = f.hashValue value i := by
  rw [h.same]
  rfl

lemma Grows.nr_hashes_eq (h : Grows f f') : f'.nr_hashes = f.nr_hashes := by rw [h.same]

lemma Grows.sized (h : Grows f f') (hf : f.Sized) : f'.Sized := by
  have hbits : f'.bit_array_size_bits = f.bit_array_size_bits := by rw [h.same]
  have hmask : f'.bit_array_mask = f.bit_array_mask := by rw [h.same]
  exact ⟨hbits ▸ hf.power, by rw [hmask, hbits, hf.mask], by rw [h.length, hbits, hf.length]⟩

lemma grows_setBit (f : BloomFilterMap value_size) (i : BitVec 32) : Grows f (f.setBit i) where
  same := rfl
  length := length_modify _ _ _
  kept j hj := by
    unfold testBit setBit at *
    dsimp only at *
    rw [getElem?_modify]
    cases hbyte : f.bit_array[j.toNat / 8]? with
    | none => simp [hbyte] at hj
    | some b =>
      rw [hbyte] at hj
      have hset : b &&& (1 : BitVec 8) <<< (j.toNat % 8) ≠ 0 := by simpa using hj
      split_ifs
      · simpa using byte_set_of_set hset _
      · simpa using hset

lemma testBit_setBit {i : BitVec 32} (hi : i.toNat / 8 < f.bit_array.length) :
    (f.setBit i).testBit i = true := by
  unfold testBit setBit
  dsimp only
  rw [List.getElem?_modify, List.getElem?_eq_getElem hi]
  simpa using byte_set_self _ (Nat.mod_lt _ (by decide))

lemma setBits_spec (hf : f.Sized) (value : MapValue value_size) (is : List ℕ) :
    Grows f (setBits value is f) ∧ ∀ i ∈ is, (setBits value is f).testBit (f.hashValue value i) = true := by
  induction is generalizing f with
  | nil => exact ⟨Grows.refl f, by simp⟩
  | cons i is ih =>
    have hgrow := grows_setBit f (f.hashValue value i)
    obtain ⟨hrest, hbits⟩ := ih (hgrow.sized hf)
    refine ⟨hgrow.trans hrest, fun j hj => ?_⟩
    rcases mem_cons.mp hj with rfl | hj'
    · exact hrest.kept _ (testBit_setBit (hf.hashValue_lt value j).2)
    · have := hbits j hj'
      rwa [hgrow.hashValue_eq] at this

def Has (f : BloomFilterMap value_size) (value : MapValue value_size) : Prop :=
  ∀ i < f.nr_hashes, f.testBit (f.hashValue value i) = true

lemma mapPeekElem_eq_ok_iff {value : MapValue value_size} : f.mapPeekElem (some value) = .ok ↔
    f.Has value := by
  unfold mapPeekElem Has
  dsimp only
  split_ifs with hall
  · simpa using hall
  · simpa using hall

lemma Grows.has (h : Grows f f') {value : MapValue value_size} (hf : f.Has value) : f'.Has value := by
  intro i hi
  rw [h.hashValue_eq]
  exact h.kept _ (hf i (h.nr_hashes_eq ▸ hi))

lemma push_spec (hf : f.Sized) (value : Option (MapValue value_size)) (flags : ℕ) :
    Grows f (f.push value flags).2 ∧
    ∀ v, value = some v → (f.push value flags).1 = .ok → (f.push value flags).2.Has v := by
  cases value with
  | none => exact ⟨Grows.refl f, by simp⟩
  | some v =>
    unfold push
    split_ifs with hflags
    · exact ⟨Grows.refl f, by simp⟩
    · obtain ⟨hgrow, hbits⟩ := setBits_spec hf v (List.range f.nr_hashes)
      refine ⟨hgrow, fun w hw _ i hi => ?_⟩
      cases hw
      rw [hgrow.hashValue_eq]
      exact hbits i (mem_range.mpr (hgrow.nr_hashes_eq ▸ hi))

lemma grows_step (hf : f.Sized) {op : Op value_size} {reply : Outcome}
    (h : f.step op = some (reply, f')) : Grows f f' := by
  cases op with
  | elemUpdate value flags | mapPushElem value flags =>
    have heq : f.push value flags = (reply, f') := some.inj h
    have hgrow := (push_spec hf value flags).1
    rwa [heq] at hgrow
  | _ =>
    cases h
    exact Grows.refl f

lemma grows_run (hf : f.Sized) {ops : List (Op value_size)} {replies : List Outcome}
    (h : run step f ops = some (replies, f')) : Grows f f' :=
  Runs.invariant_of_run (P := Grows f) (C := fun _ _ => True)
    (fun _ _ _ _ hgrow _ hstep => hgrow.trans (grows_step (hgrow.sized hf) hstep)) (Grows.refl f)
    (Runs.along_of_forall_mem fun _ _ _ => trivial) h

end BloomFilterMap

open BloomFilterMap in
/-- A filter that the constructor admits has an array of a power of two of bits, at most `2^31`.
After any operations every hash of every value is an index into it, and a peek finds every value
that was pushed with success before. -/
theorem no_false_negatives {value_size max_entries nr_hashes : ℕ} {hash_algorithm : BloomHashAlgorithm}
    {seed : BitVec 32} {f : BloomFilterMap value_size}
    (hcreate : create value_size max_entries nr_hashes hash_algorithm seed = some f) :
    (∃ k, f.bit_array_size_bits = 2^k ∧ 2^k ≤ 2^31) ∧
    (∀ ops, ∃ replies f', run step f ops = some (replies, f') ∧
      ∀ v i, (f'.hashValue v i).toNat < f'.bit_array_size_bits ∧ (f'.hashValue v i).toNat / 8 < f'.bit_array.length) ∧
    ∀ pre post op v flags, (op = .mapPushElem (some v) flags ∨ op = .elemUpdate (some v) flags) →
      ∀ replies f₁ f₂ replies' f₃, run step f pre = some (replies, f₁) →
        f₁.step op = some (.ok, f₂) → run step f₂ post = some (replies', f₃) →
        f₃.mapPeekElem (some v) = .ok := by
  have hsized := create_sized hcreate
  obtain ⟨k, hk, hbits⟩ := hsized.power
  refine ⟨⟨k, hbits, Nat.pow_le_pow_right (by decide) hk⟩, fun ops => ?_, ?_⟩
  · have hkeep : ∀ (g : BloomFilterMap value_size) op, g.Sized → True →
        ∃ reply g', g.step op = some (reply, g') ∧ g'.Sized := by
      intro g op hg _
      obtain ⟨⟨reply, g'⟩, hstep⟩ : ∃ p, g.step op = some p := by cases op <;> exact ⟨_, rfl⟩
      exact ⟨reply, g', hstep, (grows_step hg hstep).sized hg⟩
    obtain ⟨replies, f', hrun, hsized'⟩ := Runs.run_invariant hkeep hsized
      (Runs.along_of_forall_mem fun op (_ : op ∈ ops) _ => trivial)
    exact ⟨replies, f', hrun, hsized'.hashValue_lt⟩
  · intro pre post op v flags hop replies f₁ f₂ replies' f₃ hpre hstep hpost
    have hsized1 : f₁.Sized := (grows_run hsized hpre).sized hsized
    have hhas : f₂.Has v := by
      have hpush := (push_spec hsized1 (some v) flags).2 v rfl
      rcases hop with rfl | rfl
      all_goals
        have heq : f₁.push (some v) flags = (.ok, f₂) := some.inj hstep
        rw [heq] at hpush
        exact hpush rfl
    have hsized2 : f₂.Sized := (grows_step hsized1 hstep).sized hsized1
    exact mapPeekElem_eq_ok_iff.mpr ((grows_run hsized2 hpost).has hhas)

open BloomFilterMap in
/-- A filter for four values of two bytes and three hashes, and a push before another one. -/
theorem no_false_negatives_after_two_pushes : ∃ f f₁ f₂ replies', create 2 4 3 .JHASH 0x12345678 =
      some f ∧ f.step (.mapPushElem (some ⟨[1, 2], rfl⟩) 0) = some (.ok, f₁) ∧
      run step f₁ [.elemUpdate (some ⟨[3, 4], rfl⟩) 0] = some (replies', f₂) ∧
        f₂.mapPeekElem (some ⟨[1, 2], rfl⟩) = .ok := by
  obtain ⟨f, hf⟩ := create_isSome .JHASH 0x12345678 (show 0 < 2 by decide) (show 0 < 4 by decide)
    (show 0 < 3 by decide) (by decide)
  exact ⟨f, _, _, _, hf, rfl, rfl, (no_false_negatives hf).2.2 []
    [.elemUpdate (some ⟨[3, 4], rfl⟩) 0] _ _ 0 (Or.inl rfl) [] f _ [.ok] _ rfl rfl rfl⟩

end Bpftime.BloomFilter
