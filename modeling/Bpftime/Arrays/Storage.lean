import Bpftime.Arrays.Model
import Bpftime.QueueStack.Model
import Bpftime.Ringbuf.Steps

/-!
# The storage of maps

Array maps, per-CPU array maps, queues and ring buffers allocate their storage once and compute
where in it a value goes.
-/

namespace Bpftime.Storage

open Bytes Arrays QueueStack List Nat Finset PerCpuArrayMap

section Placed

variable {ι : Type*}

/-- Ranges of one length, by where they start, that lie inside a storage of `size` bytes and share
none of them. -/
structure Placed (size length : ℕ) (off : ι → ℕ) : Prop where
  inside : ∀ i, off i + length ≤ size
  apart : ∀ i j, i ≠ j → Apart (off i) length (off j) length

variable {length size : ℕ}

lemma Placed.card_mul_le [Fintype ι] [DecidableEq ι] {off : ι → ℕ}
    (h : Placed size length off) : Fintype.card ι * length ≤ size := by
  -- The bytes of all ranges, of which no two share one.
  let bytes : Finset ℕ := univ.biUnion fun i => Ico (off i) (off i + length)
  have hcard : bytes.card = Fintype.card ι * length := by
    have hdisjoint : ∀ i ∈ univ, ∀ j ∈ univ, i ≠ j →
        Disjoint (Finset.Ico (off i) (off i + length)) (Finset.Ico (off j) (off j + length)) := by
      intro i _ j _ hij
      rw [Finset.disjoint_left]
      intro b hi hj
      rw [mem_Ico] at hi hj
      rcases h.apart i j hij with hle | hle
      · omega
      · omega
    rw [card_biUnion hdisjoint]
    simp
  have hsub : bytes ⊆ range size := by
    intro b hb
    obtain ⟨i, -, hi⟩ := mem_biUnion.mp hb
    have hinside := h.inside i
    rw [mem_Ico] at hi
    rw [Finset.mem_range]
    omega
  calc Fintype.card ι * length = bytes.card := hcard.symm
    _ ≤ (Finset.range size).card := Finset.card_le_card hsub
    _ = size := card_range size

lemma placed_mul {n : ℕ} (off : ι → ℕ) (pos : ι → ℕ) (hoff : ∀ i, off i = pos i * length)
    (hpos : ∀ i, pos i < n) (hinj : Function.Injective pos) (hsize : n * length ≤ size) :
    Placed size length off := by
  have hnext : ∀ a b : ℕ, a < b → a * length + length ≤ b * length := by
    intro a b hab
    rw [← succ_mul]
    exact Nat.mul_le_mul_right length hab
  refine ⟨fun i => ?_, fun i j hij => ?_⟩
  · rw [hoff i]
    exact (hnext _ _ (hpos i)).trans hsize
  · rw [hoff i, hoff j]
    rcases Nat.lt_or_gt_of_ne (hinj.ne hij) with hlt | hgt
    · exact .inl (hnext _ _ hlt)
    · exact .inr (hnext _ _ hgt)

end Placed

/-- The values of an array are where they should be. -/
def ArrayRight (value_size max_entries : ℕ) : Prop :=
  let m := ArrayMap.create value_size max_entries
  Placed m.data.length value_size fun key : Fin max_entries => m.offset key

/-- The values of a queue that could be created are where they should be. -/
def QueueRight (value_size max_entries : ℕ) : Prop :=
  ∀ q : QueueMap value_size, QueueMap.create value_size max_entries = some q →
    Placed q.data.length value_size fun index : Fin max_entries => q.offset index

lemma placed_mod_iff (value_size max_entries : ℕ) : (Placed (value_size * max_entries % 2^32) value_size
    fun key : Fin max_entries => key.1 * value_size % 2^32) ↔ value_size * max_entries < 2^32 := by
  constructor
  · intro h
    have hle := h.card_mul_le
    rw [Fintype.card_fin, mul_comm] at hle
    exact hle.trans_lt (mod_lt _ (by norm_num))
  · intro h
    rw [mod_eq_of_lt h]
    refine placed_mul _ (fun key => key.1) (fun key => ?_)
      (fun key => key.2) Fin.val_injective (by rw [mul_comm])
    have hle : key.1 * value_size ≤ max_entries * value_size := Nat.mul_le_mul_right _ key.2.le
    rw [mul_comm] at h
    exact mod_eq_of_lt (hle.trans_lt h)

lemma arrayRight_iff (value_size max_entries : ℕ) :
    ArrayRight value_size max_entries ↔ value_size * max_entries < 2^32 := by
  rw [← placed_mod_iff]
  unfold ArrayRight ArrayMap.offset ArrayMap.create
  dsimp only
  rw [length_replicate]

lemma queueRight_iff (value_size max_entries : ℕ) :
    QueueRight value_size max_entries ↔ value_size * max_entries < 2^32 := by
  unfold QueueRight QueueMap.create
  by_cases hzero : value_size = 0 ∨ max_entries = 0
  · rw [if_pos hzero]
    refine iff_of_true (fun q hq => by cases hq) ?_
    rcases hzero with rfl | rfl
    · norm_num
    · norm_num
  · rw [if_neg hzero, ← placed_mod_iff]
    constructor
    · intro h
      have h' := h _ rfl
      dsimp only [QueueMap.offset] at h'
      rw [length_replicate, mul_comm max_entries] at h'
      exact h'
    · intro h q hq
      rw [Option.some.injEq] at hq
      subst hq
      dsimp only [QueueMap.offset]
      rw [length_replicate, mul_comm max_entries]
      exact h

/-- The values of a per-CPU array are where they should be: those of one index and one CPU, which
helpers use, and those of one index together, which system calls use. -/
def PerCpuArrayRight (value_size max_entries ncpu : ℕ) : Prop :=
  let m := PerCpuArrayMap.create value_size max_entries ncpu
  (Placed m.data.length value_size fun i : Fin max_entries × Fin ncpu => m.dataAt i.1 i.2) ∧
    Placed m.data.length m.userspaceLength fun idx : Fin max_entries => m.dataAt idx 0

lemma length_create (value_size max_entries ncpu : ℕ) :
    (create value_size max_entries ncpu).data.length = max_entries * ncpu * value_size % 2^32 := by
  unfold create
  rw [length_replicate, mod_mul_mod]

variable {idx cpu ncpu max_entries size : ℕ}

lemma index_lt (hidx : idx < max_entries) (hcpu : cpu < ncpu) : idx * ncpu + cpu < max_entries * ncpu := by
  have hle := Nat.mul_le_mul_right ncpu (succ_le_of_lt hidx)
  rw [succ_mul] at hle
  omega

lemma dataAt_eq {value_size : ℕ} (h : max_entries * ncpu * value_size < 2^32)
    (hncpu : 0 < ncpu) (hidx : idx < max_entries) (hcpu : cpu < ncpu) :
    (create value_size max_entries ncpu).dataAt idx cpu = (idx * ncpu + cpu) * value_size := by
  have hlt := index_lt hidx hcpu
  have htotal : (idx * ncpu + cpu) * value_size < 2^32 :=
    (Nat.mul_le_mul_right value_size hlt.le).trans_lt h
  have hsum : (idx * ncpu + cpu) * value_size = idx * value_size * ncpu + cpu * value_size := by ring
  rw [hsum] at htotal ⊢
  -- Only a first index, or no bytes at all, leaves room for so many CPUs that their number is
  -- negative.
  have hproduct : idx * value_size * ncpuExtended (.create value_size max_entries ncpu) =
      idx * value_size * ncpu := by
    rcases Nat.eq_zero_or_pos (idx * value_size) with hzero | hpos
    · rw [hzero, zero_mul, zero_mul]
    · have hidx1 : 1 ≤ idx := Nat.pos_of_mul_pos_right hpos
      have hvs : 1 ≤ value_size := Nat.pos_of_mul_pos_left hpos
      have hsmall : 2 * ncpu * 1 ≤ max_entries * ncpu * value_size :=
        Nat.mul_le_mul (Nat.mul_le_mul_right ncpu (by omega)) hvs
      have hextended : ncpuExtended (.create value_size max_entries ncpu) = ncpu :=
        if_pos (show ncpu < 2^31 by omega)
      rw [hextended]
  have hfirst : idx * value_size < 2^64 := by
    have : idx * value_size ≤ idx * value_size * ncpu := Nat.le_mul_of_pos_right _ hncpu
    omega
  have hsize : (create value_size max_entries ncpu).value_size = value_size := rfl
  unfold dataAt add64
  rw [hsize, mod_eq_of_lt hfirst, hproduct, mod_eq_of_lt (a := idx * value_size * ncpu) (by omega),
    mod_eq_of_lt (a := cpu * value_size) (by omega), mod_eq_of_lt (by omega)]

lemma perCpuArrayRight_iff (value_size max_entries ncpu : ℕ) :
    PerCpuArrayRight value_size max_entries ncpu ↔ max_entries * ncpu * value_size < 2^32 := by
  unfold PerCpuArrayRight
  dsimp only
  rw [length_create]
  constructor
  · rintro ⟨h, -⟩
    have hle := h.card_mul_le
    rw [Fintype.card_prod, Fintype.card_fin, Fintype.card_fin] at hle
    exact hle.trans_lt (mod_lt _ (by norm_num))
  · intro h
    rw [mod_eq_of_lt h]
    constructor
    · refine placed_mul _ (fun i => i.1.1 * ncpu + i.2.1) (fun i => ?_) (fun i => ?_) ?_ le_rfl
      · exact dataAt_eq h (zero_lt_of_lt i.2.2) i.1.2 i.2.2
      · exact index_lt i.1.2 i.2.2
      · rintro ⟨i, c⟩ ⟨i', c'⟩ heq
        dsimp only at heq
        have hc := congrArg (· % ncpu) heq
        have hi := congrArg (· / ncpu) heq
        have hpos : 0 < ncpu := zero_lt_of_lt c.2
        simp only [mul_add_mod', mod_eq_of_lt c.2, mod_eq_of_lt c'.2] at hc
        simp only [Nat.mul_comm _ ncpu, mul_add_div hpos, div_eq_of_lt c.2, div_eq_of_lt c'.2,
          Nat.add_zero] at hi
        exact Prod.ext (Fin.ext hi) (Fin.ext hc)
    · rcases Nat.eq_zero_or_pos ncpu with rfl | hncpu
      · -- Without CPUs every index has the same empty range.
        have hzero : ∀ idx, (create value_size max_entries 0).dataAt idx 0 = 0 := by
          intro idx
          have hextended : ncpuExtended (.create value_size max_entries 0) = 0 := rfl
          unfold dataAt
          rw [hextended, mul_zero, zero_mul]
          rfl
        have hlength : (create value_size max_entries 0).userspaceLength = 0 := by
          unfold userspaceLength create
          rw [zero_mul, zero_mod]
        rw [hlength]
        refine ⟨fun idx => ?_, fun i j _ => ?_⟩
        · rw [hzero]
          exact Nat.zero_le _
        · rw [hzero, hzero]
          exact .inl le_rfl
      · rcases Nat.eq_zero_or_pos max_entries with rfl | hpos
        · exact ⟨fun idx => idx.elim0, fun idx => idx.elim0⟩
        · have hlength : (create value_size max_entries ncpu).userspaceLength = ncpu * value_size := by
            have hle : ncpu * value_size ≤ max_entries * ncpu * value_size := by
              rw [mul_assoc]
              exact Nat.le_mul_of_pos_left _ hpos
            exact mod_eq_of_lt (hle.trans_lt h)
          rw [hlength]
          refine placed_mul _ (fun idx => idx.1) (fun idx => ?_) (fun idx => idx.2) Fin.val_injective
            (by rw [mul_assoc])
          rw [dataAt_eq h hncpu idx.2 hncpu, Nat.add_zero, mul_assoc]

/-- The length of `raw_buffer`, in 32 bits. -/
def rawLength (page_size max_ent : ℕ) : ℕ := (page_size * 2 + max_ent * 2) % 2^32

/-- The sizes of records that `reserve` lets into an empty ring. -/
def Accepted (max_ent size : ℕ) : Prop :=
  size < 2^64 ∧ size &&& (bpfRingbufBusyBit ||| bpfRingbufDiscardBit) = 0 ∧ Ringbuf.totalSize size ≤ max_ent

/-- The two positions at the starts of their pages, in `raw_buffer`. -/
def wordRanges (page_size : ℕ) : List (ℕ × ℕ) := [(0, 8), (page_size, 8)]

/-- The header and the payload of a record at a position, in `raw_buffer`. -/
def recordRanges (page_size max_ent pos size : ℕ) : List (ℕ × ℕ) :=
  let rb := Ringbuf.create page_size max_ent
  [(page_size * 2 + (pos &&& rb.mask), bpfRingbufHdrSz),
    (page_size * 2 + (add64 pos bpfRingbufHdrSz &&& rb.mask), size)]

/-- The parts of a ring that could be created are where they should be: the positions, and the
header and the payload of every record. -/
def RingbufRight (page_size max_ent : ℕ) : Prop :=
  8 ≤ page_size → (∀ w ∈ wordRanges page_size, w.1 + w.2 ≤ rawLength page_size max_ent) ∧
    (wordRanges page_size).Pairwise (fun v w => Apart v.1 v.2 w.1 w.2) ∧
    ∀ pos size, pos < 2^64 → Accepted max_ent size →
      (recordRanges page_size max_ent pos size).Pairwise (fun v w => Apart v.1 v.2 w.1 w.2) ∧
      ∀ r ∈ recordRanges page_size max_ent pos size,
        r.1 + r.2 ≤ rawLength page_size max_ent ∧ (∀ w ∈ wordRanges page_size, Apart w.1 w.2 r.1 r.2) ∧
        ∀ d size', Accepted max_ent size' → Ringbuf.totalSize size ≤ d →
        d + Ringbuf.totalSize size' ≤ max_ent →
          ∀ r' ∈ recordRanges page_size max_ent (add64 pos d) size', Apart r.1 r.2 r'.1 r'.2

lemma Accepted.totalSize_eq {max_ent : ℕ} (h : Accepted max_ent size) :
    Ringbuf.totalSize size = recLen size :=
  Sys.totalSize_eq h.1 h.2.1

variable {e : ℕ}

lemma recordRanges_eq (he : e ≤ 30) (page_size pos size : ℕ) : recordRanges page_size
    (2^e) pos size = [(page_size * 2 + pos % 2^e, 8), (page_size * 2 + (pos + 8) % 2^e, size)] := by
  have hmask : ∀ a, a &&& (Ringbuf.create page_size (2^e)).mask = a % 2^e := Ringbuf.and_mask he rfl
  unfold recordRanges
  dsimp only
  rw [hmask, hmask, add64_mod he]
  rfl

lemma apart_add {p a n b k : ℕ} (h : Apart a n b k) : Apart (p + a) n (p + b) k := by
  unfold Apart at h ⊢
  omega

lemma apart_records (he : e ≤ 30) (page_size : ℕ) {pos d size' : ℕ} (h : recLen size ≤ d)
    (h' : d + recLen size' ≤ 2^e) {r r' : ℕ × ℕ} (hr : r ∈ recordRanges page_size (2^e) pos size)
    (hr' : r' ∈ recordRanges page_size (2^e) (add64 pos d) size') : Apart r.1 r.2 r'.1 r'.2 := by
  have hpos : 0 < 2^e := Nat.two_pow_pos e
  have hrec := add_eight_le_recLen size
  have hrec' := add_eight_le_recLen size'
  have hmod : (add64 pos d + 8) % 2^e = (pos + d + 8) % 2^e := by rw [add_mod, add64_mod he, ← add_mod]
  rw [recordRanges_eq he, mem_pair] at hr hr'
  rw [hmod, add64_mod he] at hr'
  rcases hr with rfl | rfl
  all_goals
    rcases hr' with rfl | rfl
    all_goals exact apart_add (apart_mod hpos (by omega) (by omega))

lemma ringbufRight_iff {page_size : ℕ} (hpage : 8 ≤ page_size) (hint : page_size * 2 < 2^31)
    (he : e < 32) : RingbufRight page_size (2^e) ↔ page_size * 2 + 2^e * 2 < 2^32 := by
  constructor
  · intro h
    by_contra hwrap
    -- Only the longest ring does not fit, and its storage ends where the first header starts.
    have he31 : e = 31 := by
      by_contra hne
      have : 2^e ≤ 2^30 := Nat.pow_le_pow_right (by norm_num) (by omega)
      omega
    subst he31
    have haccepted : Accepted (2^31) 0 := ⟨by norm_num, by decide, by decide⟩
    have hheader := ((h hpage).2.2 0 0 (by norm_num) haccepted).2 _ (mem_cons_self ..)
    have hinside := hheader.1
    unfold rawLength bpfRingbufHdrSz at hinside
    rw [zero_and] at hinside
    omega
  · intro hfits _
    have he30 : e ≤ 30 := by
      by_contra hgt
      have : 2^31 ≤ 2^e := Nat.pow_le_pow_right (by norm_num) (by omega)
      omega
    have hlength : rawLength page_size (2^e) = page_size * 2 + 2^e * 2 := mod_eq_of_lt hfits
    have hpos : 0 < 2^e := Nat.two_pow_pos e
    rw [hlength]
    refine ⟨?_, ?_, fun pos size hlt haccepted => ?_⟩
    · intro w hw
      rcases mem_pair.mp hw with rfl | rfl
      all_goals
        dsimp only
        omega
    · rw [wordRanges, pairwise_pair]
      exact .inl (by omega)
    · have hrec := add_eight_le_recLen size
      have htotal := haccepted.2.2
      rw [haccepted.totalSize_eq] at htotal
      refine ⟨?_, fun r hr => ⟨?_, ?_, ?_⟩⟩
      · rw [recordRanges_eq he30, pairwise_pair]
        exact apart_add (apart_mod hpos (by omega) (by omega))
      · have hmod := mod_lt pos hpos
        have hmod' := mod_lt (pos + 8) hpos
        rw [recordRanges_eq he30, mem_pair] at hr
        rcases hr with rfl | rfl
        all_goals
          dsimp only
          omega
      · intro w hw
        have hstart : page_size * 2 ≤ r.1 := by
          rw [recordRanges_eq he30, mem_pair] at hr
          rcases hr with rfl | rfl
          all_goals exact Nat.le_add_right _ _
        rcases mem_pair.mp hw with rfl | rfl
        all_goals exact .inl (by dsimp only; omega)
      · intro d size' haccepted' hd hd' r' hr'
        rw [haccepted.totalSize_eq] at hd
        rw [haccepted'.totalSize_eq] at hd'
        exact apart_records he30 page_size hd hd' hr hr'

/-- In an array, a per-CPU array and a queue of any sizes, and in a ring whose length is a power of
two, every value and every record is where it should be exactly when the length of the storage fits
in 32 bits. -/
theorem storage_iff (value_size max_entries ncpu : ℕ) {page_size e : ℕ} (hpage : 8 ≤ page_size)
    (hint : page_size * 2 < 2^31) (he : e < 32) :
    (ArrayRight value_size max_entries ↔ value_size * max_entries < 2^32) ∧
    (PerCpuArrayRight value_size max_entries ncpu ↔ max_entries * ncpu * value_size < 2^32) ∧
    (QueueRight value_size max_entries ↔ value_size * max_entries < 2^32) ∧
    (RingbufRight page_size (2^e) ↔ page_size * 2 + 2^e * 2 < 2^32) :=
  ⟨arrayRight_iff value_size max_entries, perCpuArrayRight_iff value_size max_entries ncpu,
    queueRight_iff value_size max_entries, ringbufRight_iff hpage hint he⟩

/-- Small maps and a ring of one page are right. -/
theorem storage_small : ArrayRight 8 4 ∧ PerCpuArrayRight 8 4 2 ∧ QueueRight 8 4 ∧ RingbufRight 4096
    (2^12) := by
  obtain ⟨harray, hpercpu, hqueue, hring⟩ :=
    storage_iff 8 4 2 (show 8 ≤ 4096 by norm_num) (by norm_num) (show 12 < 32 by norm_num)
  exact ⟨harray.mpr (by norm_num), hpercpu.mpr (by norm_num), hqueue.mpr (by norm_num),
    hring.mpr (by norm_num)⟩

/-- An array of `2^16` values of `2^16` bytes has an empty storage. -/
theorem not_arrayRight_wrapped : ¬ArrayRight (2^16) (2^16) := by
  intro h
  have hinside := h.inside 0
  unfold ArrayMap.create at hinside
  rw [length_replicate] at hinside
  omega

end Bpftime.Storage
