import Bpftime.Basic
import Bpftime.Lib.Runs
import Bpftime.Lib.SharedMemory

/-!
# The helpers on packets

`bpf_helper.cpp` has the helpers that move the ends of an XDP packet in its buffer and the one that
sums the difference of two buffers.
-/

namespace Bpftime.Xdp

open Runs (Along)
open SharedMemory (Memory load store)

/-! ## The ends of a packet -/

/-- `xdp_md_userspace`, with the memory. -/
structure XdpMd where
  data : ℕ
  data_end : ℕ
  buffer_start : ℕ
  buffer_end : ℕ
  mem : Memory

/-- What a call returns, the addresses and lengths that it writes in the memory of the packet, and
the bytes that it loads for its caller. -/
structure Reply where
  ret : ℤ
  writes : List (ℕ × ℕ)
  bytes : List UInt8

/-- A call that fails with `-EINVAL`. -/
def einval : Reply := ⟨-Errno.EINVAL.code, [], []⟩

/-- The sum of an address and an `int`. -/
def addInt (a : ℕ) (n : Int32) : ℕ := ((a + n.toInt) % 2^64).toNat

variable (xdp : XdpMd)

/-- `bpftime_xdp_adjust_head` -/
def adjustHead (offset : Int32) : Reply × XdpMd :=
  let data := addInt xdp.data offset
  if sub64 xdp.data_end 14 < data ∨ xdp.buffer_end < data then (einval, xdp)
  else if data < xdp.buffer_start then
    let dst := add64 xdp.buffer_start (xdp.buffer_start - data)
    let len := sub64 xdp.data_end xdp.data
    (⟨0, [(dst, len)], []⟩,
      { xdp with data := xdp.buffer_start, mem := store xdp.mem dst (load xdp.mem xdp.data len) })
  else (⟨0, [], []⟩, { xdp with data := data })

/-- `bpftime_xdp_adjust_tail` -/
def adjustTail (delta : Int32) : Reply × XdpMd :=
  let data := addInt xdp.data_end delta
  if data < xdp.data ∨ data < xdp.buffer_start ∨ xdp.buffer_end < data then (einval, xdp)
  else (⟨0, [], []⟩, { xdp with data_end := data })

/-- `bpftime_xdp_load_bytes` -/
def loadBytes (offset len : BitVec 32) : Reply × XdpMd :=
  let data := add64 xdp.data offset.toNat
  if xdp.data_end < add64 data len.toNat then (einval, xdp)
  else (⟨0, [], load xdp.mem data len.toNat⟩, xdp)

inductive Op
  | adjustHead (offset : Int32)
  | adjustTail (delta : Int32)
  | loadBytes (offset len : BitVec 32)

def step (xdp : XdpMd) : Op → Option (Reply × XdpMd)
  | .adjustHead offset => some (adjustHead xdp offset)
  | .adjustTail delta => some (adjustTail xdp delta)
  | .loadBytes offset len => some (loadBytes xdp offset len)

structure Ordered : Prop where
  start : xdp.buffer_start ≤ xdp.data
  data : xdp.data ≤ xdp.data_end
  stop : xdp.data_end ≤ xdp.buffer_end
  fits : xdp.buffer_end < 2^64

/-- What a call must do: the packet stays in the buffer, so do writes, a call that fails changes
nothing, and one that makes room for `n` bytes leaves the packet behind them. -/
structure Right (op : Op) (r : Reply) (xdp' : XdpMd) : Prop where
  ordered : Ordered xdp'
  writes : ∀ w ∈ r.writes, xdp.buffer_start ≤ w.1 ∧ w.1 + w.2 ≤ xdp.buffer_end
  failed : r.ret ≠ 0 → r.writes = [] ∧ xdp' = xdp
  moved : ∀ offset : Int32, op = .adjustHead offset → offset.toInt < 0 → r.ret = 0 →
    let room := (-offset.toInt).toNat
    let len := xdp.data_end - xdp.data
    load xdp'.mem (xdp'.data + room) len = load xdp.mem xdp.data len ∧ xdp'.data_end = xdp'.data + room + len

/-- What is asked of a call: the head does not go in front of the buffer, and the addresses do not
wrap. -/
def Roomy : Op → Prop
  | .adjustHead offset => 14 ≤ xdp.data_end ∧ xdp.buffer_start ≤ xdp.data + offset.toInt ∧
    xdp.data + offset.toInt < 2^64
  | _ => True

variable {xdp} {r : Reply} {xdp' : XdpMd}

lemma Right.einval (h : Ordered xdp) (op : Op) : Right xdp op einval xdp := by
  refine ⟨h, fun w hw => absurd hw List.not_mem_nil, fun _ => ⟨rfl, rfl⟩, fun _ _ _ hret => ?_⟩
  exact absurd hret (by decide)

lemma addInt_eq {a : ℕ} {n : Int32} (hnonneg : 0 ≤ a + n.toInt) (hlt : a + n.toInt < 2^64) :
    (addInt a n : ℤ) = a + n.toInt := by
  unfold addInt
  rw [Int.emod_eq_of_lt hnonneg hlt, Int.toNat_of_nonneg hnonneg]

lemma right_adjustHead (h : Ordered xdp) {offset : Int32} (hroomy : Roomy xdp (.adjustHead offset))
    (hcall : adjustHead xdp offset = (r, xdp')) : Right xdp (.adjustHead offset) r xdp' := by
  obtain ⟨hstart, hdata, hstop, hfits⟩ := h
  obtain ⟨heth, hroom, hlt⟩ := hroomy
  have hend : sub64 xdp.data_end 14 = xdp.data_end - 14 := sub64_of_le (by omega) heth
  have hsum := addInt_eq (show 0 ≤ xdp.data + offset.toInt by omega) hlt
  simp only [adjustHead, hend] at hcall
  generalize addInt xdp.data offset = data at hsum hcall
  by_cases hinval : xdp.data_end - 14 < data ∨ xdp.buffer_end < data
  · rw [if_pos hinval] at hcall
    cases hcall
    exact Right.einval ⟨hstart, hdata, hstop, hfits⟩ _
  · -- There is room in front of the packet, so that nothing is moved.
    rw [if_neg hinval, if_neg (show ¬data < xdp.buffer_start by omega)] at hcall
    cases hcall
    refine ⟨⟨?_, ?_, hstop, hfits⟩, fun w hw => absurd hw List.not_mem_nil, fun hret => absurd rfl hret, ?_⟩
    · dsimp only
      omega
    · dsimp only
      omega
    · rintro offset' ⟨⟩ hneg -
      have hback : data + (-offset.toInt).toNat = xdp.data := by omega
      dsimp only
      rw [hback]
      exact ⟨rfl, by omega⟩

lemma Right.quiet (h : Ordered xdp') {op : Op} (hop : ∀ offset, op ≠ .adjustHead offset)
    (bytes : List UInt8) :
    Right xdp op ⟨0, [], bytes⟩ xdp' :=
  ⟨h, fun _ hw => absurd hw List.not_mem_nil, fun hret => absurd rfl hret, fun o ho => absurd ho (hop o)⟩

lemma right_adjustTail (h : Ordered xdp) {delta : Int32}
    (hcall : adjustTail xdp delta = (r, xdp')) : Right xdp (.adjustTail delta) r xdp' := by
  simp only [adjustTail] at hcall
  split_ifs at hcall with hinval
  · cases hcall
    exact Right.einval h _
  · cases hcall
    have hordered : Ordered { xdp with data_end := addInt xdp.data_end delta } :=
      ⟨h.start, by dsimp only; omega, by dsimp only; omega, h.fits⟩
    exact Right.quiet hordered (fun _ hop => by cases hop) []

lemma right_loadBytes (h : Ordered xdp) {offset len : BitVec 32}
    (hcall : loadBytes xdp offset len = (r, xdp')) : Right xdp (.loadBytes offset len) r xdp' := by
  simp only [loadBytes] at hcall
  split_ifs at hcall with hinval
  · cases hcall
    exact Right.einval h _
  · cases hcall
    exact Right.quiet h (fun _ hop => by cases hop) _

lemma right_step (h : Ordered xdp) {op : Op} (hroomy : Roomy xdp op)
    (hstep : step xdp op = some (r, xdp')) : Right xdp op r xdp' := by
  cases op with
  | adjustHead offset => exact right_adjustHead h hroomy (Option.some.inj hstep)
  | adjustTail delta => exact right_adjustTail h (Option.some.inj hstep)
  | loadBytes offset len => exact right_loadBytes h (Option.some.inj hstep)

/-- In a run whose calls all have the room that they ask for, every call does what it must do. -/
theorem right_of_roomy {xdp : XdpMd} (h : Ordered xdp) {ops : List Op} (hops : Along step Roomy xdp ops) :
    Along step (fun xdp op => ∃ r xdp', step xdp op = some (r, xdp') ∧ Right xdp op r xdp') xdp ops := by
  refine Runs.along_of_invariant ?_ ?_ h hops
  · intro s op hs hop
    obtain ⟨⟨r, s'⟩, hstep⟩ : ∃ p, step s op = some p := by cases op <;> exact ⟨_, rfl⟩
    exact ⟨r, s', hstep, right_step hs hop hstep⟩
  · intro s op r s' hs hop hstep
    exact (right_step hs hop hstep).ordered

/-- A packet of 20 bytes with two bytes in front of it. -/
def smallPacket : XdpMd := ⟨102, 122, 100, 130, fun a => a.toUInt8⟩

/-- The two bytes in front are used. -/
theorem right_smallPacket : Along step
    (fun xdp op => ∃ r xdp', step xdp op = some (r, xdp') ∧ Right xdp op r xdp') smallPacket
    [.adjustHead (-2), .adjustTail 8, .loadBytes 0 30] := by
  refine right_of_roomy ⟨by decide, by decide, by decide, by decide⟩ ⟨?_, fun r s' hstep => ?_⟩
  · exact ⟨by decide, by decide, by decide⟩
  · exact ⟨trivial, fun _ _ _ => ⟨trivial, fun _ _ _ => trivial⟩⟩

/-- Four bytes are asked for. The packet is moved by two and keeps its end. -/
theorem not_right_smallPacket : Ordered smallPacket ∧ (adjustHead smallPacket (-4)).1.ret = 0 ∧
    ¬Right smallPacket (.adjustHead (-4)) (adjustHead smallPacket (-4)).1 (adjustHead smallPacket (-4)).2 := by
  refine ⟨⟨by decide, by decide, by decide, by decide⟩, rfl, fun h => ?_⟩
  obtain ⟨-, hend⟩ := h.moved (-4) rfl (by decide) rfl
  exact absurd hend (by decide)

end Bpftime.Xdp

namespace Bpftime.Csum

/-! ## Sums of buffers -/

/-- The 16-bit words of a buffer that a loop reads, none of a null one. -/
def words (buf : Option (ℕ → BitVec 16)) (size : Int32) : List (BitVec 16) :=
  match buf with
  | none => []
  | some word => (List.range (size.toInt / 2).toNat).map word

/-- A loop that adds numbers to an `int`. -/
def addAll (csum_diff : ℤ) (ns : List ℕ) : ℤ :=
  ns.foldl (fun csum_diff n => (csum_diff + n).bmod (2^32)) csum_diff

variable (src dst : Option (ℕ → BitVec 16)) (from_size to_size seed : Int32)

/-- `bpftime_csum_diff`, from `src` to `dst`. -/
def csumDiff : ℤ :=
  if from_size.toInt.tmod 4 ≠ 0 ∨ to_size.toInt.tmod 4 ≠ 0 then -Errno.EINVAL.code
  else
    let csum_diff := addAll seed.toInt ((words dst to_size).map BitVec.toNat)
    let csum_diff := addAll csum_diff ((words src from_size).map fun w => (~~~w).toNat)
    if csum_diff < 0 then -Errno.EINVAL.code else csum_diff

def total (ws : List (BitVec 16)) : ℕ := (ws.map BitVec.toNat).sum

def difference : ℤ := seed.toInt + total (words dst to_size) - total (words src from_size)

/-- The sum that a call computes, without the overflow of an `int`. -/
def wideSum : ℤ := difference src dst from_size to_size seed + 65535 * (words src from_size).length

lemma addAll_eq (c : ℤ) (ns : List ℕ) (hc : c.bmod (2^32) = c) : addAll c ns = (c + ns.sum).bmod (2^32) := by
  induction ns generalizing c with
  | nil => simpa [addAll] using hc.symm
  | cons n ns ih =>
    have htail := ih ((c + n).bmod (2^32)) Int.bmod_bmod
    rw [Int.bmod_add_bmod] at htail
    rw [List.sum_cons, Nat.cast_add, ← add_assoc, ← htail]
    rfl

lemma sum_not (ws : List (BitVec 16)) : (ws.map fun w => (~~~w).toNat).sum + total ws =
    65535 * ws.length := by
  induction ws with
  | nil => rfl
  | cons w ws ih =>
    have hnot : (~~~w).toNat = 2^16 - 1 - w.toNat := BitVec.toNat_not
    have hlt := w.isLt
    unfold total at ih ⊢
    simp only [List.map_cons, List.sum_cons, List.length_cons]
    omega

lemma length_words (buf : Option (ℕ → BitVec 16)) (size : Int32) : (words buf size).length < 2^30 := by
  cases buf with
  | none => simp [words]
  | some word =>
    have := size.toInt_lt
    rw [words, List.length_map, List.length_range]
    omega

lemma wideSum_modEq : wideSum src dst from_size to_size seed ≡ difference src dst from_size to_size seed [ZMOD 65535] :=
  Int.modEq_iff_dvd.mpr ⟨-(words src from_size).length, by unfold wideSum; ring⟩

lemma wideSum_bounds : -2^31 ≤ wideSum src dst from_size to_size seed ∧
    wideSum src dst from_size to_size seed < 2^47 := by
  -- There are less than `2^30` words in a buffer, each less than `2^16`.
  have hseed := seed.le_toInt
  have hseed' := seed.toInt_lt
  have hsrc := sum_not (words src from_size)
  have hdst := sum_not (words dst to_size)
  have hsrc_len := length_words src from_size
  have hdst_len := length_words dst to_size
  unfold wideSum difference
  omega

lemma emod_modEq_iff {t : ℤ} (hlow : -2^31 ≤ t) (hhigh : t < 2^47) (hpos : t % 2^32 < 2^31) :
    t % 2^32 ≡ t [ZMOD 65535] ↔ t < 2^31 := by
  -- As `2^32` is one modulo `65535`, a sum that wraps is wrong by the number of times that it does.
  have hdiv := Int.emod_add_mul_ediv t (2^32)
  have hnonneg := Int.emod_nonneg t (show (2 : ℤ)^32 ≠ 0 by decide)
  generalize t % 2^32 = r at *
  generalize t / 2^32 = k at *
  have hk : (65535 : ℤ) ∣ 2^32 * k ↔ 65535 ∣ k := by
    rw [show (2 : ℤ)^32 * k = 65535 * (65537 * k) + k by ring]
    exact dvd_add_right (dvd_mul_right _ _)
  rw [Int.modEq_iff_dvd, ← hdiv, add_sub_cancel_left, hk]
  omega

variable {from_size to_size}

lemma csumDiff_eq (h : 4 ∣ from_size.toInt ∧ 4 ∣ to_size.toInt) : csumDiff src dst from_size to_size seed =
    let csum_diff := (wideSum src dst from_size to_size seed).bmod (2^32)
    if csum_diff < 0 then -Errno.EINVAL.code else csum_diff := by
  have hguard : ¬(from_size.toInt.tmod 4 ≠ 0 ∨ to_size.toInt.tmod 4 ≠ 0) := by
    rwa [not_or, not_not, not_not, ← Int.dvd_iff_tmod_eq_zero, ← Int.dvd_iff_tmod_eq_zero]
  have hseed : seed.toInt.bmod (2^32) = seed.toInt :=
    Int.bmod_eq_of_le (by have := seed.le_toInt; omega) (by have := seed.toInt_lt; omega)
  have hnot := sum_not (words src from_size)
  unfold csumDiff
  rw [if_neg hguard]
  dsimp only
  rw [addAll_eq _ _ hseed, addAll_eq _ _ Int.bmod_bmod, Int.bmod_add_bmod]
  have hsum : seed.toInt + ((words dst to_size).map BitVec.toNat).sum +
      ((words src from_size).map fun w => (~~~w).toNat).sum = wideSum src dst from_size to_size seed := by
    unfold wideSum difference total at *
    omega
  rw [hsum]

/-- A call fails for sizes that are no multiples of four. For others it gives the difference modulo
`65535`, or fails, exactly if the sum is less than `2^31` or wraps to a negative number. -/
theorem csumDiff_right_iff (src dst : Option (ℕ → BitVec 16)) (from_size to_size seed : Int32) :
    (¬(4 ∣ from_size.toInt ∧ 4 ∣ to_size.toInt) →
    csumDiff src dst from_size to_size seed = -Errno.EINVAL.code) ∧
    (4 ∣ from_size.toInt ∧ 4 ∣ to_size.toInt →
    ((csumDiff src dst from_size to_size seed = -Errno.EINVAL.code ∨
        0 ≤ csumDiff src dst from_size to_size seed ∧
          csumDiff src dst from_size to_size seed ≡ difference src dst from_size to_size seed [ZMOD 65535]) ↔
        wideSum src dst from_size to_size seed < 2^31 ∨ 2^31 ≤ wideSum src dst from_size to_size seed % 2^32)) := by
  constructor
  · intro h
    rw [not_and_or, Int.dvd_iff_tmod_eq_zero, Int.dvd_iff_tmod_eq_zero] at h
    exact if_pos h
  intro h
  have hcongr := wideSum_modEq src dst from_size to_size seed
  have hbounds := wideSum_bounds src dst from_size to_size seed
  rw [csumDiff_eq src dst seed h]
  generalize wideSum src dst from_size to_size seed = t at *
  by_cases hpos : t % 2^32 < 2^31
  · have hbmod : t.bmod (2^32) = t % 2^32 := (Int.bmod_def t (2^32)).trans (if_pos (by omega))
    have hne : t % 2^32 ≠ -Errno.EINVAL.code := by
      have hcode : Errno.EINVAL.code = 22 := rfl
      omega
    rw [hbmod, if_neg (by omega), ← emod_modEq_iff hbounds.1 hbounds.2 hpos,
      or_iff_left (show ¬2^31 ≤ t % 2^32 by omega), or_iff_right hne, and_iff_right (by omega)]
    exact ⟨fun h => h.trans hcongr.symm, fun h => h.trans hcongr⟩
  · have hbmod : t.bmod (2^32) = t % 2^32 - 2^32 := (Int.bmod_def t (2^32)).trans (if_neg (by omega))
    rw [hbmod, if_pos (by omega)]
    exact iff_of_true (Or.inl rfl) (Or.inr (by omega))

/-- The sum of `65538` words of ones is a multiple of `65535`, but it wraps around to `65534`. -/
theorem csumDiff_wraps : csumDiff none (some fun _ => -1) 0 131076 0 = 65534 ∧
    ¬65534 ≡ difference none (some fun _ => -1) 0 131076 0 [ZMOD 65535] := by
  have hdiff : difference none (some fun _ => -1) 0 131076 0 = 65538 * 65535 := by
    have hwords : words (some fun _ => -1) 131076 = List.replicate 65538 (-1) := by
      rw [words, List.map_const', List.length_range]
      rfl
    unfold difference
    rw [hwords, total, List.map_replicate, List.sum_replicate]
    rfl
  rw [csumDiff_eq none _ 0 (by decide), wideSum, hdiff]
  decide

end Bpftime.Csum
