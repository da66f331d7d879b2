import Bpftime.PerfEvent.Delivery
import Bpftime.Shm.Model

/-!
# The length of what is output

`bpftime_perf_event_output` hands a payload of any size to `output_data`, which keeps the length of
the record in the 16-bit field of its header.
-/

namespace Bpftime.PerfEvent

open Bytes Circular SoftwarePerfEventData Option SoftwarePerfEventData Nat Int List

/-- The data of a perf event handler: that of a software event, or other. -/
inductive HandlerData where
  | software (e : SoftwarePerfEventData)
  | other
deriving DecidableEq

/-- `bpftime_perf_event_output` on what is at its descriptor, where `none` is no perf event
handler. -/
def bpftimePerfEventOutput (handler : Option HandlerData) (buf : List UInt8) :
    Option (ShmReply × Option HandlerData) :=
  match handler with
  | none => some (.error .EINVAL, handler)
  | some (.software e) => (e.outputData buf).map fun e => (.ret 0, some (.software e))
  | some .other => some (.error .ENOTSUP, handler)

/-- The record of `buf` is put behind `data_head`: as many bytes as it has are stored there, with
the two lengths in its head and the payload behind it, `data_head` moves by so many, and all other
bytes are kept. -/
structure Appended (e : SoftwarePerfEventData) (buf : List UInt8) (e' : SoftwarePerfEventData) : Prop where
  fits : 12 + buf.length ≤ e.mmapSize
  head : e'.data_head = add64 e.data_head (12 + buf.length)
  tail : e'.data_tail = e.data_tail
  size : e'.mmapSize = e.mmapSize
  stored : ∃ bs, readAround e'.data (e.data_head % e.mmapSize) (12 + buf.length) = some bs ∧
    ofLe ((bs.take 8).drop 6) = 12 + buf.length ∧ ofLe ((bs.take 12).drop 8) = buf.length ∧ bs.drop 12 = buf
  kept : ∀ i, 12 + buf.length ≤ i → i < e.mmapSize →
    e'.data[(e.data_head + i) % e.mmapSize]? = e.data[(e.data_head + i) % e.mmapSize]?

/-- The call returns without an access beyond an array, and drops the payload or appends its
record. -/
def LengthSound (e : SoftwarePerfEventData) (buf : List UInt8) : Prop :=
  ∃ e', bpftimePerfEventOutput (some (.software e)) buf = some (.ret 0, some (.software e')) ∧
    (e' = e ∨ Appended e buf e')

def freeSpace (e : SoftwarePerfEventData) : ℤ :=
  let free := bmod (e.mmapSize - ((e.data_head : ℤ) - e.data_tail)) (2^64)
  if free = 0 then bmod e.mmapSize (2^64) else free

/-- The record fits its field and the ring, or what its field holds is too much for the free
space. -/
def Measured (e : SoftwarePerfEventData) (size : ℕ) : Prop :=
  size < 65524 ∧ 12 + size ≤ e.mmapSize ∨ freeSpace e ≤ ((12 + size) % 65536 : ℕ)

instance (e : SoftwarePerfEventData) (size : ℕ) : Decidable (Measured e size) :=
  inferInstanceAs (Decidable (_ ∨ _))

lemma toInt64_eq_bmod {w : ℕ} (hw : w < 2^64) {z : ℤ} (hz : (w : ℤ) = z % 2^64) :
    toInt64 w = bmod z (2^64) := by
  unfold toInt64
  rw [bmod_def]
  norm_num at hz ⊢
  rw [← hz]
  split_ifs <;> omega

variable {e e' : SoftwarePerfEventData} {k : ℕ} {buf : List UInt8}

lemma availableSize_eq (hsize : e.mmapSize < 2^64) (htail : e.data_tail < 2^64) :
    e.availableSize = freeSpace e := by
  have hfree : toInt64 (sub64 e.mmapSize (sub64 e.data_head e.data_tail)) =
      bmod (e.mmapSize - ((e.data_head : ℤ) - e.data_tail)) (2^64) := by
    apply toInt64_eq_bmod
    · exact mod_lt _ (by norm_num)
    · unfold sub64
      omega
  have hall : toInt64 e.mmapSize = bmod e.mmapSize (2^64) := toInt64_eq_bmod hsize (by omega)
  unfold availableSize freeSpace
  rw [hfree, hall]

lemma drops_iff (hsize : e.mmapSize < 2^64) (htail : e.data_tail < 2^64) (size : ℕ) :
    e.drops size = true ↔ freeSpace e ≤ ((12 + size) % 65536 : ℕ) := by
  unfold drops
  rw [availableSize_eq hsize htail, decide_eq_true_eq]
  rfl

lemma fillCopyBuffer_eq_none (e : SoftwarePerfEventData) (hbuf : 65524 ≤ buf.length) :
    e.fillCopyBuffer buf = none := by
  have hlt : headerSize buf.length < 2^16 := mod_lt _ (by norm_num)
  unfold fillCopyBuffer
  dsimp only
  cases hfirst : writeRange (resize e.copy_buffer (headerSize buf.length)) 0 (sampleHead buf.length) with
  | none => rfl
  | some copy_buffer =>
    have hlen : copy_buffer.length = headerSize buf.length := by rw [length_writeRange hfirst, length_resize]
    have hsecond : writeRange copy_buffer sizeofHead buf = none := by
      unfold writeRange
      rw [if_neg (by unfold sizeofHead; omega)]
    rw [bind_eq_bind, bind_some, hsecond]
    rfl

section

variable (hk : k ≤ 63) (hlen : e.data.length = 2^k) (hhead : e.data_head < 2^64)
  (hdrops : e.drops buf.length = false) (hbuf : buf.length < 65524)
include hk hlen hhead hdrops hbuf

lemma outputData_eq (hfits : 12 + buf.length ≤ e.data.length)
    {p : ℕ} (hp : e.data_head % e.data.length = p % e.data.length) : ∃ data, e.outputData buf = some { e with
    data := data, copy_buffer := record buf, data_head := add64 e.data_head (12 + buf.length) } ∧
      data.length = e.data.length ∧ At data p (record buf) ∧
      ∀ i, i < p → p + (12 + buf.length) ≤ i + e.data.length →
        data[i % e.data.length]? = e.data[i % e.data.length]? := by
  have hrec := length_record buf
  have hpos : 0 < e.data.length := by rw [hlen]; exact Nat.two_pow_pos k
  have hrec' : (record buf).length ≤ e.data.length := by rwa [hrec]
  obtain ⟨data, hwrite, hlen', hat, hkeep⟩ := writeAround_spec p hpos hrec'
  have hindex : e.data_head &&& sub64 e.data.length 1 = p % e.data.length := by
    rw [← hp, hlen, ← and_mask hk, mod_eq_of_lt hhead]
  refine ⟨data, ?_, hlen', hat, by rwa [hrec] at hkeep⟩
  unfold outputData
  rw [if_neg (by simp [hdrops]), fillCopyBuffer_eq e hbuf]
  simp only [bind_eq_bind, bind_some, copyIn, mmapSize]
  rw [hindex, hwrite, map_some, bind_some]
  simp only [publish, hrec]
  rfl

lemma outputData_appended (hfits : 12 + buf.length ≤ e.mmapSize) :
    ∃ e', e.outputData buf = some e' ∧ Appended e buf e' := by
  have hrec := length_record buf
  -- One turn further on, all other positions of the ring are behind the record.
  obtain ⟨data, hout, hlen', hat, hkeep⟩ := outputData_eq hk hlen hhead hdrops hbuf hfits
    (p := e.data_head + e.data.length) (add_mod_right _ _).symm
  have hat' : At data e.data_head (record buf) := by
    intro i hi
    rw [← hat i hi, hlen', Nat.add_right_comm, add_mod_right]
  refine ⟨_, hout, hfits, rfl, rfl, hlen', ⟨record buf, ?_, ofLe_header hbuf, ?_, ?_⟩, fun i hle hlt => ?_⟩
  · rw [← hrec, mmapSize, ← hlen']
    exact hat'.readAround_eq (by rw [hlen', hlen]; exact Nat.two_pow_pos k) (by rwa [hlen', hrec])
  · have hfield : ((record buf).take 12).drop 8 = toLe 4 buf.length := by simp [record, sampleHead, toLe]
    rw [hfield, ofLe_toLe]
    exact mod_eq_of_lt (by omega)
  · rw [record, drop_left' (length_sampleHead _)]
  · exact hkeep (e.data_head + i) (by unfold mmapSize at hlt; omega) (by omega)

end

lemma ne_of_outputData (hdrops : e.drops buf.length = false)
    (hbuf : buf.length < 65524) (hout : e.outputData buf = some e') : e' ≠ e := by
  unfold outputData at hout
  rw [if_neg (by simp [hdrops]), fillCopyBuffer_eq e hbuf] at hout
  simp only [bind_eq_bind, bind_some, copyIn] at hout
  obtain ⟨e1, hcopy, hout⟩ := bind_eq_some_iff.mp hout
  obtain ⟨data, -, rfl⟩ := map_eq_some_iff.mp hcopy
  cases hout
  intro heq
  have hsame : add64 e.data_head (record buf).length = e.data_head := congrArg data_head heq
  rw [length_record, add64] at hsame
  omega

lemma lengthSound_def : LengthSound e buf ↔ ∃ e', e.outputData buf = some e' ∧
    (e' = e ∨ Appended e buf e') := by
  unfold LengthSound bpftimePerfEventOutput
  simp

lemma not_lengthSound_of_wraps (hdrops : e.drops buf.length = false) (hbuf : 65524 ≤ buf.length) :
    ¬ LengthSound e buf := by
  rw [lengthSound_def]
  rintro ⟨e', hout, -⟩
  unfold outputData at hout
  rw [if_neg (by rw [hdrops]; decide), fillCopyBuffer_eq_none e hbuf] at hout
  cases hout

/-- A call of `bpftime_perf_event_output` on a ring of `2^k` bytes, with its positions anywhere,
drops the payload or appends its record exactly if the record fits its length field and the ring, or
the wrapped length is too much for the free space. -/
theorem lengthSound_iff (hk : k ≤ 63) (hlen : e.data.length = 2^k) (hhead : e.data_head < 2^64)
    (htail : e.data_tail < 2^64) (buf : List UInt8) : LengthSound e buf ↔ Measured e buf.length := by
  have hpow := two_pow_le hk
  have hsize : e.mmapSize < 2^64 := by
    unfold mmapSize
    omega
  unfold Measured
  rw [← drops_iff hsize htail]
  cases hdrops : e.drops buf.length with
  | true =>
    refine iff_of_true (lengthSound_def.mpr ⟨e, ?_, Or.inl rfl⟩) (Or.inr rfl)
    unfold outputData
    rw [if_pos hdrops]
  | false =>
    by_cases hbuf : buf.length < 65524
    · rw [lengthSound_def]
      constructor
      · rintro ⟨e', hout, rfl | happended⟩
        · exact absurd rfl (ne_of_outputData hdrops hbuf hout)
        · exact Or.inl ⟨hbuf, happended.fits⟩
      · rintro (⟨-, hfits⟩ | hcontra)
        · obtain ⟨e', hout, happended⟩ := outputData_appended hk hlen hhead hdrops hbuf hfits
          exact ⟨e', hout, Or.inr happended⟩
        · cases hcontra
    · exact iff_of_false (not_lengthSound_of_wraps hdrops (by omega)) (by simp [hbuf])

def smallRing : SoftwarePerfEventData := ⟨4096, 64, 50, 64, replicate 64 0, []⟩

/-- A payload of 30 bytes is stored from the front of the ring on. -/
theorem lengthSound_smallRing : LengthSound smallRing (List.replicate 30 7) :=
  (lengthSound_iff (k := 6) (by decide) rfl (by decide) (by decide) _).mpr (by decide)

/-- A payload of 65524 bytes is not dropped, and copied into a buffer of no bytes. -/
theorem not_lengthSound_smallRing : ¬ LengthSound smallRing (List.replicate 65524 7) := by
  apply not_lengthSound_of_wraps
  · rw [length_replicate]
    decide
  · rw [length_replicate]

end Bpftime.PerfEvent
