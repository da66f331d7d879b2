import Bpftime.Lib.Bytes
import Bpftime.Lib.Numerals

/-!
# Instructions as hexadecimal digits

The codec of `runtime/src/bpftime_shm_json.hpp`, in which the instructions of a program are
exported.
-/

namespace Bpftime

open Numerals Bytes List

/-- What is written for a number in hexadecimal with `setw(2)` and `setfill('0')`. -/
def hexByte (b : UInt8) : List Char :=
  let ds := Nat.toDigits 16 b.toNat
  List.replicate (2 - ds.length) '0' ++ ds

/-- `buffer_to_hex_string`. -/
def bufferToHexString (buffer : List UInt8) : String := String.ofList (buffer.flatMap hexByte)

/-- How `hex_string_to_buffer` ends: with 0 and the bytes it wrote, with -1, or with an
exception. -/
inductive HexReply where
  | ok (buffer : List UInt8)
  | failed
  | threw
deriving DecidableEq

/-- The loop of `hex_string_to_buffer`. -/
def hexLoop : ℕ → List Char → Option (List UInt8)
  | 0, _ => some []
  | n + 1, cs => do
    let v ← stoi 16 (cs.take 2)
    let rest ← hexLoop n (cs.drop 2)
    return UInt8.ofInt v :: rest

/-- `hex_string_to_buffer`. -/
def hexStringToBuffer (hexString : String) (bufferSize : ℕ) : HexReply :=
  if (stdChars hexString).length ≠ bufferSize * 2 then .failed
  else
    match hexLoop bufferSize (stdChars hexString) with
    | none => .threw
    | some buffer => .ok buffer

lemma hexByte_spec (b : UInt8) : (hexByte b).length = 2 ∧ (∀ c ∈ hexByte b, c.toNat < 128) ∧
    stoi 16 (hexByte b) = some (b.toNat : ℤ) := by
  have hall : ∀ n < 256, (hexByte (UInt8.ofNat n)).length = 2 ∧
      (hexByte (UInt8.ofNat n)).all (fun c => decide (c.toNat < 128)) = true ∧
      stoi 16 (hexByte (UInt8.ofNat n)) = some (n : ℤ) := by decide +kernel
  have h := hall b.toNat b.toNat_lt
  rw [UInt8.ofNat_toNat, all_eq_true] at h
  exact ⟨h.1, fun c hc => of_decide_eq_true (h.2.1 c hc), h.2.2⟩

lemma ascii_hexBytes (bytes : List UInt8) : Ascii (bytes.flatMap hexByte) := by
  intro c hc
  obtain ⟨b, -, hb⟩ := mem_flatMap.mp hc
  exact (hexByte_spec b).2.1 c hb

lemma length_hexBytes (bytes : List UInt8) : (bytes.flatMap hexByte).length = bytes.length * 2 := by
  induction bytes with
  | nil => rfl
  | cons b bytes ih =>
    rw [flatMap_cons, length_append, ih, (hexByte_spec b).1, length_cons]
    omega

lemma hexLoop_hexBytes (bytes : List UInt8) : hexLoop bytes.length (bytes.flatMap hexByte) = some bytes := by
  induction bytes with
  | nil => rfl
  | cons b bytes ih =>
    obtain ⟨hlen, -, hread⟩ := hexByte_spec b
    have hbyte : UInt8.ofInt (b.toNat : ℤ) = b := by
      have hlt := b.toNat_lt
      rw [UInt8.ofInt, Int.emod_eq_of_lt (by omega) (by omega), Int.toNat_natCast, UInt8.ofNat_toNat]
    rw [flatMap_cons, length_cons, hexLoop, take_left' hlen, drop_left' hlen, hread, ih]
    simp [hbyte]

lemma hexStringToBuffer_bufferToHexString (bytes : List UInt8) :
    hexStringToBuffer (bufferToHexString bytes) bytes.length = .ok bytes := by
  unfold hexStringToBuffer bufferToHexString
  rw [stdChars_ofList (ascii_hexBytes bytes), if_neg (not_not.mpr (length_hexBytes bytes)), hexLoop_hexBytes]

def hexDigits : List Char :=
  ['0', '1', '2', '3', '4', '5', '6', '7', '8', '9', 'a', 'b', 'c', 'd', 'e', 'f', 'A', 'B', 'C',
    'D', 'E', 'F']

/-- The codec accepts what are twice as many digits as bytes are wanted, and refuses the rest. -/
def AcceptsDigits (hexString : String) (bufferSize : ℕ) : Prop :=
  if (stdChars hexString).length = bufferSize * 2 ∧ (stdChars hexString).all (· ∈ hexDigits) then
    ∃ buffer, hexStringToBuffer hexString bufferSize = .ok buffer
  else hexStringToBuffer hexString bufferSize = .failed

lemma hexLoop_of_digits (n : ℕ) : ∀ cs : List Char, cs.length = n * 2 → (∀ c ∈ cs, c ∈ hexDigits) →
    ∃ buffer, hexLoop n cs = some buffer := by
  have hpairs : hexDigits.all fun c => hexDigits.all fun d => (stoi 16 [c, d]).isSome := by decide +kernel
  simp only [all_eq_true] at hpairs
  induction n with
  | zero => exact fun _ _ _ => ⟨[], rfl⟩
  | succ n ih =>
    intro cs hlength hdigits
    match cs, hlength with
    | [c], hlength => simp at hlength; omega
    | c :: d :: cs, hlength =>
      obtain ⟨v, hv⟩ := Option.isSome_iff_exists.mp (hpairs c (hdigits c (by simp)) d (hdigits d (by simp)))
      obtain ⟨rest, hrest⟩ := ih cs (by simp at hlength; omega) fun e he => hdigits e (by simp [he])
      exact ⟨UInt8.ofInt v :: rest, by simp [hexLoop, hv, hrest]⟩

/-- The codec gives every buffer back. Of other texts it is right about the digits and about the
wrong lengths, and wrong about every text of the right length that is not all digits. -/
theorem hexCodec_right_iff (buffer : List UInt8) (hexString : String) (bufferSize : ℕ) :
    hexStringToBuffer (bufferToHexString buffer) buffer.length = .ok buffer ∧
    (AcceptsDigits hexString bufferSize ↔
        ((stdChars hexString).length = bufferSize * 2 → ∀ c ∈ stdChars hexString, c ∈ hexDigits)) := by
  refine ⟨hexStringToBuffer_bufferToHexString buffer, ?_⟩
  simp only [AcceptsDigits, hexStringToBuffer, all_eq_true, decide_eq_true_eq]
  by_cases hlength : (stdChars hexString).length = bufferSize * 2
  · by_cases hdigits : ∀ c ∈ stdChars hexString, c ∈ hexDigits
    · obtain ⟨bytes, hloop⟩ := hexLoop_of_digits bufferSize _ hlength hdigits
      simp [hlength, hloop]
    · rw [if_neg fun h => hdigits h.2, if_neg (not_not.mpr hlength)]
      refine iff_of_false ?_ fun h => hdigits (h hlength)
      -- The loop ends in some way, but never in a refusal.
      cases hexLoop bufferSize (stdChars hexString) <;> simp
  · simp [hlength]

theorem not_acceptsDigits_sign : ¬ AcceptsDigits "+1" 1 := by
  have hreads : hexStringToBuffer "+1" 1 = .ok [1] := by decide +kernel
  have hsign : ¬ (stdChars "+1").all (· ∈ hexDigits) := by decide +kernel
  unfold AcceptsDigits
  rw [if_neg fun h => hsign h.2, hreads]
  simp

/-- The bytes of instructions. -/
def insnBytes (insns : List UInt64) : List UInt8 := insns.flatMap fun w => toLe 8 w.toNat

def insnsOfBytes : ℕ → List UInt8 → List UInt64
  | 0, _ => []
  | n + 1, bytes => UInt64.ofNat (ofLe (bytes.take 8)) :: insnsOfBytes n (bytes.drop 8)

lemma length_insnBytes (insns : List UInt64) : (insnBytes insns).length = insns.length * 8 := by
  induction insns with
  | nil => rfl
  | cons w insns ih =>
    have hw : (toLe 8 w.toNat).length = 8 := rfl
    rw [insnBytes, flatMap_cons, length_append, hw, ← insnBytes, ih, length_cons]
    omega

lemma insnsOfBytes_insnBytes (insns : List UInt64) :
    insnsOfBytes insns.length (insnBytes insns) = insns := by
  induction insns with
  | nil => rfl
  | cons w insns ih =>
    have hw : (toLe 8 w.toNat).length = 8 := rfl
    have hword : UInt64.ofNat (ofLe (toLe 8 w.toNat)) = w := by
      rw [ofLe_toLe, Nat.mod_eq_of_lt (by simpa using w.toNat_lt), UInt64.ofNat_toNat]
    rw [insnBytes, flatMap_cons, ← insnBytes, length_cons, insnsOfBytes, take_left' hw,
      drop_left' hw, hword, ih]

end Bpftime
