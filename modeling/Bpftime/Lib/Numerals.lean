import Mathlib.Tactic

/-!
# Numerals in strings

`std::stoi` as the C library has it: white space, a sign, for base 16 a marker `0x`, and then the
longest run of digits, with no result when there is none or the number is no `int`.
-/

namespace Bpftime.Numerals

open List Nat

/-- The `char`s of a `std::string` that holds a text: its bytes. -/
def stdChars (s : String) : List Char := s.toByteArray.data.toList.map fun b => Char.ofNat b.toNat

def Ascii (cs : List Char) : Prop := ∀ c ∈ cs, c.toNat < 128

variable {c : Char}

lemma utf8EncodeChar_of_lt (h : c.toNat < 128) : String.utf8EncodeChar c = [UInt8.ofNat c.toNat] := by
  unfold String.utf8EncodeChar
  exact if_pos (le_of_lt_succ h)

variable {cs : List Char} {n : ℕ}

lemma stdChars_ofList (h : Ascii cs) : stdChars (String.ofList cs) = cs := by
  have hbytes : cs.flatMap String.utf8EncodeChar = cs.map fun c => UInt8.ofNat c.toNat := by
    rw [flatMap_congr fun c hc => utf8EncodeChar_of_lt (h c hc), map_eq_flatMap]
  have hchar : ∀ c ∈ cs, Char.ofNat (UInt8.ofNat c.toNat).toNat = c := by
    intro c hc
    have hlt := h c hc
    rw [UInt8.toNat_ofNat_of_lt' (by show c.toNat < 256; omega), Char.ofNat_toNat]
  unfold stdChars
  rw [String.toByteArray_ofList, utf8Encode, data_toByteArray, hbytes, map_map]
  exact (map_congr_left hchar).trans (map_id cs)

/-- `isspace` in the C locale. -/
def isspace (c : Char) : Bool := c = ' ' || (9 ≤ c.toNat && c.toNat ≤ 13)

def digitValue (base : ℕ) (c : Char) : Option ℕ :=
  let v := if c.isDigit then c.toNat - '0'.toNat
    else if c.isLower then c.toNat - 'a'.toNat + 10
    else if c.isUpper then c.toNat - 'A'.toNat + 10
    else base
  if v < base then some v else none

def digits (base : ℕ) : List Char → List ℕ
  | [] => []
  | c :: cs =>
    match digitValue base c with
    | none => []
    | some d => d :: digits base cs

def ofDigits (base : ℕ) (ds : List ℕ) : ℕ := ds.foldl (fun n d => base * n + d) 0

/-- The text behind a marker `0x` in front of a digit, which only base 16 has. -/
def dropMarker (base : ℕ) : List Char → List Char
  | '0' :: x :: c :: cs =>
    if base = 16 ∧ (x = 'x' ∨ x = 'X') ∧ (digitValue 16 c).isSome then c :: cs else '0' :: x :: c :: cs
  | cs => cs

def magnitude (base : ℕ) (cs : List Char) : Option ℕ :=
  match digits base (dropMarker base cs) with
  | [] => none
  | ds => some (ofDigits base ds)

/-- `strtol` before it is cut to the range of a `long`. -/
def strtol (base : ℕ) (cs : List Char) : Option ℤ :=
  match cs.dropWhile isspace with
  | '-' :: cs => (magnitude base cs).map fun n : ℕ => -(n : ℤ)
  | '+' :: cs => (magnitude base cs).map fun n : ℕ => (n : ℤ)
  | cs => (magnitude base cs).map fun n : ℕ => (n : ℤ)

/-- `std::stoi`. -/
def stoi (base : ℕ) (cs : List Char) : Option ℤ := (strtol base cs).filter fun n => -2^31 ≤ n ∧ n < 2^31

lemma digitValue_digitChar {d : ℕ} (h : d < 10) : digitValue 10 d.digitChar = some d := by
  have hdigit : d.digitChar.isDigit = true := by simp [isDigit_digitChar, h]
  unfold digitValue
  simp only [hdigit, if_true]
  rw [toNat_digitChar_of_lt_ten h]
  simp [h]

lemma digits_toDigits (n : ℕ) : ∃ ds, ds ≠ [] ∧ ofDigits 10 ds = n ∧
    ∀ cs, digits 10 (toDigits 10 n ++ cs) = ds ++ digits 10 cs := by
  induction n using Nat.strong_induction_on with
  | _ n ih =>
    rw [toDigits_eq_if (by decide)]
    split_ifs with hn
    · refine ⟨[n], by simp, by simp [ofDigits], fun cs => ?_⟩
      simp [digits, digitValue_digitChar hn]
    · obtain ⟨ds, -, hval, hread⟩ := ih (n / 10) (by omega)
      refine ⟨ds ++ [n % 10], by simp, ?_, fun cs => ?_⟩
      · have hsnoc : ofDigits 10 (ds ++ [n % 10]) = 10 * ofDigits 10 ds + n % 10 := by simp [ofDigits]
        rw [hsnoc, hval]
        omega
      · rw [append_assoc, hread, append_assoc]
        simp [digits, digitValue_digitChar (mod_lt n (by decide : 10 > 0))]

lemma isDigit_iff : c.isDigit = true ↔ 48 ≤ c.toNat ∧ c.toNat ≤ 57 := by
  simp [Char.isDigit, UInt32.le_iff_toNat_le, ← Char.toNat_val]

lemma strtol_of_isDigit (h : c.isDigit = true) :
    strtol 10 (c :: cs) = (magnitude 10 (c :: cs)).map fun n : ℕ => (n : ℤ) := by
  have hrange := isDigit_iff.mp h
  have hspace : isspace c = false := by
    have : c ≠ ' ' := by
      rintro rfl
      exact absurd hrange (by decide)
    simp [isspace, this]
    omega
  have hminus : c ≠ '-' := by
    rintro rfl
    exact absurd hrange (by decide)
  have hplus : c ≠ '+' := by
    rintro rfl
    exact absurd hrange (by decide)
  unfold strtol
  rw [dropWhile_cons_of_neg (by simp [hspace])]
  split
  · simp_all
  · simp_all
  · rfl

lemma stoi_toDigits (hn : n < 2^31) : stoi 10 (toDigits 10 n) = some (n : ℤ) := by
  obtain ⟨ds, hne, hval, hread⟩ := digits_toDigits n
  have hdigits : digits 10 (toDigits 10 n) = ds := by
    have := hread []
    simpa [digits] using this
  have hmarker : ∀ cs, dropMarker 10 cs = cs := by
    intro cs
    unfold dropMarker
    split
    · exact if_neg (by omega)
    · rfl
  have hmag : magnitude 10 (toDigits 10 n) = some n := by
    unfold magnitude
    rw [hmarker, hdigits]
    cases ds with
    | nil => exact absurd rfl hne
    | cons d ds => exact congrArg some hval
  have hlong : strtol 10 (toDigits 10 n) = some (n : ℤ) := by
    cases hcs : toDigits 10 n with
    | nil => exact absurd hcs toDigits_ne_nil
    | cons c cs =>
      have hc : c.isDigit = true := isDigit_of_mem_toDigits (b := 10) (by decide) (by decide)
          (hcs ▸ mem_cons_self)
      rw [strtol_of_isDigit hc, ← hcs, hmag, Option.map_some]
  unfold stoi
  rw [hlong, Option.filter_some, if_pos]
  simp only [decide_eq_true_eq]
  omega

lemma ascii_toDigits (n : ℕ) : Ascii (toDigits 10 n) := by
  intro c hc
  have h := isDigit_of_mem_toDigits (by decide) (by decide) hc
  have hrange := isDigit_iff.mp h
  omega

lemma stoi_toString (hn : n < 2^31) : stoi 10 (stdChars (toString n)) = some (n : ℤ) := by
  have hstr : toString n = String.ofList (toDigits 10 n) := repr_eq_ofList_toDigits
  rw [hstr, stdChars_ofList (ascii_toDigits n), stoi_toDigits hn]

end Bpftime.Numerals
