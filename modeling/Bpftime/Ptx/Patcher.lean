import Bpftime.Lib.Regex

/-!
# Probes in PTX texts

`patch_with_probe_and_retprobe` of the attach implementation for CUDA puts a call of a probe into
the text of a PTX module: it looks for the headers of the kernels, matches the braces of each of
them up to the one that it was asked for, and rewrites the text of that one with a regular
expression.
-/

namespace Bpftime.Ptx

open Bpftime.Regex

abbrev Text := List Char

/-- `isspace`. -/
def isSpace (c : Char) : Bool := c = ' ' || c = '\t' || c = '\n' || c = '\x0b' || c = '\x0c' || c = '\r'

/-- A character that `\w` matches. -/
def isWord (c : Char) : Bool := ('a' ≤ c && c ≤ 'z') || ('A' ≤ c && c ≤ 'Z') ||
    ('0' ≤ c && c ≤ '9') || c = '_'

/-- `\s+` -/
def spaces : Re Char := .plus isSpace

/-- `kernel_entry_finder`: `\.visible\s+\.entry\s+(\w+)\s*\(([^)]*)\)` -/
def kernelEntryFinder : Re Char :=
  .seq (.lit ".visible".toList) <| .seq spaces <| .seq (.lit ".entry".toList) <| .seq spaces <|
    .seq (.group 1 (.plus isWord)) <| .seq (.star isSpace) <| .seq (.chr '(') <|
      .seq (.group 2 (.star (· ≠ ')'))) (.chr ')')

structure KernelSection where
  name : Text
  begin : ℕ
deriving DecidableEq

def kernels (ptx : Text) : List KernelSection := (kernelEntryFinder.findAll ptx).map fun m =>
  ⟨m.2.group 1, m.1⟩

/-- The scan for the brace that closes the first one, with the number of braces that are open: the
length of what was read. -/
def scan : ℕ → Text → Option ℕ
  | _, [] => none
  | stack, c :: s =>
    if c = '{' then (scan (stack + 1) s).map (· + 1)
    else if c = '}' then
      -- An empty vector has nothing to pop, and the loop ends with the last brace.
      if stack = 0 then none
      else if stack = 1 then some 1
      else (scan (stack - 1) s).map (· + 1)
    else (scan stack s).map (· + 1)

structure AttachEntry where
  kernels : List Text
  func : Text
  is_retprobe : Bool

section Patch

-- The PTX of the program of the entry, under a name.
variable (generatePtxForEbpf : Text → Text) (is_retprobe : Bool)

end Patch

/-! ## Cleaning extracted PTX -/

section

open List

/-- `non_printable_chars` -/
def nonPrintableChars : List UInt8 :=
  [0, 1, 2, 3, 4, 5, 6, 7, 8, 11, 12, 13, 14, 15, 16, 17, 18, 19, 20, 21, 22, 23, 24, 25, 26, 27,
    28, 29, 30, 31, 127]

/-- The loop with `pop_back`, on the text read from its end. It asks for the last character of
whatever is left, and has no result once that is nothing. -/
def popToBrace : List UInt8 → Option (List UInt8)
  | [] => none
  | c :: cs => if c ≠ 125 then popToBrace cs else some (c :: cs)

/-- `filter_unprintable_chars`. -/
def filterUnprintableChars (input : List UInt8) : Option (List UInt8) :=
  let result := input.filter fun c => ¬(c ∈ nonPrintableChars ∨ c > 127)
  (popToBrace result.reverse).map reverse

/-- A text without the control bytes other than tab and newline, and without the bytes above 126. -/
def printable (input : List UInt8) : List UInt8 := input.filter fun c =>
  ¬((c < 32 ∧ c ≠ 9 ∧ c ≠ 10) ∨ c > 126)

/-- The longest beginning that ends in a brace, or nothing. -/
structure UpToBrace (s p : List UInt8) : Prop where
  isPrefix : p <+: s
  ends : p = [] ∨ p.getLast? = some 125
  longest : ∀ q, q <+: s → q.getLast? = some 125 → q.length ≤ p.length

/-- The function ends and returns what it is for. -/
def Cleaned (input : List UInt8) : Prop :=
  ∃ p, filterUnprintableChars input = some p ∧ UpToBrace (printable input) p

variable {input cs : List UInt8}

lemma filter_eq_printable : (input.filter fun c => decide ¬(c ∈ nonPrintableChars ∨ c > 127)) =
    printable input := by
  have hall : ∀ n < 256, (UInt8.ofNat n ∈ nonPrintableChars ∨ UInt8.ofNat n > 127) ↔
      (UInt8.ofNat n < 32 ∧ UInt8.ofNat n ≠ 9 ∧ UInt8.ofNat n ≠ 10) ∨ UInt8.ofNat n > 126 := by
        decide +kernel
  refine filter_congr fun c _ => ?_
  have hc := hall c.toNat c.toNat_lt
  rw [UInt8.ofNat_toNat] at hc
  simp only [hc]

lemma popToBrace_of_notMem (h : 125 ∉ cs) : popToBrace cs = none := by
  induction cs with
  | nil => rfl
  | cons c cs ih =>
    rw [mem_cons, not_or] at h
    rw [popToBrace, if_pos (Ne.symm h.1), ih h.2]

lemma popToBrace_append {a b : List UInt8} (h : 125 ∉ a) : popToBrace (a ++ 125 :: b) = some (125 :: b) := by
  induction a with
  | nil => rfl
  | cons c a ih =>
    rw [mem_cons, not_or] at h
    rw [cons_append, popToBrace, if_pos (Ne.symm h.1), ih h.2]

lemma upToBrace_append {a b : List UInt8} (h : 125 ∉ b) : UpToBrace (a ++ [125] ++ b) (a ++ [125]) where
  isPrefix := prefix_append _ _
  ends := Or.inr (by simp)
  longest q hq hlast := by
    by_contra hlt
    -- A longer beginning ends behind the brace.
    obtain ⟨r, rfl⟩ := prefix_of_prefix_length_le (prefix_append _ b) hq (Nat.le_of_not_le hlt)
    have hr : r <+: b := (prefix_append_right_inj _).mp hq
    rcases eq_nil_or_concat' r with rfl | ⟨r, c, rfl⟩
    · simp at hlt
    · rw [← append_assoc, getLast?_concat, Option.some.injEq] at hlast
      exact h (hr.subset (by simp [hlast]))

/-- The function is right about the texts with a brace, and only about these. -/
theorem cleaned_iff (input : List UInt8) : Cleaned input ↔ 125 ∈ input := by
  have hmem : 125 ∈ printable input ↔ 125 ∈ input := by simp [printable]
  rw [← hmem]
  unfold Cleaned filterUnprintableChars
  dsimp only
  rw [filter_eq_printable]
  constructor
  · rintro ⟨p, hp, -⟩
    by_contra hno
    rw [popToBrace_of_notMem (mt mem_reverse.mp hno)] at hp
    simp at hp
  · intro hbrace
    obtain ⟨b, a, hsplit, hb⟩ := eq_append_cons_of_mem (mem_reverse.mpr hbrace)
    have htext : printable input = a.reverse ++ [125] ++ b.reverse := by
      rw [← reverse_reverse (printable input), hsplit]
      simp
    refine ⟨a.reverse ++ [125], ?_, ?_⟩
    · rw [hsplit, popToBrace_append hb]
      simp
    · rw [htext]
      exact upToBrace_append (mt mem_reverse.mp hb)

/-- Of the empty text, the function reads the last character. -/
theorem not_cleaned_nil : ¬ Cleaned [] := by
  rintro ⟨p, hp, -⟩
  simp [filterUnprintableChars, popToBrace] at hp

end

end Bpftime.Ptx
