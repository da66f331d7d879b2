import Bpftime.Ptx.Kernels

/-!
# The entry probe

The pattern for an entry probe matches a brace that has, behind spaces, a declaration of registers
or of shared memory, wherever in the kernel it is.
-/

namespace Bpftime.Ptx

open Bpftime.Regex List Option

def Declares (s : Text) : Prop := ".reg".toList <+: s.dropWhile isSpace ∨
    ".shared".toList <+: s.dropWhile isSpace

instance (s : Text) : Decidable (Declares s) := inferInstanceAs (Decidable (_ ∨ _))

section Pattern

variable {s : Text} {P : Text} {t : Text}

end Pattern

/-! ## Where the calls are -/

def NoDeclares (s : Text) : Prop := ∀ a b, s = a ++ '{' :: b → ¬Declares b

section Calls

variable {s : Text} {P : Text}

lemma NoDeclares.tail {c : Char} (h : NoDeclares (c :: s)) : NoDeclares s := by
  rintro a b rfl
  exact h (c :: a) b rfl

end Calls

/-! ## The lines of the output -/

section Lines

variable {l a b acc P : Text}

end Lines

section Entry

variable (generatePtxForEbpf : Text → Text) (ptx target : Text) (entry : AttachEntry)

variable {generatePtxForEbpf ptx target entry}

end Entry

end Bpftime.Ptx
