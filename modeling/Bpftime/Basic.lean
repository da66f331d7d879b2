import Mathlib.Tactic

/-!
# Machine words, error numbers and flags

The runtime is written in C++ for 64-bit machines.
-/

namespace Bpftime

inductive Errno where
  | E2BIG
  | EBADF
  | EEXIST
  | EINVAL
  | ENOENT
  | ENOMEM
  | ENOSPC
  | ENOTSUP
deriving DecidableEq, Repr

def Errno.code : Errno → ℤ
  | .E2BIG => 7
  | .EBADF => 9
  | .EEXIST => 17
  | .EINVAL => 22
  | .ENOENT => 2
  | .ENOMEM => 12
  | .ENOSPC => 28
  | .ENOTSUP => 95

/-- How a call that changes a map ends: with 0, with -1 and an error number, or with an
exception. -/
inductive Outcome where
  | ok
  | error (e : Errno)
  | threw
deriving DecidableEq

/-- `BPF_ANY`: create a key or update one that is there. -/
def bpfAny : ℕ := 0

/-- `BPF_NOEXIST`: create a key. -/
def bpfNoExist : ℕ := 1

/-- `BPF_EXIST`: update a key that is there. -/
def bpfExist : ℕ := 2

abbrev MapValue (value_size : ℕ) := { bs : List UInt8 // bs.length = value_size }

def oneByte (b : UInt8) : MapValue 1 := ⟨[b], rfl⟩

def add64 (a b : ℕ) : ℕ := (a + b) % 2^64

def sub64 (a b : ℕ) : ℕ := (a + (2^64 - b)) % 2^64

/-- `check_update_flags` -/
def checkUpdateFlags (flags : UInt64) : Bool := flags = 0 || flags = 1 || flags = 2

/-- `base_attach_impl::allocate_id`: the id and the next one, with no result where the `int`
overflows. -/
def allocateId (next_id : ℤ) : Option (ℤ × ℤ) :=
  if next_id < 2^31 - 1 then some (next_id, next_id + 1) else none

variable {a b : ℕ}

lemma add64_of_lt (h : a + b < 2^64) : add64 a b = a + b := Nat.mod_eq_of_lt h

lemma sub64_of_le (ha : a < 2^64) (h : b ≤ a) : sub64 a b = a - b := by
  unfold sub64
  omega

end Bpftime
