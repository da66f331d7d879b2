import Mathlib.Data.List.TakeWhile
import Mathlib.Tactic

/-!
# Regular expressions that backtrack

A regular expression gives the matches at the start of a text in the order in which a backtracking
matcher tries them, so that its answer is the first.
-/

namespace Bpftime.Regex

open List

variable {α : Type*}

/-- A regular expression over characters `α`. -/
inductive Re (α : Type*) where
  /-- A character of a class. -/
  | cls (p : α → Bool)
  /-- Characters of a class, as many as possible. -/
  | star (p : α → Bool)
  | seq (a b : Re α)
  | alt (a b : Re α)
  /-- A numbered group. -/
  | group (k : ℕ) (a : Re α)
  /-- Nothing. -/
  | eps
  /-- The end of the text. -/
  | eol

/-- A match at the start of a text: what was matched, the groups and what follows. -/
structure Found (α : Type*) where
  matched : List α
  groups : List (ℕ × List α)
  rest : List α

def Found.group (f : Found α) (k : ℕ) : List α := (f.groups.lookup k).getD []

def Found.append (f g : Found α) : Found α := ⟨f.matched ++ g.matched, f.groups ++ g.groups, g.rest⟩

namespace Re

def chr [DecidableEq α] (c : α) : Re α := .cls (· = c)

def lit [DecidableEq α] : List α → Re α
  | [] => .eps
  | c :: cs => .seq (.chr c) (.lit cs)

def plus (p : α → Bool) : Re α := .seq (.cls p) (.star p)

def runStar (p : α → Bool) : List α → List (Found α)
  | [] => [⟨[], [], []⟩]
  | c :: s => if p c then (runStar p s).map (Found.append ⟨[c], [], s⟩) ++ [⟨[], [], c :: s⟩]
    else [⟨[], [], c :: s⟩]

/-- The matches at the start of a text, in the order in which they are tried. -/
def run : Re α → List α → List (Found α)
  | .cls p, s =>
    match s with
    | [] => []
    | c :: s => if p c then [⟨[c], [], s⟩] else []
  | .star p, s => runStar p s
  | .seq a b, s => (run a s).flatMap fun f => (run b f.rest).map f.append
  | .alt a b, s => run a s ++ run b s
  | .group k a, s => (run a s).map fun f => { f with groups := (k, f.matched) :: f.groups }
  | .eps, s => [⟨[], [], s⟩]
  | .eol, s => if s.isEmpty then [⟨[], [], []⟩] else []

def matchStart (r : Re α) (s : List α) : Option (Found α) := (r.run s).head?

def findAllFrom (r : Re α) : ℕ → ℕ → List α → List (ℕ × Found α)
  | _, _, [] => []
  | pos, 0, c :: s =>
    match r.matchStart (c :: s) with
    | some f => (pos, f) :: findAllFrom r (pos + 1) (f.matched.length - 1) s
    | none => findAllFrom r (pos + 1) 0 s
  | pos, skip + 1, _ :: s => findAllFrom r (pos + 1) skip s

def findAll (r : Re α) (s : List α) : List (ℕ × Found α) := findAllFrom r 0 0 s

variable {p : α → Bool} {s : List α} {r : Re α} {f : Found α}

section Lit

variable [DecidableEq α]

end Lit

variable {fmt : Found α → List α}

end Re

end Bpftime.Regex
