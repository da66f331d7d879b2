import Mathlib.Data.List.AList

/-!
# Tables that own objects

A table owns an object for each of its keys, and other objects point at them by their addresses.
-/

namespace Owners

open AList List

/-- A `std::unique_ptr`: an object with its address. -/
structure Owned (α : Type) where
  addr : ℕ
  val : α
deriving DecidableEq

variable {κ α : Type} [DecidableEq κ]

/-- What a pointer points at: the object that is owned at that address, with its key. -/
def find (m : AList fun _ : κ => Owned α) (a : ℕ) : Option (κ × α) :=
  (m.entries.find? fun e => e.2.addr = a).map fun e => (e.1, e.2.val)

/-- `emplace`: a key that is there keeps its object. -/
def emplace (m : AList fun _ : κ => Owned α) (k : κ) (b : Owned α) : AList fun _ : κ => Owned α :=
  if k ∈ m then m else m.insert k b

def Apart (m : AList fun _ : κ => Owned α) : Prop :=
  ∀ k k' b b', m.lookup k = some b → m.lookup k' = some b' → b.addr = b'.addr → k = k'

def Free (m : AList fun _ : κ => Owned α) (a : ℕ) : Prop := ∀ e ∈ m.entries, e.2.addr ≠ a

instance (m : AList fun _ : κ => Owned α) (a : ℕ) : Decidable (Free m a) :=
  inferInstanceAs (Decidable (∀ e ∈ m.entries, e.2.addr ≠ a))

variable {m : AList fun _ : κ => Owned α} {k : κ} {b : Owned α} {a : ℕ} {k' : κ} {b' : Owned α}

lemma Free.addr_ne (h : Free m a) (hb : m.lookup k = some b) : b.addr ≠ a := h _ (mem_lookup_iff.mp hb)

lemma apart_empty : Apart (∅ : AList fun _ : κ => Owned α) := by
  intro k k' b b' hb
  simp at hb

lemma lookup_insert_eq_some_iff :
    (m.insert k b).lookup k' = some b' ↔ k' = k ∧ b' = b ∨ k' ≠ k ∧ m.lookup k' = some b' := by
  rcases eq_or_ne k' k with rfl | hne
  · rw [lookup_insert]
    simp [eq_comm]
  · rw [lookup_insert_ne hne]
    simp [hne]

lemma lookup_erase_eq_some_iff : (m.erase k).lookup k' = some b' ↔ k' ≠ k ∧ m.lookup k' = some b' := by
  rcases eq_or_ne k' k with rfl | hne
  · simp
  · rw [lookup_erase_ne hne]
    simp [hne]

lemma Apart.insert (h : Apart m) (hfresh : ∀ k' b', m.lookup k' = some b' → b'.addr = b.addr →
    k' = k) : Apart (m.insert k b) := by
  intro k1 k2 b1 b2 h1 h2 haddr
  rcases lookup_insert_eq_some_iff.mp h1 with ⟨rfl, rfl⟩ | ⟨-, h1'⟩
  · rcases lookup_insert_eq_some_iff.mp h2 with ⟨rfl, rfl⟩ | ⟨-, h2'⟩
    · rfl
    · exact (hfresh k2 b2 h2' haddr.symm).symm
  · rcases lookup_insert_eq_some_iff.mp h2 with ⟨rfl, rfl⟩ | ⟨-, h2'⟩
    · exact hfresh k1 b1 h1' haddr
    · exact h k1 k2 b1 b2 h1' h2' haddr

lemma Apart.erase (h : Apart m) (k : κ) : Apart (m.erase k) := by
  intro k1 k2 b1 b2 h1 h2 haddr
  exact h k1 k2 b1 b2 (lookup_erase_eq_some_iff.mp h1).2 (lookup_erase_eq_some_iff.mp h2).2 haddr

lemma Apart.find_eq_some_iff (h : Apart m) {v : α} : find m a = some (k, v) ↔ m.lookup k = some ⟨a, v⟩ := by
  have hmem : ∀ k b, (⟨k, b⟩ : Sigma fun _ : κ => Owned α) ∈ m.entries ↔ m.lookup k = some b :=
    fun k b => mem_lookup_iff.symm
  unfold find
  constructor
  · intro hfind
    obtain ⟨⟨k', b'⟩, hfind', heq⟩ := Option.map_eq_some_iff.mp hfind
    have haddr : b'.addr = a := by simpa using find?_some hfind'
    obtain ⟨rfl, rfl⟩ := Prod.mk.inj heq
    rw [(hmem _ _).mp (mem_of_find?_eq_some hfind'), ← haddr]
  · intro hlookup
    cases hfind : m.entries.find? fun e => e.2.addr = a with
    | none =>
      have hno := find?_eq_none.mp hfind _ ((hmem _ _).mpr hlookup)
      simp at hno
    | some e =>
      obtain ⟨k', b'⟩ := e
      have haddr : b'.addr = a := by simpa using find?_some hfind
      have hlookup' := (hmem _ _).mp (mem_of_find?_eq_some hfind)
      -- No other object is at the address.
      obtain rfl := h _ _ _ _ hlookup' hlookup haddr
      cases hlookup'.symm.trans hlookup
      rfl

end Owners
