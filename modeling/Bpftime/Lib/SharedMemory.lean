import Bpftime.Lib.Bytes

/-!
# Shared memory, one access at a time

A memory gives a byte for each address.
-/

namespace Bpftime.SharedMemory

open List SharedMemory Bytes
open Bytes (Apart)

abbrev Memory := ℕ → UInt8

def store (m : Memory) (a : ℕ) (bs : List UInt8) : Memory := fun x =>
  if a ≤ x then bs[x - a]?.getD (m x) else m x

def load (m : Memory) (a n : ℕ) : List UInt8 := (List.range n).map fun i => m (a + i)

variable {m : Memory} {a b n k : ℕ} {bs bs' : List UInt8}

@[simp] lemma length_load : (load m a n).length = n := by simp [load]

lemma getElem?_load {i : ℕ} (hi : i < n) : (load m a n)[i]? = some (m (a + i)) := by simp [load, hi]

lemma load_add : load m a (n + k) = load m a n ++ load m (a + n) k := by
  simp [load, range_add, Nat.add_assoc]

lemma load_succ : load m a (n + 1) = m a :: load m (a + 1) n := by
  rw [Nat.add_comm n 1, load_add]
  rfl

lemma store_apply {i : ℕ} (hi : i < bs.length) : store m a bs (a + i) = bs[i] := by simp [store, hi]

lemma store_apply_of_apart {x : ℕ} (h : x < a ∨ a + bs.length ≤ x) : store m a bs x = m x := by
  unfold store
  split_ifs with hle
  · rw [getElem?_eq_none (by omega), Option.getD_none]
  · rfl

lemma load_store_self : load (store m a bs) a bs.length = bs := by
  refine ext_getElem length_load fun i hi hi' => ?_
  simp only [load, getElem_map, getElem_range]
  exact store_apply hi'

lemma load_store_of_length (h : bs.length = n) : load (store m a bs) a n = bs := by
  subst h
  exact load_store_self

lemma load_store_append : load (store m a (bs ++ bs')) a bs.length = bs := by
  have hload : load (store m a (bs ++ bs')) a (bs.length + bs'.length) = bs ++ bs' := by
    rw [← length_append, load_store_self]
  rw [load_add] at hload
  exact (append_inj hload length_load).1

lemma load_store_of_apart (h : Apart a n b bs.length) : load (store m b bs) a n = load m a n := by
  refine map_congr_left fun i hi => store_apply_of_apart ?_
  have := mem_range.mp hi
  unfold Apart at h
  omega

lemma store_append : store m a (bs ++ bs') = store (store m a bs) (a + bs.length) bs' := by
  funext x
  unfold store
  rw [getElem?_append]
  split_ifs with h1 h2 h3 h4 h5
  · omega
  · rfl
  · rw [Nat.sub_sub, getElem?_eq_none (show bs.length ≤ x - a by omega), Option.getD_none]
  · omega
  · omega
  · rfl

lemma ofLe_load_store {v : ℕ} (hv : v < 256^n) : ofLe (load (store m a (toLe n v)) a n) = v := by
  have hload : load (store m a (toLe n v)) a (toLe n v).length = toLe n v := load_store_self
  rw [length_toLe] at hload
  rw [hload, ofLe_toLe, Nat.mod_eq_of_lt hv]

abbrev Store := ℕ × List UInt8

def storeAll (m : Memory) (ss : List Store) : Memory := ss.foldl (fun m s => store m s.1 s.2) m

@[simp] lemma storeAll_nil : storeAll m [] = m := rfl

variable {ss : List Store}

@[simp] lemma storeAll_cons {s : Store} : storeAll m (s :: ss) = storeAll (store m s.1 s.2) ss := rfl

lemma storeAll_append {ss' : List Store} : storeAll m (ss ++ ss') = storeAll (storeAll m ss) ss' :=
  foldl_append

def bytewise (a : ℕ) : List UInt8 → List Store
  | [] => []
  | b :: bs => (a, [b]) :: bytewise (a + 1) bs

lemma storeAll_bytewise (m : Memory) (a : ℕ) (bs : List UInt8) :
    storeAll m (bytewise a bs) = store m a bs := by
  induction bs generalizing m a with
  | nil =>
    funext x
    simp [bytewise, store]
  | cons b bs ih =>
    rw [bytewise, storeAll_cons, ih, show b :: bs = [b] ++ bs from rfl, store_append]
    rfl

/-- The stores have been made, on some memory. -/
def Written (ss : List Store) (m : Memory) : Prop := ∃ m₀, m = storeAll m₀ ss

lemma written_nil (m : Memory) : Written [] m := ⟨m, rfl⟩

lemma Written.snoc (h : Written ss m) (s : Store) : Written (ss ++ [s]) (store m s.1 s.2) := by
  obtain ⟨m₀, rfl⟩ := h
  exact ⟨m₀, by rw [storeAll_append, storeAll_cons, storeAll_nil]⟩

/-- What a reader does: it is done, or it loads some bytes and goes on with them. -/
inductive Reader (α : Type)
  | done (x : α)
  | load (a n : ℕ) (next : List UInt8 → Reader α)

namespace Reader

variable {α β : Type}

def bind : Reader α → (α → Reader β) → Reader β
  | done x, f => f x
  | load a n next, f => load a n fun bs => (next bs).bind f

def run (m : Memory) : Reader α → α
  | done x => x
  | load a n next => (next (SharedMemory.load m a n)).run m

def loads (m : Memory) : Reader α → ℕ
  | done _ => 0
  | load a n next => (next (SharedMemory.load m a n)).loads m + 1

lemma run_bind (r : Reader α) (f : α → Reader β) : (r.bind f).run m = (f (r.run m)).run m := by
  induction r with
  | done x => rfl
  | load a n next ih => exact ih _

def range (a : ℕ) : ℕ → Reader (List UInt8)
  | 0 => done []
  | n + 1 => load a 1 fun bs => (range (a + 1) n).bind fun bs' => done (bs ++ bs')

lemma run_range (a n : ℕ) : (range a n).run m = SharedMemory.load m a n := by
  induction n generalizing a with
  | zero => rfl
  | succ n ih => rw [range, run, run_bind, ih, run, ← load_add, Nat.add_comm 1 n]

def number (a n : ℕ) : Reader ℕ := load a n fun bs => done (ofLe bs)

lemma run_number (a n : ℕ) : (number a n).run m = Bytes.ofLe (SharedMemory.load m a n) := rfl

/-- The bytes up to a zero, byte by byte, at most `fuel` of them. -/
def cstr (a : ℕ) : ℕ → Reader (List UInt8)
  | 0 => done []
  | fuel + 1 => load a 1 fun bs => if bs = [0] then done [] else (cstr (a + 1) fuel).bind fun bs' => done (bs ++ bs')

lemma run_cstr {text : List UInt8} {fuel : ℕ} (hzero : 0 ∉ text) (hfuel : text.length < fuel)
    (hload : SharedMemory.load m a (text.length + 1) = text ++ [0]) : (cstr a fuel).run m = text := by
  induction text generalizing a fuel with
  | nil =>
    obtain ⟨fuel, rfl⟩ : ∃ f, fuel = f + 1 := ⟨fuel - 1, by simp at hfuel; omega⟩
    rw [cstr, run, show SharedMemory.load m a 1 = [0] from hload]
    rfl
  | cons c text ih =>
    obtain ⟨fuel, rfl⟩ : ∃ f, fuel = f + 1 := ⟨fuel - 1, by simp at hfuel; omega⟩
    rw [length_cons, load_succ, cons_append] at hload
    obtain ⟨hfirst, hrest⟩ := cons.inj hload
    have hload1 : SharedMemory.load m a 1 = [c] := by rw [load_succ, hfirst]; rfl
    have hne : [c] ≠ [(0 : UInt8)] := by
      rintro ⟨⟩
      exact hzero (by simp)
    rw [cstr, run, hload1, if_neg hne, run_bind,
      ih (fun h => hzero (by simp [h])) (by simp at hfuel; omega) hrest]
    rfl

end Reader

end Bpftime.SharedMemory
