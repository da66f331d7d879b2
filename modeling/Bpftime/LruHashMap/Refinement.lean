import Bpftime.Lib.Runs
import Bpftime.LruHashMap.Chain

/-!
# The LRU hash map as a list by recency

What an LRU hash map is for: a list of keys with their values, the most recently used key first,
with room for a fixed number of keys (`recencyStep`).
-/

namespace Bpftime.LruVarHashMap

open Links Runs Option List AList Elem Prod Function LruVarHashMap

/-- The keys and their values, the most recently used key first. -/
abbrev Recency := List (List UInt8 × List UInt8)

def Recency.without (l : Recency) (key : List UInt8) : Recency := l.filter fun p => p.1 ≠ key

variable {ks vs : ℕ}

/-- One call on a list by recency with room for `capacity` keys. -/
def recencyStep (capacity : ℕ) (l : Recency) : Op ks vs → Reply × Recency
  | .lookup key =>
    match l.lookup key.toList with
    | some value => (.value (.ok value), (key.toList, value) :: l.without key.toList)
    | none => (.value (.error .ENOENT), l)
  | .update key value flags _ =>
    if ¬ isGoodUpdateFlag flags.toNat then (.outcome (.error .EINVAL), l)
    else if key.toList ∈ l.map fst then
      if flags.toNat = bpfNoExist then (.outcome (.error .EEXIST), l)
      else (.outcome .ok, (key.toList, value.toList) :: l.without key.toList)
    else if flags.toNat = bpfExist then (.outcome (.error .ENOENT), l)
    -- The last key of a full list makes room.
    else if l.length = capacity then (.outcome .ok, (key.toList, value.toList) :: l.dropLast)
    else (.outcome .ok, (key.toList, value.toList) :: l)
  | .delete key =>
    if key.toList ∈ l.map fst then (.outcome .ok, l.without key.toList)
    else (.outcome (.error .ENOENT), l)

def Op.Allocates : Op ks vs → Prop
  | .update _ _ _ fault => fault = none
  | _ => True

/-- The hash table holds the elements of the list, and the linked list holds its keys, once each and
in the order of the list. -/
structure Mirrors (m : LruVarHashMap) (l : Recency) : Prop where
  nodup : (l.map fst).Nodup
  lookup : ∀ key value, (m.map_impl.lookup key).map HashMapValue.value = some value ↔ (key, value) ∈ l
  keysFromHead : m.keysFromHead = some (l.map fst)
  keysFromTail : m.keysFromTail = some (l.map fst).reverse

/-! ## The invariant -/

/-- The hash table finds the elements of `c`. -/
def TableOf (t : AList fun _ : List UInt8 => HashMapValue) (c : List Elem) : Prop :=
  ∀ k v, t.lookup k = some v ↔ ⟨k, v.value, v.linked_list_entry⟩ ∈ c

/-- The map stands for the elements of `c`, the most recently used one first. -/
structure Stands (capacity : ℕ) (m : LruVarHashMap) (c : List Elem) : Prop where
  chain : Chain m c
  table : TableOf m.map_impl c
  keys : (c.map key).Nodup
  /-- Only the entries of the list are in shared memory. -/
  only : ∀ p, (m.keyOf p).isSome → p ∈ c.map ptr
  max_entries : m.max_entries = capacity
  length_le : c.length ≤ capacity

def Elem.pair (x : Elem) : List UInt8 × List UInt8 := (x.key, x.value)

/-- The map stands for the list `l`. -/
def Rel (capacity : ℕ) (m : LruVarHashMap) (l : Recency) : Prop := ∃ c, Stands capacity m c ∧ c.map pair = l

variable {capacity : ℕ} {m m' : LruVarHashMap} {a b c c' : List Elem} {x : Elem} {l : Recency}

section Table

variable {t : AList fun _ : List UInt8 => HashMapValue} {key : List UInt8}

lemma TableOf.insert (h : TableOf t c) (hc' : ∀ y, y ∈ c' ↔ y = x ∨ (y.key ≠ x.key ∧ y ∈ c)) :
    TableOf (t.insert x.key ⟨x.value, x.ptr⟩) c' := by
  intro k v
  rw [hc']
  by_cases hk : k = x.key
  · subst hk
    rw [lookup_insert, some.injEq]
    constructor
    · rintro rfl
      exact .inl rfl
    · rintro (heq | ⟨hne, -⟩)
      · obtain ⟨-, hv, hp⟩ := Elem.mk.inj heq
        rw [← hv, ← hp]
      · exact absurd rfl hne
  · rw [lookup_insert_ne hk, h k v]
    refine ⟨fun hmem => .inr ⟨hk, hmem⟩, ?_⟩
    rintro (rfl | ⟨-, hmem⟩)
    · exact absurd rfl hk
    · exact hmem

lemma TableOf.erase (h : TableOf t c) (hc' : ∀ y, y ∈ c' ↔ y.key ≠ key ∧ y ∈ c) :
    TableOf (t.erase key) c' := by
  intro k v
  rw [hc']
  by_cases hk : k = key
  · subst hk
    simp
  · rw [lookup_erase_ne hk, h k v]
    simp [hk]

lemma TableOf.mem_iff (h : TableOf t c) : key ∈ t ↔ key ∈ c.map Elem.key := by
  rw [← AList.lookup_isSome, Option.isSome_iff_exists, List.mem_map]
  constructor
  · rintro ⟨v, hv⟩
    exact ⟨_, (h key v).mp hv, rfl⟩
  · rintro ⟨x, hx, rfl⟩
    exact ⟨⟨x.value, x.ptr⟩, (h _ _).mpr hx⟩

lemma TableOf.length_eq (h : TableOf t c) (hkeys : (c.map Elem.key).Nodup) :
    t.entries.length = c.length := by
  have hperm : t.keys.Perm (c.map key) := by
    rw [perm_ext_iff_of_nodup t.keys_nodup hkeys]
    intro key
    rw [← AList.mem_keys, h.mem_iff]
  have hlen := hperm.length_eq
  rw [length_map] at hlen
  rw [← hlen]
  exact (length_map _).symm

end Table

lemma mem_split_iff (hkeys : ((a ++ x :: b).map key).Nodup) (y : Elem) :
    y ∈ a ++ b ↔ y.key ≠ x.key ∧ y ∈ a ++ x :: b := by
  rw [map_append, map_cons, nodup_middle, nodup_cons, ← map_append] at hkeys
  constructor
  · intro hy
    refine ⟨fun heq => hkeys.1 (mem_map.mpr ⟨y, hy, heq⟩), ?_⟩
    simp only [mem_append, mem_cons] at hy ⊢
    tauto
  · rintro ⟨hne, hy⟩
    simp only [mem_append, mem_cons] at hy ⊢
    rcases hy with hy | rfl | hy
    · exact .inl hy
    · exact absurd rfl hne
    · exact .inr hy

lemma Stands.split (h : Stands capacity m c) {key : List UInt8} {v : HashMapValue}
    (hv : m.map_impl.lookup key = some v) : ∃ a b, c = a ++ ⟨key, v.value, v.linked_list_entry⟩ :: b :=
  append_of_mem ((h.table key v).mp hv)

lemma Stands.pairs (h : Stands capacity m (a ++ x :: b)) :
    lookup x.key ((a ++ x :: b).map pair) = some x.value ∧
    Recency.without ((a ++ x :: b).map pair) x.key = (a ++ b).map pair := by
  have hother : ∀ y ∈ a ++ b, y.key ≠ x.key := fun y hy => ((mem_split_iff h.keys y).mp hy).1
  constructor
  · rw [lookup_eq_some_iff]
    refine ⟨a.map pair, b.map pair, by simp [pair], ?_⟩
    rintro p hp
    obtain ⟨y, hy, rfl⟩ := mem_map.mp hp
    simpa [pair] using (hother y (by simp [hy])).symm
  · have hkeep : ∀ d : List Elem, (∀ y ∈ d, y.key ≠ x.key) →
        (d.map pair).filter (fun p => p.1 ≠ x.key) = d.map pair := by
      intro d hd
      rw [filter_eq_self]
      intro p hp
      obtain ⟨y, hy, rfl⟩ := mem_map.mp hp
      exact decide_eq_true (hd y hy)
    unfold Recency.without
    rw [map_append, map_cons, filter_append, filter_cons_of_neg (by simp [pair]),
      hkeep a (fun y hy => hother y (by simp [hy])), hkeep b (fun y hy => hother y (by simp [hy])),
      map_append]

lemma Stands.absent (h : Stands capacity m c) {key : List UInt8}
    (hnone : m.map_impl.lookup key = none) : key ∉ (c.map Elem.pair).map fst := by
  rw [lookup_eq_none, h.table.mem_iff] at hnone
  simpa [pair] using hnone

lemma Chain.of_table (h : Chain m c) (t : AList fun _ : List UInt8 => HashMapValue) :
    Chain { m with map_impl := t } c := ⟨h.linked, h.head, h.tail, h.nodup, h.key, h.lt⟩

lemma Stands.moveToHead (h : Stands capacity m (a ++ x :: b)) :
    ∃ m', m.moveToHead x.ptr = some m' ∧ Stands capacity m' (x :: (a ++ b)) := by
  obtain ⟨m', hmove, hsame, hchain⟩ := h.chain.moveToHead
  have hperm : (a ++ x :: b).Perm (x :: (a ++ b)) := perm_middle
  refine ⟨m', hmove, hchain, ?_, ?_, ?_, hsame.max_entries.trans h.max_entries, ?_⟩
  · intro k v
    rw [hsame.map_impl, h.table k v, hperm.mem_iff]
  · exact (hperm.map key).nodup_iff.mp h.keys
  · intro p hp
    rw [hsame.key] at hp
    exact (hperm.map ptr).mem_iff.mp (h.only p hp)
  · rw [← hperm.length_eq]
    exact h.length_le

lemma Stands.setValue (h : Stands capacity m (a ++ x :: b)) (value : List UInt8) :
    Stands capacity { m with map_impl := m.map_impl.insert x.key ⟨value, x.ptr⟩ }
    (a ++ { x with value } :: b) := by
  have hkeys : (a ++ { x with value } :: b).map key = (a ++ x :: b).map key := by simp
  have hptrs : (a ++ { x with value } :: b).map ptr = (a ++ x :: b).map ptr := by simp
  refine ⟨(h.chain.of_value value).of_table _, ?_, by rw [hkeys]; exact h.keys,
    by rw [hptrs]; exact h.only, h.max_entries, by simpa using h.length_le⟩
  refine h.table.insert (x := { x with value }) fun y => ?_
  rw [← mem_split_iff h.keys y]
  simp only [mem_append, mem_cons]
  tauto

lemma releaseFrom_none (fuel : ℕ) (m : LruVarHashMap) : releaseFrom fuel none m = m := by
  cases fuel <;> rfl

variable {p : ℕ}

lemma releaseFrom_of_owned (hp : m.Owned p) (fuel : ℕ) : releaseFrom fuel (some p) m = m := by
  cases fuel with
  | zero => rfl
  | succ fuel => rw [releaseFrom, if_pos hp]

lemma Chain.free (h : Chain m c) (hp : p ∉ c.map ptr) :
    Chain { m with entries := update m.entries p none } c := by
  have hne : ∀ q ∈ c.map ptr, q ≠ p := fun q hq heq => hp (heq ▸ hq)
  refine ⟨h.linked.congr (fun q hq => ?_) fun q hq => ?_, h.head, h.tail, h.nodup, fun x hx => ?_, h.lt⟩
  · simp [nextOf, hne q hq]
  · simp [prevOf, hne q hq]
  · have hx' := hne _ (mem_map_of_mem hx)
    rw [← h.key x hx]
    simp [keyOf, hx']

lemma owned_of_mem (ht : TableOf m.map_impl c) (hp : p ∈ c.map ptr) : m.Owned p := by
  obtain ⟨x, hx, rfl⟩ := mem_map.mp hp
  have hx' := (ht x.key ⟨x.value, x.ptr⟩).mpr hx
  exact .inr (.inr (.inl ⟨_, mem_lookup_iff.mp hx', rfl⟩))

lemma Chain.not_owned (h : Chain m (a ++ b)) (ht : TableOf m.map_impl (a ++ b))
    (hx : x.ptr ∉ (a ++ b).map ptr)
    (honly : ∀ p, (m.keyOf p).isSome → p ∈ (a ++ x :: b).map ptr)
    (hnext : m.nextOf x.ptr = (b.map ptr).head?) : ¬ m.Owned x.ptr := by
  rintro (hhead | htail | ⟨⟨k, v⟩, hkv, hptr⟩ | ⟨q, -, hq⟩)
  · rw [h.head] at hhead
    exact hx (mem_of_head? hhead)
  · rw [h.tail] at htail
    exact hx (mem_of_getLast? htail)
  · have hmem := (ht k v).mp (mem_lookup_iff.mpr hkv)
    exact hx (mem_map.mpr ⟨_, hmem, hptr⟩)
  · -- The next pointers that are left lead to elements that are left.
    have hlive : (m.keyOf q).isSome := by
      unfold nextOf at hq
      unfold keyOf
      obtain ⟨e, he, -⟩ := bind_eq_some_iff.mp hq
      rw [he]
      rfl
    have hmem : q = x.ptr ∨ q ∈ (a ++ b).map ptr := by
      have hq' := honly q hlive
      simp only [map_append, map_cons, mem_append, mem_cons] at hq' ⊢
      tauto
    rcases hmem with rfl | hmem
    · rw [hnext] at hq
      refine hx ?_
      rw [map_append]
      exact mem_append_right _ (mem_of_head? hq)
    · exact hx (h.linked.next_mem hmem hq)

lemma Stands.release (h : Stands capacity m (a ++ x :: b)) (hchain : Chain m' (a ++ b))
    (ht : m'.map_impl = m.map_impl.erase x.key) (hkey : ∀ p, m'.keyOf p = m.keyOf p)
    (hmax : m'.max_entries = m.max_entries) (hnext : m'.nextOf x.ptr = (b.map ptr).head?) :
    Stands capacity (m'.release x.ptr) (a ++ b) := by
  obtain ⟨hx, -⟩ := h.chain.nodup_split
  have htable : TableOf m'.map_impl (a ++ b) := by
    rw [ht]
    exact h.table.erase (mem_split_iff h.keys)
  have honly : ∀ p, (m'.keyOf p).isSome → p ∈ (a ++ x :: b).map ptr := by
    intro p hp
    rw [hkey] at hp
    exact h.only p hp
  -- The next entry is kept by the table.
  have hrelease : m'.release x.ptr = { m' with entries := update m'.entries x.ptr none } := by
    unfold LruVarHashMap.release
    rw [releaseFrom, if_neg (hchain.not_owned htable hx honly hnext), hnext]
    cases b with
    | nil => exact releaseFrom_none _ _
    | cons w b =>
      have hw : w.ptr ∈ (a ++ w :: b).map ptr := by simp
      refine releaseFrom_of_owned (p := w.ptr) (owned_of_mem ?_ hw) _
      exact htable
  rw [hrelease]
  refine ⟨hchain.free hx, htable, ?_, fun p hp => ?_, hmax.trans h.max_entries, ?_⟩
  · exact h.keys.sublist (by simp)
  · by_cases hpx : p = x.ptr
    · simp [keyOf, hpx] at hp
    · have hp' : (m'.keyOf p).isSome := by simpa [keyOf, hpx] using hp
      have hmem := honly p hp'
      simp only [map_append, map_cons, mem_append, mem_cons] at hmem ⊢
      tauto
  · have hlen := h.length_le
    simp only [length_append, length_cons] at hlen ⊢
    omega

lemma Stands.delete (h : Stands capacity m (a ++ x :: b)) :
    ∃ m', m.elemDelete x.key = some (.ok, m') ∧ Stands capacity m' (a ++ b) := by
  have hfound : m.map_impl.lookup x.key = some ⟨x.value, x.ptr⟩ := (h.table _ _).mpr (by simp)
  obtain ⟨m1, hevict, hsame, hchain, hnext⟩ := h.chain.evictEntry
  refine ⟨_, ?_, h.release (hchain.of_table (m1.map_impl.erase x.key))
    (by rw [hsame.map_impl]) hsame.key hsame.max_entries hnext⟩
  unfold elemDelete
  rw [hfound]
  simp only [hevict, bind_eq_bind, bind_some]
  rfl

lemma Stands.evictTail (h : Stands capacity m (a ++ [x])) :
    ∃ m', m.evictTail = some m' ∧ Stands capacity m' a := by
  have htail : m.lru_link_list_tail = some x.ptr := h.chain.tail_eq_iff.mpr rfl
  obtain ⟨e, he, hkey, -, -⟩ := h.chain.entry
  obtain ⟨m1, hevict, hsame, hchain, hnext⟩ := (h.chain.of_table (m.map_impl.erase x.key)).evictEntry
  have hstands := h.release hchain hsame.map_impl hsame.key hsame.max_entries hnext
  rw [append_nil] at hstands
  refine ⟨_, ?_, hstands⟩
  unfold LruVarHashMap.evictTail
  simp only [htail, bind_eq_bind, bind_some, he, hkey] at hevict ⊢
  rw [hevict]
  rfl

lemma Stands.insertElem (h : Stands capacity m c) {key : List UInt8} (hkey : key ∉ c.map Elem.key)
    (hlen : c.length < capacity) (value : List UInt8) : ∃ m', m.insertElem key value none =
    some (.ok, m') ∧ Stands capacity m' (⟨key, value, m.constructed⟩ :: c) := by
  have hfree : m.entries m.constructed = none := by
    by_contra hsome
    have hlive : (m.keyOf m.constructed).isSome := by
      rw [isSome_keyOf, isSome_iff_ne_none]
      exact hsome
    obtain ⟨x, hx, hptr⟩ := mem_map.mp (h.only _ hlive)
    exact (h.chain.lt x hx).ne hptr
  obtain ⟨m1, hnew, hsame, hchain⟩ := h.chain.insertNewEntry hfree key value
  refine ⟨{ m1 with map_impl := m1.map_impl.insert key ⟨value, m.constructed⟩ }, ?_,
    hchain.of_table _, ?_, nodup_cons.mpr ⟨hkey, h.keys⟩, fun p hp => ?_,
    hsame.max_entries.trans h.max_entries, hlen⟩
  · unfold LruVarHashMap.insertElem
    rw [hnew]
    rfl
  · have htable := h.table
    rw [show m.map_impl = m1.map_impl from hsame.map_impl.symm] at htable
    refine htable.insert (x := ⟨key, value, m.constructed⟩) fun y => ?_
    rw [mem_cons]
    refine or_congr_right ⟨fun hy => ⟨?_, hy⟩, And.right⟩
    rintro rfl
    exact hkey (mem_map_of_mem hy)
  · have hp' : ((m.construct key).keyOf p).isSome := by
      rw [← hsame.key]
      exact hp
    rw [keyOf_construct] at hp'
    by_cases hpm : p = m.constructed
    · simp [hpm]
    · rw [update_of_ne hpm] at hp'
      exact mem_cons_of_mem _ (h.only p hp')

/-! ## One call -/

lemma rel_create (capacity : ℕ) : Rel capacity (create capacity) [] := by
  refine ⟨[], ⟨⟨linked_nil _ _, rfl, rfl, nodup_nil, ?_, ?_⟩, ?_, nodup_nil, ?_, rfl, Nat.zero_le _⟩, rfl⟩
  · simp
  · simp
  · intro k v
    simp [create]
  · intro p hp
    simp [create, keyOf] at hp

lemma Rel.lookup (h : Rel capacity m l) (key : List.Vector UInt8 ks) :
    ∃ m', step m (.lookup key : Op ks vs) = some ((recencyStep capacity l (.lookup key : Op ks vs)).1, m') ∧
    Rel capacity m' (recencyStep capacity l (.lookup key : Op ks vs)).2 := by
  obtain ⟨c, h, rfl⟩ := h
  simp only [step, elemLookup, recencyStep]
  cases hv : m.map_impl.lookup key.toList with
  | none =>
    have habsent : lookup key.toList (c.map pair) = none := by
      rw [lookup_eq_none_iff]
      intro p hp
      have hne : key.toList ≠ p.1 := fun heq => h.absent hv (heq ▸ mem_map_of_mem hp)
      simpa using hne
    rw [habsent]
    exact ⟨m, rfl, c, h, rfl⟩
  | some v =>
    obtain ⟨a, b, rfl⟩ := h.split hv
    obtain ⟨hlookup, hwithout⟩ := h.pairs
    obtain ⟨m', hmove, hstands⟩ := h.moveToHead
    dsimp only at hlookup hwithout hmove
    rw [hlookup]
    dsimp only
    rw [hwithout, hmove]
    exact ⟨m', rfl, _, hstands, rfl⟩

lemma Rel.update (h : Rel capacity m l) (hpos : 0 < capacity) (key : List.Vector UInt8 ks)
    (value : List.Vector UInt8 vs) (flags : UInt64) : ∃ m', step m (.update key value flags none) =
    some ((recencyStep capacity l (.update key value flags none)).1, m') ∧
    Rel capacity m' (recencyStep capacity l (.update key value flags none)).2 := by
  obtain ⟨c, h, rfl⟩ := h
  simp only [step, elemUpdate, recencyStep]
  by_cases hflags : isGoodUpdateFlag flags.toNat
  swap
  · rw [if_pos hflags, if_pos hflags]
    exact ⟨m, rfl, c, h, rfl⟩
  rw [if_neg (not_not.mpr hflags), if_neg (not_not.mpr hflags)]
  cases hv : m.map_impl.lookup key.toList with
  | some v =>
    obtain ⟨a, b, rfl⟩ := h.split hv
    obtain ⟨-, hwithout⟩ := h.pairs
    dsimp only at hwithout
    have hmem : key.toList ∈ ((a ++ ⟨key.toList, v.value,
        v.linked_list_entry⟩ :: b).map pair).map fst := by simp [pair]
    rw [if_pos hmem]
    dsimp only
    by_cases hno : flags.toNat = bpfNoExist
    · rw [if_pos hno, if_pos hno]
      exact ⟨m, rfl, _, h, rfl⟩
    · rw [if_neg hno, if_neg hno, hwithout]
      obtain ⟨m', hmove, hstands⟩ := (h.setValue value.toList).moveToHead
      dsimp only at hmove
      refine ⟨m', ?_, _, hstands, rfl⟩
      rw [hmove]
      rfl
  | none =>
    rw [if_neg (h.absent hv)]
    dsimp only
    by_cases hex : flags.toNat = bpfExist
    · rw [if_pos hex, if_pos hex]
      exact ⟨m, rfl, _, h, rfl⟩
    rw [if_neg hex, if_neg hex, h.table.length_eq h.keys, h.max_entries, length_map]
    have hkey : key.toList ∉ c.map Elem.key := by
      have habsent := h.absent hv
      rwa [List.map_map] at habsent
    by_cases hfull : c.length = capacity
    · -- The last element makes room.
      obtain rfl | ⟨a, x, rfl⟩ := eq_nil_or_concat c
      · rw [length_nil] at hfull
        omega
      rw [concat_eq_append] at *
      obtain ⟨m1, hevict, hstands⟩ := h.evictTail
      have hlen : a.length < capacity := by
        rw [length_append, length_singleton] at hfull
        omega
      have hkey' : key.toList ∉ a.map Elem.key := by
        intro hmem
        exact hkey (by rw [map_append]; exact mem_append_left _ hmem)
      obtain ⟨m2, hinsert, hstands⟩ := hstands.insertElem hkey' hlen value.toList
      refine ⟨m2, ?_, ?_⟩
      · rw [if_pos hfull, if_pos hfull, hevict]
        simp only [bind_eq_bind, bind_some, hinsert]
        rfl
      · rw [if_pos hfull]
        exact ⟨_, hstands, by simp [pair]⟩
    · have hlen := lt_of_le_of_ne h.length_le hfull
      obtain ⟨m', hinsert, hstands⟩ := h.insertElem hkey hlen value.toList
      refine ⟨m', ?_, ?_⟩
      · rw [if_neg hfull, if_neg hfull]
        simp only [bind_eq_bind, bind_some, hinsert]
        rfl
      · rw [if_neg hfull]
        exact ⟨_, hstands, rfl⟩

lemma Rel.delete (h : Rel capacity m l) (key : List.Vector UInt8 ks) :
    ∃ m', step m (.delete key : Op ks vs) = some ((recencyStep capacity l (.delete key : Op ks vs)).1, m') ∧
    Rel capacity m' (recencyStep capacity l (.delete key : Op ks vs)).2 := by
  obtain ⟨c, h, rfl⟩ := h
  simp only [step, recencyStep]
  cases hv : m.map_impl.lookup key.toList with
  | none =>
    rw [if_neg (h.absent hv), elemDelete, hv]
    exact ⟨m, rfl, c, h, rfl⟩
  | some v =>
    obtain ⟨a, b, rfl⟩ := h.split hv
    obtain ⟨-, hwithout⟩ := h.pairs
    obtain ⟨m', hdelete, hstands⟩ := h.delete
    rw [if_pos (by simp [pair]), hdelete, hwithout]
    exact ⟨m', rfl, _, hstands, rfl⟩

lemma rel_step (hpos : 0 < capacity) (m : LruVarHashMap) (l : Recency) (op : Op ks vs)
    (h : Rel capacity m l) (hop : op.Allocates) :
    ∃ m', step m op = some ((recencyStep capacity l op).1, m') ∧
    Rel capacity m' (recencyStep capacity l op).2 := by
  cases op with
  | lookup key => exact h.lookup key
  | update key value flags fault =>
    obtain rfl : fault = none := hop
    exact h.update hpos key value flags
  | delete key => exact h.delete key

lemma Stands.mirrors (h : Stands capacity m c) : Mirrors m (c.map pair) := by
  have hfst : (c.map pair).map fst = c.map key := by
    rw [List.map_map]
    rfl
  have hfuel : (c.map ptr).length ≤ m.constructed := by
    have hsub : c.map ptr ⊆ range m.constructed := by
      intro p hp
      obtain ⟨x, hx, rfl⟩ := mem_map.mp hp
      exact mem_range.mpr (h.chain.lt x hx)
    simpa using (h.chain.nodup.subperm hsub).length_le
  have hkeys : ∀ d : List Elem, (∀ x ∈ d, x ∈ c) → (d.map ptr).mapM m.keyOf = some (d.map key) := by
    intro d hd
    induction d with
    | nil => rfl
    | cons x d ih =>
      rw [map_cons, mapM_cons, h.chain.key x (hd x (by simp)), ih fun y hy => hd y (by simp [hy])]
      rfl
  refine ⟨by rw [hfst]; exact h.keys, fun key value => ?_, ?_, ?_⟩
  · rw [Option.map_eq_some_iff, List.mem_map]
    constructor
    · rintro ⟨v, hv, rfl⟩
      exact ⟨_, (h.table key v).mp hv, rfl⟩
    · rintro ⟨x, hx, hpair⟩
      obtain ⟨rfl, rfl⟩ := Prod.mk.inj hpair
      exact ⟨⟨x.value, x.ptr⟩, (h.table _ _).mpr hx, rfl⟩
  · unfold keysFromHead
    rw [h.chain.head, h.chain.linked.follow_next hfuel, bind_some, hfst]
    exact hkeys c fun _ hx => hx
  · -- Each weak pointer leads to an entry of the list.
    have hlinked : Linked m.nextOf (fun p => m.lock (m.prevOf p)) (c.map ptr) := by
      refine h.chain.linked.congr (fun _ _ => rfl) fun p hp => ?_
      obtain ⟨x, hx, rfl⟩ := mem_map.mp hp
      obtain ⟨a, b, rfl⟩ := append_of_mem hx
      obtain ⟨-, hprev⟩ := h.chain.linked (a.map ptr) x.ptr (b.map ptr) (by simp)
      rw [h.chain.lock_previous, hprev]
    unfold keysFromTail
    rw [h.chain.tail, hlinked.follow_prev hfuel, bind_some, hfst, ← map_reverse, ← map_reverse]
    exact hkeys c.reverse fun _ hx => mem_reverse.mp hx

/-- An LRU hash map with room for a key answers as the list by recency along every run in which no
allocation throws, and mirrors that list behind it. -/
theorem run_as_recency (max_entries ks vs : ℕ) (hpos : 0 < max_entries) (ops : List (Op ks vs))
    (hops : ∀ op ∈ ops, op.Allocates) :
    ∃ m, run step (create max_entries) ops = some ((answers (recencyStep max_entries) [] ops).1, m) ∧
      Mirrors m (answers (recencyStep max_entries) [] ops).2 ∧
      (answers (recencyStep max_entries) [] ops).2.length ≤ max_entries := by
  have halong : Along step (fun _ op => op.Allocates) (create max_entries) ops :=
    along_of_forall_mem fun op hop _ => hops op hop
  obtain ⟨m, hrun, c, hstands, hl⟩ := run_refines (rel_step hpos) (rel_create max_entries) halong
  refine ⟨m, hrun, ?_⟩
  rw [← hl, length_map]
  exact ⟨hstands.mirrors, hstands.length_le⟩

/-- Three keys in a map with room for two. -/
def threeKeys : List (Op 1 1) :=
  [.update (oneByte 1) (oneByte 10) 0 none, .update (oneByte 2) (oneByte 20) 0 none,
    .lookup (oneByte 1), .update (oneByte 3) (oneByte 30) 1 none, .lookup (oneByte 2)]

/-- The third key evicts the one that was used least recently. -/
theorem run_as_recency_threeKeys : ∃ m, run step (create 2) threeKeys =
        some ((answers (recencyStep 2) [] threeKeys).1, m) ∧ Mirrors m [([3], [30]), ([1], [10])] := by
  obtain ⟨m, hrun, hmirrors, -⟩ := run_as_recency 2 1 1 (by decide) threeKeys (by simp [threeKeys, Op.Allocates])
  have hlist : (answers (recencyStep 2) [] threeKeys).2 = [([3], [30]), ([1], [10])] := by decide +kernel
  rw [hlist] at hmirrors
  exact ⟨m, hrun, hmirrors⟩

/-- What is asked of an update that inserts a key: there is room for one, and if an allocation
throws it is not that of the element. -/
def Tolerated (m : LruVarHashMap) : Op ks vs → Prop
  | .update key _ flags fault => isGoodUpdateFlag flags.toNat = true → flags.toNat ≠ bpfExist →
    m.map_impl.lookup key.toList = none → 0 < m.max_entries ∧ fault ≠ some .element
  | _ => True

/-- The linked list, in both directions, and the table have the same keys. -/
def SameKeys (m : LruVarHashMap) : Prop :=
  ∃ keys, m.keysFromHead = some keys ∧ m.keysFromTail = some keys.reverse ∧ keys.Nodup ∧
    ∀ key, key ∈ keys ↔ key ∈ m.map_impl

lemma Stands.sameKeys (h : Stands capacity m c) : SameKeys m := by
  obtain ⟨hnodup, hlookup, hhead, htail⟩ := h.mirrors
  refine ⟨_, hhead, htail, hnodup, fun key => ?_⟩
  rw [List.mem_map, ← AList.lookup_isSome, Option.isSome_iff_exists]
  constructor
  · rintro ⟨⟨key, value⟩, hmem, rfl⟩
    obtain ⟨v, hv, -⟩ := map_eq_some_iff.mp ((hlookup key value).mpr hmem)
    exact ⟨v, hv⟩
  · rintro ⟨v, hv⟩
    exact ⟨(key, v.value), (hlookup key v.value).mp (by rw [hv]; rfl), rfl⟩

lemma Stands.update_entry (h : Stands capacity m c) (hpos : 0 < capacity) (key value : List UInt8)
    {flags : ℕ}
    (hflags : isGoodUpdateFlag flags = true) (hexist : flags ≠ bpfExist)
    (hv : m.map_impl.lookup key = none) :
    ∃ m' c', m.elemUpdate key value flags (some .entry) = some (.threw, m') ∧ Stands capacity m' c' := by
  unfold elemUpdate
  rw [if_neg (not_not.mpr hflags), hv]
  dsimp only
  rw [if_neg hexist, h.table.length_eq h.keys, h.max_entries]
  by_cases hfull : c.length = capacity
  · -- An element was evicted before the allocation throws.
    obtain rfl | ⟨a, x, rfl⟩ := eq_nil_or_concat c
    · rw [length_nil] at hfull
      omega
    rw [concat_eq_append] at *
    obtain ⟨m', hevict, hstands⟩ := h.evictTail
    refine ⟨m', a, ?_, hstands⟩
    rw [if_pos hfull, hevict]
    rfl
  · rw [if_neg hfull]
    exact ⟨m, c, rfl, h⟩

lemma stands_step (m : LruVarHashMap) (op : Op ks vs) (h : ∃ c, Stands capacity m c)
    (hop : Tolerated m op) : ∃ r m', step m op = some (r, m') ∧ ∃ c', Stands capacity m' c' := by
  obtain ⟨c, h⟩ := h
  have hrel : Rel capacity m (c.map pair) := ⟨c, h, rfl⟩
  have hof : ∀ {r l'}, (∃ m', step m op = some (r, m') ∧ Rel capacity m' l') →
      ∃ r m', step m op = some (r, m') ∧ ∃ c', Stands capacity m' c' := by
    rintro r l' ⟨m', hstep, c', h', -⟩
    exact ⟨r, m', hstep, c', h'⟩
  cases op with
  | lookup key => exact hof (hrel.lookup key)
  | delete key => exact hof (hrel.delete key)
  | update key value flags fault =>
    by_cases hflags : isGoodUpdateFlag flags.toNat = true
    swap
    · exact ⟨_, m, by rw [step, elemUpdate, if_pos hflags]; rfl, c, h⟩
    cases hv : m.map_impl.lookup key.toList with
    | some v =>
      -- Nothing is allocated for a key that is there.
      have hpos : 0 < capacity := (length_pos_of_mem ((h.table _ _).mp hv)).trans_le h.length_le
      have hsame : step m (.update key value flags fault) =
          step m (.update key value flags none) := by simp only [step, elemUpdate, hv]
      exact hof (hsame ▸ hrel.update hpos key value flags)
    | none =>
      by_cases hexist : flags.toNat = bpfExist
      · refine ⟨.outcome (.error .ENOENT), m, ?_, c, h⟩
        rw [step, elemUpdate, if_neg (not_not.mpr hflags), hv]
        dsimp only
        rw [if_pos hexist]
        rfl
      obtain ⟨hpos, hfault⟩ := hop hflags hexist hv
      rw [h.max_entries] at hpos
      rcases fault with _ | _ | _
      · exact hof (hrel.update hpos key value flags)
      · obtain ⟨m', c', hup, h'⟩ := h.update_entry hpos key.toList value.toList hflags hexist hv
        exact ⟨_, m', by rw [step, hup]; rfl, c', h'⟩
      · exact absurd rfl hfault

/-- After every run whose steps are tolerated, the list and the table have the same keys. -/
theorem sameKeys_of_tolerated (max_entries : ℕ) {ks vs : ℕ} {ops : List (Op ks vs)}
    (hops : Along step Tolerated (create max_entries) ops) :
    ∃ rs m, run step (create max_entries) ops = some (rs, m) ∧ SameKeys m := by
  obtain ⟨c, hnew, -⟩ := rel_create max_entries
  obtain ⟨rs, m, hrun, c', h⟩ := run_invariant stands_step ⟨c, hnew⟩ hops
  exact ⟨rs, m, hrun, h.sameKeys⟩

/-- An allocation throws behind an eviction. -/
theorem sameKeys_of_tolerated_evicted : ∃ rs m, run step (create 1)
      [(.update (oneByte 1) (oneByte 10) 0 none : Op 1 1),
      .update (oneByte 2) (oneByte 20) 0 (some .entry)] =
        some (rs, m) ∧ SameKeys m :=
  sameKeys_of_tolerated 1 ⟨fun _ _ _ => by decide, fun r m hstep => by
    cases hstep
    exact ⟨fun _ _ _ => by decide, fun _ _ _ => trivial⟩⟩

/-- A map without room has no tail to evict, and where the allocation of the element throws its key
is in the list only. -/
theorem not_sameKeys : step (create 0) (.update (oneByte 1) (oneByte 10) 0 none : Op 1 1) = none ∧
    ∃ r m', step (create 1) (.update (oneByte 1) (oneByte 10) 0 (some .element) : Op 1 1) =
      some (r, m') ∧ ¬SameKeys m' := by
  refine ⟨rfl, _, _, rfl, ?_⟩
  rintro ⟨keys, hhead, -, -, hmem⟩
  have hkeys : keys = [[1]] := (some.inj hhead).symm
  subst hkeys
  exact absurd ((hmem [1]).mp (by simp)) (by decide)

end Bpftime.LruVarHashMap
