import Bpftime.LruHashMap.Model

/-!
# The list of an LRU hash map

The entries of the map hold a list of elements (`Chain`), and the three operations on the list move
an element to the front, take one out or put a new one in front, wherever in the list it stands.
-/

namespace Bpftime.LruVarHashMap

open Links Option List Function LruVarHashMap

/-- An element of the map: a key, its value, and the entry that stands for it in the list. -/
@[ext]
structure Elem where
  key : List UInt8
  value : List UInt8
  ptr : ℕ
deriving DecidableEq

variable {m m' m'' : LruVarHashMap} {a b c : List Elem} {x : Elem}

/-! ## What an assignment to a pointer changes -/

/-- The two maps differ in the pointers of the list only. -/
structure Same (m m' : LruVarHashMap) : Prop where
  key : ∀ p, m'.keyOf p = m.keyOf p
  map_impl : m'.map_impl = m.map_impl
  constructed : m'.constructed = m.constructed
  max_entries : m'.max_entries = m.max_entries

lemma Same.refl (m : LruVarHashMap) : Same m m := ⟨fun _ => rfl, rfl, rfl, rfl⟩

lemma Same.trans (h : Same m m') (h' : Same m' m'') : Same m m'' :=
  ⟨fun p => (h'.key p).trans (h.key p), h'.map_impl.trans h.map_impl,
    h'.constructed.trans h.constructed, h'.max_entries.trans h.max_entries⟩

/-- The map `m'` is `m` with other pointers. -/
structure Relinked (m m' : LruVarHashMap) (next prev : ℕ → Option ℕ) (head tail : Option ℕ) : Prop where
  same : Same m m'
  next : m'.nextOf = next
  prev : m'.prevOf = prev
  head : m'.lru_link_list_head = head
  tail : m'.lru_link_list_tail = tail

lemma isSome_keyOf (m : LruVarHashMap) (p : ℕ) : (m.keyOf p).isSome = (m.entries p).isSome := by
  unfold keyOf
  exact isSome_map

lemma Relinked.refl (m : LruVarHashMap) : Relinked m m m.nextOf m.prevOf m.lru_link_list_head m.lru_link_list_tail :=
  ⟨Same.refl m, rfl, rfl, rfl, rfl⟩

section Assign

variable {next prev : ℕ → Option ℕ} {head tail : Option ℕ} {q : ℕ}

section

variable (h : Relinked m m' next prev head tail)
include h

lemma Relinked.setNext (hq : (m.keyOf q).isSome) (v : Option ℕ) :
    ∃ m'', m'.setNext (some q) v = some m'' ∧ Relinked m m'' (update next q v) prev head tail := by
  rw [← h.same.key, isSome_keyOf] at hq
  obtain ⟨e, he⟩ := isSome_iff_exists.mp hq
  obtain ⟨hsame, rfl, rfl, rfl, rfl⟩ := h
  refine ⟨{ m' with entries := update m'.entries q (some { e with next_entry := v }) },
    by simp [setNext, he], ⟨hsame.trans ⟨fun p => ?_, rfl, rfl, rfl⟩,
    funext fun p => ?_, funext fun p => ?_, rfl, rfl⟩⟩
  all_goals
    by_cases hp : p = q
    · subst hp
      simp [keyOf, nextOf, prevOf, he]
    · simp [keyOf, nextOf, prevOf, hp]

lemma Relinked.setPrev (hq : (m.keyOf q).isSome) (v : Option ℕ) :
    ∃ m'', m'.setPrev (some q) v = some m'' ∧ Relinked m m'' next (update prev q v) head tail := by
  rw [← h.same.key, isSome_keyOf] at hq
  obtain ⟨e, he⟩ := isSome_iff_exists.mp hq
  obtain ⟨hsame, rfl, rfl, rfl, rfl⟩ := h
  refine ⟨{ m' with entries := update m'.entries q (some { e with previous_entry := v }) },
    by simp [setPrev, he], ⟨hsame.trans ⟨fun p => ?_, rfl, rfl, rfl⟩,
    funext fun p => ?_, funext fun p => ?_, rfl, rfl⟩⟩
  all_goals
    by_cases hp : p = q
    · subst hp
      simp [keyOf, nextOf, prevOf, he]
    · simp [keyOf, nextOf, prevOf, hp]

lemma Relinked.setHead (v : Option ℕ) : Relinked m { m' with lru_link_list_head := v } next prev v tail :=
  ⟨⟨h.same.key, h.same.map_impl, h.same.constructed, h.same.max_entries⟩, h.next, h.prev, rfl, h.tail⟩

lemma Relinked.setTail (v : Option ℕ) : Relinked m { m' with lru_link_list_tail := v } next prev head v :=
  ⟨⟨h.same.key, h.same.map_impl, h.same.constructed, h.same.max_entries⟩, h.next, h.prev, h.head, rfl⟩

end

end Assign

/-- The entries hold the list of elements `c`. -/
structure Chain (m : LruVarHashMap) (c : List Elem) : Prop where
  linked : Linked m.nextOf m.prevOf (c.map Elem.ptr)
  head : m.lru_link_list_head = (c.map Elem.ptr).head?
  tail : m.lru_link_list_tail = (c.map Elem.ptr).getLast?
  nodup : (c.map Elem.ptr).Nodup
  key : ∀ x ∈ c, m.keyOf x.ptr = some x.key
  lt : ∀ x ∈ c, x.ptr < m.constructed

lemma Chain.isSome (h : Chain m c) {p : ℕ} (hp : p ∈ c.map Elem.ptr) : (m.keyOf p).isSome := by
  obtain ⟨x, hx, rfl⟩ := mem_map.mp hp
  rw [h.key x hx, isSome_some]

lemma Chain.lock_eq (h : Chain m c) {o : Option ℕ} (ho : ∀ p, o = some p → p ∈ c.map Elem.ptr) :
    m.lock o = o := by
  cases o with
  | none => rfl
  | some p =>
    have hp := h.isSome (ho p rfl)
    rw [isSome_keyOf] at hp
    simp [lock, hp]

lemma Chain.entry (h : Chain m (a ++ x :: b)) : ∃ e, m.entries x.ptr = some e ∧ e.key = x.key ∧
    e.next_entry = (b.map Elem.ptr).head? ∧ e.previous_entry = (a.map Elem.ptr).getLast? := by
  have hx : m.keyOf x.ptr = some x.key := h.key x (by simp)
  obtain ⟨e, he, hek⟩ := map_eq_some_iff.mp hx
  obtain ⟨hn, hp⟩ := h.linked (a.map Elem.ptr) x.ptr (b.map Elem.ptr) (by simp)
  refine ⟨e, he, hek, ?_, ?_⟩
  · rw [← hn, nextOf, he, bind_some]
  · rw [← hp, prevOf, he, bind_some]

lemma Chain.lock_previous (h : Chain m (a ++ x :: b)) :
    m.lock (m.prevOf x.ptr) = (a.map Elem.ptr).getLast? := by
  obtain ⟨-, hp⟩ := h.linked (a.map Elem.ptr) x.ptr (b.map Elem.ptr) (by simp)
  rw [hp]
  refine h.lock_eq fun p hlast => ?_
  rw [map_append]
  exact mem_append_left _ (mem_of_getLast? hlast)

lemma Chain.nodup_split (h : Chain m (a ++ x :: b)) :
    x.ptr ∉ (a ++ b).map Elem.ptr ∧ ((a ++ b).map Elem.ptr).Nodup := by
  have hnd := h.nodup
  rw [map_append, map_cons, nodup_middle] at hnd
  rw [map_append]
  exact nodup_cons.mp hnd

lemma Chain.of_relinked {c' : List Elem} {next prev : ℕ → Option ℕ} {head tail : Option ℕ}
    (h : Chain m c) (hr : Relinked m m' next prev head tail) (hsub : ∀ x ∈ c', x ∈ c)
    (hnd : (c'.map Elem.ptr).Nodup) (hl : Linked next prev (c'.map Elem.ptr))
    (hhead : head = (c'.map Elem.ptr).head?) (htail : tail = (c'.map Elem.ptr).getLast?) : Chain m' c' where
  linked := by rw [hr.next, hr.prev]; exact hl
  head := hr.head.trans hhead
  tail := hr.tail.trans htail
  nodup := hnd
  key := fun x hx => (hr.same.key _).trans (h.key x (hsub x hx))
  lt := fun x hx => by rw [hr.same.constructed]; exact h.lt x (hsub x hx)

lemma Chain.of_value (h : Chain m (a ++ x :: b)) (value : List UInt8) :
    Chain m (a ++ { x with value } :: b) := by
  have hmap : (a ++ { x with value } :: b).map Elem.ptr = (a ++ x :: b).map Elem.ptr := by simp
  have hmem : ∀ y ∈ a ++ { x with value } :: b, ∃ z ∈ a ++ x :: b, z.ptr = y.ptr ∧ z.key = y.key := by
    intro y hy
    rw [mem_append, mem_cons] at hy
    rcases hy with hy | rfl | hy
    · exact ⟨y, by simp [hy], rfl, rfl⟩
    · exact ⟨x, by simp, rfl, rfl⟩
    · exact ⟨y, by simp [hy], rfl, rfl⟩
  refine ⟨by rw [hmap]; exact h.linked, by rw [hmap]; exact h.head, by rw [hmap]; exact h.tail,
    by rw [hmap]; exact h.nodup, fun y hy => ?_, fun y hy => ?_⟩
  · obtain ⟨z, hz, hptr, hkey⟩ := hmem y hy
    rw [← hptr, ← hkey]
    exact h.key z hz
  · obtain ⟨z, hz, hptr, -⟩ := hmem y hy
    rw [← hptr]
    exact h.lt z hz

/-! ## The operations on the list -/

lemma Chain.linked_unlink (h : Chain m (a ++ x :: b)) :
    Linked (updateAt m.nextOf (a.map Elem.ptr).getLast? (b.map Elem.ptr).head?)
    (updateAt m.prevOf (b.map Elem.ptr).head? (a.map Elem.ptr).getLast?) ((a ++ b).map Elem.ptr) := by
  have hl := h.linked
  have hnd := h.nodup
  rw [map_append, map_cons] at hl hnd
  rw [map_append]
  exact hl.unlink hnd

lemma Chain.unhook {y : Elem} (h : Chain m (a ++ [y] ++ x :: b)) :
    ∃ m', m.unhook (some y.ptr) (b.map Elem.ptr).head? = some m' ∧
    Relinked m m' (update m.nextOf y.ptr (b.map Elem.ptr).head?)
    (updateAt m.prevOf (b.map Elem.ptr).head? (some y.ptr)) m.lru_link_list_head
    ((a ++ [y] ++ b).map Elem.ptr).getLast? := by
  unfold LruVarHashMap.unhook
  have hy : y.ptr ∈ (a ++ [y] ++ x :: b).map Elem.ptr := by simp
  obtain ⟨m1, h1, r1⟩ := (Relinked.refl m).setNext (h.isSome hy) (b.map Elem.ptr).head?
  rw [h1]
  cases b with
  | nil =>
    have hlast : ((a ++ [y] ++ []).map Elem.ptr).getLast? = some y.ptr := by simp
    rw [hlast]
    exact ⟨_, rfl, r1.setTail (some y.ptr)⟩
  | cons w b =>
    have hw : w.ptr ∈ (a ++ [y] ++ x :: w :: b).map Elem.ptr := by simp
    have hlast : m.lru_link_list_tail = ((a ++ [y] ++ w :: b).map Elem.ptr).getLast? := by
      rw [h.tail]
      simp
    obtain ⟨m2, h2, r2⟩ := r1.setPrev (h.isSome hw) (some y.ptr)
    rw [← hlast]
    exact ⟨m2, h2, r2⟩

lemma Relinked.hook {next prev : ℕ → Option ℕ} {tail : Option ℕ} {p z : ℕ}
    (h : Relinked m m' next prev (some z) tail) (hp : (m.keyOf p).isSome) (hz : (m.keyOf z).isSome) :
    ∃ m'', m'.hook p = some m'' ∧ Relinked m m'' (update next p (some z))
    (update (update prev p none) z (some p)) (some p) tail := by
  unfold LruVarHashMap.hook
  obtain ⟨m1, h1, r1⟩ := h.setNext hp (some z)
  obtain ⟨m2, h2, r2⟩ := r1.setPrev hp none
  obtain ⟨m3, h3, r3⟩ := r2.setPrev hz (some p)
  refine ⟨_, ?_, r3.setHead (some p)⟩
  simp [h.head, h1, h2, r2.head, h3]

section

variable (h : Chain m (a ++ x :: b))
include h

lemma Chain.moveToHead : ∃ m', m.moveToHead x.ptr = some m' ∧ Same m m' ∧ Chain m' (x :: (a ++ b)) := by
  unfold LruVarHashMap.moveToHead
  obtain rfl | ⟨a, y, rfl⟩ := eq_nil_or_concat a
  · -- The element is in front already.
    have hhead : m.lru_link_list_head = some x.ptr := by rw [h.head]; rfl
    rw [if_pos hhead]
    exact ⟨m, rfl, Same.refl m, h⟩
  rw [concat_eq_append] at h ⊢
  obtain ⟨e, he, -, hnext, -⟩ := h.entry
  obtain ⟨hx, hnd⟩ := h.nodup_split
  have hlast : ((a ++ [y]).map Elem.ptr).getLast? = some y.ptr := by simp
  have hlock : m.lock e.previous_entry = some y.ptr := by
    rw [← hlast, ← h.lock_previous, prevOf, he, bind_some]
  obtain ⟨m1, h1, r1⟩ := h.unhook
  -- The old head stays where it is, since it is another element.
  have hhead : m.lru_link_list_head = ((a ++ [y] ++ b).map Elem.ptr).head? := by
    rw [h.head]
    simp
  obtain ⟨z, hz⟩ : ∃ z, m.lru_link_list_head = some z := by
    rw [hhead]
    cases a <;> simp
  have hzx : z ≠ x.ptr := by
    rintro rfl
    rw [hhead] at hz
    exact hx (mem_of_head? hz)
  have hzmem : z ∈ (a ++ [y] ++ x :: b).map Elem.ptr := by
    rw [h.head] at hz
    exact mem_of_head? hz
  have hxmem : x.ptr ∈ (a ++ [y] ++ x :: b).map Elem.ptr := by simp
  rw [hz] at r1
  obtain ⟨m2, h2, r2⟩ := r1.hook (h.isSome hxmem) (h.isSome hzmem)
  have hlinked := h.linked_unlink.pushFront hx hnd
  rw [hlast, ← hhead, hz] at hlinked
  refine ⟨m2, ?_, r2.same, h.of_relinked r2 (fun w hw => ?_) (nodup_cons.mpr ⟨hx, hnd⟩) hlinked rfl ?_⟩
  · rw [if_neg (by rw [hz]; simpa using hzx), he]
    simp only [bind_eq_bind, bind_some, hlock, hnext, h1, h2]
  · simp only [mem_cons, mem_append] at hw ⊢
    tauto
  · rw [map_cons, getLast?_cons_of_ne_nil (by simp)]

lemma Chain.tail_eq_iff : m.lru_link_list_tail = some x.ptr ↔ b = [] := by
  rw [h.tail]
  refine ⟨fun hlast => ?_, fun hb => by simp [hb]⟩
  obtain rfl | ⟨b, w, rfl⟩ := eq_nil_or_concat b
  · rfl
  · obtain ⟨hx, -⟩ := h.nodup_split
    have hw : w.ptr = x.ptr := by simpa [getLast?_append, getLast?_cons] using hlast
    exact absurd (by simp [hw]) hx

lemma Chain.head_eq_iff : m.lru_link_list_head = some x.ptr ↔ a = [] := by
  rw [h.head]
  refine ⟨fun hfirst => ?_, fun ha => by simp [ha]⟩
  cases a with
  | nil => rfl
  | cons w a =>
    obtain ⟨hx, -⟩ := h.nodup_split
    have hw : w.ptr = x.ptr := by simpa using hfirst
    exact absurd (by simp [hw]) hx

lemma Chain.of_unlinked (hr : Relinked m m' (updateAt m.nextOf (a.map Elem.ptr).getLast? (b.map Elem.ptr).head?)
    (updateAt m.prevOf (b.map Elem.ptr).head? (a.map Elem.ptr).getLast?)
    ((a ++ b).map Elem.ptr).head? ((a ++ b).map Elem.ptr).getLast?) :
    Same m m' ∧ Chain m' (a ++ b) ∧ m'.nextOf x.ptr = (b.map Elem.ptr).head? := by
  obtain ⟨hx, hnd⟩ := h.nodup_split
  refine ⟨hr.same, h.of_relinked hr (fun w hw => ?_) hnd h.linked_unlink rfl rfl, ?_⟩
  · simp only [mem_cons, mem_append] at hw ⊢
    tauto
  · have hne : (a.map Elem.ptr).getLast? ≠ some x.ptr := by
      intro hlast
      refine hx ?_
      rw [map_append]
      exact mem_append_left _ (mem_of_getLast? hlast)
    obtain ⟨hn, -⟩ := h.linked (a.map Elem.ptr) x.ptr (b.map Elem.ptr) (by simp)
    rw [hr.next, updateAt_of_ne hne, hn]

lemma Chain.evictEntry : ∃ m', m.evictEntry x.ptr = some m' ∧ Same m m' ∧ Chain m' (a ++ b) ∧
    m'.nextOf x.ptr = (b.map Elem.ptr).head? := by
  unfold LruVarHashMap.evictEntry
  obtain ⟨e, he, -, hnext, -⟩ := h.entry
  have hlock : m.lock e.previous_entry = (a.map Elem.ptr).getLast? := by
    rw [← h.lock_previous, prevOf, he, bind_some]
  have htail := h.tail_eq_iff
  have hhead := h.head_eq_iff
  obtain rfl | ⟨a, y, rfl⟩ := eq_nil_or_concat a
  · cases b with
    | nil =>
      -- The only element.
      refine ⟨_, by simp [he, htail, hhead]; rfl, h.of_unlinked ?_⟩
      exact ((Relinked.refl m).setHead none).setTail none
    | cons w b =>
      -- The first element of several.
      have hw : w.ptr ∈ ([] ++ x :: w :: b).map Elem.ptr := by simp
      obtain ⟨m1, h1, r1⟩ := (Relinked.refl m).setPrev (h.isSome hw) none
      have hsome : e.next_entry = some w.ptr := hnext
      refine ⟨_, by simp [he, htail, hhead, hsome, h1]; rfl, h.of_unlinked ?_⟩
      have hlast : m.lru_link_list_tail = (([] ++ w :: b).map Elem.ptr).getLast? := by
        rw [h.tail]
        simp
      rw [← hlast]
      exact r1.setHead (some w.ptr)
  · rw [concat_eq_append] at *
    have hlast : ((a ++ [y]).map Elem.ptr).getLast? = some y.ptr := by simp
    rw [hlast] at hlock
    obtain ⟨m1, h1, r1⟩ := h.unhook
    have hfirst : m.lru_link_list_head = ((a ++ [y] ++ b).map Elem.ptr).head? := by
      rw [h.head]
      simp
    rw [hfirst] at r1
    refine ⟨m1, ?_, h.of_unlinked (by rw [hlast]; exact r1)⟩
    unfold LruVarHashMap.unhook at h1
    rw [← hnext] at h1
    -- The last element, or one in the middle.
    cases b with
    | nil =>
      have hnone : e.next_entry = none := hnext
      simpa [he, htail, hhead, hlock, hnone] using h1
    | cons w b =>
      have hsome : e.next_entry = some w.ptr := hnext
      simpa [he, htail, hhead, hlock, hsome] using h1

end

lemma pointers_construct (hfree : m.entries m.constructed = none) (key : List UInt8) :
    (m.construct key).nextOf = m.nextOf ∧ (m.construct key).prevOf = m.prevOf := by
  refine ⟨funext fun p => ?_, funext fun p => ?_⟩
  all_goals
    by_cases hp : p = m.constructed
    · subst hp
      simp [construct, nextOf, prevOf, hfree]
    · simp [construct, nextOf, prevOf, hp]

lemma keyOf_construct (m : LruVarHashMap) (key : List UInt8) :
    (m.construct key).keyOf = update m.keyOf m.constructed (some key) := by
  funext p
  by_cases hp : p = m.constructed
  · subst hp
    simp [construct, keyOf]
  · simp [construct, keyOf, hp]

lemma Chain.cons_new {next prev : ℕ → Option ℕ} {head tail : Option ℕ} {key : List UInt8}
    (h : Chain m c) (hr : Relinked (m.construct key) m' next prev head tail) (value : List UInt8)
    (hl : Linked next prev (m.constructed :: c.map Elem.ptr)) (hhead : head = some m.constructed)
    (htail : tail = (m.constructed :: c.map Elem.ptr).getLast?) :
    Chain m' (⟨key, value, m.constructed⟩ :: c) := by
  have hne : ∀ x ∈ c, x.ptr ≠ m.constructed := fun x hx => (h.lt x hx).ne
  refine ⟨by rw [hr.next, hr.prev]; exact hl, hr.head.trans hhead, hr.tail.trans htail,
    nodup_cons.mpr ⟨?_, h.nodup⟩, fun x hx => ?_, fun x hx => ?_⟩
  · rintro hmem
    obtain ⟨x, hx, hptr⟩ := mem_map.mp hmem
    exact hne x hx hptr
  · rw [hr.same.key, keyOf_construct]
    rcases mem_cons.mp hx with rfl | hx
    · exact update_self _ _ _
    · rw [update_of_ne (hne x hx)]
      exact h.key x hx
  · rw [hr.same.constructed]
    rcases mem_cons.mp hx with rfl | hx
    · exact Nat.lt_succ_self _
    · exact Nat.lt_succ_of_lt (h.lt x hx)

lemma Chain.insertNewEntry (h : Chain m c) (hfree : m.entries m.constructed = none)
    (key value : List UInt8) :
    ∃ m', m.insertNewEntry key = some (m.constructed, m') ∧ Same (m.construct key) m' ∧
    Chain m' (⟨key, value, m.constructed⟩ :: c) := by
  obtain ⟨hnext, hprev⟩ := pointers_construct hfree key
  have hnotMem : m.constructed ∉ c.map Elem.ptr := by
    intro hmem
    obtain ⟨x, hx, hptr⟩ := mem_map.mp hmem
    exact (h.lt x hx).ne hptr
  have hpushed := h.linked.pushFront hnotMem h.nodup
  have hnone : m.prevOf m.constructed = none := by simp [prevOf, hfree]
  rw [← hnone, update_eq_self] at hpushed
  have hstart := Relinked.refl (m.construct key)
  rw [hnext, hprev] at hstart
  unfold LruVarHashMap.insertNewEntry
  dsimp only
  cases c with
  | nil =>
    have hhead : (m.construct key).lru_link_list_head = none := h.head
    have hr := (hstart.setHead (some m.constructed)).setTail (some m.constructed)
    rw [if_pos (by rw [hhead]; rfl)]
    have hself : update m.nextOf m.constructed none = m.nextOf := by
      rw [← (by simp [nextOf, hfree] : m.nextOf m.constructed = none), update_eq_self]
    rw [map_nil, head?_nil, hself, updateAt_none] at hpushed
    exact ⟨_, rfl, hr.same, h.cons_new hr value hpushed rfl rfl⟩
  | cons z c =>
    have hhead : (m.construct key).lru_link_list_head = some z.ptr := h.head
    have hz : ((m.construct key).keyOf z.ptr).isSome := by
      rw [keyOf_construct, update_of_ne (h.lt z (by simp)).ne]
      exact h.isSome (by simp)
    obtain ⟨m1, h1, r1⟩ := hstart.setNext (q := m.constructed)
        (by rw [keyOf_construct, update_self]; rfl) (some z.ptr)
    obtain ⟨m2, h2, r2⟩ := r1.setPrev hz (some m.constructed)
    have hr := r2.setHead (some m.constructed)
    refine ⟨_, ?_, hr.same, h.cons_new hr value hpushed rfl ?_⟩
    · rw [if_neg (by rw [hhead]; simp), hhead, h1]
      simp only [bind_eq_bind, bind_some, r1.head, hhead, h2]
      rfl
    · rw [getLast?_cons_of_ne_nil (by simp)]
      exact h.tail

end Bpftime.LruVarHashMap
