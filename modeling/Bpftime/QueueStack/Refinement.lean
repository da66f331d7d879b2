import Bpftime.QueueStack.Model
import Bpftime.Lib.Circular
import Bpftime.Lib.Runs

/-!
# Queues and stacks are bounded lists

A queue map and a stack map are both lists of values from the oldest to the newest, of bounded
length.
-/

namespace Bpftime.QueueStack

open Option List Nat
open Bytes (readRange writeRange)
open Runs (run answers)

/-- How a value is taken from a list: the value and the others. -/
abbrev Discipline := ∀ {α : Type}, List α → Option (α × List α)

def fifo : Discipline
  | _, [] => none
  | _, x :: xs => some (x, xs)

def lifo : Discipline := fun l => l.getLast?.map fun x => (x, l.dropLast)

/-- A push on a list of at most `max_entries` values. -/
def boundedPush {α : Type} (max_entries : ℕ) (l : List α) (x : α) (overwrite : Prop)
    [Decidable overwrite] : Reply × List α :=
  if l.length < max_entries then (.ok, l ++ [x])
  else if overwrite then (.ok, l.tail ++ [x])
  else (.failed .E2BIG, l)

/-- The operations on a list of values, the oldest first. -/
def listStep (take : Discipline) (max_entries : ℕ) {value_size : ℕ}
    (l : List (MapValue value_size)) : Op value_size → Reply × List (MapValue value_size)
  | .mapPushElem none _ => (.failed .EINVAL, l)
  | .mapPushElem (some v) flags =>
    if flags = bpfAny ∨ flags = bpfExist then boundedPush max_entries l v (flags = bpfExist)
    else (.failed .EINVAL, l)
  | .mapPopElem false => (.failed .EINVAL, l)
  | .mapPopElem true =>
    match take l with
    | none => (.failed .ENOENT, l)
    | some (v, l') => (.value v.1, l')
  | .mapPeekElem false => (.failed .EINVAL, l)
  | .mapPeekElem true =>
    match take l with
    | none => (.failed .ENOENT, l)
    | some (v, _) => (.value v.1, l)
  | .elemLookup =>
    match take l with
    | none => (.failed .ENOENT, l)
    | some (v, _) => (.value v.1, l)
  | .elemUpdate none _ => (.failed .EINVAL, l)
  | .elemUpdate (some v) flags => boundedPush max_entries l v (flags = bpfExist)
  | .elemDelete =>
    match take l with
    | none => (.failed .ENOENT, l)
    | some (_, l') => (.ok, l')

variable {e : Errno} {max_entries : ℕ}

lemma boundedPush_failed {α : Type} {l : List α} {x : α} {overwrite : Prop}
    [Decidable overwrite] (h : (boundedPush max_entries l x overwrite).1 = .failed e) :
    (boundedPush max_entries l x overwrite).2 = l := by
  unfold boundedPush at h ⊢
  split_ifs at h ⊢
  rfl

lemma listStep_failed {take : Discipline} {value_size : ℕ} {l : List (MapValue value_size)}
    {op : Op value_size}
    (h : (listStep take max_entries l op).1 = .failed e) : (listStep take max_entries l op).2 = l := by
  fun_cases listStep take max_entries l op <;> simp_all [listStep, boundedPush_failed]

lemma flags_refused_iff {flags : ℕ} :
    (flags ≠ 0 ∧ flags ≠ bpfAny ∧ flags ≠ bpfExist) ↔ ¬ (flags = bpfAny ∨ flags = bpfExist) := by
      simp [bpfAny]

/-! ## The queue -/

namespace QueueMap

variable {value_size : ℕ} {q : QueueMap value_size} {l : List (MapValue value_size)}

/-- The buffer has the size that was asked for. -/
structure Sized (q : QueueMap value_size) : Prop where
  value_size_pos : 0 < value_size
  max_entries_pos : 0 < q.max_entries
  length_data : q.data.length = q.max_entries * value_size
  small : q.max_entries * value_size < 2^32

/-- The queue holds the values of a list, the first of them at the head. -/
structure Holds (q : QueueMap value_size) (l : List (MapValue value_size)) : Prop extends Sized q where
  head_lt : q.head < q.max_entries
  count_eq : q.count = l.length
  count_le : l.length ≤ q.max_entries
  tail_eq : q.tail = (q.head + l.length) % q.max_entries
  slot : ∀ i v, l[i]? = some v →
    readRange q.data ((q.head + i) % q.max_entries * value_size) value_size = some v.1

lemma Sized.offset_eq (h : Sized q) {index : ℕ} (hindex : index < q.max_entries) :
    q.offset index = index * value_size ∧ index * value_size + value_size ≤ q.data.length := by
  have hle : (index + 1) * value_size ≤ q.max_entries * value_size := Nat.mul_le_mul_right _ hindex
  rw [succ_mul] at hle
  have hpos := h.value_size_pos
  have hsmall := h.small
  exact ⟨mod_eq_of_lt (by omega), h.length_data ▸ hle⟩

lemma Sized.nextIndex_eq (h : Sized q) {index : ℕ} (hindex : index < q.max_entries) :
    q.nextIndex index = (index + 1) % q.max_entries := by
  have hle : q.max_entries ≤ q.max_entries * value_size := Nat.le_mul_of_pos_right _ h.value_size_pos
  have hsmall := h.small
  rw [nextIndex, mod_eq_of_lt (show index + 1 < 2^32 by omega)]

lemma slots_apart {i j : ℕ} (hne : i ≠ j) : Bytes.Apart (i * value_size) value_size
    (j * value_size) value_size := by
  rcases Nat.lt_or_gt_of_ne hne with hlt | hgt
  · left
    have := Nat.mul_le_mul_right value_size hlt
    rwa [succ_mul] at this
  · right
    have := Nat.mul_le_mul_right value_size hgt
    rwa [succ_mul] at this

lemma Holds.readHead_eq {v : MapValue value_size} (h : q.Holds (v :: l)) : q.readHead = some v.1 := by
  have hslot := h.slot 0 v rfl
  rw [Nat.add_zero, mod_eq_of_lt h.head_lt] at hslot
  rw [readHead, (h.offset_eq h.head_lt).1, hslot]

lemma Holds.dropHead {v : MapValue value_size} (h : q.Holds (v :: l)) : q.dropHead.Holds l := by
  have hnext : q.dropHead.head = (q.head + 1) % q.max_entries := h.nextIndex_eq h.head_lt
  have hle : l.length + 1 ≤ q.max_entries := h.count_le
  refine ⟨⟨h.value_size_pos, h.max_entries_pos, h.length_data, h.small⟩, ?_, ?_, ?_, ?_, ?_⟩
  · rw [hnext]
    exact mod_lt _ h.max_entries_pos
  · show q.count - 1 = l.length
    rw [h.count_eq, length_cons, Nat.add_sub_cancel]
  · show l.length ≤ q.max_entries
    omega
  · show q.tail = (q.dropHead.head + l.length) % q.max_entries
    rw [hnext, mod_add_mod, h.tail_eq, length_cons]
    congr 1
    omega
  · intro i w hi
    show readRange q.data ((q.dropHead.head + i) % q.max_entries * value_size) value_size = some w.1
    rw [hnext, mod_add_mod, show q.head + 1 + i = q.head + (i + 1) by omega]
    exact h.slot (i + 1) w hi

section

variable (h : q.Holds l)
include h

lemma Holds.writeTail (hroom : l.length < q.max_entries) (v : MapValue value_size) :
    ∃ q', q.writeTail v = some q' ∧ q'.Holds (l ++ [v]) ∧ q'.max_entries = q.max_entries := by
  have htail : q.tail < q.max_entries := h.tail_eq ▸ mod_lt _ h.max_entries_pos
  obtain ⟨hoff, hbound⟩ := h.offset_eq htail
  obtain ⟨data', hwrite⟩ := Bytes.writeRange_isSome q.data (q.offset q.tail) v.1 (by
    rw [hoff, v.2]
    exact hbound)
  refine ⟨{ q with data := data', tail := q.nextIndex q.tail, count := q.count + 1 }, ?_, ?_, rfl⟩
  · rw [QueueMap.writeTail, hwrite, map_some]
  have hlen := Bytes.length_writeRange hwrite
  refine ⟨⟨h.value_size_pos, h.max_entries_pos, hlen.trans h.length_data, h.small⟩, h.head_lt, ?_,
    ?_, ?_, ?_⟩
  · simp [h.count_eq]
  · simpa using hroom
  · show q.nextIndex q.tail = _
    rw [h.nextIndex_eq htail, h.tail_eq, mod_add_mod, length_append, length_singleton, Nat.add_assoc]
  · intro i w hi
    show readRange data' ((q.head + i) % q.max_entries * value_size) value_size = some w.1
    by_cases hlt : i < l.length
    · -- The slots of the others are not the tail.
      rw [getElem?_append_left hlt] at hi
      have hne : (q.head + i) % q.max_entries ≠ q.tail := by
        rw [h.tail_eq]
        exact Circular.mod_ne_mod (by omega) (by omega)
      have hagree := Bytes.agreeOff_writeRange hwrite
      rw [hoff, v.2] at hagree
      rw [hagree.readRange_eq (slots_apart hne), h.slot i w hi]
    · obtain ⟨hi', -⟩ := List.getElem?_eq_some_iff.mp hi
      have hi'' : i = l.length := by
        rw [length_append, length_singleton] at hi'
        omega
      subst hi''
      have hw : w = v := by simpa using hi.symm
      subst hw
      rw [← h.tail_eq, ← hoff]
      have hself := Bytes.readRange_writeRange_self hwrite
      rwa [w.2] at hself

lemma Holds.isFull_iff : q.isFull ↔ ¬ l.length < q.max_entries := by rw [isFull, h.count_eq, Nat.not_lt]

lemma Holds.isEmpty_iff : q.isEmpty ↔ l = [] := by rw [isEmpty, h.count_eq, length_eq_zero_iff]

lemma Holds.push (v : MapValue value_size) (flags : ℕ) :
    ∃ q', q.push v flags = some ((boundedPush q.max_entries l v (flags = bpfExist)).1, q') ∧
    q'.Holds (boundedPush q.max_entries l v (flags = bpfExist)).2 ∧ q'.max_entries = q.max_entries := by
  unfold QueueMap.push boundedPush
  by_cases hroom : l.length < q.max_entries
  · obtain ⟨q', hq', hholds, hmax⟩ := h.writeTail hroom v
    rw [if_neg (by rw [h.isFull_iff]; exact not_not.mpr hroom), hq', if_pos hroom]
    exact ⟨q', rfl, hholds, hmax⟩
  · rw [if_pos (h.isFull_iff.mpr hroom), if_neg hroom]
    split_ifs with hflags
    · -- A full queue is not empty, since it has room for a value.
      cases l with
      | nil => exact absurd h.max_entries_pos hroom
      | cons w l =>
        have hle : l.length < q.dropHead.max_entries := h.count_le
        obtain ⟨q', hq', hholds, hmax⟩ := h.dropHead.writeTail hle v
        rw [hq']
        exact ⟨q', rfl, hholds, hmax⟩
    · exact ⟨q, rfl, h, rfl⟩

lemma Holds.step (op : Op value_size) : ∃ q', q.step op = some ((listStep fifo q.max_entries l op).1, q') ∧
    q'.Holds (listStep fifo q.max_entries l op).2 ∧ q'.max_entries = q.max_entries := by
  cases op with
  | mapPushElem value flags =>
    cases value with
    | none => exact ⟨q, rfl, h, rfl⟩
    | some v =>
      simp only [QueueMap.step, QueueMap.mapPushElem, listStep, flags_refused_iff]
      split_ifs with hgood
      · exact h.push v flags
      · exact ⟨q, rfl, h, rfl⟩
  | elemUpdate value flags =>
    cases value with
    | none => exact ⟨q, rfl, h, rfl⟩
    | some v => exact h.push v flags
  | mapPopElem hasValue =>
    cases hasValue with
    | false => exact ⟨q, rfl, h, rfl⟩
    | true =>
      cases l with
      | nil =>
        refine ⟨q, ?_, h, rfl⟩
        simp [QueueMap.step, QueueMap.mapPopElem, h.isEmpty_iff, listStep, fifo]
      | cons v l =>
        refine ⟨q.dropHead, ?_, h.dropHead, rfl⟩
        simp [QueueMap.step, QueueMap.mapPopElem, h.isEmpty_iff, h.readHead_eq, listStep, fifo]
  | mapPeekElem hasValue =>
    cases hasValue with
    | false => exact ⟨q, rfl, h, rfl⟩
    | true =>
      cases l with
      | nil =>
        refine ⟨q, ?_, h, rfl⟩
        simp [QueueMap.step, QueueMap.mapPeekElem, h.isEmpty_iff, listStep, fifo]
      | cons v l =>
        refine ⟨q, ?_, h, rfl⟩
        simp [QueueMap.step, QueueMap.mapPeekElem, h.isEmpty_iff, h.readHead_eq, listStep, fifo]
  | elemLookup =>
    cases l with
    | nil =>
      refine ⟨q, ?_, h, rfl⟩
      simp [QueueMap.step, QueueMap.elemLookup, h.isEmpty_iff, listStep, fifo]
    | cons v l =>
      refine ⟨q, ?_, h, rfl⟩
      simp [QueueMap.step, QueueMap.elemLookup, h.isEmpty_iff, h.readHead_eq, listStep, fifo]
  | elemDelete =>
    cases l with
    | nil =>
      refine ⟨q, ?_, h, rfl⟩
      simp [QueueMap.step, QueueMap.elemDelete, h.isEmpty_iff, listStep, fifo]
    | cons v l =>
      refine ⟨q.dropHead, ?_, h.dropHead, rfl⟩
      simp [QueueMap.step, QueueMap.elemDelete, h.isEmpty_iff, listStep, fifo]

end

lemma create_holds {max_entries : ℕ} (hvalue : 0 < value_size) (hmax : 0 < max_entries)
    (hsmall : max_entries * value_size < 2^32) :
    ∃ q, create value_size max_entries = some q ∧ q.Holds [] ∧ q.max_entries = max_entries := by
  refine ⟨_, if_neg (by omega), ⟨⟨hvalue, hmax, ?_, hsmall⟩, hmax, rfl, Nat.zero_le _, ?_, ?_⟩, rfl⟩
  · rw [length_replicate, mod_eq_of_lt hsmall]
  · exact (zero_mod _).symm
  · intro i v hi
    cases hi

end QueueMap

/-! ## The stack -/

namespace StackMap

variable {value_size : ℕ} {s : StackMap value_size} {l : List (MapValue value_size)}

/-- The stack holds the values of a list, the last of them on top. -/
structure Holds (s : StackMap value_size) (l : List (MapValue value_size)) : Prop where
  value_size_pos : 0 < value_size
  max_entries_pos : 0 < s.max_entries
  data_eq : s.data = (l.map (·.1)).flatten
  count_le : l.length ≤ s.max_entries

lemma length_flatten_values (l : List (MapValue value_size)) :
    ((l.map (·.1)).flatten).length = l.length * value_size := by
  induction l with
  | nil => simp
  | cons v l ih =>
    rw [map_cons, flatten_cons, length_append, ih, v.2, length_cons, succ_mul, Nat.add_comm]

lemma Holds.getCurrentSize_eq (h : s.Holds l) : s.getCurrentSize = l.length := by
  rw [getCurrentSize, h.data_eq, length_flatten_values, Nat.mul_div_cancel _ h.value_size_pos]

lemma Holds.isFull_iff (h : s.Holds l) : s.isFull ↔ ¬ l.length < s.max_entries := by
  rw [isFull, h.getCurrentSize_eq, Nat.not_lt]

lemma Holds.isEmpty_iff (h : s.Holds l) : s.isEmpty ↔ l = [] := by
  have hpos := h.value_size_pos
  rw [isEmpty, h.data_eq, ← length_eq_zero_iff, length_flatten_values, ← length_eq_zero_iff, Nat.mul_eq_zero]
  omega

variable {v : MapValue value_size}

lemma Holds.readTop_eq (h : s.Holds (l ++ [v])) : s.readTop = some v.1 := by
  have hdata : s.data = (l.map (·.1)).flatten ++ v.1 ++ [] := by
    rw [h.data_eq]
    simp
  have hoff : (s.getCurrentSize - 1) * value_size = ((l.map (·.1)).flatten).length := by
    rw [h.getCurrentSize_eq, length_flatten_values, length_append, length_singleton, Nat.add_sub_cancel]
  rw [readTop, hoff, hdata]
  have hread := Bytes.readRange_append (l.map (·.1)).flatten v.1 []
  rwa [v.2] at hread

lemma Holds.eraseTop (h : s.Holds (l ++ [v])) :
    ∃ s', s.eraseTop = some s' ∧ s'.Holds l ∧ s'.max_entries = s.max_entries := by
  have hdata : s.data = (l.map (·.1)).flatten ++ v.1 := by
    rw [h.data_eq]
    simp
  have hlen : s.data.length - value_size = ((l.map (·.1)).flatten).length := by
    rw [hdata, length_append, v.2, Nat.add_sub_cancel]
  have hle : value_size ≤ s.data.length := by
    rw [hdata, length_append, v.2]
    omega
  have hcount := h.count_le
  rw [length_append] at hcount
  refine ⟨_, if_pos hle, ⟨h.value_size_pos, h.max_entries_pos, ?_, by dsimp only; omega⟩, rfl⟩
  dsimp only
  rw [hlen, hdata, take_left]

lemma Holds.eraseBottom (h : s.Holds (v :: l)) :
    ∃ s', s.eraseBottom = some s' ∧ s'.Holds l ∧ s'.max_entries = s.max_entries := by
  have hdata : s.data = v.1 ++ (l.map (·.1)).flatten := by
    rw [h.data_eq]
    rfl
  have hle : value_size ≤ s.data.length := by
    rw [hdata, length_append, v.2]
    omega
  have hcount := h.count_le
  rw [length_cons] at hcount
  refine ⟨_, if_pos hle, ⟨h.value_size_pos, h.max_entries_pos, ?_, by dsimp only; omega⟩, rfl⟩
  dsimp only
  rw [hdata, drop_left' v.2]

lemma Holds.insertTop (h : s.Holds l) (hroom : l.length < s.max_entries) (v : MapValue value_size) :
    (s.insertTop v).Holds (l ++ [v]) := by
  refine ⟨h.value_size_pos, h.max_entries_pos, ?_, ?_⟩
  · show s.data ++ v.1 = _
    rw [h.data_eq]
    simp
  · rw [length_append, length_singleton]
    exact hroom

lemma Holds.push (h : s.Holds l) (v : MapValue value_size) (flags : ℕ) :
    ∃ s', s.push v flags = some ((boundedPush s.max_entries l v (flags = bpfExist)).1, s') ∧
    s'.Holds (boundedPush s.max_entries l v (flags = bpfExist)).2 ∧ s'.max_entries = s.max_entries := by
  unfold StackMap.push boundedPush
  by_cases hroom : l.length < s.max_entries
  · rw [if_neg (by rw [h.isFull_iff]; exact not_not.mpr hroom), if_pos hroom]
    exact ⟨s.insertTop v, rfl, h.insertTop hroom v, rfl⟩
  · rw [if_pos (h.isFull_iff.mpr hroom), if_neg hroom]
    split_ifs with hflags
    · cases l with
      | nil => exact absurd h.max_entries_pos hroom
      | cons w l =>
        obtain ⟨s', hs', hholds, hmax⟩ := h.eraseBottom
        have hle : l.length < s'.max_entries := hmax ▸ h.count_le
        rw [hs']
        exact ⟨s'.insertTop v, rfl, hholds.insertTop hle v, hmax⟩
    · exact ⟨s, rfl, h, rfl⟩

lemma Holds.step (h : s.Holds l) (op : Op value_size) :
    ∃ s', s.step op = some ((listStep lifo s.max_entries l op).1, s') ∧
    s'.Holds (listStep lifo s.max_entries l op).2 ∧ s'.max_entries = s.max_entries := by
  cases op with
  | mapPushElem value flags =>
    cases value with
    | none => exact ⟨s, rfl, h, rfl⟩
    | some v =>
      simp only [StackMap.step, StackMap.mapPushElem, listStep, flags_refused_iff]
      split_ifs with hgood
      · exact h.push v flags
      · exact ⟨s, rfl, h, rfl⟩
  | elemUpdate value flags =>
    cases value with
    | none => exact ⟨s, rfl, h, rfl⟩
    | some v => exact h.push v flags
  | mapPopElem hasValue =>
    cases hasValue with
    | false => exact ⟨s, rfl, h, rfl⟩
    | true =>
      rcases eq_nil_or_concat' l with rfl | ⟨l, v, rfl⟩
      · refine ⟨s, ?_, h, rfl⟩
        simp [StackMap.step, StackMap.mapPopElem, h.isEmpty_iff, listStep, lifo]
      · obtain ⟨s', hs', hholds, hmax⟩ := h.eraseTop
        refine ⟨s', ?_, by simpa [listStep, lifo] using hholds, hmax⟩
        simp [StackMap.step, StackMap.mapPopElem, h.isEmpty_iff, h.readTop_eq, hs', listStep, lifo]
  | mapPeekElem hasValue =>
    cases hasValue with
    | false => exact ⟨s, rfl, h, rfl⟩
    | true =>
      rcases eq_nil_or_concat' l with rfl | ⟨l, v, rfl⟩
      · refine ⟨s, ?_, h, rfl⟩
        simp [StackMap.step, StackMap.mapPeekElem, h.isEmpty_iff, listStep, lifo]
      · refine ⟨s, ?_, by simpa [listStep, lifo] using h, rfl⟩
        simp [StackMap.step, StackMap.mapPeekElem, h.isEmpty_iff, h.readTop_eq, listStep, lifo]
  | elemLookup =>
    rcases eq_nil_or_concat' l with rfl | ⟨l, v, rfl⟩
    · refine ⟨s, ?_, h, rfl⟩
      simp [StackMap.step, StackMap.elemLookup, h.isEmpty_iff, listStep, lifo]
    · refine ⟨s, ?_, by simpa [listStep, lifo] using h, rfl⟩
      simp [StackMap.step, StackMap.elemLookup, h.isEmpty_iff, h.readTop_eq, listStep, lifo]
  | elemDelete =>
    rcases eq_nil_or_concat' l with rfl | ⟨l, v, rfl⟩
    · refine ⟨s, ?_, h, rfl⟩
      simp [StackMap.step, StackMap.elemDelete, h.isEmpty_iff, listStep, lifo]
    · obtain ⟨s', hs', hholds, hmax⟩ := h.eraseTop
      refine ⟨s', ?_, by simpa [listStep, lifo] using hholds, hmax⟩
      simp [StackMap.step, StackMap.elemDelete, h.isEmpty_iff, hs', listStep, lifo]

lemma create_holds {max_entries : ℕ} (hvalue : 0 < value_size) (hmax : 0 < max_entries) :
    ∃ s, create value_size max_entries = some s ∧ s.Holds [] ∧ s.max_entries = max_entries :=
  ⟨_, if_neg (by omega), ⟨hvalue, hmax, rfl, Nat.zero_le _⟩, rfl⟩

end StackMap

/-- A queue map answers every list of operations as a bounded first-in-first-out list does, a stack
map as a bounded last-in-first-out list does, and an operation on such a list that fails leaves it
as it is. -/
theorem queue_and_stack_refine_lists {value_size max_entries : ℕ} (hvalue : 1 ≤ value_size)
    (hmax : 1 ≤ max_entries) (hsmall : value_size * max_entries < 2^32)
    (ops : List (Op value_size)) : (∃ q q', QueueMap.create value_size max_entries = some q ∧
      run QueueMap.step q ops = some ((answers (listStep fifo max_entries) [] ops).1, q') ∧
        q'.Holds (answers (listStep fifo max_entries) [] ops).2) ∧
    (∃ s s', StackMap.create value_size max_entries = some s ∧
      run StackMap.step s ops = some ((answers (listStep lifo max_entries) [] ops).1, s') ∧
        s'.Holds (answers (listStep lifo max_entries) [] ops).2) ∧
    ∀ (take : Discipline) (l : List (MapValue value_size)) (op : Op value_size) (e : Errno),
      (listStep take max_entries l op).1 = .failed e → (listStep take max_entries l op).2 = l := by
  refine ⟨?_, ?_, fun take l op e => listStep_failed⟩
  · have hstep : ∀ (q : QueueMap value_size) l op, q.Holds l ∧ q.max_entries = max_entries → True →
        ∃ q', q.step op = some ((listStep fifo max_entries l op).1, q') ∧
          q'.Holds (listStep fifo max_entries l op).2 ∧ q'.max_entries = max_entries := by
      rintro q l op ⟨hholds, rfl⟩ -
      exact hholds.step op
    obtain ⟨q, hq, hholds, hqmax⟩ := QueueMap.create_holds hvalue hmax (by
      rwa [Nat.mul_comm] at hsmall)
    obtain ⟨q', hrun, hholds', -⟩ := Runs.run_refines hstep ⟨hholds, hqmax⟩
      (Runs.along_of_forall_mem fun op (_ : op ∈ ops) _ => trivial)
    exact ⟨q, q', hq, hrun, hholds'⟩
  · have hstep : ∀ (s : StackMap value_size) l op, s.Holds l ∧ s.max_entries = max_entries → True →
        ∃ s', s.step op = some ((listStep lifo max_entries l op).1, s') ∧
          s'.Holds (listStep lifo max_entries l op).2 ∧ s'.max_entries = max_entries := by
      rintro s l op ⟨hholds, rfl⟩ -
      exact hholds.step op
    obtain ⟨s, hs, hholds, hsmax⟩ : ∃ s, StackMap.create value_size max_entries = some s ∧ _ :=
      StackMap.create_holds hvalue hmax
    obtain ⟨s', hrun, hholds', -⟩ := Runs.run_refines hstep ⟨hholds, hsmax⟩
      (Runs.along_of_forall_mem fun op (_ : op ∈ ops) _ => trivial)
    exact ⟨s, s', hs, hrun, hholds'⟩

/-- Three pushes on maps with room for two, the last of them over the oldest value, and two pops. -/
theorem queue_and_stack_refine_three_pushes :
    let ops : List (Op 1) := [.mapPushElem (some ⟨[1], rfl⟩) 0, .elemUpdate (some ⟨[2], rfl⟩) 0,
      .mapPushElem (some ⟨[3], rfl⟩) 2, .mapPopElem true, .mapPopElem true]
    (∃ q q', QueueMap.create 1 2 = some q ∧
      run QueueMap.step q ops = some ([.ok, .ok, .ok, .value [2], .value [3]], q')) ∧
    ∃ s s', StackMap.create 1 2 = some s ∧
      run StackMap.step s ops = some ([.ok, .ok, .ok, .value [3], .value [2]], s') := by
  intro ops
  obtain ⟨⟨q, q', hq, hrun, -⟩, ⟨s, s', hs, hrun', -⟩, -⟩ :=
    queue_and_stack_refine_lists (show 1 ≤ 1 by decide) (show 1 ≤ 2 by decide) (by decide) ops
  exact ⟨⟨q, q', hq, hrun⟩, ⟨s, s', hs, hrun'⟩⟩

lemma QueueMap.push_ne_einval {value_size : ℕ} (q : QueueMap value_size) (v : MapValue value_size)
    (flags : ℕ) :
    q.push v flags ≠ some (.failed .EINVAL, q) := by
  intro h
  unfold push at h
  split_ifs at h
  · obtain ⟨q', -, hreply⟩ := map_eq_some_iff.mp h
    exact absurd (Prod.mk.inj hreply).1 (by decide)
  · exact absurd (Prod.mk.inj (some.inj h)).1 (by decide)
  · obtain ⟨q', -, hreply⟩ := map_eq_some_iff.mp h
    exact absurd (Prod.mk.inj hreply).1 (by decide)

lemma StackMap.push_ne_einval {value_size : ℕ} (s : StackMap value_size) (v : MapValue value_size)
    (flags : ℕ) :
    s.push v flags ≠ some (.failed .EINVAL, s) := by
  intro h
  unfold push at h
  split_ifs at h
  · obtain ⟨s', -, hreply⟩ := map_eq_some_iff.mp h
    exact absurd (Prod.mk.inj hreply).1 (by decide)
  all_goals exact absurd (Prod.mk.inj (some.inj h)).1 (by decide)

/-- In every state of a queue and of a stack, `elem_update` and `map_push_elem` answer the same and
leave the same state exactly for a null pointer and for the flags that `map_push_elem` knows:
`elem_update` does not look at other flags. -/
theorem push_ways_agree_iff {value_size : ℕ} (value : Option (MapValue value_size)) (flags : ℕ) :
    (∀ q : QueueMap value_size, q.elemUpdate value flags = q.mapPushElem value flags ↔
      value = none ∨ flags = bpfAny ∨ flags = bpfExist) ∧
    ∀ s : StackMap value_size, s.elemUpdate value flags = s.mapPushElem value flags ↔
      value = none ∨ flags = bpfAny ∨ flags = bpfExist := by
  cases value with
  | none => exact ⟨fun q => iff_of_true rfl (Or.inl rfl), fun s => iff_of_true rfl (Or.inl rfl)⟩
  | some v =>
    by_cases hflags : flags = bpfAny ∨ flags = bpfExist
    · have hknown : ¬(flags ≠ 0 ∧ flags ≠ bpfAny ∧ flags ≠ bpfExist) := fun h => flags_refused_iff.mp h hflags
      constructor
      · intro q
        refine iff_of_true ?_ (Or.inr hflags)
        rw [QueueMap.elemUpdate, QueueMap.mapPushElem, if_neg hknown]
      · intro s
        refine iff_of_true ?_ (Or.inr hflags)
        rw [StackMap.elemUpdate, StackMap.mapPushElem, if_neg hknown]
    · have hrefused := flags_refused_iff.mpr hflags
      have hno : ¬(some v = none ∨ flags = bpfAny ∨ flags = bpfExist) := fun h =>
          hflags (h.resolve_left (by simp))
      constructor
      · intro q
        refine iff_of_false ?_ hno
        rw [QueueMap.elemUpdate, QueueMap.mapPushElem, if_pos hrefused]
        exact q.push_ne_einval v flags
      · intro s
        refine iff_of_false ?_ hno
        rw [StackMap.elemUpdate, StackMap.mapPushElem, if_pos hrefused]
        exact s.push_ne_einval v flags

/-- With `BPF_NOEXIST` on new maps, `elem_update` pushes the value and `map_push_elem` refuses the
flags. -/
theorem push_ways_differ_noExist : (∃ q, QueueMap.create 1 2 = some q ∧
    q.elemUpdate (some (oneByte 7)) bpfNoExist =
        some (.ok, { q with data := [7, 0], tail := 1, count := 1 }) ∧
      q.mapPushElem (some (oneByte 7)) bpfNoExist = some (.failed .EINVAL, q)) ∧
    ∃ s, StackMap.create 1 2 = some s ∧ s.elemUpdate (some (oneByte 7)) bpfNoExist =
        some (.ok, { s with data := [7] }) ∧
      s.mapPushElem (some (oneByte 7)) bpfNoExist = some (.failed .EINVAL, s) :=
  ⟨⟨_, rfl, rfl, rfl⟩, ⟨_, rfl, rfl, rfl⟩⟩

end Bpftime.QueueStack
