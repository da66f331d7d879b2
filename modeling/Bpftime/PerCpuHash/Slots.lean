import Bpftime.PerCpuHash.Model

/-!
# The slots of a per-CPU hash map

For its users the map gives each key one slot for each CPU.
-/

namespace Bpftime.PerCpuHash

open Bytes Runs Option List Nat Function AList PerCpuHashMap

variable {ks vs n : ℕ}

/-! ## Slots in a vector -/

def zeroSlot : MapValue vs := ⟨replicate vs 0, length_replicate⟩

lemma length_concat (slots : ℕ → MapValue vs) : (concat n slots).length = vs * n := by
  unfold concat
  rw [length_flatMap]
  have hlen : (range n).map (fun cpu => ((slots cpu).1).length) = replicate n vs := by
    rw [eq_replicate_iff]
    refine ⟨by simp, fun x hx => ?_⟩
    obtain ⟨cpu, -, rfl⟩ := mem_map.mp hx
    exact (slots cpu).2
  rw [hlen, sum_replicate, smul_eq_mul, mul_comm]

variable {c : ℕ} {r : Reply} {o : Op ks vs n} {m' : PerCpuHashMap}

lemma concat_split (slots : ℕ → MapValue vs) (hc : c < n) :
    concat n slots = concat c slots ++ (slots c).1 ++ concat (n - c - 1) fun i => slots (c + 1 + i) := by
  have hrange : range n = range c ++ [c] ++ (range (n - c - 1)).map (c + 1 + ·) := by
    rw [← range_succ, ← range_add]
    congr 1
    omega
  unfold concat
  rw [hrange, flatMap_append, flatMap_append, flatMap_singleton, flatMap_map]

lemma slot_le (vs : ℕ) (hc : c < n) : vs * c + vs ≤ vs * n := by
  rw [← mul_succ]
  exact Nat.mul_le_mul_left vs hc

lemma readRange_concat (slots : ℕ → MapValue vs) (hc : c < n) :
    readRange (concat n slots) (vs * c) vs = some (slots c).1 := by
  have h := readRange_append (concat c slots) (slots c).1 (concat (n - c - 1) fun i => slots (c + 1 + i))
  rw [← concat_split slots hc, length_concat, (slots c).2] at h
  exact h

lemma eq_concat_iff {l : List UInt8} {slots : ℕ → MapValue vs} : l = concat n slots ↔
    l.length = vs * n ∧ ∀ c < n, readRange l (vs * c) vs = some (slots c).1 := by
  constructor
  · rintro rfl
    exact ⟨length_concat slots, fun c hc => readRange_concat slots hc⟩
  · rintro ⟨hlen, hread⟩
    apply ext_getElem?
    intro i
    by_cases hi : i < vs * n
    · -- Each index lies in the slot of one CPU, which both vectors hold.
      have hvs : 0 < vs := Nat.pos_of_mul_pos_right (zero_lt_of_lt hi)
      have hc : i / vs < n := Nat.div_lt_of_lt_mul hi
      have h1 := (readRange_eq_some.mp (hread _ hc)).2.2 (i % vs) (mod_lt _ hvs)
      have h2 := (readRange_eq_some.mp (readRange_concat slots hc)).2.2 (i % vs) (mod_lt _ hvs)
      rw [div_add_mod] at h1 h2
      rw [← h1, ← h2]
    · rw [getElem?_eq_none (by omega), getElem?_eq_none (by rw [length_concat]; omega)]

lemma concat_inj {f g : ℕ → MapValue vs} : concat n f = concat n g ↔ ∀ c < n, f c = g c := by
  rw [eq_concat_iff, length_concat]
  constructor
  · rintro ⟨-, h⟩ c hc
    have hr := h c hc
    rw [readRange_concat f hc, some.injEq] at hr
    exact Subtype.ext hr
  · intro h
    refine ⟨rfl, fun c hc => ?_⟩
    rw [readRange_concat f hc, h c hc]

lemma readRange_replicate_zero {k off m : ℕ} (h : off + m ≤ k) :
    readRange (replicate k (0 : UInt8)) off m = some (replicate m 0) := by
  unfold readRange
  rw [if_pos (by rw [length_replicate]; exact h), drop_replicate, take_replicate, Nat.min_eq_left (by omega)]

lemma replicate_eq_concat : replicate (vs * n) 0 = concat n fun _ => (zeroSlot : MapValue vs) := by
  rw [eq_concat_iff, length_replicate]
  exact ⟨rfl, fun c hc => readRange_replicate_zero (slot_le vs hc)⟩

lemma writeRange_concat (slots : ℕ → MapValue vs) (hc : c < n) (value : MapValue vs) :
    writeRange (concat n slots) (vs * c) value.1 = some (concat n (update slots c value)) := by
  have hb : vs * c + value.1.length ≤ (concat n slots).length := by
    rw [value.2, length_concat]
    exact slot_le vs hc
  obtain ⟨l, hl⟩ := writeRange_isSome _ _ _ hb
  rw [hl, some.injEq, eq_concat_iff, length_writeRange hl, length_concat]
  refine ⟨rfl, fun c' hc' => ?_⟩
  rcases eq_or_ne c' c with rfl | hne
  · have h := readRange_writeRange_self hl
    rw [value.2] at h
    rw [h, update_self]
  · have hapart : Apart (vs * c') vs (vs * c) value.1.length := by
      rw [value.2]
      rcases Nat.lt_or_gt_of_ne hne with hlt | hgt
      · exact .inl (slot_le vs hlt)
      · exact .inr (slot_le vs hgt)
    rw [(agreeOff_writeRange hl).readRange_eq hapart, readRange_concat slots hc', update_of_ne hne]

lemma fill_concat (slots : ℕ → MapValue vs) (hc : c < n) :
    writeRange (concat n slots) 0 (replicate (vs * c) 0) =
    some (concat n fun i => if i < c then zeroSlot else slots i) := by
  have hb : 0 + (replicate (vs * c) (0 : UInt8)).length ≤ (concat n slots).length := by
    have := slot_le vs hc
    rw [length_replicate, length_concat]
    omega
  obtain ⟨l, hl⟩ := writeRange_isSome _ _ _ hb
  rw [hl, some.injEq, eq_concat_iff, length_writeRange hl, length_concat]
  refine ⟨rfl, fun c' hc' => ?_⟩
  by_cases hlt : c' < c
  · have hle := slot_le vs hlt
    rw [if_pos hlt]
    have h := readRange_writeRange_self hl
    rw [length_replicate, readRange_eq_some] at h
    obtain ⟨hlen, -, hel⟩ := h
    have hz := readRange_eq_some.mp (readRange_replicate_zero hle)
    rw [zeroSlot, readRange_eq_some]
    refine ⟨by omega, length_replicate, fun i hi => ?_⟩
    rw [hz.2.2 i hi, hel _ (by omega), zero_add]
  · have hapart : Apart (vs * c') vs 0 (replicate (vs * c) (0 : UInt8)).length := by
      have := Nat.mul_le_mul_left vs (Nat.le_of_not_lt hlt)
      rw [length_replicate]
      exact .inr (by omega)
    rw [(agreeOff_writeRange hl).readRange_eq hapart, readRange_concat slots hc', if_neg hlt]

abbrev Contents (vs : ℕ) := List UInt8 → Option (ℕ → MapValue vs)

/-- The vectors hold the slots of the `n` CPUs in their order. -/
def Represents (n : ℕ) (m : PerCpuHashMap) (a : Contents vs) : Prop :=
  ∀ k, m.impl.lookup k = (a k).map (concat n)

/-- The contents after a call that returned `r`. -/
def after (a : Contents vs) : Op ks vs n → Reply → Contents vs
  | .update cpu key value _, .done .ok =>
    update a key.1 (some (update ((a key.1).getD fun _ => zeroSlot) cpu value))
  | .delete cpu key, .done .ok =>
    update a key.1 ((a key.1).map fun slots => update slots cpu zeroSlot)
  | .updateUserspace key slots _, .done .ok => update a key.1 (some slots)
  | .deleteUserspace key, .done .ok => update a key.1 none
  | .lookupAndDeleteUserspace key, .value (.ok _) => update a key.1 none
  | _, _ => a

/-- The answer of a lookup that wants `view` of the slots of a key. -/
def answer (view : (ℕ → MapValue vs) → List UInt8) (slots : Option (ℕ → MapValue vs)) :
    Except Errno (List UInt8) :=
  match slots with
  | some slots => .ok (view slots)
  | none => .error .ENOENT

/-- What a call may return: a lookup returns the slot of its CPU, or those of all of them, and a
change of a key that is there succeeds when its flags ask for nothing else. -/
def ReplyRight (a : Contents vs) : Op ks vs n → Reply → Prop
  | .lookup cpu key, r => r = .value (answer (fun slots => (slots cpu).1) (key.bind fun k => a k.1))
  | .lookupUserspace key, r => r = .value (answer (concat n) (key.bind fun k => a k.1))
  | .lookupAndDeleteUserspace key, r => r = .value (answer (concat n) (a key.1))
  | .update _ key _ flags, r => ∃ o, r = .done o ∧ (flags = 0 ∧ (a key.1).isSome → o = .ok)
  | .updateUserspace key _ flags, r => ∃ o, r = .done o ∧ (flags = 0 ∧ (a key.1).isSome → o = .ok)
  | .delete _ key, r => ∃ o, r = .done o ∧ ((a key.1).isSome → o = .ok)
  | .deleteUserspace key, r => ∃ o, r = .done o ∧ ((a key.1).isSome → o = .ok)

/-- A call that answers from the slots and changes them as it should. -/
def StepRight (m : PerCpuHashMap) (o : Op ks vs n) : Prop :=
  ∃ r m', step m o = some (r, m') ∧
    ∀ a : Contents vs, Represents n m a → ReplyRight a o r ∧ Represents n m' (after a o r)

/-- The updates that a system call does not refuse. -/
def Accepts (m : PerCpuHashMap) (k : List UInt8) (flags : UInt64) : Prop :=
  checkUpdateFlags flags ∧ ¬(flags = 1 ∧ (m.impl.lookup k).isSome) ∧
    ¬(flags = 2 ∧ ¬(m.impl.lookup k).isSome) ∧
    ¬(¬(m.impl.lookup k).isSome ∧ m.impl.keys.length = m.max_entries)

def Fits (m : PerCpuHashMap) : Op ks vs n → Prop
  | .update _ _ _ flags => checkUpdateFlags flags → vs * n < 2^32
  | .updateUserspace key _ flags => Accepts m key.1 flags → vs * n < 2^32
  | .delete cpu key => ∀ bytes, m.impl.lookup key.1 = some bytes → ∀ b ∈ bytes.take (vs * (cpu + 1)), b = 0
  | _ => True

section Accepts

variable {m : PerCpuHashMap} {k : List UInt8} {flags : UInt64}

lemma elemUpdateUserspace_of_accepts {value : List UInt8} (h : Accepts m k flags) :
    m.elemUpdateUserspace k value flags = (.ok, { m with
    impl := m.impl.insert k (value.take (m.value_size * m.ncpu % 2^32)) }) := by
  unfold elemUpdateUserspace
  rw [if_pos h.1, if_neg h.2.1, if_neg h.2.2.1, if_neg h.2.2.2]

lemma elemUpdateUserspace_of_not_accepts (h : ¬Accepts m k flags)
    (value : List UInt8) : ∃ e, m.elemUpdateUserspace k value flags = (.error e, m) := by
  unfold elemUpdateUserspace
  by_cases hflags : checkUpdateFlags flags
  · rw [if_pos hflags]
    by_cases hexist : flags = 1 ∧ (m.impl.lookup k).isSome
    · exact ⟨_, if_pos hexist⟩
    · rw [if_neg hexist]
      by_cases hnoent : flags = 2 ∧ ¬(m.impl.lookup k).isSome
      · exact ⟨_, if_pos hnoent⟩
      · rw [if_neg hnoent]
        exact ⟨_, if_pos (not_not.mp fun hbig => h ⟨hflags, hexist, hnoent, hbig⟩)⟩
  · exact ⟨_, if_neg hflags⟩

lemma accepts_of_present (h : (m.impl.lookup k).isSome) : Accepts m k 0 :=
  ⟨rfl, fun h' => absurd h'.1 (by decide), fun h' => h'.2 h, fun h' => h'.1 h⟩

end Accepts

/-- Every vector has the length that is computed in 32 bits. -/
structure Sized (vs n : ℕ) (m : PerCpuHashMap) : Prop where
  value_size : m.value_size = vs
  ncpu : m.ncpu = n
  length : ∀ k bytes, m.impl.lookup k = some bytes → bytes.length = vs * n % 2^32

lemma step_cases {m : PerCpuHashMap} (hm : Sized vs n m) (h : step m o = some (r, m')) :
    m' = m ∨ (∃ k bytes, bytes.length = vs * n % 2^32 ∧ m' = { m with impl := m.impl.insert k bytes }) ∨
      ∃ k, m' = { m with impl := m.impl.erase k } := by
  cases o with
  | lookup cpu key =>
    obtain ⟨x, -, hx⟩ := map_eq_some_iff.mp h
    cases hx
    exact .inl rfl
  | lookupUserspace key =>
    cases h
    exact .inl rfl
  | update cpu key value flags =>
    obtain ⟨x, hx, hx'⟩ := map_eq_some_iff.mp h
    cases hx'
    unfold elemUpdate at hx
    by_cases hflags : checkUpdateFlags flags
    · rw [if_pos hflags] at hx
      cases hk : m.impl.lookup key.1 with
      | none =>
        rw [hk] at hx
        obtain ⟨l, hl, hl'⟩ := map_eq_some_iff.mp hx
        cases hl'
        refine .inr (.inl ⟨_, l, ?_, rfl⟩)
        rw [length_writeRange hl, valueTemplate, length_replicate, hm.value_size, hm.ncpu]
      | some old =>
        rw [hk] at hx
        obtain ⟨l, hl, hl'⟩ := map_eq_some_iff.mp hx
        cases hl'
        exact .inr (.inl ⟨_, l, (length_writeRange hl).trans (hm.length _ _ hk), rfl⟩)
    · rw [if_neg hflags] at hx
      cases hx
      exact .inl rfl
  | delete cpu key =>
    obtain ⟨x, hx, hx'⟩ := map_eq_some_iff.mp h
    cases hx'
    unfold elemDelete at hx
    cases hk : m.impl.lookup key.1 with
    | none =>
      rw [hk] at hx
      cases hx
      exact .inl rfl
    | some old =>
      rw [hk] at hx
      obtain ⟨l, hl, hl'⟩ := map_eq_some_iff.mp hx
      cases hl'
      exact .inr (.inl ⟨_, l, (length_writeRange hl).trans (hm.length _ _ hk), rfl⟩)
  | updateUserspace key slots flags =>
    cases h
    by_cases haccepts : Accepts m key.1 flags
    · rw [elemUpdateUserspace_of_accepts haccepts]
      refine .inr (.inl ⟨_, _, ?_, rfl⟩)
      rw [length_take, length_concat, hm.value_size, hm.ncpu]
      exact Nat.min_eq_left (mod_le _ _)
    · obtain ⟨e, he⟩ := elemUpdateUserspace_of_not_accepts haccepts (concat n slots)
      rw [he]
      exact .inl rfl
  | deleteUserspace key =>
    cases h
    unfold elemDeleteUserspace
    cases hk : m.impl.lookup key.1 with
    | none => exact .inl rfl
    | some old => exact .inr (.inr ⟨_, rfl⟩)
  | lookupAndDeleteUserspace key =>
    obtain ⟨x, hx, hx'⟩ := map_eq_some_iff.mp h
    cases hx'
    unfold lookupAndDeleteUserspace at hx
    cases hk : m.impl.lookup key.1 with
    | none =>
      rw [hk] at hx
      cases hx
      exact .inl rfl
    | some old =>
      rw [hk] at hx
      obtain ⟨l, -, hl'⟩ := map_eq_some_iff.mp hx
      cases hl'
      exact .inr (.inr ⟨_, rfl⟩)

lemma Sized.step {m : PerCpuHashMap} (hm : Sized vs n m) (h : PerCpuHash.step m o = some (r, m')) :
    Sized vs n m' := by
  rcases step_cases hm h with rfl | ⟨k, bytes, hlen, rfl⟩ | ⟨k, rfl⟩
  · exact hm
  · refine ⟨hm.value_size, hm.ncpu, fun k' bytes' h' => ?_⟩
    rcases eq_or_ne k' k with rfl | hne
    · rw [lookup_insert, some.injEq] at h'
      rw [← h', hlen]
    · rw [lookup_insert_ne hne] at h'
      exact hm.length k' bytes' h'
  · refine ⟨hm.value_size, hm.ncpu, fun k' bytes' h' => ?_⟩
    rcases eq_or_ne k' k with rfl | hne
    · rw [lookup_erase] at h'
      cases h'
    · rw [lookup_erase_ne hne] at h'
      exact hm.length k' bytes' h'

lemma sized_create (vs n max_entries : ℕ) : Sized vs n (.create vs max_entries n) :=
  ⟨rfl, rfl, fun _ _ h => by cases h⟩

/-- What holds in every state: the vectors have their lengths and hold slots. -/
structure Inv (vs n : ℕ) (m : PerCpuHashMap) : Prop extends Sized vs n m where
  represents : ∃ a : Contents vs, Represents n m a

/-! ## One call -/

section Step

variable {m : PerCpuHashMap} {a : Contents vs}

section

variable (h : Represents n m a) (k : List UInt8)
include h

lemma Represents.insert (slots : ℕ → MapValue vs) :
    Represents n { m with impl := m.impl.insert k (concat n slots) } (update a k (some slots)) := by
  intro k'
  rcases eq_or_ne k' k with rfl | hne
  · rw [update_self, map_some, lookup_insert]
  · rw [update_of_ne hne, lookup_insert_ne hne]
    exact h k'

lemma Represents.erase : Represents n { m with impl := m.impl.erase k } (update a k none) := by
  intro k'
  rcases eq_or_ne k' k with rfl | hne
  · rw [update_self, map_none]
    exact lookup_erase _ _
  · rw [update_of_ne hne]
    exact (lookup_erase_ne hne).trans (h k')

lemma Represents.isSome : (m.impl.lookup k).isSome = (a k).isSome := by rw [h k, isSome_map]

end

variable {k : List UInt8} {slots : ℕ → MapValue vs} {flags : UInt64}

lemma Represents.unique (h : Represents n m a) {slots' : ℕ → MapValue vs}
    (ha : a k = some slots) (hm : m.impl.lookup k = some (concat n slots')) :
    ∀ c < n, slots c = slots' c := by
  rw [h k, ha, map_some, some.injEq] at hm
  exact concat_inj.mp hm

section

variable (hi : Inv vs n m)
include hi

lemma Inv.offset (hfit : vs * n < 2^32) {c : ℕ} (hc : c < n) : m.offset c = vs * c := by
  have hle := slot_le vs hc
  unfold PerCpuHashMap.offset
  rw [hi.value_size]
  exact mod_eq_of_lt (by omega)

lemma Inv.fits_of_lookup {bytes : List UInt8} (h : m.impl.lookup k = some bytes) : vs * n < 2^32 := by
  obtain ⟨a, ha⟩ := hi.represents
  obtain ⟨slots, -, rfl⟩ := map_eq_some_iff.mp ((ha k).symm.trans h)
  have hlen := hi.length k _ h
  rw [length_concat] at hlen
  rw [hlen]
  exact mod_lt _ (by norm_num)

lemma elemLookup_eq (ha : Represents n m a) (cpu : Fin n) (key : Option (MapValue ks)) :
    m.elemLookup cpu (key.map Subtype.val) =
    some (answer (fun slots => (slots cpu).1) (key.bind fun k => a k.1)) := by
  cases key with
  | none => rfl
  | some key =>
    unfold elemLookup
    dsimp only [map_some, bind_some]
    have hk := ha key.1
    cases hslots : a key.1 with
    | none =>
      rw [hslots, map_none] at hk
      rw [hk]
      rfl
    | some slots =>
      rw [hslots, map_some] at hk
      rw [hk]
      dsimp only
      rw [hi.offset (hi.fits_of_lookup hk) cpu.2, hi.value_size, readRange_concat slots cpu.2]
      rfl

lemma elemUpdate_eq (ha : Represents n m a) (hfit : vs * n < 2^32) (cpu : Fin n)
    (k : List UInt8) (value : MapValue vs) (hflags : checkUpdateFlags flags) :
    m.elemUpdate cpu k value.1 flags = some (.ok, { m with
    impl := m.impl.insert k (concat n (update ((a k).getD fun _ => zeroSlot) cpu value)) }) := by
  unfold elemUpdate
  rw [if_pos hflags, hi.offset hfit cpu.2]
  have hk := ha k
  cases hslots : a k with
  | none =>
    rw [hslots, map_none] at hk
    have htemplate : m.valueTemplate = concat n fun _ => (zeroSlot : MapValue vs) := by
      unfold valueTemplate
      rw [hi.value_size, hi.ncpu, mod_eq_of_lt hfit, replicate_eq_concat]
    rw [hk]
    dsimp only
    rw [htemplate, writeRange_concat _ cpu.2]
    rfl
  | some slots =>
    rw [hslots, map_some] at hk
    rw [hk]
    dsimp only
    rw [writeRange_concat _ cpu.2]
    rfl

lemma elemDelete_eq (cpu : Fin n) (hk : m.impl.lookup k = some (concat n slots)) :
    m.elemDelete cpu k = some (.ok, { m with
    impl := m.impl.insert k (concat n fun i => if i < cpu then zeroSlot else slots i) }) := by
  unfold elemDelete
  rw [hk]
  dsimp only
  rw [hi.offset (hi.fits_of_lookup hk) cpu.2, fill_concat _ cpu.2]
  rfl

end

lemma forall_take_concat_iff (slots : ℕ → MapValue vs) (cpu : Fin n) :
    (∀ b ∈ (concat n slots).take (vs * (cpu + 1)), b = 0) ↔ ∀ c ≤ cpu.1, slots c = zeroSlot := by
  have hsplit : (concat n slots).take (vs * (cpu + 1)) = concat (cpu + 1) slots := by
    have hlen : (concat cpu.1 slots ++ (slots cpu).1).length = vs * (cpu + 1) := by
      rw [length_append, length_concat, (slots cpu).2, mul_succ]
    have hown : concat cpu.1 slots ++ (slots cpu).1 = concat (cpu + 1) slots := by
      rw [concat_split slots (lt_succ_self cpu.1), succ_eq_add_one]
      simp [concat]
    rw [concat_split slots cpu.2, ← hlen, take_left, hown]
  have hzero : (∀ b ∈ concat (cpu + 1) slots, b = 0) ↔
      concat (cpu + 1) slots = replicate (vs * (cpu + 1)) 0 := by
    rw [eq_replicate_iff, length_concat, and_iff_right rfl]
  rw [hsplit, hzero, replicate_eq_concat, concat_inj]
  exact forall_congr' fun c => imp_congr_left Nat.lt_succ_iff

lemma stepRight_of (hi : Inv vs n m) {o : Op ks vs n}
    (h : ∀ a : Contents vs, Represents n m a → ∃ r m', step m o = some (r, m') ∧ ReplyRight a o r ∧
    Represents n m' (after a o r)) : StepRight m o := by
  obtain ⟨a, ha⟩ := hi.represents
  obtain ⟨r, m', hstep, -⟩ := h a ha
  refine ⟨r, m', hstep, fun a' ha' => ?_⟩
  obtain ⟨r', m'', hstep', hright⟩ := h a' ha'
  cases hstep.symm.trans hstep'
  exact hright

lemma elemUpdate_ok {m' : PerCpuHashMap} {cpu : Fin n} {key : MapValue ks} {value : MapValue vs} {r : Reply}
    (hflags : checkUpdateFlags flags) (h : step m (.update cpu key value flags) = some (r, m')) :
    r = .done .ok := by
  obtain ⟨x, hx, hx'⟩ := map_eq_some_iff.mp h
  cases hx'
  unfold elemUpdate at hx
  rw [if_pos hflags] at hx
  cases hk : m.impl.lookup key.1 with
  | none | some _ =>
    rw [hk] at hx
    obtain ⟨l, -, hl⟩ := map_eq_some_iff.mp hx
    cases hl
    rfl

lemma stepRight_update_iff (hi : Inv vs n m) (cpu : Fin n) (key : MapValue ks) (value : MapValue vs)
    (flags : UInt64) : StepRight m (.update cpu key value flags) ↔ Fits m (.update cpu key value flags) := by
  obtain ⟨a, ha⟩ := hi.represents
  constructor
  · rintro ⟨r, m', hstep, hright⟩ hflags
    have hr : r = .done .ok := elemUpdate_ok hflags hstep
    subst hr
    have hi' : Inv vs n m' := ⟨hi.step hstep, _, (hright a ha).2⟩
    have hk := (hright a ha).2 key.1
    dsimp only [after] at hk
    rw [update_self, map_some] at hk
    exact hi'.fits_of_lookup hk
  · intro hfits
    by_cases hflags : checkUpdateFlags flags
    · refine stepRight_of hi fun a ha => ?_
      unfold step
      dsimp only
      rw [elemUpdate_eq hi ha (hfits hflags) cpu key.1 value hflags]
      exact ⟨_, _, rfl, ⟨_, rfl, fun _ => rfl⟩, ha.insert key.1 _⟩
    · refine ⟨.done (.error .EINVAL), m, ?_, fun a ha => ⟨⟨_, rfl, ?_⟩, ha⟩⟩
      · unfold step elemUpdate
        dsimp only
        rw [if_neg hflags]
        rfl
      · rintro ⟨rfl, -⟩
        exact absurd rfl hflags

lemma stepRight_delete_iff (hi : Inv vs n m) (cpu : Fin n) (key : MapValue ks) :
    StepRight m (.delete cpu key : Op ks vs n) ↔ Fits m (.delete cpu key : Op ks vs n) := by
  obtain ⟨a, ha⟩ := hi.represents
  cases hslots : a key.1 with
  | none =>
    have hk : m.impl.lookup key.1 = none := by rw [ha key.1, hslots, map_none]
    refine iff_of_true (stepRight_of hi fun a ha => ?_) (fun bytes hbytes => ?_)
    · have hnone : a key.1 = none := map_eq_none_iff.mp ((ha key.1).symm.trans hk)
      refine ⟨.done .ok, m, ?_, ⟨_, rfl, fun _ => rfl⟩, ?_⟩
      · unfold step elemDelete
        dsimp only
        rw [hk]
        rfl
      · dsimp only [after]
        rw [hnone, map_none, ← hnone, update_eq_self]
        exact ha
    · rw [hk] at hbytes
      cases hbytes
  | some slots =>
    have hk : m.impl.lookup key.1 = some (concat n slots) := by rw [ha key.1, hslots, map_some]
    have hstep : step m (.delete cpu key : Op ks vs n) = some (.done .ok, { m with
        impl := m.impl.insert key.1 (concat n fun i => if i < cpu then zeroSlot else slots i) }) := by
      unfold step
      dsimp only
      rw [elemDelete_eq hi cpu hk]
      rfl
    have hfits : Fits m (.delete cpu key : Op ks vs n) ↔ ∀ c ≤ cpu.1, slots c = zeroSlot := by
      rw [← forall_take_concat_iff]
      exact ⟨fun h => h _ hk, fun h bytes hbytes => some.inj (hk.symm.trans hbytes) ▸ h⟩
    rw [hfits]
    constructor
    · rintro ⟨r, m', hstep', hright⟩ c hc
      cases hstep.symm.trans hstep'
      have hrep := (hright a ha).2 key.1
      dsimp only [after] at hrep
      rw [lookup_insert, update_self, hslots, map_some, map_some, some.injEq, concat_inj] at hrep
      -- The slots before the CPU's are cleared although they should stay, and its own stays.
      have hc' := hrep c (by omega)
      rcases Nat.lt_or_eq_of_le hc with hlt | rfl
      · rw [if_pos hlt, update_of_ne hlt.ne] at hc'
        exact hc'.symm
      · rw [if_neg (lt_irrefl _), update_self] at hc'
        exact hc'
    · intro hzero
      refine stepRight_of hi fun a' ha' => ⟨_, _, hstep, ⟨_, rfl, fun _ => rfl⟩, ?_⟩
      -- Nothing changes, and nothing has to.
      have hsame : (fun i => if i < cpu.1 then zeroSlot else slots i) = slots := by
        funext i
        split_ifs with hlt
        · exact (hzero i hlt.le).symm
        · rfl
      obtain ⟨slots', hslots'⟩ : ∃ slots', a' key.1 = some slots' :=
        isSome_iff_exists.mp (by rw [← ha'.isSome, hk, isSome_some])
      have hsame' : concat n (update slots' cpu zeroSlot) = concat n slots := by
        rw [concat_inj]
        intro c hc
        have hu := ha'.unique hslots' hk c hc
        rcases eq_or_ne c cpu.1 with rfl | hne
        · rw [update_self, hzero _ le_rfl]
        · rw [update_of_ne hne, hu]
      dsimp only [after]
      rw [hsame, hslots', map_some, ← hsame']
      exact ha'.insert key.1 _

lemma stepRight_updateUserspace_iff (hi : Inv vs n m) (key : MapValue ks) (slots : ℕ → MapValue vs)
    (flags : UInt64) : StepRight m (.updateUserspace key slots flags : Op ks vs n) ↔
    Fits m (.updateUserspace key slots flags : Op ks vs n) := by
  obtain ⟨a, ha⟩ := hi.represents
  by_cases haccepts : Accepts m key.1 flags
  · have hstep : step m (.updateUserspace key slots flags : Op ks vs n) = some (.done .ok, { m with
        impl := m.impl.insert key.1 ((concat n slots).take (vs * n % 2^32)) }) := by
      unfold step
      dsimp only
      rw [elemUpdateUserspace_of_accepts haccepts, hi.value_size, hi.ncpu]
    have hfits : Fits m (.updateUserspace key slots flags : Op ks vs n) ↔ vs * n < 2^32 :=
      ⟨fun h => h haccepts, fun h _ => h⟩
    rw [hfits]
    constructor
    · rintro ⟨r, m', hstep', hright⟩
      have hi' : Inv vs n m' := ⟨hi.step hstep', _, (hright a ha).2⟩
      cases hstep.symm.trans hstep'
      exact hi'.fits_of_lookup (lookup_insert _)
    · intro hfit
      refine stepRight_of hi fun a ha => ⟨_, _, hstep, ⟨_, rfl, fun _ => rfl⟩, ?_⟩
      rw [mod_eq_of_lt hfit, ← length_concat slots, take_length]
      exact ha.insert key.1 slots
  · refine iff_of_true (stepRight_of hi fun a ha => ?_) fun h => absurd h haccepts
    obtain ⟨e, he⟩ := elemUpdateUserspace_of_not_accepts haccepts (concat n slots)
    refine ⟨.done (.error e), m, ?_, ⟨_, rfl, ?_⟩, ha⟩
    · unfold step
      dsimp only
      rw [he]
    · rintro ⟨rfl, hsome⟩
      exact absurd (accepts_of_present (by rw [ha.isSome]; exact hsome)) haccepts

lemma stepRight_lookup (hi : Inv vs n m) (cpu : Fin n) (key : Option (MapValue ks)) :
    StepRight m (.lookup cpu key : Op ks vs n) := by
  refine stepRight_of hi fun a ha => ?_
  unfold step
  dsimp only
  rw [elemLookup_eq hi ha cpu key]
  exact ⟨_, _, rfl, rfl, ha⟩

lemma elemLookupUserspace_eq (ha : Represents n m a) (key : Option (MapValue ks)) :
    m.elemLookupUserspace (key.map Subtype.val) = answer (concat n) (key.bind fun k => a k.1) := by
  cases key with
  | none => rfl
  | some key =>
    unfold elemLookupUserspace
    dsimp only [map_some, bind_some]
    rw [ha key.1]
    cases a key.1 with
    | none => rfl
    | some slots => rfl

lemma stepRight_lookupUserspace (hi : Inv vs n m) (key : Option (MapValue ks)) :
    StepRight m (.lookupUserspace key : Op ks vs n) := by
  refine stepRight_of hi fun a ha => ⟨_, _, rfl, ?_, ha⟩
  unfold ReplyRight
  rw [elemLookupUserspace_eq ha key]

lemma stepRight_deleteUserspace (hi : Inv vs n m) (key : MapValue ks) :
    StepRight m (.deleteUserspace key : Op ks vs n) := by
  refine stepRight_of hi fun a ha => ⟨_, _, rfl, ?_⟩
  unfold elemDeleteUserspace
  rw [ha key.1]
  cases hslots : a key.1 with
  | none => exact ⟨⟨_, rfl, fun h => by rw [hslots] at h; cases h⟩, ha⟩
  | some slots => exact ⟨⟨_, rfl, fun _ => rfl⟩, ha.erase key.1⟩

lemma stepRight_lookupAndDeleteUserspace (hi : Inv vs n m) (key : MapValue ks) :
    StepRight m (.lookupAndDeleteUserspace key : Op ks vs n) := by
  refine stepRight_of hi fun a ha => ?_
  unfold step lookupAndDeleteUserspace
  dsimp only
  have hk := ha key.1
  cases hslots : a key.1 with
  | none =>
    rw [hslots, map_none] at hk
    rw [hk]
    refine ⟨_, _, rfl, ?_, ha⟩
    dsimp only [ReplyRight]
    rw [hslots]
    rfl
  | some slots =>
    rw [hslots, map_some] at hk
    rw [hk]
    dsimp only
    have hread : readRange (concat n slots) 0 (m.value_size * m.ncpu % 2^32) = some (concat n slots) := by
      have h := readRange_append ([] : List UInt8) (concat n slots) []
      rw [nil_append, append_nil, length_nil, length_concat] at h
      rw [hi.value_size, hi.ncpu, mod_eq_of_lt (hi.fits_of_lookup hk), h]
    rw [hread]
    refine ⟨_, _, rfl, ?_, ha.erase key.1⟩
    dsimp only [ReplyRight]
    rw [hslots]
    rfl

lemma stepRight_iff (hi : Inv vs n m) (o : Op ks vs n) : StepRight m o ↔ Fits m o := by
  cases o with
  | lookup cpu key => exact iff_of_true (stepRight_lookup hi cpu key) trivial
  | update cpu key value flags => exact stepRight_update_iff hi cpu key value flags
  | delete cpu key => exact stepRight_delete_iff hi cpu key
  | lookupUserspace key => exact iff_of_true (stepRight_lookupUserspace hi key) trivial
  | updateUserspace key slots flags => exact stepRight_updateUserspace_iff hi key slots flags
  | deleteUserspace key => exact iff_of_true (stepRight_deleteUserspace hi key) trivial
  | lookupAndDeleteUserspace key => exact iff_of_true (stepRight_lookupAndDeleteUserspace hi key) trivial

end Step

lemma inv_create (vs n max_entries : ℕ) : Inv vs n (.create vs max_entries n) :=
  ⟨sized_create vs n max_entries, fun _ => none, fun _ => rfl⟩

lemma Inv.step {m : PerCpuHashMap} (hi : Inv vs n m) (hright : StepRight m o)
    (h : PerCpuHash.step m o = some (r, m')) : Inv vs n m' := by
  obtain ⟨a, ha⟩ := hi.represents
  obtain ⟨r', m'', h', hrep⟩ := hright
  cases h.symm.trans h'
  exact ⟨hi.toSized.step h, _, (hrep a ha).2⟩

/-- In every run on a new map every call is right, so that it reads and writes the slots of its CPU
and no other ones, exactly when every call works. -/
theorem slots_iff (ks vs n max_entries : ℕ) (os : List (Op ks vs n)) :
    Along step StepRight (.create vs max_entries n) os ↔ Along step Fits (.create vs max_entries n) os := by
  have hinit := inv_create vs n max_entries
  constructor
  · refine along_of_invariant (fun m o (hi : Inv vs n m) hright => (stepRight_iff hi o).mp hright) ?_ hinit
    exact fun m o r m' hi hright hstep => hi.step hright hstep
  · refine along_of_invariant (fun m o (hi : Inv vs n m) hfits => (stepRight_iff hi o).mpr hfits) ?_ hinit
    exact fun m o r m' hi hfits hstep => hi.step ((stepRight_iff hi o).mpr hfits) hstep

/-- One CPU stores a byte and deletes the key again: its slot still holds the byte. -/
theorem not_stepRight_delete_own :
    ¬Along step StepRight (.create 1 1 1) [(.update 0 ⟨[0], rfl⟩ ⟨[7], rfl⟩ 0 : Op 1 1 1),
    .delete 0 ⟨[0], rfl⟩] := by
  rintro ⟨-, h⟩
  obtain ⟨⟨r, m', hstep, hright⟩, -⟩ := h _ _ rfl
  cases hstep
  let a : Contents 1 := update (fun _ => none) [0] (some fun _ => ⟨[7], rfl⟩)
  have hnew : Represents 1 (.create 1 1 1) (fun _ => none : Contents 1) := fun _ => rfl
  have hrep := (hright a (hnew.insert [0] fun _ => ⟨[7], rfl⟩)).2 [0]
  exact absurd hrep (by decide)

end Bpftime.PerCpuHash
