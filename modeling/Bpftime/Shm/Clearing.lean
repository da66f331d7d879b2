import Bpftime.Shm.Table

/-!
# Closing a handler

`clear_id_at` walks over the table and calls itself for each link to the perf event or of the
program that it removes, while the walk goes on over the table that the call leaves.
-/

namespace Bpftime

open Option List

lemma foldlM_range_rule {σ : Type*} {f : σ → ℕ → Option σ} (P : ℕ → σ → Prop) {s : σ} {n : ℕ}
    (h0 : P 0 s) (hstep : ∀ i < n, ∀ s, P i s → ∃ s', f s i = some s' ∧ P (i + 1) s') :
    ∃ s', (List.range n).foldlM f s = some s' ∧ P n s' := by
  induction n with
  | zero => exact ⟨s, rfl, h0⟩
  | succ n ih =>
    obtain ⟨s1, hfold, h1⟩ := ih fun i hi => hstep i (by omega)
    obtain ⟨s2, hlast, h2⟩ := hstep n (by omega) s1 h1
    refine ⟨s2, ?_, h2⟩
    rw [range_succ, foldlM_append, hfold]
    simp only [bind_eq_bind, bind_some, foldlM_cons, hlast, foldlM_nil]
    rfl

/-- The conversion of an index to `int`. -/
def asInt (i : ℕ) : ℤ := (i : ℤ).bmod (2^32)

lemma asInt_of_lt {i : ℕ} (hi : i < 2^31) : asInt i = i := by
  unfold asInt
  exact Int.bmod_eq_of_le (by omega) (by omega)

namespace BpftimeShm

/-- A turn of the walk of `clear_id_at` over the table, for the links that meet a test, with the
call of `clear_id_at` in it. -/
def walkTurn (clear : BpftimeShm → ℤ → Option BpftimeShm) (p : BpfLinkHandler → Bool)
    (s : BpftimeShm) (i : ℕ) : Option BpftimeShm :=
  match s.handlers[i]? with
  | some (.link l) => if p l then clear s (asInt i) else some s
  | _ => some s

/-- `clear_id_at`, with calls at most `depth` deep. -/
def clearIdAtRec : ℕ → BpftimeShm → ℤ → Option BpftimeShm
  | 0, _, _ => none
  | depth + 1, s, fd =>
    let walk (p : BpfLinkHandler → Bool) : Option BpftimeShm :=
      (List.range s.handlers.length).foldlM (walkTurn (clearIdAtRec depth) p) s
    match s.getHandler fd with
    | none => some s
    | some (.map m) => some { s.put fd .unused with segment := m.mapFree s.segment }
    | some (.perfEvent _) => (walk fun l => l.attach_target_id = fd).map (·.put fd .unused)
    | some (.prog _) => (walk fun l => l.prog_id = fd).map (·.put fd .unused)
    | some _ => some (s.put fd .unused)

/-- `clear_all`, with calls at most `depth` deep. -/
def clearAll (depth : ℕ) (s : BpftimeShm) : Option BpftimeShm :=
  (List.range s.handlers.length).foldlM (fun s i =>
    if s.isAllocated (asInt i) then clearIdAtRec depth s (asInt i) else some s) s

/-- Only slots that an `int` can name are in use, however large the table is. -/
def IntSlots (s : BpftimeShm) : Prop := ∀ i h, s.getHandler i = some h → 2^31 ≤ i → h = .unused

/-- A link to the perf event, or of the program, that is removed. -/
def Refers (fd : ℤ) : Handler → Handler → Prop
  | .perfEvent _, .link l => l.attach_target_id = fd
  | .prog _, .link l => l.prog_id = fd
  | _, _ => False

variable {s s' : BpftimeShm} {fd : ℤ} {h : Handler}

lemma intSlots_of_length_le (hlen : s.handlers.length ≤ 2^31) : s.IntSlots := by
  intro i h hi hle
  obtain ⟨-, hget⟩ := getHandler_eq_some.mp hi
  obtain ⟨hlt, -⟩ := List.getElem?_eq_some_iff.mp hget
  omega

lemma IntSlots.clearIdAt (hs : s.IntSlots) (fd : ℤ) : (s.clearIdAt fd).IntSlots := by
  rcases hfd : s.getHandler fd with _ | h
  · rwa [clearIdAt_of_none hfd]
  · intro i h' hi hle
    rw [getHandler_clearIdAt hfd] at hi
    split_ifs at hi with heq
    · exact (some.inj hi).symm
    · obtain ⟨h'', hget, rfl⟩ := map_eq_some_iff.mp hi
      rw [hs i h'' hget hle]
      rfl

lemma clearIdAtRec_link {l : BpfLinkHandler} (hfd : s.getHandler fd = some (.link l)) (depth : ℕ) :
    clearIdAtRec (depth + 1) s fd = some (s.put fd .unused) := by
  rw [clearIdAtRec]
  simp only [hfd]

def walked (p : BpfLinkHandler → Bool) : Handler → Handler
  | .link l => if p l then .unused else .link l
  | h => h

/-- The slots once those below `i` were walked over. -/
def walkedTo (p : BpfLinkHandler → Bool) (hs : List Handler) (i : ℕ) : List Handler :=
  hs.mapIdx fun j h => if j < i then walked p h else h

lemma getElem?_walkedTo (p : BpfLinkHandler → Bool) (hs : List Handler) (i j : ℕ) :
    (walkedTo p hs i)[j]? = hs[j]?.map fun h => if j < i then walked p h else h := by
  rw [walkedTo, getElem?_mapIdx]

variable {i depth : ℕ}

lemma walkedTo_succ {p : BpfLinkHandler → Bool} {hs : List Handler}
    (hi : hs[i]? = some h) : walkedTo p hs (i + 1) = (walkedTo p hs i).set i (walked p h) := by
  obtain ⟨hlt, -⟩ := List.getElem?_eq_some_iff.mp hi
  refine ext_getElem? fun j => ?_
  rcases eq_or_ne j i with rfl | hne
  · rw [getElem?_walkedTo, hi, getElem?_set_self (by simpa [walkedTo] using hlt)]
    simp
  · have hiff : j < i + 1 ↔ j < i := by omega
    rw [getElem?_walkedTo, getElem?_set_ne hne.symm, getElem?_walkedTo]
    simp only [hiff]

lemma walkedTo_length (p : BpfLinkHandler → Bool) (hs : List Handler) :
    walkedTo p hs hs.length = hs.map (walked p) := by
  refine ext_getElem? fun j => ?_
  rw [getElem?_walkedTo, getElem?_map]
  cases hj : hs[j]? with
  | none => rfl
  | some h =>
    obtain ⟨hlt, -⟩ := List.getElem?_eq_some_iff.mp hj
    simp [hlt]

lemma walkTurn_eq (hs : s.IntSlots) (p : BpfLinkHandler → Bool) (depth : ℕ) (hi : i < s.handlers.length) :
    walkTurn (clearIdAtRec (depth + 1)) p { s with handlers := walkedTo p s.handlers i } i =
      some { s with handlers := walkedTo p s.handlers (i + 1) } := by
  obtain ⟨h, hget⟩ : ∃ h, s.handlers[i]? = some h := ⟨_, getElem?_eq_getElem hi⟩
  have hcome : (walkedTo p s.handlers i)[i]? = some h := by
    rw [getElem?_walkedTo, hget]
    simp
  have hkeep : walked p h = h → walkedTo p s.handlers (i + 1) = walkedTo p s.handlers i := by
    intro hwalked
    rw [walkedTo_succ hget, hwalked]
    obtain ⟨hlt, rfl⟩ := List.getElem?_eq_some_iff.mp hcome
    exact set_getElem_self hlt
  unfold walkTurn
  rw [hcome]
  cases h with
  | link l =>
    dsimp only
    split_ifs with hp
    · -- Links are in slots that an `int` can name.
      have hlt : i < 2^31 := by
        by_contra hge
        have hslot : s.getHandler i = some (.link l) :=
          getHandler_eq_some.mpr ⟨by omega, by simpa using hget⟩
        cases hs i _ hslot (by omega)
      have hwalked : walked p (.link l) = .unused := if_pos hp
      have hslot : getHandler { s with handlers := walkedTo p s.handlers i } (asInt i) = some (.link l) := by
        rw [asInt_of_lt hlt]
        exact getHandler_eq_some.mpr ⟨by omega, by simpa using hcome⟩
      rw [clearIdAtRec_link hslot, asInt_of_lt hlt, walkedTo_succ hget, hwalked]
      simp [put]
    · rw [hkeep (if_neg hp)]
  | _ => rw [hkeep rfl]

lemma foldlM_walkTurn (hs : s.IntSlots) (p : BpfLinkHandler → Bool) (depth : ℕ) :
    (List.range s.handlers.length).foldlM (walkTurn (clearIdAtRec (depth + 1)) p) s =
    some (s.clearLinks p) := by
  have hstart : s = { s with handlers := walkedTo p s.handlers 0 } := by
    have hzero : walkedTo p s.handlers 0 = s.handlers := by
      refine ext_getElem? fun j => ?_
      simp [getElem?_walkedTo]
    rw [hzero]
  obtain ⟨s', hfold, rfl⟩ := foldlM_range_rule
    (fun i s' => s' = { s with handlers := walkedTo p s.handlers i }) hstart
    (f := walkTurn (clearIdAtRec (depth + 1)) p) (n := s.handlers.length) (by
      rintro i hi _ rfl
      exact ⟨_, walkTurn_eq hs p depth hi, rfl⟩)
  rw [hfold, walkedTo_length]
  rfl

lemma clearIdAtRec_eq (hs : s.IntSlots) (fd : ℤ) (hdepth : 2 ≤ depth) :
    clearIdAtRec depth s fd = some (s.clearIdAt fd) := by
  obtain ⟨depth, rfl⟩ := Nat.exists_eq_add_of_le' hdepth
  rw [clearIdAtRec]
  unfold clearIdAt
  simp only [foldlM_walkTurn hs]
  cases s.getHandler fd with
  | none => rfl
  | some h => cases h <;> rfl

lemma exists_of_isAllocated (halloc : s.isAllocated fd = true) : ∃ h, s.getHandler fd = some h := by
  unfold isAllocated at halloc
  cases hfd : s.getHandler fd with
  | none =>
    rw [hfd] at halloc
    cases halloc
  | some h => exact ⟨h, rfl⟩

lemma getHandler_clearIdAt_unused (hfd : s.getHandler fd = some h) {i : ℤ} {h' : Handler}
    (hunused : ∀ h'', s.getHandler i = some h'' → h'' = .unused)
    (hi : (s.clearIdAt fd).getHandler i = some h') : h' = .unused := by
  rw [getHandler_clearIdAt hfd] at hi
  split_ifs at hi with heq
  · exact (some.inj hi).symm
  · obtain ⟨h'', hget, rfl⟩ := map_eq_some_iff.mp hi
    rw [hunused h'' hget]
    rfl

/-- The slots below `n` cleared, one after another. -/
def clearedTo (s : BpftimeShm) (n : ℕ) : BpftimeShm :=
  (List.range n).foldl (fun s i => if s.isAllocated (asInt i) then s.clearIdAt (asInt i) else s) s

lemma clearedTo_succ (s : BpftimeShm) (n : ℕ) :
    s.clearedTo (n + 1) = if (s.clearedTo n).isAllocated (asInt n) then
    (s.clearedTo n).clearIdAt (asInt n) else s.clearedTo n := by
  unfold clearedTo
  rw [range_succ, foldl_append, foldl_cons, foldl_nil]

lemma clearedTo_spec (hs : s.IntSlots) (n : ℕ) :
    (s.clearedTo n).handlers.length = s.handlers.length ∧ (s.clearedTo n).IntSlots ∧
    ∀ (i : ℤ) h, (s.clearedTo n).getHandler i = some h → i < n → h = .unused := by
  induction n with
  | zero =>
    have hzero : s.clearedTo 0 = s := rfl
    rw [hzero]
    refine ⟨rfl, hs, fun i h hi hlt => ?_⟩
    have hpos := (getHandler_eq_some.mp hi).1
    omega
  | succ n ih =>
    obtain ⟨hlen, hslots, hbefore⟩ := ih
    have hsplit : ∀ i : ℤ, i < ((n + 1 : ℕ) : ℤ) → i < n ∨ i = n ∧ n < 2^31 ∨ 2^31 ≤ i := by
      intro i hi
      omega
    rw [clearedTo_succ]
    generalize s.clearedTo n = s1 at hlen hslots hbefore ⊢
    split_ifs with halloc
    · refine ⟨(length_clearIdAt _ _).trans hlen, hslots.clearIdAt _, fun i h hi hlt => ?_⟩
      obtain ⟨h1, hfd⟩ := exists_of_isAllocated halloc
      rcases hsplit i hlt with hlt' | ⟨rfl, hlt'⟩ | hge
      · exact getHandler_clearIdAt_unused hfd (fun h'' hi' => hbefore i h'' hi' hlt') hi
      · rw [asInt_of_lt hlt'] at hi hfd
        rw [getHandler_clearIdAt hfd, if_pos rfl] at hi
        exact (some.inj hi).symm
      · exact hslots.clearIdAt _ i h hi hge
    · refine ⟨hlen, hslots, fun i h hi hlt => ?_⟩
      rcases hsplit i hlt with hlt' | ⟨rfl, hlt'⟩ | hge
      · exact hbefore i h hi hlt'
      · rw [asInt_of_lt hlt', isAllocated, hi] at halloc
        cases h with
        | unused => rfl
        | _ => exact absurd rfl halloc
      · exact hslots i h hi hge

lemma clearAll_eq (hs : s.IntSlots) (hdepth : 2 ≤ depth) :
    clearAll depth s = some (s.clearedTo s.handlers.length) := by
  obtain ⟨s', hfold, rfl⟩ := foldlM_range_rule (fun n s' => s' = s.clearedTo n)
    (f := fun s i => if s.isAllocated (asInt i) then clearIdAtRec depth s (asInt i) else some s)
    (n := s.handlers.length) (s := s) rfl (by
      rintro n - _ rfl
      refine ⟨_, ?_, rfl⟩
      rw [clearIdAtRec_eq (clearedTo_spec hs n).2.1 _ hdepth, clearedTo_succ]
      split_ifs with halloc
      · rfl
      · rfl)
  exact hfold

lemma cutSlot_eq_ite (fd : ℤ) (cleared h' : Handler) :
    (Refers fd cleared h' → cutSlot fd cleared h' = .unused) ∧
    (¬Refers fd cleared h' → cutSlot fd cleared h' = h') := by
  cases h' with
  | link l => cases cleared <;> simp [Refers, cutSlot, cutLink]
  | _ => cases cleared <;> simp [Refers, cutSlot]

/-- `clear_id_at` ends, its slot is unused then, the links to the perf event or of the program that
was there are unused, and every other slot is as before. `clear_all` ends, and every slot is unused
then. -/
theorem clearIdAtRec_closes (hs : s.IntSlots) : (∀ fd h, s.getHandler fd = some h →
      ∃ s', (∀ depth, 2 ≤ depth → clearIdAtRec depth s fd = some s') ∧
        s'.handlers.length = s.handlers.length ∧ s'.getHandler fd = some .unused ∧
        ∀ i h', i ≠ fd → s.getHandler i = some h' → (Refers fd h h' →
          s'.getHandler i = some .unused) ∧ (¬Refers fd h h' → s'.getHandler i = some h')) ∧
    ∃ s', (∀ depth, 2 ≤ depth → clearAll depth s = some s') ∧ s'.handlers.length =
      s.handlers.length ∧ ∀ i h, s'.getHandler i = some h → h = .unused := by
  constructor
  · intro fd h hfd
    refine ⟨s.clearIdAt fd, fun depth hdepth => clearIdAtRec_eq hs fd hdepth,
      length_clearIdAt s fd, ?_, fun i h' hne hi => ?_⟩
    · rw [getHandler_clearIdAt hfd, if_pos rfl]
    · obtain ⟨hcut, hstay⟩ := cutSlot_eq_ite fd h h'
      rw [getHandler_clearIdAt hfd, if_neg hne, hi, map_some]
      exact ⟨fun hrefers => by rw [hcut hrefers], fun hrefers => by rw [hstay hrefers]⟩
  · obtain ⟨hlen, -, hunused⟩ := clearedTo_spec hs s.handlers.length
    refine ⟨s.clearedTo s.handlers.length, fun depth hdepth => clearAll_eq hs hdepth, hlen,
      fun i h hi => hunused i h hi ?_⟩
    obtain ⟨hpos, hget⟩ := getHandler_eq_some.mp hi
    obtain ⟨hlt, -⟩ := List.getElem?_eq_some_iff.mp hget
    omega

/-- A program with two links, of which one has the other link as its target: both go with the
program, and a link of another program to a link stays. -/
theorem clearIdAtRec_closes_three_links : ∃ s', (∀ depth, 2 ≤ depth → clearIdAtRec depth
        ⟨[.prog ⟨0, [], ""⟩, .link ⟨0, 2, none⟩, .link ⟨0, 1, none⟩, .link ⟨4, 1, none⟩], .empty,
          Stream'.const 0, Stream'.const 0⟩ 0 = some s') ∧ s'.getHandler 3 ≠ some .unused := by
  obtain ⟨s', hclear, -, -, hother⟩ := (clearIdAtRec_closes
    (s := ⟨[.prog ⟨0, [], ""⟩, .link ⟨0, 2, none⟩, .link ⟨0, 1, none⟩, .link ⟨4, 1, none⟩], .empty,
      Stream'.const 0, Stream'.const 0⟩) (intSlots_of_length_le (by simp))).1 0 _ rfl
  have hlink := (hother 3 _ (by decide) rfl).2 (by simp [Refers])
  exact ⟨s', hclear, by rw [hlink]; decide⟩

end BpftimeShm

end Bpftime
