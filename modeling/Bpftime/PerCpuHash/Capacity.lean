import Bpftime.PerCpuHash.Slots

/-!
# The capacity and the flags of a per-CPU hash map

A map of `max_entries` keys should refuse an update with unknown flags, one that must not find its
key and does, one that must find it and does not, and one with a new key where there is no room.
-/

namespace Bpftime.PerCpuHash

open Bytes Runs Option List PerCpuHashMap AList

variable {ks vs n : ℕ} {m : PerCpuHashMap}

section Keys

variable {K V : Type*} [DecidableEq K]

lemma length_keys_insert (impl : AList fun _ : K => V) (k : K) (v : V) :
    (impl.insert k v).keys.length = if (impl.lookup k).isSome then impl.keys.length else impl.keys.length + 1 := by
  rw [keys_insert, length_cons, length_erase]
  by_cases hk : k ∈ impl.keys
  · have := length_pos_of_mem hk
    rw [if_pos hk, if_pos (lookup_isSome.mpr hk)]
    omega
  · rw [if_neg hk, if_neg (mt lookup_isSome.mp hk)]

lemma length_keys_erase (impl : AList fun _ : K => V) (k : K) :
    (impl.erase k).keys.length ≤ impl.keys.length := by
  rw [keys_erase]
  exact length_erase_le

end Keys

def expected (m : PerCpuHashMap) (k : List UInt8) (flags : UInt64) : Outcome :=
  if ¬checkUpdateFlags flags then .error .EINVAL
  else if flags = 1 ∧ (m.impl.lookup k).isSome then .error .EEXIST
  else if flags = 2 ∧ ¬(m.impl.lookup k).isSome then .error .ENOENT
  else if ¬(m.impl.lookup k).isSome ∧ m.impl.keys.length = m.max_entries then .error .E2BIG
  else .ok

def updateOf : Op ks vs n → Option (List UInt8 × UInt64)
  | .update _ key _ flags => some (key.1, flags)
  | .updateUserspace key _ flags => some (key.1, flags)
  | _ => none

/-- A call that leaves no more keys than the map may have. -/
def CapacityRight (m : PerCpuHashMap) (o : Op ks vs n) : Prop :=
  ∃ r m', step m o = some (r, m') ∧ m'.impl.keys.length ≤ m.max_entries ∧
    ∀ k flags, updateOf o = some (k, flags) →
      r = .done (expected m k flags) ∧ (expected m k flags ≠ .ok → m' = m)

/-- The slot of a CPU, where the code puts it, lies inside a vector. -/
def InBounds (vs n cpu : ℕ) : Prop := vs * cpu % 2^32 + vs ≤ vs * n % 2^32

/-- The calls that work: helpers are not asked for an update that should be refused for more than
unknown flags, and no access leaves a vector. -/
def FitsIn (m : PerCpuHashMap) : Op ks vs n → Prop
  | .update cpu key _ flags => checkUpdateFlags flags → Accepts m key.1 flags ∧ InBounds vs n cpu
  | .lookup cpu key => (key.bind fun k => m.impl.lookup k.1).isSome → InBounds vs n cpu
  | .delete cpu key => (m.impl.lookup key.1).isSome → vs * cpu % 2^32 ≤ vs * n % 2^32
  | _ => True

/-! ## One call -/

variable {flags : UInt64} {k : List UInt8} {r : Reply} {o : Op ks vs n} {m' : PerCpuHashMap}

lemma expected_eq_ok_iff : expected m k flags = .ok ↔ Accepts m k flags := by
  unfold expected Accepts
  by_cases h1 : checkUpdateFlags flags
  · rw [if_neg (not_not.mpr h1)]
    by_cases h2 : flags = 1 ∧ (m.impl.lookup k).isSome
    · rw [if_pos h2]
      exact iff_of_false nofun fun h => h.2.1 h2
    · rw [if_neg h2]
      by_cases h3 : flags = 2 ∧ ¬(m.impl.lookup k).isSome
      · rw [if_pos h3]
        exact iff_of_false nofun fun h => h.2.2.1 h3
      · rw [if_neg h3]
        by_cases h4 : ¬(m.impl.lookup k).isSome ∧ m.impl.keys.length = m.max_entries
        · rw [if_pos h4]
          exact iff_of_false nofun fun h => h.2.2.2 h4
        · rw [if_neg h4]
          exact iff_of_true rfl ⟨h1, h2, h3, h4⟩
  · rw [if_pos h1]
    exact iff_of_false nofun fun h => h1 h.1

lemma elemUpdateUserspace_fst (k value : List UInt8) (flags : UInt64) :
    (m.elemUpdateUserspace k value flags).1 = expected m k flags := by
  unfold elemUpdateUserspace expected
  dsimp only
  split_ifs <;> rfl

lemma length_keys_of_accepts (hsize : m.impl.keys.length ≤ m.max_entries)
    (h : Accepts m k flags) (bytes : List UInt8) : (m.impl.insert k bytes).keys.length ≤ m.max_entries := by
  rw [length_keys_insert]
  split_ifs with hk
  · exact hsize
  · have hne : m.impl.keys.length ≠ m.max_entries := fun heq => h.2.2.2 ⟨hk, heq⟩
    omega

lemma elemUpdate_isSome_iff (hm : Sized vs n m) (cpu : Fin n) (k : List UInt8) (value : MapValue vs)
    (hflags : checkUpdateFlags flags) : (∃ p, m.elemUpdate cpu k value.1 flags = some p) ↔
    InBounds vs n cpu := by
  have hwrite : ∀ l : List UInt8, l.length = vs * n % 2^32 →
      ((writeRange l (m.offset cpu) value.1).isSome ↔ InBounds vs n cpu) := by
    intro l hl
    unfold writeRange InBounds offset
    rw [value.2, hl, hm.value_size]
    split_ifs with h
    · exact iff_of_true rfl h
    · exact iff_of_false nofun h
  rw [← isSome_iff_exists]
  unfold elemUpdate
  rw [if_pos hflags]
  cases hk : m.impl.lookup k with
  | none =>
    have hlen : m.valueTemplate.length = vs * n % 2^32 := by
      rw [valueTemplate, length_replicate, hm.value_size, hm.ncpu]
    rw [isSome_map, hwrite _ hlen]
  | some old => rw [isSome_map, hwrite _ (hm.length k old hk)]

lemma elemUpdate_stores {cpu : ℕ} {value : List UInt8} {p : Outcome × PerCpuHashMap}
    (hflags : checkUpdateFlags flags) (h : m.elemUpdate cpu k value flags = some p) :
    ∃ bytes, p = (.ok, { m with impl := m.impl.insert k bytes }) := by
  unfold elemUpdate at h
  rw [if_pos hflags] at h
  cases hk : m.impl.lookup k with
  | none | some _ =>
    rw [hk] at h
    obtain ⟨l, -, hl⟩ := map_eq_some_iff.mp h
    exact ⟨l, hl.symm⟩

lemma capacityRight_update_iff (hm : Sized vs n m) (hsize : m.impl.keys.length ≤ m.max_entries) (cpu : Fin n)
    (key : MapValue ks) (value : MapValue vs) (flags : UInt64) :
    CapacityRight m (.update cpu key value flags) ↔ FitsIn m (.update cpu key value flags) := by
  by_cases hflags : checkUpdateFlags flags
  · have hfits : FitsIn m (.update cpu key value flags) ↔ Accepts m key.1 flags ∧ InBounds vs n cpu :=
      ⟨fun h => h hflags, fun h _ => h⟩
    rw [hfits, ← elemUpdate_isSome_iff hm cpu key.1 value hflags]
    constructor
    · rintro ⟨r, m', hstep, -, hright⟩
      obtain ⟨p, hp, hp'⟩ := map_eq_some_iff.mp hstep
      have hr := (hright key.1 flags rfl).1
      rw [elemUpdate_ok hflags hstep, Reply.done.injEq] at hr
      exact ⟨expected_eq_ok_iff.mp hr.symm, p, hp⟩
    · rintro ⟨haccepts, p, hp⟩
      obtain ⟨bytes, rfl⟩ := elemUpdate_stores hflags hp
      refine ⟨.done .ok, { m with impl := m.impl.insert key.1 bytes }, ?_, ?_, ?_⟩
      · unfold step
        dsimp only
        rw [hp]
        rfl
      · exact length_keys_of_accepts hsize haccepts bytes
      · intro k flags' hupdate
        cases hupdate
        rw [expected_eq_ok_iff.mpr haccepts]
        exact ⟨rfl, fun h => absurd rfl h⟩
  · refine iff_of_true ⟨.done (.error .EINVAL), m, ?_, hsize, ?_⟩ fun h => absurd h hflags
    · unfold step elemUpdate
      dsimp only
      rw [if_neg hflags]
      rfl
    · intro k flags' hupdate
      cases hupdate
      have hexpected : expected m key.1 flags = .error .EINVAL := if_pos hflags
      rw [hexpected]
      exact ⟨rfl, fun _ => rfl⟩

lemma capacityRight_updateUserspace (hsize : m.impl.keys.length ≤ m.max_entries) (key : MapValue ks)
    (slots : ℕ → MapValue vs) (flags : UInt64) :
    CapacityRight m (.updateUserspace key slots flags : Op ks vs n) := by
  refine ⟨_, _, rfl, ?_, ?_⟩
  · by_cases haccepts : Accepts m key.1 flags
    · rw [elemUpdateUserspace_of_accepts haccepts]
      exact length_keys_of_accepts hsize haccepts _
    · obtain ⟨e, he⟩ := elemUpdateUserspace_of_not_accepts haccepts (concat n slots)
      rw [he]
      exact hsize
  · intro k flags' hupdate
    cases hupdate
    rw [elemUpdateUserspace_fst]
    refine ⟨rfl, fun hne => ?_⟩
    obtain ⟨e, he⟩ := elemUpdateUserspace_of_not_accepts (mt expected_eq_ok_iff.mpr hne) (concat n slots)
    rw [he]

lemma capacityRight_of_step
    (hsize : m.impl.keys.length ≤ m.max_entries) (ho : updateOf o = none) (h : step m o = some (r, m'))
    (hkeys : m'.impl.keys.length ≤ m.impl.keys.length) : CapacityRight m o := by
  refine ⟨r, m', h, hkeys.trans hsize, fun k flags hupdate => ?_⟩
  rw [ho] at hupdate
  cases hupdate

section

variable (hm : Sized vs n m) (hsize : m.impl.keys.length ≤ m.max_entries) (cpu : Fin n)
include hm hsize

lemma capacityRight_lookup_iff (key : Option (MapValue ks)) :
    CapacityRight m (.lookup cpu key : Op ks vs n) ↔ FitsIn m (.lookup cpu key : Op ks vs n) := by
  have hstep : CapacityRight m (.lookup cpu key : Op ks vs n) ↔
      (m.elemLookup cpu (key.map Subtype.val)).isSome := by
    constructor
    · rintro ⟨r, m', h, -⟩
      obtain ⟨x, hx, -⟩ := map_eq_some_iff.mp h
      rw [hx, isSome_some]
    · intro h
      obtain ⟨x, hx⟩ := isSome_iff_exists.mp h
      have h' : step m (.lookup cpu key : Op ks vs n) = some (.value x, m) := by
        unfold step
        dsimp only
        rw [hx]
        rfl
      exact capacityRight_of_step hsize rfl h' le_rfl
  rw [hstep]
  unfold FitsIn
  cases key with
  | none => exact iff_of_true rfl nofun
  | some key =>
    unfold elemLookup
    dsimp only [map_some, bind_some]
    cases hk : m.impl.lookup key.1 with
    | none => exact iff_of_true rfl nofun
    | some bytes =>
      dsimp only
      unfold readRange offset InBounds
      rw [isSome_map, hm.value_size, hm.length _ _ hk]
      split_ifs with h
      · exact iff_of_true rfl fun _ => h
      · exact iff_of_false nofun fun h' => h (h' rfl)

lemma capacityRight_delete_iff (key : MapValue ks) :
    CapacityRight m (.delete cpu key : Op ks vs n) ↔ FitsIn m (.delete cpu key : Op ks vs n) := by
  cases hk : m.impl.lookup key.1 with
  | none =>
    refine iff_of_true ?_ fun h => ?_
    · have h : step m (.delete cpu key : Op ks vs n) = some (.done .ok, m) := by
        unfold step elemDelete
        dsimp only
        rw [hk]
        rfl
      exact capacityRight_of_step hsize rfl h le_rfl
    · rw [hk] at h
      cases h
  | some old =>
    have hfits : FitsIn m (.delete cpu key : Op ks vs n) ↔ vs * cpu % 2^32 ≤ vs * n % 2^32 :=
      ⟨fun h => h (by rw [hk]; rfl), fun h _ => h⟩
    have hstep : step m (.delete cpu key : Op ks vs n) =
        (writeRange old 0 (replicate (vs * cpu % 2^32) 0)).map fun v =>
          (.done .ok, { m with impl := m.impl.insert key.1 v }) := by
      unfold step elemDelete offset
      dsimp only
      rw [hk, hm.value_size]
      dsimp only
      rw [Option.map_map]
      rfl
    rw [hfits]
    constructor
    · rintro ⟨r, m', h, -⟩
      rw [hstep] at h
      obtain ⟨l, hl, -⟩ := map_eq_some_iff.mp h
      have hb := writeRange_bounds hl
      rw [length_replicate, hm.length _ _ hk, zero_add] at hb
      exact hb
    · intro hb
      obtain ⟨l, hl⟩ := writeRange_isSome old 0 (replicate (vs * cpu % 2^32) 0)
        (by rw [length_replicate, hm.length _ _ hk, zero_add]; exact hb)
      rw [hl, map_some] at hstep
      refine capacityRight_of_step hsize rfl hstep ?_
      dsimp only
      rw [length_keys_insert, if_pos (by rw [hk]; rfl)]

end

lemma capacityRight_deleteUserspace (hsize : m.impl.keys.length ≤ m.max_entries)
    (key : MapValue ks) : CapacityRight m (.deleteUserspace key : Op ks vs n) := by
  refine capacityRight_of_step hsize rfl rfl ?_
  unfold elemDeleteUserspace
  cases m.impl.lookup key.1 with
  | none => exact le_rfl
  | some old => exact length_keys_erase _ _

lemma capacityRight_lookupAndDeleteUserspace (hm : Sized vs n m) (hsize : m.impl.keys.length ≤ m.max_entries)
    (key : MapValue ks) : CapacityRight m (.lookupAndDeleteUserspace key : Op ks vs n) := by
  cases hk : m.impl.lookup key.1 with
  | none =>
    have h : step m (.lookupAndDeleteUserspace key : Op ks vs n) = some (.value (.error .ENOENT), m) := by
      unfold step lookupAndDeleteUserspace
      dsimp only
      rw [hk]
      rfl
    exact capacityRight_of_step hsize rfl h le_rfl
  | some old =>
    obtain ⟨l, hl⟩ := readRange_isSome old 0 (m.value_size * m.ncpu % 2^32)
      (by rw [hm.length _ _ hk, hm.value_size, hm.ncpu, zero_add])
    have h : step m (.lookupAndDeleteUserspace key : Op ks vs n) =
        some (.value (.ok l), { m with impl := m.impl.erase key.1 }) := by
      unfold step lookupAndDeleteUserspace
      dsimp only
      rw [hk]
      dsimp only
      rw [hl]
      rfl
    exact capacityRight_of_step hsize rfl h (length_keys_erase _ _)

lemma capacityRight_iff (hm : Sized vs n m) (hsize : m.impl.keys.length ≤ m.max_entries)
    (o : Op ks vs n) : CapacityRight m o ↔ FitsIn m o := by
  cases o with
  | lookup cpu key => exact capacityRight_lookup_iff hm hsize cpu key
  | update cpu key value flags => exact capacityRight_update_iff hm hsize cpu key value flags
  | delete cpu key => exact capacityRight_delete_iff hm hsize cpu key
  | lookupUserspace key => exact iff_of_true (capacityRight_of_step hsize rfl rfl le_rfl) trivial
  | updateUserspace key slots flags => exact iff_of_true (capacityRight_updateUserspace hsize key slots flags) trivial
  | deleteUserspace key => exact iff_of_true (capacityRight_deleteUserspace hsize key) trivial
  | lookupAndDeleteUserspace key => exact iff_of_true (capacityRight_lookupAndDeleteUserspace hm hsize key) trivial

lemma max_entries_step (hm : Sized vs n m) (h : step m o = some (r, m')) :
    m'.max_entries = m.max_entries := by
  rcases step_cases hm h with rfl | ⟨k, bytes, -, rfl⟩ | ⟨k, rfl⟩
  · rfl
  · rfl
  · rfl

/-- What holds in every state of a run that is right. -/
def Within (vs n : ℕ) (m : PerCpuHashMap) : Prop := Sized vs n m ∧ m.impl.keys.length ≤ m.max_entries

lemma Within.step (hm : Within vs n m)
    (hright : CapacityRight m o) (h : PerCpuHash.step m o = some (r, m')) : Within vs n m' := by
  obtain ⟨r', m'', h', hsize, -⟩ := hright
  cases h.symm.trans h'
  refine ⟨hm.1.step h, ?_⟩
  rw [max_entries_step hm.1 h]
  exact hsize

/-- In every run on a new map the number of keys stays within `max_entries` and every update ends as
it should, exactly when every call works. -/
theorem capacity_iff (ks vs n max_entries : ℕ) (os : List (Op ks vs n)) :
    Along step CapacityRight (.create vs max_entries n) os ↔
    Along step FitsIn (.create vs max_entries n) os := by
  have hinit : Within vs n (.create vs max_entries n) := ⟨sized_create vs n max_entries, Nat.zero_le _⟩
  constructor
  · refine along_of_invariant (fun m o (hi : Within vs n m) h => (capacityRight_iff hi.1 hi.2 o).mp h) ?_ hinit
    exact fun m o r m' hi hright hstep => hi.step hright hstep
  · refine along_of_invariant (fun m o (hi : Within vs n m) h => (capacityRight_iff hi.1 hi.2 o).mpr h) ?_ hinit
    exact fun m o r m' hi hfits hstep => hi.step ((capacityRight_iff hi.1 hi.2 o).mpr hfits) hstep

/-- A helper adds a second key to a map that may have one. -/
theorem not_capacityRight_second_key : ¬Along step CapacityRight (.create 1 1 1)
      [(.update 0 ⟨[0], rfl⟩ ⟨[7], rfl⟩ 0 : Op 1 1 1), .update 0 ⟨[1], rfl⟩ ⟨[7], rfl⟩ 0] := by
  rintro ⟨-, h⟩
  obtain ⟨⟨r, m', hstep, hsize, -⟩, -⟩ := h _ _ rfl
  cases hstep
  exact absurd hsize (by decide)

end Bpftime.PerCpuHash
