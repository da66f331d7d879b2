import Bpftime.HashMap.Refinement

/-!
# The hash map behind the calls

`fix_size_hash_map_impl` of `runtime/src/bpf_map/userspace/fix_hash_map.cpp` gives a
`bpftime_hash_map` the interface that all maps have.
-/

namespace Bpftime

open Bytes Probing HashMap Runs Option
open BpftimeHashMap (Contents mapStep)

/-- `fix_size_hash_map_impl`. -/
structure FixSizeHashMap where
  map_impl : BpftimeHashMap
  /-- The number of buckets that was asked for, not the one that the table has. -/
  num_buckets : ℕ
deriving DecidableEq

namespace FixSizeHashMap

variable {ks vs : ℕ}

/-- The constructor. -/
def create (num_buckets key_size value_size : ℕ) : Option FixSizeHashMap :=
  (BpftimeHashMap.create num_buckets key_size value_size).map fun map_impl => ⟨map_impl, num_buckets⟩

/-- `elem_lookup`: the value that the pointer points to. -/
def elemLookup (f : FixSizeHashMap) (key : List UInt8) : Option (Option (List UInt8)) := do
  match ← f.map_impl.elemLookup key with
  | none => return none
  | some ptr => return some (← readRange f.map_impl.data_buffer ptr f.map_impl.value_size)

/-- `elem_update`. -/
def elemUpdate (f : FixSizeHashMap) (key value : List UInt8) (_flags : UInt64) :
    Option (Outcome × FixSizeHashMap) :=
  (f.map_impl.elemUpdate key value).map fun p => (.ok, { f with map_impl := p.2 })

/-- `elem_delete`. -/
def elemDelete (f : FixSizeHashMap) (key : List UInt8) : Option (Outcome × FixSizeHashMap) :=
  (f.map_impl.elemDelete key).map fun p => (.ok, { f with map_impl := p.2 })

inductive Call (ks vs : ℕ) where
  | update (key : List.Vector UInt8 ks) (value : List.Vector UInt8 vs) (flags : UInt64)
  | delete (key : List.Vector UInt8 ks)

def step (f : FixSizeHashMap) : Call ks vs → Option (Outcome × FixSizeHashMap)
  | .update key value flags => f.elemUpdate key.toList value.toList flags
  | .delete key => f.elemDelete key.toList

/-- A call that empties no slot across which another key is found. -/
def Undisturbed (f : FixSizeHashMap) : Call ks vs → Prop
  | .update _ _ _ => True
  | .delete key => BpftimeHashMap.Undisturbed f.map_impl (.delete key : BpftimeHashMap.Op ks vs)

/-- How a call should end on a map with the given contents and room for `max_entries` keys. -/
def expected (max_entries : ℕ) (m : Contents) : Call ks vs → Outcome
  | .update key _ flags =>
    if ¬(flags = 0 ∨ flags = 1 ∨ flags = 2) then .error .EINVAL
    else if flags = 1 ∧ key.toList ∈ m then .error .EEXIST
    else if flags = 2 ∧ key.toList ∉ m then .error .ENOENT
    else if key.toList ∉ m ∧ max_entries ≤ m.keys.card then .error .E2BIG
    else .ok
  | .delete key => if key.toList ∈ m then .ok else .error .ENOENT

/-- Every lookup answers from the contents. -/
def Holds (ks : ℕ) (f : FixSizeHashMap) (m : Contents) : Prop :=
  ∀ key : List.Vector UInt8 ks, f.elemLookup key.toList = some (m.lookup key.toList)

def CallRight (max_entries : ℕ) (f : FixSizeHashMap) (m : Contents) (call : Call ks vs) : Prop :=
  ∃ f', step f call = some (expected max_entries m call, f') ∧
    match call with
    | .update key value _ =>
      Holds ks f' (if expected max_entries m call = .ok then m.insert key.toList value.toList else m)
    | .delete _ => True

def afterCall (max_entries : ℕ) (m : Contents) : Call ks vs → Contents
  | .update key value _ => (mapStep max_entries m (.update key value)).2
  | .delete key => (mapStep max_entries m (.delete key : BpftimeHashMap.Op ks vs)).2

/-! ## One call -/

section Call

variable {num_buckets : ℕ} {f : FixSizeHashMap} {m : Contents}

structure Stands (num_buckets ks vs : ℕ) (f : FixSizeHashMap) (m : Contents) : Prop where
  buckets : f.num_buckets = num_buckets
  rel : BpftimeHashMap.Rel num_buckets ks vs f.map_impl m

section

variable (h : Stands num_buckets ks vs f m)
include h

lemma Stands.holds : Holds ks f m := by
  intro key
  have hlookup := h.rel.lookup key
  unfold BpftimeHashMap.step at hlookup
  unfold elemLookup
  cases hptr : f.map_impl.elemLookup key.toList with
  | none => simp [hptr] at hlookup
  | some ptr =>
    cases ptr with
    | none =>
      simp only [hptr, bind_eq_bind, bind_some, pure_def, some.injEq, Prod.mk.injEq,
        BpftimeHashMap.Result.value.injEq, and_true] at hlookup ⊢
      exact hlookup
    | some ptr =>
      simp only [hptr, bind_eq_bind, bind_some, pure_def] at hlookup ⊢
      cases hread : readRange f.map_impl.data_buffer ptr f.map_impl.value_size with
      | none => simp [hread] at hlookup
      | some bytes =>
        simp only [hread, bind_some, some.injEq, Prod.mk.injEq,
          BpftimeHashMap.Result.value.injEq, and_true] at hlookup ⊢
        exact hlookup

lemma Stands.update (key : List.Vector UInt8 ks) (value : List.Vector UInt8 vs)
    (flags : UInt64) : ∃ f', step f (.update key value flags) = some (.ok, f') ∧
    Stands num_buckets ks vs f' (afterCall num_buckets m (.update key value flags)) := by
  obtain ⟨hm', hstep, hrel⟩ := h.rel.update key value
  obtain ⟨p, hp, heq⟩ := map_eq_some_iff.mp hstep
  obtain ⟨-, rfl⟩ := Prod.mk.inj heq
  refine ⟨{ f with map_impl := p.2 }, ?_, h.buckets, hrel⟩
  unfold step elemUpdate
  dsimp only
  rw [hp, map_some]

lemma Stands.delete_ok (key : List.Vector UInt8 ks) :
    ∃ f', step f (.delete key : Call ks vs) = some (.ok, f') := by
  obtain ⟨p, hp, hend⟩ := h.rel.shape.search_eq key.toList
  have hdel : ∃ q, f.map_impl.elemDelete key.toList = some q := by
    cases p with
    | found i =>
      obtain ⟨hi, v, hslot, -⟩ := h.rel.represents.of_found hend
      obtain ⟨data, hdel, -⟩ := h.rel.shape.clear hi hp
      exact ⟨_, hdel⟩
    | vacant _ | exhausted => exact ⟨(false, f.map_impl), by simp [BpftimeHashMap.elemDelete, hp]⟩
  obtain ⟨q, hq⟩ := hdel
  refine ⟨{ f with map_impl := q.2 }, ?_⟩
  unfold step elemDelete
  dsimp only
  rw [hq, map_some]

lemma Stands.delete (key : List.Vector UInt8 ks) (hC : Undisturbed f (.delete key : Call ks vs)) :
    ∃ f', step f (.delete key : Call ks vs) = some (.ok, f') ∧
    Stands num_buckets ks vs f' (afterCall num_buckets m (.delete key : Call ks vs)) := by
  obtain ⟨hm', hstep, hrel⟩ := h.rel.delete key hC
  obtain ⟨p, hp, heq⟩ := map_eq_some_iff.mp hstep
  obtain ⟨-, rfl⟩ := Prod.mk.inj heq
  refine ⟨{ f with map_impl := p.2 }, ?_, h.buckets, hrel⟩
  unfold step elemDelete
  dsimp only
  rw [hp, map_some]

lemma Stands.step (call : Call ks vs) (hC : Undisturbed f call) :
    ∃ f', FixSizeHashMap.step f call = some (.ok, f') ∧
    Stands num_buckets ks vs f' (afterCall num_buckets m call) := by
  cases call with
  | update key value flags => exact h.update key value flags
  | delete key => exact h.delete key hC

end

lemma afterCall_of_expected {key : List.Vector UInt8 ks} {value : List.Vector UInt8 vs} {flags : UInt64}
    (h : expected num_buckets m (.update key value flags) = .ok) :
    afterCall num_buckets m (.update key value flags) = m.insert key.toList value.toList := by
  have hroom : key.toList ∈ m ∨ m.keys.card < num_buckets := by
    by_contra hno
    rw [not_or] at hno
    unfold expected at h
    dsimp only at h
    split_ifs at h with h1 h2 h3 h4
    exact h4 ⟨hno.1, by omega⟩
  unfold afterCall mapStep
  dsimp only
  rw [if_pos hroom]

lemma Stands.callRight_iff (h : Stands num_buckets ks vs f m) (call : Call ks vs) :
    CallRight num_buckets f m call ↔ expected num_buckets m call = .ok := by
  constructor
  · -- Whatever the call, the result is 0.
    rintro ⟨f', hstep, -⟩
    have hok : ∃ f'', FixSizeHashMap.step f call = some (.ok, f'') := by
      cases call with
      | update key value flags =>
        obtain ⟨f'', hf'', -⟩ := h.update key value flags
        exact ⟨f'', hf''⟩
      | delete key => exact h.delete_ok key
    obtain ⟨f'', hf''⟩ := hok
    rw [hf''] at hstep
    exact (Prod.mk.inj (some.inj hstep)).1.symm
  · intro hexpected
    cases call with
    | update key value flags =>
      obtain ⟨f', hf', hstands⟩ := h.update key value flags
      refine ⟨f', by rw [hf', hexpected], ?_⟩
      dsimp only
      rw [if_pos hexpected, ← afterCall_of_expected hexpected]
      exact hstands.holds
    | delete key =>
      obtain ⟨f', hf'⟩ := h.delete_ok key
      exact ⟨f', by rw [hf', hexpected], trivial⟩

end Call

lemma stands_create {num_buckets : ℕ} {f : FixSizeHashMap}
    (hfit : leastPrime num_buckets * (4 + ks + vs) < 2^64)
    (h : create num_buckets ks vs = some f) : Stands num_buckets ks vs f ∅ := by
  obtain ⟨hm, hcreate, hrel⟩ := BpftimeHashMap.rel_create hfit
  rw [create, hcreate] at h
  cases h
  exact ⟨rfl, hrel⟩

def afterCalls (max_entries : ℕ) (calls : List (Call ks vs)) : Contents :=
  calls.foldl (afterCall max_entries) ∅

lemma stands_run {num_buckets : ℕ} {calls : List (Call ks vs)} {f : FixSizeHashMap} {m : Contents}
    (h : Stands num_buckets ks vs f m) (hC : Along step Undisturbed f calls) :
    ∃ rs f', run step f calls = some (rs, f') ∧
    Stands num_buckets ks vs f' (calls.foldl (afterCall num_buckets) m) := by
  induction calls generalizing f m with
  | nil => exact ⟨[], f, rfl, h⟩
  | cons call calls ih =>
    obtain ⟨f1, hstep, hstands⟩ := h.step call hC.1
    obtain ⟨rs, f', hrun, hstands'⟩ := ih hstands (hC.2 _ _ hstep)
    refine ⟨.ok :: rs, f', ?_, hstands'⟩
    rw [run_cons hstep, hrun, map_some]

/-- In every state that calls lead to without cutting off a key, lookups answer from the contents,
and a call is right exactly when it should succeed. -/
theorem callRight_iff_expected (max_entries ks vs : ℕ) (hfit : leastPrime max_entries * (4 + ks + vs) < 2^64)
    (calls : List (Call ks vs)) (f : FixSizeHashMap) (hcreate : create max_entries ks vs = some f)
    (hC : Along step Undisturbed f calls) :
    ∃ rs f', run step f calls = some (rs, f') ∧ Holds ks f' (afterCalls max_entries calls) ∧
      ∀ call : Call ks vs, CallRight max_entries f' (afterCalls max_entries calls) call ↔
        expected max_entries (afterCalls max_entries calls) call = .ok := by
  obtain ⟨rs, f', hrun, hstands'⟩ := stands_run (stands_create hfit hcreate) hC
  exact ⟨rs, f', hrun, hstands'.holds, hstands'.callRight_iff⟩

/-- A new map with room for two keys of one byte. -/
def twoKeys : FixSizeHashMap := ⟨⟨1, 1, 2, 2, 0, List.replicate 12 0⟩, 2⟩

/-- After a first key a second one is added as it should be. -/
theorem callRight_second_key :
    ∃ rs f', run step twoKeys [(.update ⟨[0], rfl⟩ ⟨[7], rfl⟩ 0 : Call 1 1)] = some (rs, f') ∧
      CallRight 2 f' (afterCalls 2 [(.update ⟨[0], rfl⟩ ⟨[7], rfl⟩ 0 : Call 1 1)])
        (.update ⟨[1], rfl⟩ ⟨[9], rfl⟩ 0 : Call 1 1) := by
  have hfit : leastPrime 2 * (4 + 1 + 1) < 2^64 := by
    have hlt := leastPrime_lt 2
    omega
  obtain ⟨rs, f', hrun, -, hright⟩ := callRight_iff_expected 2 1 1 hfit [.update ⟨[0], rfl⟩ ⟨[7],
      rfl⟩ 0] twoKeys
    (by decide +kernel) ⟨trivial, fun _ _ _ => trivial⟩
  exact ⟨rs, f', hrun, (hright _).mpr (by decide +kernel)⟩

/-- An update that must find its key returns 0 on a new map. -/
theorem not_callRight_exist :
    create 2 1 1 = some twoKeys ∧ ¬CallRight 2 twoKeys ∅ (.update ⟨[0], rfl⟩ ⟨[7], rfl⟩ 2 : Call 1 1) := by
  refine ⟨by decide +kernel, ?_⟩
  rintro ⟨f', hstep, -⟩
  have hgot : (step twoKeys (.update ⟨[0], rfl⟩ ⟨[7], rfl⟩ 2 : Call 1 1)).map Prod.fst =
      some .ok := by decide +kernel
  have hwant : expected 2 ∅ (.update ⟨[0], rfl⟩ ⟨[7], rfl⟩ 2 : Call 1 1) = .error .ENOENT := by
    decide +kernel
  rw [hstep, map_some, hwant] at hgot
  simp at hgot

end FixSizeHashMap

end Bpftime
