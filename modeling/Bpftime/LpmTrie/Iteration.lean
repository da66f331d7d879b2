import Bpftime.LpmTrie.Flags

/-!
# Iteration over the trie

`map_get_next_key` without a key walks down from the root, to the first child where there is one and
else to the second, until it meets a node that is not intermediate.
-/

namespace Bpftime.LpmTrieMap

open Bytes BitStrings Runs List Option Function

/-- The walk of `map_get_next_key` to the first node that is not intermediate. -/
def firstWalk : Trie → Option LpmTrieNode
  | .null => none
  | .node n child0 child1 =>
    if n.is_intermediate = false then some n
    else
      match child0 with
      | .null => firstWalk child1
      | .node n0 child00 child01 => firstWalk (.node n0 child00 child01)

/-- `map_get_next_key`: the key that is copied to `next_key`. -/
def mapGetNextKey (m : LpmTrieMap) (key : Option BpfLpmTrieKey) (hasNextKey : Bool) :
    Option (Except Errno BpfLpmTrieKey) :=
  if !hasNextKey then some (.error .EINVAL)
  else if m.root = .null then some (.error .ENOENT)
  else
    match key with
    | none =>
      match firstWalk m.root with
      | some n => (readRange n.data 0 m.data_size).map fun data => .ok ⟨n.prefixlen, data⟩
      | none => some (.error .ENOENT)
    | some _ => some (.error .ENOENT)

/-- The keys that a user gets who feeds each key back in, until there are no more. -/
inductive Iterates (m : LpmTrieMap) : Option BpfLpmTrieKey → List BpfLpmTrieKey → Prop
  | stop {key : Option BpfLpmTrieKey} (h : m.mapGetNextKey key true = some (.error .ENOENT)) : Iterates m key []
  | next {key : Option BpfLpmTrieKey} {k : BpfLpmTrieKey} {keys : List BpfLpmTrieKey}
      (h : m.mapGetNextKey key true = some (.ok k)) (hrest : Iterates m (some k) keys) :
      Iterates m key (k :: keys)

/-- Iteration ends, and gives each stored prefix once and nothing else. -/
def IterationRight (ds : ℕ) (s : Sys) : Prop :=
  ∃ keys, Iterates s.map none keys ∧ (keys.map (keyBits ds)).Nodup ∧ ∀ q,
    q ∈ keys.map (keyBits ds) ↔ Stored s q

/-- The nodes on the path from the root that takes the first child where there is one, and else the
second. -/
def firstPath : Trie → List LpmTrieNode
  | .null => []
  | .node n child0 child1 =>
    n :: match child0 with
      | .null => firstPath child1
      | .node n0 child00 child01 => firstPath (.node n0 child00 child01)

/-- At most one prefix is stored, and its node is on the first path. -/
def Reached (ds : ℕ) (s : Sys) : Prop :=
  (∀ q q', Stored s q → Stored s q' → q = q') ∧
    ∀ q, Stored s q → ∃ n ∈ firstPath s.map.root, nodeBits ds n = q

/-! ## The walk -/

lemma firstWalk_eq_find (t : Trie) : firstWalk t = (firstPath t).find? fun n => !n.is_intermediate := by
  induction t with
  | null => rfl
  | node n child0 child1 ih0 ih1 =>
    rw [firstWalk.eq_def, firstPath.eq_def]
    dsimp only
    by_cases him : n.is_intermediate = false
    · rw [if_pos him, find?_cons_of_pos (by simp [him])]
    · rw [if_neg him, find?_cons_of_neg (by simpa using him)]
      cases child0 with
      | null => exact ih1
      | node n0 child00 child01 => exact ih0

lemma mem_nodes_of_mem_firstPath {t : Trie} {n : LpmTrieNode} (h : n ∈ firstPath t) : n ∈ nodes t := by
  induction t with
  | null => exact h
  | node n' child0 child1 ih0 ih1 =>
    rw [firstPath.eq_def] at h
    rw [nodes, mem_cons, mem_append]
    rcases mem_cons.mp h with rfl | h
    · exact Or.inl rfl
    · cases child0 with
      | null => exact Or.inr (Or.inr (ih1 h))
      | node n0 child00 child01 => exact Or.inr (Or.inl (ih0 h))

section Iteration

variable {ds vs maxp : ℕ} {s : Sys} {n : LpmTrieNode}

lemma NodeOk.readRange_key (h : NodeOk ds vs maxp n) :
    ∃ data, readRange n.data 0 ds = some data ∧ keyBits ds ⟨n.prefixlen, data⟩ = nodeBits ds n := by
  have hlen : ds ≤ n.data.length := by
    have hlength := h.length_data
    split_ifs at hlength <;> omega
  have htake : (n.data.take ds).length = ds := by rw [length_take]; omega
  refine ⟨n.data.take ds, ?_, ?_⟩
  · unfold readRange
    rw [if_pos (by omega), drop_zero]
  · unfold keyBits nodeBits
    rw [← bitAt_append htake (n.data.drop ds), take_append_drop]

lemma Inv.mapGetNextKey_none (h : Inv ds vs maxp s) (hn : firstWalk s.map.root = some n) :
    ∃ k, s.map.mapGetNextKey none true = some (.ok k) ∧ keyBits ds k = nodeBits ds n := by
  have hmem : n ∈ firstPath s.map.root := by
    rw [firstWalk_eq_find] at hn
    exact mem_of_find?_eq_some hn
  obtain ⟨data, hread, hbits⟩ := (h.wf.nodeOk_of_mem (mem_nodes_of_mem_firstPath hmem)).readRange_key
  have hroot : s.map.root ≠ .null := by
    intro hnull
    rw [hnull] at hn
    cases hn
  refine ⟨⟨n.prefixlen, data⟩, ?_, hbits⟩
  unfold mapGetNextKey
  dsimp only
  rw [if_neg (by simp), if_neg hroot, hn]
  dsimp only
  rw [h.data_size, hread, map_some]

lemma mapGetNextKey_eq_error {m : LpmTrieMap} {key : Option BpfLpmTrieKey}
    (h : key = none → firstWalk m.root = none) : m.mapGetNextKey key true = some (.error .ENOENT) := by
  unfold mapGetNextKey
  rw [if_neg (by simp)]
  by_cases hroot : m.root = .null
  · rw [if_pos hroot]
  · rw [if_neg hroot]
    cases key with
    | none => rw [h rfl]
    | some key => rfl

lemma Inv.iterates_iff (h : Inv ds vs maxp s) (qs : List (List Bool)) :
    (∃ keys, Iterates s.map none keys ∧ keys.map (keyBits ds) = qs) ↔
    qs = ((firstWalk s.map.root).map (nodeBits ds)).toList := by
  cases hwalk : firstWalk s.map.root with
  | none =>
    have hstop : s.map.mapGetNextKey none true = some (.error .ENOENT) :=
      mapGetNextKey_eq_error fun _ => hwalk
    constructor
    · rintro ⟨keys, hiter, rfl⟩
      cases hiter with
      | stop _ => rfl
      | next hnext _ =>
        rw [hstop] at hnext
        cases hnext
    · rintro rfl
      exact ⟨[], .stop hstop, rfl⟩
  | some n =>
    obtain ⟨k, hk, hbits⟩ := h.mapGetNextKey_none hwalk
    have hstop : s.map.mapGetNextKey (some k) true = some (.error .ENOENT) := mapGetNextKey_eq_error nofun
    constructor
    · rintro ⟨keys, hiter, rfl⟩
      cases hiter with
      | stop hstop' =>
        rw [hk] at hstop'
        cases hstop'
      | next hnext hrest =>
        rw [hk] at hnext
        cases hnext
        cases hrest with
        | stop _ => exact congrArg (· :: []) hbits
        | next hnext' _ =>
          rw [hstop] at hnext'
          cases hnext'
    · rintro rfl
      exact ⟨[k], .next hk (.stop hstop), congrArg (· :: []) hbits⟩

lemma Inv.iterationRight_iff (h : Inv ds vs maxp s) : IterationRight ds s ↔ Reached ds s := by
  have hnode : ∀ n, firstWalk s.map.root = some n → n ∈ firstPath s.map.root ∧ Stored s (nodeBits ds n) := by
    intro n hn
    rw [firstWalk_eq_find] at hn
    have hmem := mem_of_find?_eq_some hn
    have hreal := find?_some hn
    exact ⟨hmem, (h.stored_iff _).mpr ⟨n, mem_nodes_of_mem_firstPath hmem, rfl, by simpa using hreal⟩⟩
  have hright : IterationRight ds s ↔ ∀ q, q ∈ ((firstWalk s.map.root).map (nodeBits ds)).toList ↔
      Stored s q := by
    constructor
    · rintro ⟨keys, hiter, -, hmem⟩
      rw [← (h.iterates_iff _).mp ⟨keys, hiter, rfl⟩]
      exact hmem
    · intro hmem
      obtain ⟨keys, hiter, hkeys⟩ := (h.iterates_iff _).mpr rfl
      refine ⟨keys, hiter, ?_, by rw [hkeys]; exact hmem⟩
      rw [hkeys]
      cases (firstWalk s.map.root).map (nodeBits ds) with
      | none => exact nodup_nil
      | some q => exact nodup_singleton q
  rw [hright]
  cases hwalk : firstWalk s.map.root with
  | none =>
    constructor
    · intro hmem
      have hno : ∀ q, ¬Stored s q := fun q hq => not_mem_nil ((hmem q).mpr hq)
      exact ⟨fun q _ hq => absurd hq (hno q), fun q hq => absurd hq (hno q)⟩
    · rintro ⟨-, hpath⟩ q
      refine iff_of_false not_mem_nil fun hq => ?_
      -- The node of a stored prefix is not intermediate, so that the walk would have ended there.
      obtain ⟨n, hn, hbits⟩ := hpath q hq
      obtain ⟨n', hn', hbits', hreal⟩ := (h.stored_iff q).mp hq
      have heq : n = n' := inj_on_of_nodup_map h.wf.nodup (mem_nodes_of_mem_firstPath hn) hn' (hbits.trans hbits'.symm)
      rw [firstWalk_eq_find, find?_eq_none] at hwalk
      exact hwalk n hn (by rw [heq, hreal]; rfl)
  | some n =>
    obtain ⟨hmemn, hstored⟩ := hnode n hwalk
    have hsingle : ∀ q, q ∈ ((some n).map (nodeBits ds)).toList ↔ q = nodeBits ds n := by
      intro q
      rw [map_some, toList_some, mem_singleton]
    constructor
    · intro hmem
      have hall : ∀ q, Stored s q → q = nodeBits ds n := fun q hq => (hsingle q).mp ((hmem q).mpr hq)
      exact ⟨fun q q' hq hq' => (hall q hq).trans (hall q' hq').symm, fun q hq =>
        ⟨n, hmemn, (hall q hq).symm⟩⟩
    · rintro ⟨hone, -⟩ q
      rw [hsingle]
      constructor
      · rintro rfl
        exact hstored
      · exact fun hq => hone q _ hq hstored

/-- In every state that calls lead to in which the bytes of nodes can grow, iteration gives each
stored prefix once and nothing else, and ends, exactly when at most one prefix is stored and its
node is on the first path. -/
theorem iterationRight_iff_reached {key_size value_size max_entries : ℕ} {m : LpmTrieMap}
    (hcreate : create key_size value_size max_entries = some m)
    (ops : List (Op (key_size - 4) value_size)) (hops : Along step Grown (Sys.new m) ops) :
    ∃ rs s, run step (Sys.new m) ops = some (rs, s) ∧
    (IterationRight (key_size - 4) s ↔ Reached (key_size - 4) s) := by
  obtain ⟨rs, s, hrun, hinv⟩ := run_invariant inv_step (inv_create hcreate) hops
  exact ⟨rs, s, hrun, hinv.iterationRight_iff⟩

/-- A trie with one prefix. -/
theorem iterationRight_one_prefix : ∃ rs s, run step (Sys.new ⟨5, 1, 2, 1, 8, .null, 0⟩)
        [(.update (some ⟨0, ⟨[0], rfl⟩⟩) (some ⟨[7], rfl⟩) 0 allOk : Op 1 1)] = some (rs, s) ∧
        IterationRight 1 s := by
  obtain ⟨rs, s, hrun, hright⟩ := iterationRight_iff_reached
    (show create 5 1 2 = some ⟨5, 1, 2, 1, 8, .null, 0⟩ from rfl)
    [(.update (some ⟨0, ⟨[0], rfl⟩⟩) (some ⟨[7], rfl⟩) 0 allOk : Op 1 1)] ⟨rfl, fun _ _ _ => trivial⟩
  refine ⟨rs, s, hrun, hright.mpr ?_⟩
  cases hrun
  have hall : ∀ q, Stored ⟨⟨5, 1, 2, 1, 8, .node ⟨0, false, [0, 7], 2⟩ .null .null, 1⟩,
      update (fun _ => none) [] (some (some [7]))⟩ q → q = [] := by
    rintro q ⟨v, hv⟩
    by_contra hne
    dsimp only at hv
    rw [update_of_ne hne] at hv
    cases hv
  refine ⟨fun q q' hq hq' => (hall q hq).trans (hall q' hq').symm, fun q hq => ?_⟩
  exact ⟨⟨0, false, [0, 7], 2⟩, mem_cons_self, (hall q hq).symm⟩

/-- Two prefixes of full length. -/
def storeTwo : List (Op 1 1) :=
  [.update (some ⟨8, oneByte 0⟩) (some (oneByte 7)) 0 allOk,
    .update (some ⟨8, oneByte 0xff⟩) (some (oneByte 9)) 0 allOk]

/-- Two prefixes are stored, and iteration gives one. -/
theorem not_iterationRight_storeTwo :
    ∃ rs s, run step (Sys.new ⟨5, 1, 2, 1, 8, .null, 0⟩) storeTwo = some (rs, s) ∧ ¬IterationRight 1 s := by
  have hcreate : create 5 1 2 = some ⟨5, 1, 2, 1, 8, .null, 0⟩ := rfl
  have hops : Along step Grown (Sys.new ⟨5, 1, 2, 1, 8, .null, 0⟩) storeTwo :=
    ⟨rfl, fun _ _ _ => ⟨rfl, fun _ _ _ => trivial⟩⟩
  obtain ⟨rs, s, hrun, hinv⟩ := run_invariant inv_step (inv_create hcreate) hops
  refine ⟨rs, s, hrun, fun hright => ?_⟩
  obtain ⟨hone, -⟩ := hinv.iterationRight_iff.mp hright
  have hlast : (run step (Sys.new ⟨5, 1, 2, 1, 8, .null, 0⟩) storeTwo).map
      (fun p => (p.2.last (keyBits 1 ⟨8, [0]⟩), p.2.last (keyBits 1 ⟨8, [0xff]⟩))) =
        some (some (some [7]), some (some [9])) := by decide +kernel
  rw [hrun, map_some, some.injEq, Prod.mk.injEq] at hlast
  have heq := hone _ _ ⟨_, hlast.1⟩ ⟨_, hlast.2⟩
  exact absurd heq (by decide)

end Iteration

end Bpftime.LpmTrieMap
