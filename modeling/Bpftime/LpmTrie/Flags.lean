import Bpftime.LpmTrie.Structure

/-!
# The flags of `elem_update`

An update should create a prefix only with `BPF_NOEXIST` or `BPF_ANY`, replace one only with
`BPF_EXIST` or `BPF_ANY`, and add none to a trie that stores `max_entries` of them (`expected`).
-/

namespace Bpftime.LpmTrieMap

open Bytes BitStrings Runs Option List Prod Function

/-! ## The outcome of the walk -/

section Walk

variable {m : LpmTrieMap} {key : BpfLpmTrieKey} {value : List UInt8} {flags : ℕ} {p : List Bool} {t : Trie}

/-- How the walk of `elem_update` ends, by what the node of the prefix holds, when there is one. -/
def walkOutcome (m : LpmTrieMap) (flags : ℕ) : Option (Option (List UInt8)) → Outcome
  | some (some _) => if flags = 1 then .error .EEXIST else .ok
  | some none =>
    if flags = 1 then .error .EEXIST
    else if flags = 2 then .error .ENOENT
    else if m.n_entries ≥ m.max_entries then .error .ENOSPC
    else .ok
  | none =>
    if flags = 2 then .error .ENOENT
    else if m.n_entries ≥ m.max_entries then .error .ENOSPC
    else .ok

section

variable (hkey : key.data.length = m.data_size) (hvalue : value.length = m.value_size)
include hkey hvalue

lemma withNewNode_fst {insert : LpmTrieNode → Option (Outcome × Trie × Bool)}
    (h : (insert ⟨key.prefixlen, false, key.data ++ value, m.data_size + m.value_size⟩).map fst = some .ok) :
    (m.withNewNode key value flags allOk t insert).map fst = some (walkOutcome m flags none) := by
  unfold withNewNode walkOutcome
  by_cases hexist : flags = 2
  · rw [if_pos hexist, if_pos hexist]
    rfl
  · rw [if_neg hexist, if_neg hexist]
    by_cases hfull : m.n_entries ≥ m.max_entries
    · rw [if_pos hfull, if_pos hfull]
      rfl
    · rw [if_neg hfull, if_neg hfull]
      dsimp only [allOk]
      rw [newNode_eq hkey hvalue, bind_some, h]

lemma split_fst (matchlen : ℕ) :
    (m.split key value flags allOk t matchlen).map fst = some (walkOutcome m flags none) := by
  unfold split
  refine withNewNode_fst hkey hvalue ?_
  dsimp only [allOk]
  rw [imNode_eq hkey, map_some]
  split_ifs
  · rfl
  · rfl

end

lemma updateExact_fst {n : LpmTrieNode} {child0 child1 : Trie}
    (hwf : WF m.data_size m.value_size m.max_prefixlen p (.node n child0 child1))
    (hvalue : value.length = m.value_size) (heq : nodeBits m.data_size n = keyBits m.data_size key) :
    (m.updateExact value flags allOk n child0 child1).map fst =
    some (walkOutcome m flags (some (content m.data_size n))) := by
  -- The update has a result, which is a success wherever it comes from a copy of the value.
  obtain ⟨r, hr⟩ : ∃ r, m.updateExact value flags allOk n child0 child1 = some r := by
    have hupdated : Updated m key value p (.node n child0 child1)
        (m.updateExact value flags allOk n child0 child1) := updated_updateExact hwf hvalue heq rfl
    rcases hupdated with ⟨t', added, h, -⟩ | ⟨outcome, -, h⟩
    · exact ⟨_, h⟩
    · exact ⟨_, h⟩
  have hcopy : ∀ (n' : LpmTrieNode) (added : Bool),
      (m.copyValueData n' value).map (fun n => (Outcome.ok, Trie.node n child0 child1, added)) =
      some r → r.1 = .ok := by
    intro n' added h
    obtain ⟨n'', -, rfl⟩ := map_eq_some_iff.mp h
    rfl
  rw [hr, map_some, some.injEq]
  unfold updateExact at hr
  unfold content walkOutcome
  by_cases him : n.is_intermediate
  · rw [if_pos him]
    dsimp only
    by_cases h1 : flags = 1
    · rw [if_pos h1, some.injEq] at hr
      rw [if_pos h1, ← hr]
    rw [if_neg h1] at hr ⊢
    by_cases h2 : flags = 2
    · rw [if_pos ⟨h2, him⟩, some.injEq] at hr
      rw [if_pos h2, ← hr]
    rw [if_neg (fun h => h2 h.1), if_pos him] at hr
    rw [if_neg h2]
    by_cases hfull : m.n_entries ≥ m.max_entries
    · rw [if_pos hfull, some.injEq] at hr
      rw [if_pos hfull, ← hr]
    rw [if_neg hfull] at hr ⊢
    exact hcopy _ _ hr
  · rw [if_neg him]
    dsimp only
    by_cases h1 : flags = 1
    · rw [if_pos h1, some.injEq] at hr
      rw [if_pos h1, ← hr]
    rw [if_neg h1, if_neg (fun h => him h.2), if_neg him] at hr
    rw [if_neg h1]
    exact hcopy _ _ hr

lemma updateWalk_fst (hwf : WF m.data_size m.value_size m.max_prefixlen p t)
    (hkey : key.data.length = m.data_size) (hvalue : value.length = m.value_size)
    (hk : key.prefixlen ≤ m.max_prefixlen) : (m.updateWalk key value flags allOk t).map fst =
    some (walkOutcome m flags (entry m.data_size t (keyBits m.data_size key))) := by
  induction t generalizing p with
  | null =>
    rw [updateWalk]
    exact withNewNode_fst hkey hvalue rfl
  | node n child0 child1 ih0 ih1 =>
    obtain ⟨hmn, hmk, -, -⟩ := longestPrefixMatch_spec m n key
    have hnode := longestPrefixMatch_eq_node m n key
    have hle := hwf.1.prefixlen_le
    rw [updateWalk]
    by_cases hbreak : n.prefixlen ≠ m.longestPrefixMatch n key ∨ n.prefixlen = key.prefixlen ∨
        n.prefixlen = m.max_prefixlen
    · rw [if_pos hbreak]
      by_cases hexact : n.prefixlen = key.prefixlen ∧ m.longestPrefixMatch n key = key.prefixlen
      · have heq : nodeBits m.data_size n = keyBits m.data_size key :=
          (hnode.mp (by omega)).eq_of_length (by rw [length_nodeBits, length_keyBits, hexact.1])
        rw [if_pos hexact.1, if_pos hexact.2, entry, if_pos heq.symm]
        exact updateExact_fst hwf hvalue heq
      · -- The node is not above the prefix, which then has no node.
        have hnone : entry m.data_size (.node n child0 child1) (keyBits m.data_size key) = none := by
          refine hwf.entry_node_eq_none fun hpre => ?_
          have hlen := hnode.mpr hpre
          omega
        rw [hnone]
        split_ifs with hsame hmatch hanc hbit
        · exact absurd ⟨hsame, hmatch⟩ hexact
        · exact split_fst hkey hvalue _
        · exact withNewNode_fst hkey hvalue rfl
        · exact withNewNode_fst hkey hvalue rfl
        · exact split_fst hkey hvalue _
    · rw [if_neg hbreak]
      have hsnoc := snoc_isPrefix (hnode.mp (by omega)) (show n.prefixlen < key.prefixlen by omega)
      have hbit : m.extractBit key.data n.prefixlen = bitAt m.data_size key.data n.prefixlen := rfl
      rw [hbit, hwf.entry_childOn hsnoc]
      cases hb : bitAt m.data_size key.data n.prefixlen with
      | true =>
        rw [if_pos rfl, Option.map_map]
        exact ih1 hwf.2.2.2
      | false =>
        rw [if_neg Bool.false_ne_true, Option.map_map]
        exact ih0 hwf.2.2.1

end Walk

section Stored

variable {ds vs maxp : ℕ} {p q : List Bool} {t : Trie}

/-- A prefix that was updated and not deleted since. -/
def Stored (s : Sys) (q : List Bool) : Prop := ∃ v, s.last q = some (some v)

lemma WF.entry_eq_some_iff (h : WF ds vs maxp p t) {e : Option (List UInt8)} :
    entry ds t q = some e ↔ ∃ n ∈ nodes t, nodeBits ds n = q ∧ content ds n = e := by
  induction t generalizing p with
  | null => exact iff_of_false nofun fun ⟨_, hn, _⟩ => not_mem_nil hn
  | node n child0 child1 ih0 ih1 =>
    have ih : ∀ b, entry ds (LpmTrieMap.childOn b child0 child1) q = some e ↔
        ∃ n' ∈ nodes (LpmTrieMap.childOn b child0 child1), nodeBits ds n' = q ∧ content ds n' = e := by
      intro b
      cases b with
      | false => exact ih0 h.2.2.1
      | true => exact ih1 h.2.2.2
    constructor
    · intro he
      rcases h.entry_cases he with ⟨rfl, rfl⟩ | ⟨b, -, he'⟩
      · exact ⟨n, mem_cons_self, rfl, rfl⟩
      · obtain ⟨n', hn', hbits⟩ := (ih b).mp he'
        refine ⟨n', ?_, hbits⟩
        rw [nodes, mem_cons, mem_append]
        cases b with
        | false => exact Or.inr (Or.inl hn')
        | true => exact Or.inr (Or.inr hn')
    · rintro ⟨n', hn', rfl, rfl⟩
      rw [nodes, mem_cons, mem_append] at hn'
      rcases hn' with rfl | hn' | hn'
      · rw [entry, if_pos rfl]
      · rw [h.entry_childOn (h.2.2.1.isPrefix_of_mem hn')]
        exact (ih false).mpr ⟨n', hn', rfl, rfl⟩
      · rw [h.entry_childOn (h.2.2.2.isPrefix_of_mem hn')]
        exact (ih true).mpr ⟨n', hn', rfl, rfl⟩

lemma Inv.stored_iff {s : Sys} (h : Inv ds vs maxp s) (q : List Bool) :
    Stored s q ↔ ∃ n ∈ nodes s.map.root, nodeBits ds n = q ∧ n.is_intermediate = false := by
  unfold Stored
  constructor
  · rintro ⟨v, hv⟩
    obtain ⟨n, hn, hbits, hcontent⟩ := h.wf.entry_eq_some_iff.mp ((h.stored q v).mpr hv)
    refine ⟨n, hn, hbits, ?_⟩
    unfold content at hcontent
    split_ifs at hcontent with him
    simpa using him
  · rintro ⟨n, hn, hbits, him⟩
    refine ⟨n.data.drop ds, (h.stored q _).mp (h.wf.entry_eq_some_iff.mpr ⟨n, hn, hbits, ?_⟩)⟩
    unfold content
    rw [if_neg (by simp [him])]

lemma Inv.ncard_stored {s : Sys} (h : Inv ds vs maxp s) : {q | Stored s q}.ncard = count s.map.root := by
  have hset : {q | Stored s q} =
      (((nodes s.map.root).filter fun n => !n.is_intermediate).map (nodeBits ds)).toFinset := by
    ext q
    simp only [Set.mem_ofPred_eq, h.stored_iff, List.coe_toFinset, List.mem_map, List.mem_filter,
      Bool.not_eq_eq_eq_not, Bool.not_true]
    constructor
    · rintro ⟨n, hn, hbits, him⟩
      exact ⟨n, ⟨hn, him⟩, hbits⟩
    · rintro ⟨n, ⟨hn, him⟩, hbits⟩
      exact ⟨n, hn, hbits, him⟩
  have hnodup : (((nodes s.map.root).filter fun n => !n.is_intermediate).map (nodeBits ds)).Nodup :=
    h.wf.nodup.sublist (filter_sublist.map _)
  rw [hset, Set.ncard_coe_finset, toFinset_card_of_nodup hnodup, length_map, ← countP_eq_length_filter]
  rfl

end Stored

/-! ## What an update should do -/

open Classical in
/-- How an update of a prefix should end. -/
noncomputable def expected (s : Sys) (q : List Bool) (flags : UInt64) : Outcome :=
  if ¬(flags = 0 ∨ flags = 1 ∨ flags = 2) then .error .EINVAL
  else if flags = 1 ∧ Stored s q then .error .EEXIST
  else if flags = 2 ∧ ¬Stored s q then .error .ENOENT
  else if ¬Stored s q ∧ s.map.max_entries ≤ {q | Stored s q}.ncard then .error .ENOSPC
  else .ok

/-- What the trie holds under a prefix. -/
def HoldsAt (s : Sys) (q : List Bool) (v : List UInt8) : Prop :=
  entry s.map.data_size s.map.root q = some (some v)

def UpdateRight {ds vs : ℕ} (s : Sys) (key : Key ds) (value : List.Vector UInt8 vs)
    (flags : UInt64) : Prop :=
  ∃ s', step s (.update (some key) (some value) flags allOk) =
    some (expected s (keyBits ds key.toKey) flags, s') ∧
    ∀ q v, HoldsAt s' q v ↔
      if expected s (keyBits ds key.toKey) flags = .ok ∧ q = keyBits ds key.toKey then v = value.toList
      else HoldsAt s q v

/-- A node has the prefix of the key and stores nothing. -/
def Hollow {ds : ℕ} (s : Sys) (key : Key ds) : Prop :=
  entry s.map.data_size s.map.root (keyBits ds key.toKey) = some none

section Update

variable {ds vs maxp max_entries : ℕ} {s : Sys} {key : Key ds} {value : List.Vector UInt8 vs}
    {flags : UInt64}

lemma Inv.update_fst (h : Inv ds vs maxp s) (hk : key.prefixlen.toNat ≤ s.map.max_prefixlen) :
    (step s (.update (some key) (some value) flags allOk)).map fst =
    some (if ¬(flags = 0 ∨ flags = 1 ∨ flags = 2) then .error .EINVAL
    else walkOutcome s.map flags.toNat (entry ds s.map.root (keyBits ds key.toKey))) := by
  obtain ⟨hds, hvs, hmax, hwf, -, -⟩ := h
  subst hds hvs hmax
  have hflags : (flags.toNat ≠ 0 ∧ flags.toNat ≠ 1 ∧ flags.toNat ≠ 2) ↔
      ¬(flags = 0 ∨ flags = 1 ∨ flags = 2) := by
    rw [← UInt64.toNat_inj, ← UInt64.toNat_inj, ← UInt64.toNat_inj]
    simp only [UInt64.toNat_zero, UInt64.toNat_one, UInt64.reduceToNat, not_or, ne_eq]
  have hshort : ¬key.toKey.prefixlen > s.map.max_prefixlen := Nat.not_lt.mpr hk
  have hwalk : (s.map.updateWalk key.toKey value.toList flags.toNat allOk s.map.root).map fst = some _ :=
    updateWalk_fst hwf key.data.toList_length value.toList_length hk
  unfold step
  rw [Option.map_map, map_some, map_some, elemUpdate]
  by_cases hbad : ¬(flags = 0 ∨ flags = 1 ∨ flags = 2)
  · rw [if_pos hbad, if_pos (hflags.mpr hbad)]
    rfl
  · rw [if_neg hbad, if_neg (mt hflags.mp hbad), if_neg hshort, Option.map_map]
    exact hwalk

lemma last_of_update {r : Outcome} {s' : Sys}
    (h : step s (.update (some key) (some value) flags allOk) = some (r, s')) :
    s'.last = if r = .ok then update s.last (keyBits ds key.toKey)
    (some (some value.toList)) else s.last := by
  obtain ⟨⟨r', m'⟩, -, heq⟩ := map_eq_some_iff.mp h
  cases heq
  cases r' with
  | ok => rfl
  | error e => rfl
  | threw => rfl

lemma Inv.expected_iff (h : Inv ds vs maxp s) (hcounts : Counts max_entries s.map) :
    (if ¬(flags = 0 ∨ flags = 1 ∨ flags = 2) then Outcome.error .EINVAL
    else walkOutcome s.map flags.toNat (entry ds s.map.root (keyBits ds key.toKey))) =
    expected s (keyBits ds key.toKey) flags ↔ ¬(flags = 1 ∧ Hollow s key) := by
  have hfull : s.map.n_entries ≥ s.map.max_entries ↔ s.map.max_entries ≤ {q | Stored s q}.ncard := by
    rw [h.ncard_stored, ← hcounts.n_entries]
  have h1 : flags.toNat = 1 ↔ flags = 1 := by
    rw [← UInt64.toNat_inj]
    rfl
  have h2 : flags.toNat = 2 ↔ flags = 2 := by
    rw [← UInt64.toNat_inj]
    rfl
  have hds := h.data_size
  have hstored : Stored s (keyBits ds key.toKey) ↔
      ∃ v, entry ds s.map.root (keyBits ds key.toKey) = some (some v) :=
    exists_congr fun v => (h.stored _ v).symm
  unfold expected Hollow walkOutcome
  rw [hds]
  simp only [h1, h2, hfull]
  by_cases hbad : ¬(flags = 0 ∨ flags = 1 ∨ flags = 2)
  · rw [if_pos hbad, if_pos hbad]
    refine iff_of_true rfl ?_
    rintro ⟨rfl, -⟩
    exact hbad (Or.inr (Or.inl rfl))
  rw [if_neg hbad, if_neg hbad]
  cases he : entry ds s.map.root (keyBits ds key.toKey) with
  | none =>
    have hnot : ¬Stored s (keyBits ds key.toKey) := by
      rw [hstored, he]
      simp
    simp only [hnot, and_false, if_false, not_false_eq_true, and_true, true_and, reduceCtorEq]
  | some c =>
    cases c with
    | none =>
      have hnot : ¬Stored s (keyBits ds key.toKey) := by
        rw [hstored, he]
        simp
      simp only [hnot, and_false, if_false, not_false_eq_true, and_true, true_and]
      by_cases hne : flags = 1
      · have hne2 : flags ≠ 2 := by rw [hne]; decide
        rw [if_pos hne, if_neg hne2]
        refine iff_of_false ?_ (not_not.mpr hne)
        split_ifs
        · simp
        · simp
      · rw [if_neg hne]
        simp [hne]
    | some v =>
      have hyes : Stored s (keyBits ds key.toKey) := hstored.mpr ⟨v, he⟩
      simp only [hyes, and_true, not_true_eq_false, and_false, if_false, false_and, some.injEq,
        reduceCtorEq, not_false_eq_true]

lemma Inv.updateRight_iff (h : Inv ds vs maxp s) (hcounts : Counts max_entries s.map)
    (hk : key.prefixlen.toNat ≤ s.map.max_prefixlen) : UpdateRight s key value flags ↔
    ¬(flags = 1 ∧ Hollow s key) := by
  rw [← h.expected_iff hcounts]
  have hfst : (step s (.update (some key) (some value) flags allOk)).map fst = some _ := h.update_fst hk
  obtain ⟨r, s', hstep, hinv', -⟩ := inv_update h (some key) (some value) flags allOk rfl
  rw [hstep, map_some, some.injEq] at hfst
  dsimp only at hfst
  rw [← hfst]
  constructor
  · rintro ⟨s'', hstep', -⟩
    rw [hstep] at hstep'
    exact (Prod.mk.inj (some.inj hstep')).1
  · intro hr
    refine ⟨s', by rw [hstep, hr], fun q v => ?_⟩
    -- What the trie holds is what its history says, before and after.
    unfold HoldsAt
    rw [hinv'.data_size, h.data_size, hinv'.stored, h.stored, last_of_update hstep, hr]
    by_cases hok : expected s (keyBits ds key.toKey) flags = .ok
    · rw [if_pos hok, update_apply]
      by_cases hq : q = keyBits ds key.toKey
      · rw [if_pos hq, if_pos ⟨hok, hq⟩, some.injEq, some.injEq, eq_comm]
      · rw [if_neg hq, if_neg fun h => hq h.2]
    · rw [if_neg hok, if_neg fun h => hok h.1]

/-- In every state that calls lead to in which the bytes of nodes can grow, an update whose
allocations succeed is right exactly when it is not one with `BPF_NOEXIST` of a prefix whose node
stores nothing. -/
theorem updateRight_iff_not_hollow {key_size value_size max_entries : ℕ} {m : LpmTrieMap}
    (hcreate : create key_size value_size max_entries = some m) (hmax : max_entries < 2^64)
    (ops : List (Op (key_size - 4) value_size)) (hops : Along step Grown (Sys.new m) ops) :
    ∃ rs s, run step (Sys.new m) ops = some (rs, s) ∧
      ∀ (key : Key (key_size - 4)) (value : List.Vector UInt8 value_size) (flags : UInt64),
        key.prefixlen.toNat ≤ m.max_prefixlen →
        (UpdateRight s key value flags ↔ ¬(flags = 1 ∧ Hollow s key)) := by
  obtain ⟨rs, s, hrun, hinv, hcounts⟩ := inv_counts_of_run hcreate hmax ops hops
  refine ⟨rs, s, hrun, fun key value flags hk => hinv.updateRight_iff hcounts ?_⟩
  rw [hinv.max_prefixlen]
  exact hk

/-- A prefix that was deleted is stored again. -/
theorem updateRight_stored_again : ∃ rs s, run step
    (Sys.new ⟨5, 1, 2, 1, 8, .null, 0⟩) storeAndDelete = some (rs, s) ∧
      UpdateRight s (⟨8, ⟨[0xff], rfl⟩⟩ : Key 1) (⟨[9], rfl⟩ : List.Vector UInt8 1) 0 := by
  obtain ⟨rs, s, hrun, hright⟩ := updateRight_iff_not_hollow (show create 5 1 2 = some ⟨5, 1, 2, 1,
      8, .null, 0⟩ from rfl)
    (by norm_num) storeAndDelete ⟨rfl, fun _ _ _ => ⟨rfl, fun _ _ _ => ⟨trivial, fun _ _ _ => trivial⟩⟩⟩
  refine ⟨rs, s, hrun, (hright _ _ 0 (by decide)).mpr ?_⟩
  rintro ⟨hflags, -⟩
  exact absurd hflags (by decide)

/-- A prefix that was deleted cannot be created again with `BPF_NOEXIST`. -/
theorem not_updateRight_deleted : ∃ rs s, run step
    (Sys.new ⟨5, 1, 2, 1, 8, .null, 0⟩) storeAndDelete = some (rs, s) ∧
      ¬UpdateRight s (⟨8, ⟨[0xff], rfl⟩⟩ : Key 1) (⟨[9], rfl⟩ : List.Vector UInt8 1) 1 := by
  have hgot : ((run step (Sys.new ⟨5, 1, 2, 1, 8, .null, 0⟩) storeAndDelete).bind fun p =>
      step p.2 (.update (some ⟨8, ⟨[0xff], rfl⟩⟩) (some ⟨[9], rfl⟩) 1 allOk : Op 1 1)).map fst =
        some (.error .EEXIST) := by decide +kernel
  have hlast : (run step (Sys.new ⟨5, 1, 2, 1, 8, .null, 0⟩) storeAndDelete).map
      (fun p => p.2.last (keyBits 1 ⟨8, [0xff]⟩)) = some (some none) := by decide +kernel
  cases hrun : run step (Sys.new ⟨5, 1, 2, 1, 8, .null, 0⟩) storeAndDelete with
  | none => simp [hrun] at hlast
  | some p =>
    rw [hrun, map_some, some.injEq] at hlast
    rw [hrun, bind_some] at hgot
    refine ⟨p.1, p.2, rfl, ?_⟩
    rintro ⟨s', hstep, -⟩
    rw [hstep, map_some, some.injEq] at hgot
    have hnot : ¬Stored p.2 (keyBits 1 (⟨8, ⟨[0xff], rfl⟩⟩ : Key 1).toKey) := by
      rintro ⟨v, hv⟩
      exact absurd (hlast.symm.trans hv) (by simp)
    unfold expected at hgot
    simp only [hnot, and_false, if_false] at hgot
    split_ifs at hgot <;> simp_all

end Update

section Memory

variable {m : LpmTrieMap} {key : BpfLpmTrieKey} {value : List UInt8} {flags : ℕ} {p : List Bool} {t : Trie}

lemma length_updateExact {n : LpmTrieNode} {child0 child1 t' : Trie} {o : Outcome} {added : Bool}
    (h : m.updateExact value flags allOk n child0 child1 = some (o, t', added)) :
    (nodes t').length = (nodes (.node n child0 child1)).length := by
  unfold updateExact at h
  split_ifs at h
  any_goals
    cases h
    rfl
  all_goals
    obtain ⟨n', -, heq⟩ := map_eq_some_iff.mp h
    cases heq
    rfl

/-- An update of a prefix that has a node adds no node. -/
lemma length_updateWalk (hwf : WF m.data_size m.value_size m.max_prefixlen p t)
    (hk : key.prefixlen ≤ m.max_prefixlen)
    (he : entry m.data_size t (keyBits m.data_size key) ≠ none) {o : Outcome} {t' : Trie} {added : Bool}
    (h : m.updateWalk key value flags allOk t = some (o, t', added)) :
    (nodes t').length = (nodes t).length := by
  induction t generalizing p t' o added with
  | null => exact absurd rfl he
  | node n child0 child1 ih0 ih1 =>
    obtain ⟨hmn, hmk, -, -⟩ := longestPrefixMatch_spec m n key
    have hnode := longestPrefixMatch_eq_node m n key
    rw [updateWalk] at h
    -- The prefix of the node is one of the key, which has a node.
    have habove : m.longestPrefixMatch n key = n.prefixlen := hnode.mpr (by
      by_contra hpre
      exact he (hwf.entry_node_eq_none hpre))
    by_cases hsame : n.prefixlen = key.prefixlen
    · rw [if_pos (.inr (.inl hsame)), if_pos hsame, if_pos (habove.trans hsame)] at h
      exact length_updateExact h
    · have hsnoc := snoc_isPrefix (hnode.mp habove) (show n.prefixlen < key.prefixlen by omega)
      rw [hwf.entry_childOn hsnoc] at he
      rw [if_neg (by omega), show m.extractBit key.data n.prefixlen =
        bitAt m.data_size key.data n.prefixlen from rfl] at h
      cases hb : bitAt m.data_size key.data n.prefixlen with
      | true =>
        rw [hb] at h he
        obtain ⟨x, hx, heq⟩ := map_eq_some_iff.mp h
        cases heq
        simp [nodes, ih1 hwf.2.2.2 he hx]
      | false =>
        rw [hb] at h he
        obtain ⟨x, hx, heq⟩ := map_eq_some_iff.mp h
        cases heq
        simp [nodes, ih0 hwf.2.2.1 he hx]

variable {ds vs maxp : ℕ} {qs : Finset (List Bool)} {s s' : Sys} {o : Outcome}

/-- What is asked of a call: the allocations of an update succeed, and its prefix is one of `qs`. -/
def Sparing (qs : Finset (List Bool)) : Op ds vs → Prop
  | .update key _ _ allocs => allocs = allOk ∧ ∀ k ∈ key, keyBits ds k.toKey ∈ qs
  | .delete _ => True

/-- The prefixes that were stored at some time are some of `qs` and have nodes, and there are fewer
than twice as many nodes. -/
structure Within (ds : ℕ) (qs : Finset (List Bool)) (s : Sys) : Prop where
  few : ∀ q, s.last q ≠ none → q ∈ qs
  kept : ∀ q, s.last q ≠ none → entry ds s.map.root q ≠ none
  nodes_le : s.map.root ≠ .null →
    (nodes s.map.root).length + 1 ≤ 2 * (qs.filter fun q => s.last q ≠ none).card

lemma filter_subset_update (qs : Finset (List Bool)) (last : List Bool → Option (Option (List UInt8)))
    (p : List Bool) (v : Option (List UInt8)) : (qs.filter fun q => last q ≠ none) ⊆
      qs.filter fun q => Function.update last p (some v) q ≠ none := by
  refine Finset.monotone_filter_right qs fun q _ hq => ?_
  rw [update_apply]
  split_ifs
  · simp
  · exact hq

lemma Within.update {key : Option (Key ds)} {value : Option (List.Vector UInt8 vs)} {flags : UInt64}
    (h : Within ds qs s) (hinv : Inv ds vs maxp s) (hqs : ∀ k ∈ key, keyBits ds k.toKey ∈ qs)
    (hstep : step s (.update key value flags allOk) = some (.ok, s')) : Within ds qs s' := by
  obtain ⟨hds, hvs, -, hwf, -, -⟩ := id hinv
  obtain ⟨⟨o', m'⟩, hup, heq⟩ := map_eq_some_iff.mp hstep
  cases heq
  cases key with
  | none => cases hup
  | some key =>
  cases value with
  | none => cases hup
  | some value =>
    simp only [map_some, elemUpdate] at hup
    split_ifs at hup with hflags hlong
    · cases hup
    · cases hup
    obtain ⟨⟨o', t', added⟩, hwalk, heq⟩ := map_eq_some_iff.mp hup
    cases heq
    subst hds hvs
    have hk : key.toKey.prefixlen ≤ s.map.max_prefixlen := not_lt.mp hlong
    rw [← hinv.max_prefixlen] at hwf
    have hspec : Updated s.map key.toKey value.toList [] s.map.root
        (s.map.updateWalk key.toKey value.toList flags.toNat allOk s.map.root) :=
      updateWalk_spec hwf key.data.2 value.2 hk nil_prefix rfl
    obtain ⟨t'', added', hwalk', -, hself, hother⟩ | ⟨outcome, hne, hwalk'⟩ := hspec
    · cases hwalk.symm.trans hwalk'
      have hlast : ∀ q, q ≠ keyBits s.map.data_size key.toKey →
          Function.update s.last (keyBits s.map.data_size key.toKey) (some (some value.toList)) q =
            s.last q := fun q hq => update_of_ne hq _ _
      refine ⟨fun q hq => ?_, fun q hq => ?_, fun _ => ?_⟩
      · by_cases heq : q = keyBits s.map.data_size key.toKey
        · rw [heq]
          exact hqs key rfl
        · exact h.few q (by rwa [← hlast q heq])
      · by_cases heq : q = keyBits s.map.data_size key.toKey
        · rw [heq]
          exact fun hnone => by cases hself.symm.trans hnone
        · have hold := h.kept q (by rwa [← hlast q heq])
          rcases hother q heq with hsame | ⟨hnone, -⟩
          · exact fun hnone => hold (hsame.symm.trans hnone)
          · exact absurd hnone hold
      · -- A prefix that is stored for the first time comes with at most two nodes.
        obtain ⟨-, -, hnodes⟩ := edited_updateWalk rfl _ _ t' added hwalk
        have hsub := filter_subset_update qs s.last (keyBits s.map.data_size key.toKey)
          (some value.toList)
        by_cases hnew : s.last (keyBits s.map.data_size key.toKey) = none
        · have hcard := Finset.card_lt_card (hsub.ssubset_of_mem_notMem
            (a := keyBits s.map.data_size key.toKey) (by simp [hqs key rfl]) (by simp [hnew]))
          change (nodes t').length + 1 ≤ 2 * (qs.filter fun q => Function.update s.last
            (keyBits s.map.data_size key.toKey) (some (some value.toList)) q ≠ none).card
          by_cases hnull : s.map.root = .null
          · rw [hnull] at hnodes
            simp only [nodes, length_nil, if_true] at hnodes
            split_ifs at hnodes <;> omega
          · have hle := h.nodes_le hnull
            split_ifs at hnodes <;> omega
        · have hentry := h.kept _ hnew
          have hlen := length_updateWalk hwf hk hentry hwalk
          have hcard := Finset.card_le_card hsub
          have hle := h.nodes_le fun hnull => hentry (by rw [hnull]; rfl)
          change (nodes t').length + 1 ≤ 2 * (qs.filter fun q => Function.update s.last
            (keyBits s.map.data_size key.toKey) (some (some value.toList)) q ≠ none).card
          omega
    · cases hwalk.symm.trans hwalk'
      exact absurd rfl hne

/-- A delete that succeeds is one of a stored prefix. -/
lemma Inv.stored_of_delete {key : Key ds} (h : Inv ds vs maxp s) (h' : Inv ds vs maxp s') {root : Trie}
    (hdel : s.map.deleteWalk key.toKey s.map.root = some root) (hroot : s'.map.root = root)
    (hlast : s'.last = Function.update s.last (keyBits ds key.toKey) (some none)) :
    Stored s (keyBits ds key.toKey) := by
  by_contra hnot
  have hsame : {q | Stored s' q} = {q | Stored s q} := by
    ext q
    simp only [Set.mem_ofPred_eq, Stored, hlast, update_apply]
    split_ifs with hq
    · exact iff_of_false (by simp) (hq ▸ hnot)
    · rfl
  have hcount := h'.ncard_stored
  rw [hsame, h.ncard_stored, hroot] at hcount
  have := (count_deleteWalk hdel).1
  omega

lemma Within.delete {key : Option (Key ds)} (h : Within ds qs s) (hinv : Inv ds vs maxp s)
    (hinv' : Inv ds vs maxp s') (hstep : step s (.delete key : Op ds vs) = some (.ok, s')) :
    Within ds qs s' := by
  cases key with
  | none => cases hstep
  | some key =>
    simp only [step, map_some, elemDelete] at hstep
    by_cases hlong : key.toKey.prefixlen > s.map.max_prefixlen
    · rw [if_pos hlong] at hstep
      cases hstep
    rw [if_neg hlong] at hstep
    cases hdel : s.map.deleteWalk key.toKey s.map.root with
    | none =>
      rw [hdel] at hstep
      cases hstep
    | some root =>
      rw [hdel] at hstep
      cases hstep
      obtain ⟨v, hstored⟩ := hinv.stored_of_delete hinv' hdel rfl rfl
      obtain ⟨hds, hvs, -, hwf, -, -⟩ := id hinv
      subst hds hvs
      rw [← hinv.max_prefixlen] at hwf
      obtain ⟨-, he⟩ := deleteWalk_spec hwf hdel
      -- Which prefixes were stored at some time is as before.
      have hlast : ∀ q, Function.update s.last (keyBits s.map.data_size key.toKey) (some none) q ≠
          none ↔ s.last q ≠ none := by
        intro q
        rw [update_apply]
        split_ifs with hq
        · simp [hq, hstored]
        · rfl
      refine ⟨fun q hq => h.few q ((hlast q).mp hq), fun q hq => ?_, fun hne => ?_⟩
      · have hold := h.kept q ((hlast q).mp hq)
        change entry s.map.data_size root q ≠ none
        rw [he, update_apply]
        split_ifs
        · simp
        · exact hold
      · have hnodes := (count_deleteWalk hdel).2
        simp only [hlast, hnodes]
        refine h.nodes_le fun hnull => ?_
        rw [hnull] at hdel
        cases hdel

lemma within_step (s : Sys) (op : Op ds vs) (h : Inv ds vs maxp s ∧ Within ds qs s) (hop : Sparing qs op) :
    ∃ r s', step s op = some (r, s') ∧ Inv ds vs maxp s' ∧ Within ds qs s' := by
  obtain ⟨hinv, hwithin⟩ := h
  have hgrown : Grown s op := by
    cases op with
    | update key value flags allocs => exact congrArg Allocs.resize_throws hop.1
    | delete key => trivial
  obtain ⟨r, s', hstep, hinv', hfailed⟩ := inv_or_same_step s op hinv hgrown
  refine ⟨r, s', hstep, hinv', ?_⟩
  by_cases hr : r = .ok
  · subst hr
    cases op with
    | update key value flags allocs =>
      obtain ⟨rfl, hqs⟩ := hop
      exact hwithin.update hinv hqs hstep
    | delete key => exact hwithin.delete hinv hinv' hstep
  · rw [hfailed hr]
    exact hwithin

/-- In every run in which allocations succeed and the updates are given at most `max_entries`
different prefixes, the trie has fewer than twice `max_entries` nodes, and none if nothing was ever
stored. -/
theorem nodes_of_run {key_size value_size max_entries : ℕ} {m : LpmTrieMap}
    (h : create key_size value_size max_entries = some m) (qs : Finset (List Bool))
    (hqs : qs.card ≤ max_entries) (ops : List (Op (key_size - 4) value_size))
    (hops : ∀ op ∈ ops, Sparing qs op) :
    ∃ rs s, run step (Sys.new m) ops = some (rs, s) ∧ (nodes s.map.root).length ≤
      2 * max_entries - 1 ∧ ((∀ q, s.last q = none) → nodes s.map.root = []) := by
  have hnull : m.root = .null := by
    unfold create at h
    split_ifs at h
    cases h
    rfl
  obtain ⟨rs, s, hrun, -, hwithin⟩ := run_invariant within_step (C := fun _ op => Sparing qs op)
    ⟨inv_create h, fun _ hq => absurd rfl hq, fun _ hq => absurd rfl hq, absurd hnull⟩
    (along_of_forall_mem fun op hop _ => hops op hop)
  refine ⟨rs, s, hrun, ?_, fun hnone => ?_⟩
  · have hcard := Finset.card_le_card (Finset.filter_subset (fun q => s.last q ≠ none) qs)
    by_cases hnull : s.map.root = .null
    · simp [hnull, nodes]
    · have := hwithin.nodes_le hnull
      omega
  · by_contra hne
    have hle := hwithin.nodes_le fun hnull => hne (by rw [hnull]; rfl)
    simp only [hnone, ne_eq, not_true_eq_false, Finset.filter_false, Finset.card_empty] at hle
    omega

/-- Two prefixes are stored, one of them is deleted and stored again. -/
theorem nodes_of_run_again : ∃ rs s, run step (Sys.new ⟨5, 1, 2, 1, 8, .null, 0⟩)
      ([.update (some ⟨8, oneByte 0⟩) (some (oneByte 7)) 0 allOk,
        .update (some ⟨8, oneByte 0xff⟩) (some (oneByte 9)) 0 allOk, .delete (some ⟨8, oneByte 0⟩),
        .update (some ⟨8, oneByte 0⟩) (some (oneByte 5)) 0 allOk] : List (Op 1 1)) = some (rs, s) ∧
      (nodes s.map.root).length ≤ 3 ∧ ((∀ q, s.last q = none) → nodes s.map.root = []) := by
  refine nodes_of_run (show create 5 1 2 = some ⟨5, 1, 2, 1, 8, .null, 0⟩ from rfl)
    {keyBits 1 ⟨8, [0]⟩, keyBits 1 ⟨8, [0xff]⟩} (by decide) _ ?_
  simp only [forall_mem_cons, Sparing, mem_some_iff, forall_eq', Finset.mem_insert, Finset.mem_singleton]
  exact ⟨⟨trivial, .inl rfl⟩, ⟨trivial, .inr rfl⟩, trivial, ⟨trivial, .inl rfl⟩, nofun⟩

/-- A prefix is stored, deleted and another one stored, with room for one. -/
theorem not_nodes_of_run : ∃ rs s, run step (Sys.new ⟨5, 1, 1, 1, 8, .null, 0⟩)
      ([.update (some ⟨8, oneByte 0⟩) (some (oneByte 7)) 0 allOk, .delete (some ⟨8, oneByte 0⟩),
        .update (some ⟨8, oneByte 0xff⟩) (some (oneByte 9)) 0 allOk] : List (Op 1 1)) = some (rs, s) ∧
      ¬(nodes s.map.root).length ≤ 2 * 1 - 1 := ⟨_, _, rfl, by decide⟩

end Memory

end Bpftime.LpmTrieMap
