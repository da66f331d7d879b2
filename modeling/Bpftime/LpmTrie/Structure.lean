import Bpftime.LpmTrie.Lookup

/-!
# The structure of the trie

What holds of the tree itself after any run: a child continues the prefix of its parent on the side
of its next bit, so that no prefix has two nodes; `n_entries` counts the nodes that are not
intermediate and stays within `max_entries`; and those nodes have the bytes of a prefix and of a
value.
-/

namespace Bpftime.LpmTrieMap

open Bytes BitStrings Runs Option List

def nodes : Trie → List LpmTrieNode
  | .null => []
  | .node n child0 child1 => n :: (nodes child0 ++ nodes child1)

/-- A child has a longer prefix than its parent. -/
def HangsOn (ds : ℕ) (side : Bool) (n : LpmTrieNode) : Trie → Prop
  | .null => True
  | .node child _ _ => n.prefixlen < child.prefixlen ∧ (∀ i < n.prefixlen, bitAt ds child.data i = bitAt ds n.data i) ∧
      bitAt ds child.data n.prefixlen = side

def Shaped (ds : ℕ) : Trie → Prop
  | .null => True
  | .node n child0 child1 => HangsOn ds false n child0 ∧ HangsOn ds true n child1 ∧ Shaped ds child0 ∧ Shaped ds child1

structure Structured (m : LpmTrieMap) : Prop where
  shaped : Shaped m.data_size m.root
  nodup : ((nodes m.root).map (nodeBits m.data_size)).Nodup
  n_entries : m.n_entries = (nodes m.root).countP fun n => !n.is_intermediate
  n_entries_le : m.n_entries ≤ m.max_entries
  bytes : ∀ n ∈ nodes m.root, n.is_intermediate = false → n.data.length = m.data_size + m.value_size

section

variable {ds vs maxp : ℕ} {p : List Bool} {t : Trie} {n : LpmTrieNode}

lemma WF.hangsOn {side : Bool} (h : WF ds vs maxp (nodeBits ds n ++ [side]) t) : HangsOn ds side n t := by
  cases t with
  | null => trivial
  | node child child0 child1 =>
    have hsnoc : nodeBits ds n ++ [side] <+: nodeBits ds child := h.2.1
    have hlt : n.prefixlen < child.prefixlen := by
      have hlen := hsnoc.length_le
      rwa [length_append, length_nodeBits, length_nodeBits] at hlen
    have hagree := (bits_isPrefix_iff.mp ((prefix_append _ _).trans hsnoc)).2
    refine ⟨hlt, fun i hi => (hagree i hi).symm, ?_⟩
    -- The bit behind the prefix of the parent.
    have hnext : nodeBits ds n ++ [bitAt ds child.data n.prefixlen] <+: nodeBits ds child :=
      bits_snoc_isPrefix hagree hlt
    exact snoc_unique hnext hsnoc

section

variable (h : WF ds vs maxp p t)
include h

lemma WF.shaped : Shaped ds t := by
  induction t generalizing p with
  | null => trivial
  | node n child0 child1 ih0 ih1 => exact ⟨h.2.2.1.hangsOn, h.2.2.2.hangsOn, ih0 h.2.2.1, ih1 h.2.2.2⟩

lemma WF.isPrefix_of_mem (hn : n ∈ nodes t) : p <+: nodeBits ds n := by
  induction t generalizing p with
  | null => cases hn
  | node n' child0 child1 ih0 ih1 =>
    obtain ⟨-, hp, h0, h1⟩ := h
    rcases mem_cons.mp hn with rfl | hn
    · exact hp
    · have hside : ∀ b, nodeBits ds n' ++ [b] <+: nodeBits ds n → p <+: nodeBits ds n :=
        fun b hb => hp.trans ((prefix_append _ _).trans hb)
      rcases mem_append.mp hn with hn | hn
      · exact hside false (ih0 h0 hn)
      · exact hside true (ih1 h1 hn)

lemma WF.nodup : ((nodes t).map (nodeBits ds)).Nodup := by
  induction t generalizing p with
  | null => exact nodup_nil
  | node n child0 child1 ih0 ih1 =>
    obtain ⟨-, -, h0, h1⟩ := h
    have hlonger : ∀ (b : Bool) (q : List Bool), nodeBits ds n ++ [b] <+: q → q ≠ nodeBits ds n := by
      rintro b q hq rfl
      have hlen := hq.length_le
      rw [length_append, length_singleton] at hlen
      omega
    rw [nodes, map_cons, nodup_cons, map_append, nodup_append]
    refine ⟨fun hmem => ?_, ih0 h0, ih1 h1, fun a ha b hb hab => ?_⟩
    · rcases mem_append.mp hmem with hmem | hmem
      · obtain ⟨n', hn', heq⟩ := mem_map.mp hmem
        exact hlonger false _ (h0.isPrefix_of_mem hn') heq
      · obtain ⟨n', hn', heq⟩ := mem_map.mp hmem
        exact hlonger true _ (h1.isPrefix_of_mem hn') heq
    · -- The two sides differ in the next bit.
      obtain ⟨n0, hn0, rfl⟩ := mem_map.mp ha
      obtain ⟨n1, hn1, rfl⟩ := mem_map.mp hb
      have hside := h0.isPrefix_of_mem hn0
      rw [hab] at hside
      exact absurd (snoc_unique hside (h1.isPrefix_of_mem hn1)) (by simp)

lemma WF.nodeOk_of_mem (hn : n ∈ nodes t) : NodeOk ds vs maxp n := by
  induction t generalizing p with
  | null => cases hn
  | node n' child0 child1 ih0 ih1 =>
    rcases mem_cons.mp hn with rfl | hn
    · exact h.1
    · rcases mem_append.mp hn with hn | hn
      · exact ih0 h.2.2.1 hn
      · exact ih1 h.2.2.2 hn

end

end

/-! ## The number of entries -/

def count (t : Trie) : ℕ := (nodes t).countP fun n => !n.is_intermediate

@[simp] lemma count_null : count .null = 0 := rfl

@[simp] lemma count_node (n : LpmTrieNode) (child0 child1 : Trie) : count (.node n child0 child1) =
    count child0 + count child1 + if n.is_intermediate then 0 else 1 := by
  unfold count
  rw [nodes, countP_cons, countP_append]
  cases n.is_intermediate <;> rfl

section

variable {m : LpmTrieMap} {key : BpfLpmTrieKey} {value : List UInt8} {flags : ℕ} {allocs : Allocs}
  {t : Trie}

/-- An update of a slot adds an entry if it says so, and then there was room. It adds nodes only
with an entry: one to a slot that is empty, and at most two to others. -/
def Edited (m : LpmTrieMap) (t : Trie) (r : Option (Outcome × Trie × Bool)) : Prop :=
  ∀ o t' added, r = some (o, t', added) →
    count t' = count t + (if added then 1 else 0) ∧ (added = true → m.n_entries < m.max_entries) ∧
      (nodes t').length ≤ (nodes t).length + if added then (if t = .null then 1 else 2) else 0

lemma edited_same (o : Outcome) : Edited m t (some (o, t, false)) := by
  rintro _ _ _ ⟨⟩
  exact ⟨rfl, by simp, le_rfl⟩

lemma copyValueData_is_intermediate {n n' : LpmTrieNode} (h : m.copyValueData n value = some n') :
    n'.is_intermediate = n.is_intermediate := by
  unfold copyValueData at h
  split_ifs at h
  · cases h
    rfl
  · simp only [bind_eq_bind, bind_eq_some_iff, pure, some.injEq] at h
    obtain ⟨bytes, -, data, -, rfl⟩ := h
    rfl

lemma copyKeyData_is_intermediate {n n' : LpmTrieNode} (h : m.copyKeyData n key = some n') :
    n'.is_intermediate = n.is_intermediate := by
  unfold copyKeyData at h
  simp only [bind_eq_bind, bind_eq_some_iff, pure, some.injEq] at h
  obtain ⟨bytes, -, data, -, rfl⟩ := h
  rfl

lemma newNode_is_intermediate {n : LpmTrieNode} (h : m.newNode key value = some n) :
    n.is_intermediate = false := by
  unfold newNode at h
  simp only [bind_eq_bind, bind_eq_some_iff] at h
  obtain ⟨n', hn', hn⟩ := h
  rw [copyKeyData_is_intermediate hn]
  exact copyValueData_is_intermediate hn'

lemma edited_withNewNode {insert : LpmTrieNode → Option (Outcome × Trie × Bool)}
    (h : ∀ n, n.is_intermediate = false → m.n_entries < m.max_entries → Edited m t (insert n)) :
    Edited m t (m.withNewNode key value flags allocs t insert) := by
  unfold withNewNode
  split_ifs with hexist hfull
  · exact edited_same _
  · exact edited_same _
  · cases allocs.new_node with
    | null | throws => exact edited_same _
    | ok =>
      intro o t' added heq
      obtain ⟨n, hn, hinsert⟩ := bind_eq_some_iff.mp heq
      exact h n (newNode_is_intermediate hn) (Nat.not_le.mp hfull) o t' added hinsert

lemma edited_split {n : LpmTrieNode} {child0 child1 : Trie} (matchlen : ℕ) : Edited m (.node n child0 child1)
    (m.split key value flags allocs (.node n child0 child1) matchlen) := by
  unfold split
  refine edited_withNewNode fun n' hn hroom => ?_
  cases allocs.im_node with
  | null | throws => exact edited_same _
  | ok =>
    intro o t' added heq
    obtain ⟨im, him, heq⟩ := map_eq_some_iff.mp heq
    have him' : im.is_intermediate = true := copyKeyData_is_intermediate him
    split_ifs at heq
    · cases heq
      exact ⟨by simp [hn, him'], fun _ => hroom, by simp [nodes]; omega⟩
    · cases heq
      exact ⟨by simp [hn, him', Nat.add_comm], fun _ => hroom, by simp [nodes]⟩

lemma edited_updateExact {n : LpmTrieNode} {child0 child1 : Trie} (hres : allocs.resize_throws = false) :
    Edited m (.node n child0 child1) (m.updateExact value flags allocs n child0 child1) := by
  unfold updateExact
  simp only [hres, Bool.false_eq_true, false_and, if_false]
  split_ifs with h1 h2 him hfull
  · exact edited_same _
  · exact edited_same _
  · exact edited_same _
  · intro o t' added heq
    obtain ⟨n', hn', heq⟩ := map_eq_some_iff.mp heq
    have hn'' := copyValueData_is_intermediate hn'
    cases heq
    exact ⟨by simp [hn'', him], fun _ => Nat.not_le.mp hfull, by simp [nodes]⟩
  · intro o t' added heq
    obtain ⟨n', hn', heq⟩ := map_eq_some_iff.mp heq
    have hn'' := copyValueData_is_intermediate hn'
    cases heq
    exact ⟨by simp [hn''], by simp, by simp [nodes]⟩

lemma edited_updateWalk (hres : allocs.resize_throws = false) (t : Trie) :
    Edited m t (m.updateWalk key value flags allocs t) := by
  induction t with
  | null =>
    rw [updateWalk]
    refine edited_withNewNode fun n hn hroom => ?_
    rintro _ _ _ ⟨⟩
    exact ⟨by simp [hn], fun _ => hroom, by simp [nodes]⟩
  | node n child0 child1 ih0 ih1 =>
    rw [updateWalk]
    split_ifs with hbreak hsame hexact hanc hside hbit
    · exact edited_updateExact hres
    · exact edited_split _
    · refine edited_withNewNode fun n' hn' hroom => ?_
      rintro _ _ _ ⟨⟩
      exact ⟨by simp [hn'], fun _ => hroom, by simp [nodes]⟩
    · refine edited_withNewNode fun n' hn' hroom => ?_
      rintro _ _ _ ⟨⟩
      exact ⟨by simp [hn'], fun _ => hroom, by simp [nodes]⟩
    · exact edited_split _
    · intro o t' added heq
      obtain ⟨⟨o', child, added'⟩, hchild, heq⟩ := map_eq_some_iff.mp heq
      obtain ⟨hcount, hroom, hnodes⟩ := ih1 o' child added' hchild
      cases heq
      refine ⟨?_, hroom, ?_⟩
      · dsimp only
        rw [count_node, count_node, hcount]
        omega
      · simp only [nodes, length_cons, length_append, reduceCtorEq, if_false]
        split_ifs at hnodes ⊢ <;> omega
    · intro o t' added heq
      obtain ⟨⟨o', child, added'⟩, hchild, heq⟩ := map_eq_some_iff.mp heq
      obtain ⟨hcount, hroom, hnodes⟩ := ih0 o' child added' hchild
      cases heq
      refine ⟨?_, hroom, ?_⟩
      · dsimp only
        rw [count_node, count_node, hcount]
        omega
      · simp only [nodes, length_cons, length_append, reduceCtorEq, if_false]
        split_ifs at hnodes ⊢ <;> omega

lemma count_deleteWalk {t' : Trie} (h : m.deleteWalk key t = some t') :
    count t' + 1 = count t ∧ (nodes t').length = (nodes t).length := by
  induction t generalizing t' with
  | null => cases h
  | node n child0 child1 ih0 ih1 =>
    rw [deleteWalk] at h
    split_ifs at h with hbreak hmiss hbit
    · cases h
      have him : n.is_intermediate = false := by
        simp only [not_or, Bool.not_eq_true] at hmiss
        exact hmiss.2.2
      simp [him, nodes]
    · obtain ⟨child, hchild, rfl⟩ := map_eq_some_iff.mp h
      obtain ⟨hcount, hnodes⟩ := ih1 hchild
      rw [count_node, count_node, nodes, nodes, length_cons, length_cons, length_append, length_append]
      omega
    · obtain ⟨child, hchild, rfl⟩ := map_eq_some_iff.mp h
      obtain ⟨hcount, hnodes⟩ := ih0 hchild
      rw [count_node, count_node, nodes, nodes, length_cons, length_cons, length_append, length_append]
      omega

end

/-! ## Runs -/

section

variable {ds vs maxp max_entries : ℕ} {s : Sys}

structure Counts (max_entries : ℕ) (m : LpmTrieMap) : Prop where
  max_eq : m.max_entries = max_entries
  n_entries : m.n_entries = count m.root
  n_entries_le : m.n_entries ≤ max_entries

lemma Counts.elemUpdate {m m' : LpmTrieMap} {key : Option BpfLpmTrieKey} {value : Option (List UInt8)}
    {flags : ℕ} {allocs : Allocs} {o : Outcome} (h : Counts max_entries m) (hmax : max_entries < 2^64)
    (hres : allocs.resize_throws = false)
    (hup : m.elemUpdate key value flags allocs = some (o, m')) : Counts max_entries m' := by
  unfold LpmTrieMap.elemUpdate at hup
  split at hup
  · split_ifs at hup
    · cases hup
      exact h
    · cases hup
      exact h
    · obtain ⟨⟨o', t', added⟩, hwalk, heq⟩ := map_eq_some_iff.mp hup
      obtain ⟨hcount, hroom, -⟩ := edited_updateWalk hres _ o' t' added hwalk
      cases heq
      refine ⟨h.max_eq, ?_, ?_⟩
      all_goals
        have hn := h.n_entries
        have hle := h.n_entries_le
        have hmax' := h.max_eq
        dsimp only
        split_ifs with hadded
        · have hlt := hroom hadded
          rw [hadded] at hcount
          rw [add64_of_lt (by omega)]
          simp only [if_true] at hcount
          omega
        · simp only [hadded, Bool.false_eq_true, if_false] at hcount
          omega
  · cases hup
    exact h

lemma Counts.elemDelete {m : LpmTrieMap} (h : Counts max_entries m) (key : Option BpfLpmTrieKey) :
    Counts max_entries (m.elemDelete key).2 := by
  cases key with
  | none => exact h
  | some key =>
    unfold LpmTrieMap.elemDelete
    dsimp only
    by_cases hlong : key.prefixlen > m.max_prefixlen
    · rw [if_pos hlong]
      exact h
    · rw [if_neg hlong]
      cases hdel : m.deleteWalk key m.root with
      | none => exact h
      | some root =>
        obtain ⟨hcount, -⟩ := count_deleteWalk hdel
        have hn := h.n_entries
        have hle := h.n_entries_le
        refine ⟨h.max_eq, ?_, ?_⟩
        all_goals
          dsimp only
          split_ifs <;> omega

lemma Counts.step {op : Op ds vs} {o : Outcome} {s' : Sys} (h : Counts max_entries s.map)
    (hmax : max_entries < 2^64) (hC : Grown s op) (hstep : step s op = some (o, s')) :
    Counts max_entries s'.map := by
  cases op with
  | update key value flags allocs =>
    obtain ⟨⟨o', m'⟩, hup, heq⟩ := map_eq_some_iff.mp hstep
    cases heq
    exact h.elemUpdate hmax hC hup
  | delete key =>
    cases hstep
    exact h.elemDelete _

lemma counts_create {key_size value_size max_entries : ℕ} {m : LpmTrieMap}
    (h : create key_size value_size max_entries = some m) : Counts max_entries m := by
  unfold create at h
  split_ifs at h
  cases h
  exact ⟨rfl, rfl, Nat.zero_le _⟩

lemma Counts.structured (h : Counts max_entries s.map) (hinv : Inv ds vs maxp s) : Structured s.map := by
  obtain ⟨hds, hvs, -, hwf, -, -⟩ := hinv
  subst hds hvs
  refine ⟨hwf.shaped, hwf.nodup, h.n_entries, h.max_eq.symm ▸ h.n_entries_le, fun n hn him => ?_⟩
  have hlen := (hwf.nodeOk_of_mem hn).length_data
  rwa [him] at hlen

lemma Inv.lookup_isSome (h : Inv ds vs maxp s) (key : Key ds) :
    (s.map.elemLookup (some key.toKey)).isSome := by
  obtain ⟨hds, hvs, hmax, hwf, -, -⟩ := h
  subst hds hvs hmax
  unfold elemLookup
  dsimp only
  split_ifs with hlong
  · rfl
  · have hends : LookupEnds s.map _ key.toKey s.map.root none _ := lookupWalk_spec hwf (not_lt.mp hlong) none
    cases hr : s.map.lookupWalk key.toKey s.map.root none with
    | none => rfl
    | some n =>
      rw [hr] at hends
      have hok : NodeOk s.map.data_size s.map.value_size s.map.max_prefixlen n := by
        cases hends with
        | full _ hok _ | longest _ _ hok _ => exact hok
      dsimp only
      split_ifs with him
      · rfl
      · have hlen := hok.length_data
        rw [if_neg him] at hlen
        rw [readRange, if_pos hlen.ge]
        rfl

end

section

variable {key_size value_size max_entries : ℕ} {m : LpmTrieMap}
    (h : create key_size value_size max_entries = some m)
  (hmax : max_entries < 2^64) (ops : List (Op (key_size - 4) value_size))
  (hops : Along step Grown (Sys.new m) ops)
include h hmax hops

lemma inv_counts_of_run : ∃ rs s, run step (Sys.new m) ops = some (rs, s) ∧
    Inv (key_size - 4) value_size m.max_prefixlen s ∧ Counts max_entries s.map := by
  refine run_invariant (fun s op => ?_) ⟨inv_create h, counts_create h⟩ hops
  rintro ⟨hinv, hcounts⟩ hC
  obtain ⟨r, s', hstep, hinv'⟩ := inv_step s op hinv hC
  exact ⟨r, s', hstep, hinv', hcounts.step hmax hC hstep⟩

/-- After every run in which the bytes of nodes can grow, the trie is structured. -/
theorem structured_of_run : ∃ rs s, run step (Sys.new m) ops = some (rs, s) ∧ Structured s.map := by
  obtain ⟨rs, s, hrun, hinv, hcounts⟩ := inv_counts_of_run h hmax ops hops
  exact ⟨rs, s, hrun, hcounts.structured hinv⟩

/-- After every run in which the bytes of nodes can grow, lookups read only bytes of the node they
find, and a call changes nothing when it fails, wherever an allocation returned null or threw. -/
theorem failed_of_run : ∃ rs s, run step (Sys.new m) ops = some (rs, s) ∧ Structured s.map ∧
      (∀ key : Key (key_size - 4), (s.map.elemLookup (some key.toKey)).isSome) ∧
      ∀ op : Op (key_size - 4) value_size, Grown s op → ∃ r s', step s op = some (r, s') ∧
      (r ≠ .ok → s' = s) := by
  obtain ⟨rs, s, hrun, hinv, hcounts⟩ := inv_counts_of_run h hmax ops hops
  refine ⟨rs, s, hrun, hcounts.structured hinv, hinv.lookup_isSome, fun op hop => ?_⟩
  obtain ⟨r, s', hstep, -, hfailed⟩ := inv_or_same_step s op hinv hop
  exact ⟨r, s', hstep, hfailed⟩

end

lemma grown_storeAndDelete : Along step Grown (Sys.new ⟨5, 1, 2, 1, 8, .null, 0⟩) storeAndDelete :=
  ⟨rfl, fun _ _ _ => ⟨rfl, fun _ _ _ => ⟨trivial, fun _ _ _ => trivial⟩⟩⟩

/-- A trie with an entry that was deleted. -/
theorem structured_of_run_storeAndDelete : Along step Grown
    (Sys.new ⟨5, 1, 2, 1, 8, .null, 0⟩) storeAndDelete ∧
      ∃ rs s, run step (Sys.new ⟨5, 1, 2, 1, 8, .null, 0⟩) storeAndDelete = some (rs, s) ∧
      Structured s.map :=
  ⟨grown_storeAndDelete, structured_of_run (show create 5 1 2 = some ⟨5, 1, 2, 1, 8, .null, 0⟩ from rfl)
    (by decide) storeAndDelete grown_storeAndDelete⟩

theorem failed_of_run_storeAndDelete : ∃ rs s,
    run step (Sys.new ⟨5, 1, 2, 1, 8, .null, 0⟩) storeAndDelete = some (rs, s) ∧ Structured s.map ∧
      (∀ key : Key 1, (s.map.elemLookup (some key.toKey)).isSome) ∧
      ∀ op : Op 1 1, Grown s op → ∃ r s', step s op = some (r, s') ∧ (r ≠ .ok → s' = s) :=
  failed_of_run (show create 5 1 2 = some ⟨5, 1, 2, 1, 8, .null, 0⟩ from rfl) (by decide) storeAndDelete
    grown_storeAndDelete

/-- When the bytes of the node that a split made cannot grow, the node is not counted, and a lookup
of its prefix, the empty one, reads behind its bytes. -/
theorem not_failed_of_run_split : ∃ rs s s',
    run step (Sys.new ⟨5, 1, 3, 1, 8, .null, 0⟩)
        ([.update (some ⟨8, oneByte 0⟩) (some (oneByte 7)) 0 allOk,
          .update (some ⟨8, oneByte 0xff⟩) (some (oneByte 9)) 0 allOk] : List (Op 1 1)) = some (rs, s) ∧
      step s (.update (some ⟨0, oneByte 0⟩) (some (oneByte 5)) 0 ⟨.ok, .ok, true⟩ : Op 1 1) =
        some (.threw, s') ∧
      ¬Structured s'.map ∧ s'.map.elemLookup (some (⟨0, oneByte 0⟩ : Key 1).toKey) = none := by
  refine ⟨_, _, _, rfl, rfl, fun h => ?_, rfl⟩
  exact absurd h.n_entries (by decide)

end Bpftime.LpmTrieMap
