import Bpftime.LpmTrie.Invariant

/-!
# `elem_update` and `elem_delete` on what a trie holds

An update that succeeds gives the prefix of the key its value.
-/

namespace Bpftime.LpmTrieMap

open Bytes BitStrings Option List Function

variable {m : LpmTrieMap} {n : LpmTrieNode} {key : BpfLpmTrieKey} {value : List UInt8}
  {flags : ℕ} {allocs : Allocs} {p q : List Bool} {t child0 child1 : Trie}

lemma readRange_all (data : List UInt8) : readRange data 0 data.length = some data := by
  unfold readRange
  rw [if_pos (by omega), drop_zero, take_length]

variable {old : List UInt8} {b : Bool}

lemma copyKeyData_eq {rest : List UInt8} (hkey : key.data.length = m.data_size)
    (hold : old.length = m.data_size)
    (hn : n.data = old ++ rest) : m.copyKeyData n key = some { n with data := key.data ++ rest } := by
  unfold copyKeyData writeRange
  rw [← hkey, readRange_all, hn]
  simp [hkey, hold]

lemma copyValueData_eq {bytes : List UInt8} (him : n.is_intermediate = false)
    (hvalue : value.length = m.value_size) (hbytes : bytes.length = m.data_size)
    (hold : old.length = m.value_size) (hn : n.data = bytes ++ old) :
    m.copyValueData n value = some { n with data := bytes ++ value } := by
  unfold copyValueData writeRange
  rw [← hvalue, readRange_all, hn]
  simp [him, hvalue, hbytes, hold]

section

variable (hkey : key.data.length = m.data_size)
include hkey

lemma newNode_eq (hvalue : value.length = m.value_size) :
    m.newNode key value = some ⟨key.prefixlen, false, key.data ++ value, m.data_size + m.value_size⟩ := by
  have hnew : resize [] (m.data_size + m.value_size) =
      replicate m.data_size 0 ++ replicate m.value_size 0 := by
    unfold resize
    rw [take_nil, nil_append, length_nil, Nat.sub_zero, replicate_add]
  unfold newNode
  rw [copyValueData_eq rfl hvalue length_replicate length_replicate hnew]
  exact copyKeyData_eq hkey length_replicate rfl

lemma imNode_eq (matchlen : ℕ) : m.imNode key matchlen = some ⟨matchlen, true, key.data, m.data_size⟩ := by
  have hnew : resize [] m.data_size = replicate m.data_size 0 ++ [] := by
    unfold resize
    rw [take_nil, nil_append, length_nil, Nat.sub_zero, append_nil]
  unfold imNode
  rw [copyKeyData_eq hkey length_replicate hnew, append_nil]

lemma nodeBits_new : nodeBits m.data_size ⟨key.prefixlen, false, key.data ++ value,
    m.data_size + m.value_size⟩ = keyBits m.data_size key := by
  unfold nodeBits keyBits
  rw [bitAt_append hkey]

lemma content_new : content m.data_size ⟨key.prefixlen, false, key.data ++ value,
    m.data_size + m.value_size⟩ = some value := by
  unfold content
  rw [if_neg (by simp), ← hkey, drop_left]

end

/-! ## What an update does -/

/-- The prefix `k` gets the value `v`. -/
def Grows (maxp : ℕ) (e e' : List Bool → Option (Option (List UInt8))) (k : List Bool)
    (v : List UInt8) : Prop :=
  e' k = some (some v) ∧ ∀ q ≠ k, e' q = e q ∨ (e q = none ∧ e' q = some none ∧ q.length < maxp)

/-- An update of a slot that continues `p`: it succeeds and the tree grows, or nothing changes. -/
def Updated (m : LpmTrieMap) (key : BpfLpmTrieKey) (value : List UInt8) (p : List Bool) (t : Trie)
    (r : Option (Outcome × Trie × Bool)) : Prop :=
  (∃ t' added, r = some (.ok, t', added) ∧ WF m.data_size m.value_size m.max_prefixlen p t' ∧
    Grows m.max_prefixlen (entry m.data_size t) (entry m.data_size t') (keyBits m.data_size key)
      value) ∨
  ∃ outcome, outcome ≠ .ok ∧ r = some (outcome, t, false)

section

variable (hkey : key.data.length = m.data_size)
include hkey

lemma updated_withNewNode {insert : LpmTrieNode → Option (Outcome × Trie × Bool)}
    (hvalue : value.length = m.value_size)
    (h : Updated m key value p t (insert ⟨key.prefixlen, false, key.data ++ value,
    m.data_size + m.value_size⟩)) :
    Updated m key value p t (m.withNewNode key value flags allocs t insert) := by
  unfold withNewNode
  split_ifs
  · exact .inr ⟨_, by simp, rfl⟩
  · exact .inr ⟨_, by simp, rfl⟩
  · cases allocs.new_node with
    | ok => rwa [newNode_eq hkey hvalue, bind_some]
    | null | throws => exact .inr ⟨_, by simp, rfl⟩

lemma wf_leaf (hvalue : value.length = m.value_size)
    (hk : key.prefixlen ≤ m.max_prefixlen) (hp : p <+: keyBits m.data_size key) :
    WF m.data_size m.value_size m.max_prefixlen p (.node ⟨key.prefixlen, false, key.data ++ value,
    m.data_size + m.value_size⟩ .null .null) := by
  refine ⟨⟨hk, ?_⟩, by rwa [nodeBits_new hkey], trivial, trivial⟩
  rw [if_neg (by simp), length_append, hkey, hvalue]

lemma entry_leaf (q : List Bool) : entry m.data_size
    (.node ⟨key.prefixlen, false, key.data ++ value, m.data_size + m.value_size⟩ .null .null) q =
    if q = keyBits m.data_size key then some (some value) else none := by
  rw [entry, nodeBits_new hkey, content_new hkey]
  rfl

end

section

variable (hwf : WF m.data_size m.value_size m.max_prefixlen p (.node n child0 child1))
include hwf

lemma updated_replace {bytes : List UInt8} {added : Bool} {c : ℕ} (hvalue : value.length = m.value_size)
    (heq : nodeBits m.data_size n = keyBits m.data_size key) (hbytes : bytes.length = m.data_size)
    (hn : n.data = bytes ++ old) : Updated m key value p (.node n child0 child1)
    (some (.ok, .node ⟨n.prefixlen, false, bytes ++ value, c⟩ child0 child1, added)) := by
  obtain ⟨hok, hp, h0, h1⟩ := hwf
  have hbits : nodeBits m.data_size ⟨n.prefixlen, false, bytes ++ value, c⟩ = nodeBits m.data_size n := by
    unfold nodeBits
    rw [hn, bitAt_append hbytes, bitAt_append hbytes]
  refine .inl ⟨_, added, rfl, ⟨⟨hok.prefixlen_le, ?_⟩, by rwa [hbits], by rwa [hbits],
    by rwa [hbits]⟩, ?_, fun q hq => .inl ?_⟩
  · rw [if_neg (by simp), length_append, hbytes, hvalue]
  · rw [entry, hbits, if_pos heq.symm, content, if_neg (by simp), ← hbytes, drop_left]
  · rw [entry, entry, hbits, heq, if_neg hq, if_neg hq]

lemma updated_updateExact (hvalue : value.length = m.value_size)
    (heq : nodeBits m.data_size n = keyBits m.data_size key) (hres : allocs.resize_throws = false) :
    Updated m key value p (.node n child0 child1) (m.updateExact value flags allocs n child0 child1) := by
  have hlen := hwf.1.length_data
  unfold updateExact
  simp only [hres, Bool.false_eq_true, false_and, if_false]
  split_ifs with h1 h2 him hfull
  · exact .inr ⟨_, by simp, rfl⟩
  · exact .inr ⟨_, by simp, rfl⟩
  · exact .inr ⟨_, by simp, rfl⟩
  · -- The node was intermediate, and has room for a value now.
    rw [if_pos him] at hlen
    have hgrow : resize n.data (m.data_size + m.value_size) = n.data ++ replicate m.value_size 0 := by
      unfold resize
      rw [take_of_length_le (by omega), hlen, Nat.add_sub_cancel_left]
    have hcopy : ∀ c, m.copyValueData ⟨n.prefixlen, false, resize n.data (m.data_size + m.value_size), c⟩
        value = some ⟨n.prefixlen, false, n.data ++ value, c⟩ :=
      fun c => copyValueData_eq rfl hvalue hlen length_replicate hgrow
    rw [hcopy, map_some]
    exact updated_replace hwf hvalue heq hlen (append_nil _).symm
  · rw [if_neg him] at hlen
    have hsplit : n.data = n.data.take m.data_size ++ n.data.drop m.data_size := (take_append_drop _ _).symm
    have htake : (n.data.take m.data_size).length = m.data_size := by
      rw [length_take]
      omega
    have hdrop : (n.data.drop m.data_size).length = m.value_size := by
      rw [length_drop]
      omega
    have hreal : n.is_intermediate = false := by simpa using him
    rw [copyValueData_eq hreal hvalue htake hdrop hsplit, map_some, hreal]
    exact updated_replace hwf hvalue heq htake hsplit

lemma updated_ancestor (hkey : key.data.length = m.data_size) (hvalue : value.length = m.value_size)
    (hk : key.prefixlen ≤ m.max_prefixlen) (hp : p <+: keyBits m.data_size key)
    (hpre : keyBits m.data_size key <+: nodeBits m.data_size n) (hlt : key.prefixlen < n.prefixlen) :
    Updated m key value p (.node n child0 child1) (if m.extractBit n.data key.prefixlen then
    some (.ok, .node ⟨key.prefixlen, false, key.data ++ value,
    m.data_size + m.value_size⟩ .null (.node n child0 child1), true)
    else
    some (.ok, .node ⟨key.prefixlen, false, key.data ++ value, m.data_size + m.value_size⟩ (.node n child0 child1) .null, true)) := by
  have hsnoc : keyBits m.data_size key ++ [m.extractBit n.data key.prefixlen] <+:
      nodeBits m.data_size n := bits_snoc_isPrefix (bits_isPrefix_iff.mp hpre).2 hlt
  obtain ⟨hokl, hpl, -, -⟩ := wf_leaf hkey hvalue hk hp
  obtain ⟨hok, -, h01⟩ := hwf
  split_ifs with hbit
  · rw [hbit] at hsnoc
    refine .inl ⟨_, true, rfl, ⟨hokl, hpl, trivial, hok, by rwa [nodeBits_new hkey], h01⟩, ?_,
      fun q hq => .inl ?_⟩
    · rw [entry, nodeBits_new hkey, if_pos rfl, content_new hkey]
    · rw [entry, nodeBits_new hkey, if_neg hq]
      exact none_or
  · rw [Bool.not_eq_true] at hbit
    rw [hbit] at hsnoc
    refine .inl ⟨_, true, rfl, ⟨hokl, hpl, ⟨hok, by rwa [nodeBits_new hkey], h01⟩, trivial⟩, ?_,
      fun q hq => .inl ?_⟩
    · rw [entry, nodeBits_new hkey, if_pos rfl, content_new hkey]
    · rw [entry, nodeBits_new hkey, if_neg hq]
      exact or_none

lemma updated_split (hkey : key.data.length = m.data_size) (hvalue : value.length = m.value_size)
    (hk : key.prefixlen ≤ m.max_prefixlen) (hp : p <+: keyBits m.data_size key)
    (hn : m.longestPrefixMatch n key < n.prefixlen) (hlt : m.longestPrefixMatch n key < key.prefixlen) :
    Updated m key value p (.node n child0 child1)
    (m.split key value flags allocs (.node n child0 child1) (m.longestPrefixMatch n key)) := by
  obtain ⟨-, -, hag, hne⟩ := longestPrefixMatch_spec m n key
  have hnk := mt (longestPrefixMatch_eq_node m n key).mpr (by omega)
  replace hne := hne hn hlt
  unfold split
  generalize m.longestPrefixMatch n key = matchlen at *
  -- The common part, which both prefixes continue, with different bits.
  have hsk : nodeBits m.data_size ⟨matchlen, true, key.data, m.data_size⟩ ++
      [bitAt m.data_size key.data matchlen] <+: keyBits m.data_size key :=
    bits_snoc_isPrefix (fun _ _ => rfl) hlt
  have hsn : nodeBits m.data_size ⟨matchlen, true, key.data, m.data_size⟩ ++
      [bitAt m.data_size n.data matchlen] <+: nodeBits m.data_size n :=
    bits_snoc_isPrefix (fun i hi => (hag i hi).symm) hn
  have hpc : p <+: nodeBits m.data_size ⟨matchlen, true, key.data, m.data_size⟩ := by
    rcases Nat.lt_or_ge matchlen p.length with hlong | hshort
    · have h1 := prefix_of_prefix_length_le hsk hp (by simp; omega)
      have h2 := prefix_of_prefix_length_le hsn hwf.2.1 (by simp; omega)
      exact absurd (snoc_unique h2 h1) hne
    · exact prefix_of_prefix_length_le hp ((prefix_append _ _).trans hsk) (by simpa)
  apply updated_withNewNode hkey hvalue
  cases allocs.im_node with
  | null | throws => exact .inr ⟨_, by simp, rfl⟩
  | ok =>
    have hoki : NodeOk m.data_size m.value_size m.max_prefixlen ⟨matchlen, true, key.data, m.data_size⟩ :=
      ⟨by dsimp only; omega, by rw [if_pos rfl, hkey]⟩
    have hold : WF m.data_size m.value_size m.max_prefixlen
        (nodeBits m.data_size ⟨matchlen, true, key.data, m.data_size⟩ ++ [bitAt m.data_size n.data matchlen])
        (.node n child0 child1) := ⟨hwf.1, hsn, hwf.2.2⟩
    have hnew := wf_leaf hkey hvalue hk hsk
    have hbit : m.extractBit key.data matchlen = bitAt m.data_size key.data matchlen := rfl
    -- Neither the key nor the common part has a node in the old tree.
    have hk0 := hwf.entry_node_eq_none hnk
    have hc0 : entry m.data_size (.node n child0 child1)
        (nodeBits m.data_size ⟨matchlen, true, key.data, m.data_size⟩) = none := by
      refine hwf.entry_node_eq_none fun hpre => ?_
      have hlen := hpre.length_le
      rw [length_nodeBits, length_nodeBits] at hlen
      dsimp only at hlen
      omega
    have hkc : keyBits m.data_size key ≠ nodeBits m.data_size ⟨matchlen, true, key.data, m.data_size⟩ := by
      intro h
      have hlen := congrArg length h
      rw [length_nodeBits, length_keyBits] at hlen
      dsimp only at hlen
      omega
    dsimp only
    rw [imNode_eq hkey, map_some, hbit]
    have hgrows : ∀ t', (∀ q, entry m.data_size t' q =
          if q = nodeBits m.data_size ⟨matchlen, true, key.data, m.data_size⟩ then some none
          else (entry m.data_size (.node n child0 child1) q).or
            (if q = keyBits m.data_size key then some (some value) else none)) →
        Grows m.max_prefixlen (entry m.data_size (.node n child0 child1)) (entry m.data_size t')
          (keyBits m.data_size key) value := by
      intro t' ht'
      refine ⟨by rw [ht', if_neg hkc, hk0, if_pos rfl, none_or], fun q hq => ?_⟩
      by_cases hqc : q = nodeBits m.data_size ⟨matchlen, true, key.data, m.data_size⟩
      · right
        refine ⟨by rw [hqc, hc0], by rw [ht', if_pos hqc], ?_⟩
        rw [hqc, length_nodeBits]
        dsimp only
        omega
      · left
        rw [ht', if_neg hqc, if_neg hq, or_none]
    cases hb : bitAt m.data_size key.data matchlen with
    | true =>
      have hbn : bitAt m.data_size n.data matchlen = false := by simpa [hb] using hne
      rw [hb] at hnew
      rw [hbn] at hold
      rw [if_pos rfl]
      refine .inl ⟨_, true, rfl, ⟨hoki, hpc, hold, hnew⟩, hgrows _ fun q => ?_⟩
      rw [entry, entry_leaf hkey]
      rfl
    | false =>
      have hbn : bitAt m.data_size n.data matchlen = true := by simpa [hb] using hne
      rw [hb] at hnew
      rw [hbn] at hold
      rw [if_neg Bool.false_ne_true]
      refine .inl ⟨_, true, rfl, ⟨hoki, hpc, hnew, hold⟩, hgrows _ fun q => ?_⟩
      rw [entry, entry_leaf hkey]
      by_cases hqk : q = keyBits m.data_size key
      · rw [if_pos hqk, hqk, hk0]
        rfl
      · rw [if_neg hqk, none_or, or_none]
        rfl

end

/-! ## The walks -/

def setChildOn (b : Bool) (n : LpmTrieNode) (child0 child1 child : Trie) : Trie :=
  if b then .node n child0 child else .node n child child1

variable {vs maxp ds : ℕ} {child : Trie}

section

variable (hwf : WF ds vs maxp p (.node n child0 child1))
    (hchild : WF ds vs maxp (nodeBits ds n ++ [b]) child)
include hwf hchild

lemma WF.setChildOn : WF ds vs maxp p (setChildOn b n child0 child1 child) := by
  obtain ⟨hok, hp, h0, h1⟩ := hwf
  cases b with
  | false => exact ⟨hok, hp, hchild, h1⟩
  | true => exact ⟨hok, hp, h0, hchild⟩

lemma entry_setChildOn (q : List Bool) : entry ds (setChildOn b n child0 child1 child) q =
    if nodeBits ds n ++ [b] <+: q then entry ds child q
    else entry ds (.node n child0 child1) q := by
  split_ifs with hq
  · have hset := hwf.setChildOn hchild
    cases b with
    | false | true => exact WF.entry_childOn hset hq
  · -- Neither the old child nor the new one has a node for `q`.
    have hnew := hchild.entry_eq_none hq
    have hold := (hwf.childOn b).entry_eq_none hq
    cases b with
    | false =>
      change entry ds (.node n child child1) q = _
      change entry ds child0 q = none at hold
      rw [entry, entry, hnew, hold]
    | true =>
      change entry ds (.node n child0 child) q = _
      change entry ds child1 q = none at hold
      rw [entry, entry, hnew, hold]

end

lemma updated_child (hwf : WF m.data_size m.value_size m.max_prefixlen p (.node n child0 child1))
    (hsnoc : nodeBits m.data_size n ++ [b] <+: keyBits m.data_size key) {r : Option (Outcome × Trie × Bool)}
    (hr : Updated m key value (nodeBits m.data_size n ++ [b]) (childOn b child0 child1) r) :
    Updated m key value p (.node n child0 child1)
    (r.map fun x => (x.1, setChildOn b n child0 child1 x.2.1, x.2.2)) := by
  rcases hr with ⟨t', added, rfl, hwf', hself, hother⟩ | ⟨outcome, hne, rfl⟩
  · refine .inl ⟨_, added, rfl, hwf.setChildOn hwf', ?_, fun q hq => ?_⟩
    · rw [entry_setChildOn hwf hwf', if_pos hsnoc, hself]
    · rw [entry_setChildOn hwf hwf']
      split_ifs with hext
      · rw [hwf.entry_childOn hext]
        exact hother q hq
      · exact .inl rfl
  · refine .inr ⟨outcome, hne, ?_⟩
    cases b <;> rfl

lemma updateWalk_spec (hwf : WF m.data_size m.value_size m.max_prefixlen p t)
    (hkey : key.data.length = m.data_size) (hvalue : value.length = m.value_size)
    (hk : key.prefixlen ≤ m.max_prefixlen) (hp : p <+: keyBits m.data_size key)
    (hres : allocs.resize_throws = false) :
    Updated m key value p t (m.updateWalk key value flags allocs t) := by
  induction t generalizing p with
  | null =>
    rw [updateWalk]
    apply updated_withNewNode hkey hvalue
    refine .inl ⟨_, true, rfl, wf_leaf hkey hvalue hk hp, ?_, fun q hq => .inl ?_⟩
    · rw [entry_leaf hkey, if_pos rfl]
    · rw [entry_leaf hkey, if_neg hq]
      rfl
  | node n child0 child1 ih0 ih1 =>
    obtain ⟨hmn, hmk, -, -⟩ := longestPrefixMatch_spec m n key
    have hnode := longestPrefixMatch_eq_node m n key
    have hkeyp := longestPrefixMatch_eq_key m n key
    have hle := hwf.1.prefixlen_le
    rw [updateWalk]
    by_cases hbreak : n.prefixlen ≠ m.longestPrefixMatch n key ∨ n.prefixlen = key.prefixlen ∨
        n.prefixlen = m.max_prefixlen
    · rw [if_pos hbreak]
      by_cases hsame : n.prefixlen = key.prefixlen
      · rw [if_pos hsame]
        split_ifs with hexact
        · -- The node of the prefix itself.
          exact updated_updateExact hwf hvalue ((hnode.mp (by omega)).eq_of_length
            (by rw [length_nodeBits, length_keyBits, hsame])) hres
        · exact updated_split hwf hkey hvalue hk hp (by omega) (by omega)
      · rw [if_neg hsame]
        by_cases hanc : m.longestPrefixMatch n key = key.prefixlen
        · rw [if_pos hanc, hanc]
          exact updated_withNewNode hkey hvalue (updated_ancestor hwf hkey hvalue hk hp (hkeyp.mp hanc) (by omega))
        · rw [if_neg hanc]
          exact updated_split hwf hkey hvalue hk hp (by omega) (by omega)
    · -- Further down, on the side of the next bit.
      rw [if_neg hbreak]
      have hsnoc := snoc_isPrefix (hnode.mp (by omega)) (show n.prefixlen < key.prefixlen by omega)
      have hbit : m.extractBit key.data n.prefixlen = bitAt m.data_size key.data n.prefixlen := rfl
      rw [hbit]
      cases hb : bitAt m.data_size key.data n.prefixlen with
      | true =>
        rw [hb] at hsnoc
        exact updated_child hwf hsnoc (ih1 hwf.2.2.2 hsnoc)
      | false =>
        rw [hb] at hsnoc
        exact updated_child hwf hsnoc (ih0 hwf.2.2.1 hsnoc)

lemma deleteWalk_spec {t' : Trie} (hwf : WF m.data_size m.value_size m.max_prefixlen p t)
    (h : m.deleteWalk key t = some t') : WF m.data_size m.value_size m.max_prefixlen p t' ∧
    entry m.data_size t' =
    update (entry m.data_size t) (keyBits m.data_size key) (some none) := by
  induction t generalizing p t' with
  | null => simp [deleteWalk] at h
  | node n child0 child1 ih0 ih1 =>
    obtain ⟨hmn, hmk, -, -⟩ := longestPrefixMatch_spec m n key
    have hnode := longestPrefixMatch_eq_node m n key
    -- A delete below one side of the node.
    have hchild : ∀ (b : Bool) (child : Trie), nodeBits m.data_size n ++ [b] <+: keyBits m.data_size key →
        WF m.data_size m.value_size m.max_prefixlen (nodeBits m.data_size n ++ [b]) child →
        entry m.data_size child = update (entry m.data_size (childOn b child0 child1))
          (keyBits m.data_size key) (some none) →
        WF m.data_size m.value_size m.max_prefixlen p (setChildOn b n child0 child1 child) ∧
          entry m.data_size (setChildOn b n child0 child1 child) =
            update (entry m.data_size (.node n child0 child1))
              (keyBits m.data_size key) (some none) := by
      intro b child hsnoc hwf' he
      refine ⟨hwf.setChildOn hwf', funext fun q => ?_⟩
      rw [entry_setChildOn hwf hwf', he, update_apply, update_apply]
      split_ifs with hext hq hq
      · rfl
      · rw [hwf.entry_childOn hext]
      · rw [hq] at hext
        exact absurd hsnoc hext
      · rfl
    rw [deleteWalk] at h
    split_ifs at h with hbreak hmiss hbit
    · -- The node of the prefix itself.
      rw [not_or, not_or, not_not, not_not] at hmiss
      obtain ⟨hsame, hmatch, him⟩ := hmiss
      have heq : nodeBits m.data_size n = keyBits m.data_size key :=
        (hnode.mp hmatch).eq_of_length (by rw [length_nodeBits, length_keyBits, hsame])
      obtain ⟨hok, hpn, h0, h1⟩ := hwf
      have hlen := hok.length_data
      rw [if_neg him] at hlen
      have hdata : resize n.data m.data_size = n.data.take m.data_size := by
        unfold resize
        rw [Nat.sub_eq_zero_of_le (by omega), replicate_zero, append_nil]
      have htake : (n.data.take m.data_size).length = m.data_size := by
        rw [length_take]
        omega
      have hbits : nodeBits m.data_size
          { n with is_intermediate := true, data := n.data.take m.data_size } = nodeBits m.data_size n := by
        unfold nodeBits
        rw [← bitAt_append htake (n.data.drop m.data_size), take_append_drop]
      rw [some.injEq, hdata] at h
      subst h
      refine ⟨⟨⟨hok.prefixlen_le, htake⟩, by rwa [hbits], by rwa [hbits], by rwa [hbits]⟩,
        funext fun q => ?_⟩
      rw [update_apply, entry, entry, hbits, heq]
      split_ifs
      · rfl
      · rfl
    · obtain ⟨child, hdel, rfl⟩ := map_eq_some_iff.mp h
      have hsnoc := snoc_isPrefix (hnode.mp (by omega)) (show n.prefixlen < key.prefixlen by omega)
      have hb : bitAt m.data_size key.data n.prefixlen = true := hbit
      rw [hb] at hsnoc
      obtain ⟨hwf', he⟩ := ih1 hwf.2.2.2 hdel
      exact hchild true child hsnoc hwf' he
    · obtain ⟨child, hdel, rfl⟩ := map_eq_some_iff.mp h
      have hsnoc := snoc_isPrefix (hnode.mp (by omega)) (show n.prefixlen < key.prefixlen by omega)
      have hb : bitAt m.data_size key.data n.prefixlen = false := Bool.eq_false_iff.mpr hbit
      rw [hb] at hsnoc
      obtain ⟨hwf', he⟩ := ih0 hwf.2.2.1 hdel
      exact hchild false child hsnoc hwf' he

end Bpftime.LpmTrieMap
