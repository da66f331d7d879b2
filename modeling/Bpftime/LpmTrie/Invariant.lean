import Bpftime.LpmTrie.Model

/-!
# What a trie holds

`entry` reads a trie as a partial map from prefixes: a prefix has no node, an intermediate node, or
a node with a value.
-/

namespace Bpftime.LpmTrieMap

open Bytes BitStrings List Option

/-- Bit `index` of some bytes, as `extract_bit` sees it. -/
def bitAt (ds : ℕ) (data : List UInt8) (index : ℕ) : Bool :=
  if index ≥ ds * 8 then false else (data.getD (index / 8) 0).toNat.testBit (7 - index % 8)

def nodeBits (ds : ℕ) (n : LpmTrieNode) : List Bool := bits (bitAt ds n.data) n.prefixlen

def keyBits (ds : ℕ) (key : BpfLpmTrieKey) : List Bool := bits (bitAt ds key.data) key.prefixlen

@[simp] lemma length_nodeBits (ds : ℕ) (n : LpmTrieNode) : (nodeBits ds n).length = n.prefixlen :=
  length_bits _ _

@[simp] lemma length_keyBits (ds : ℕ) (key : BpfLpmTrieKey) :
    (keyBits ds key).length = key.prefixlen := length_bits _ _

lemma bitAt_append {ds : ℕ} {data : List UInt8} (h : data.length = ds) (rest : List UInt8) :
    bitAt ds (data ++ rest) = bitAt ds data := by
  funext index
  unfold bitAt
  split_ifs with hge
  · rfl
  · rw [getD_append _ _ _ _ (by omega)]

variable {m : LpmTrieMap} {n : LpmTrieNode} {key : BpfLpmTrieKey}

section

variable (m : LpmTrieMap) (n : LpmTrieNode) (key : BpfLpmTrieKey)

lemma longestPrefixMatch_spec : m.longestPrefixMatch n key ≤ n.prefixlen ∧
    m.longestPrefixMatch n key ≤ key.prefixlen ∧
    (∀ i < m.longestPrefixMatch n key, bitAt m.data_size n.data i = bitAt m.data_size key.data i) ∧
    (m.longestPrefixMatch n key < n.prefixlen → m.longestPrefixMatch n key < key.prefixlen →
    bitAt m.data_size n.data (m.longestPrefixMatch n key) ≠
    bitAt m.data_size key.data (m.longestPrefixMatch n key)) := by
  obtain ⟨-, hle, hag, hne⟩ := agreeLen_spec (m.extractBit n.data) (m.extractBit key.data)
    (min n.prefixlen key.prefixlen) 0
  change 0 + min n.prefixlen key.prefixlen ≥ m.longestPrefixMatch n key at hle
  exact ⟨by omega, by omega, fun i hi => hag i (Nat.zero_le i) hi, fun h1 h2 => hne
    (show m.longestPrefixMatch n key < 0 + min n.prefixlen key.prefixlen by omega)⟩

lemma longestPrefixMatch_eq_node :
    m.longestPrefixMatch n key = n.prefixlen ↔ nodeBits m.data_size n <+: keyBits m.data_size key := by
  obtain ⟨h1, h2, hag, hne⟩ := longestPrefixMatch_spec m n key
  unfold nodeBits keyBits
  rw [bits_isPrefix_iff]
  constructor
  · intro h
    exact ⟨by omega, fun i hi => hag i (by omega)⟩
  · rintro ⟨hle, hall⟩
    by_contra hlt
    exact hne (by omega) (by omega) (hall _ (by omega))

lemma longestPrefixMatch_eq_key :
    m.longestPrefixMatch n key = key.prefixlen ↔ keyBits m.data_size key <+: nodeBits m.data_size n := by
  obtain ⟨h1, h2, hag, hne⟩ := longestPrefixMatch_spec m n key
  unfold nodeBits keyBits
  rw [bits_isPrefix_iff]
  constructor
  · intro h
    exact ⟨by omega, fun i hi => (hag i (by omega)).symm⟩
  · rintro ⟨hle, hall⟩
    by_contra hlt
    exact hne (by omega) (by omega) (hall _ (by omega)).symm

end

lemma snoc_isPrefix {ds : ℕ} (hpre : nodeBits ds n <+: keyBits ds key) (hlt : n.prefixlen < key.prefixlen) :
    nodeBits ds n ++ [bitAt ds key.data n.prefixlen] <+: keyBits ds key :=
  bits_snoc_isPrefix (bits_isPrefix_iff.mp hpre).2 hlt

lemma snoc_unique {l q : List Bool} {a b : Bool} (ha : l ++ [a] <+: q) (hb : l ++ [b] <+: q) : a = b := by
  obtain ⟨s, rfl⟩ := ha
  obtain ⟨t, ht⟩ := hb
  simp only [append_assoc, append_cancel_left_eq, singleton_append, cons.injEq] at ht
  exact ht.1.symm

/-- The bytes of a node, and the length of its prefix. -/
structure NodeOk (ds vs maxp : ℕ) (n : LpmTrieNode) : Prop where
  prefixlen_le : n.prefixlen ≤ maxp
  length_data : n.data.length = if n.is_intermediate then ds else ds + vs

/-- Every node continues `p`, and the nodes below a side of a node continue its prefix with the bit
of that side. -/
def WF (ds vs maxp : ℕ) : List Bool → Trie → Prop
  | _, .null => True
  | p, .node n child0 child1 => NodeOk ds vs maxp n ∧ p <+: nodeBits ds n ∧
      WF ds vs maxp (nodeBits ds n ++ [false]) child0 ∧ WF ds vs maxp (nodeBits ds n ++ [true]) child1

/-- What a node holds: nothing when it is intermediate, else its value. -/
def content (ds : ℕ) (n : LpmTrieNode) : Option (List UInt8) :=
  if n.is_intermediate then none else some (n.data.drop ds)

def entry (ds : ℕ) : Trie → List Bool → Option (Option (List UInt8))
  | .null, _ => none
  | .node n child0 child1, q =>
    if q = nodeBits ds n then some (content ds n)
    else (entry ds child0 q).or (entry ds child1 q)

variable {ds vs maxp : ℕ} {p q : List Bool} {t child0 child1 : Trie}

lemma WF.entry_eq_none (h : WF ds vs maxp p t) (hq : ¬ p <+: q) : entry ds t q = none := by
  induction t generalizing p with
  | null => rfl
  | node n child0 child1 ih0 ih1 =>
    obtain ⟨-, hp, h0, h1⟩ := h
    have hne : q ≠ nodeBits ds n := by
      rintro rfl
      exact hq hp
    have hside : ∀ b, ¬ nodeBits ds n ++ [b] <+: q := fun b hb =>
        hq (hp.trans ((prefix_append _ _).trans hb))
    rw [entry, if_neg hne, ih0 h0 (hside false), ih1 h1 (hside true), or_none]

lemma WF.entry_node_eq_none (h : WF ds vs maxp p (.node n child0 child1))
    (hq : ¬ nodeBits ds n <+: q) : entry ds (.node n child0 child1) q = none :=
  WF.entry_eq_none (p := nodeBits ds n) ⟨h.1, prefix_rfl, h.2.2⟩ hq

def childOn (b : Bool) (child0 child1 : Trie) : Trie := if b then child1 else child0

section

variable (h : WF ds vs maxp p (.node n child0 child1))
include h

lemma WF.entry_childOn {b : Bool} (hq : nodeBits ds n ++ [b] <+: q) :
    entry ds (.node n child0 child1) q = entry ds (childOn b child0 child1) q := by
  obtain ⟨-, -, h0, h1⟩ := h
  have hne : q ≠ nodeBits ds n := by
    rintro rfl
    have hlen := hq.length_le
    rw [length_append, length_singleton] at hlen
    omega
  rw [entry, if_neg hne]
  cases b with
  | false =>
    rw [h1.entry_eq_none fun hq' => absurd (snoc_unique hq hq') (by simp), or_none]
    rfl
  | true =>
    rw [h0.entry_eq_none fun hq' => absurd (snoc_unique hq hq') (by simp), none_or]
    rfl

lemma WF.childOn (b : Bool) : WF ds vs maxp (nodeBits ds n ++ [b]) (childOn b child0 child1) := by
  cases b with
  | false => exact h.2.2.1
  | true => exact h.2.2.2

lemma WF.entry_cases {e : Option (List UInt8)} (he : entry ds (.node n child0 child1) q = some e) :
    (q = nodeBits ds n ∧ e = content ds n) ∨
    ∃ b, nodeBits ds n ++ [b] <+: q ∧ entry ds (LpmTrieMap.childOn b child0 child1) q = some e := by
  by_cases hq : q = nodeBits ds n
  · left
    rw [entry, if_pos hq] at he
    exact ⟨hq, (some.inj he).symm⟩
  · right
    -- Outside the two sides there are no nodes.
    by_cases hside : ∃ b, nodeBits ds n ++ [b] <+: q
    · obtain ⟨b, hb⟩ := hside
      exact ⟨b, hb, by rw [← h.entry_childOn hb, he]⟩
    · rw [not_exists] at hside
      rw [entry, if_neg hq, h.2.2.1.entry_eq_none (hside false), h.2.2.2.entry_eq_none (hside true)] at he
      simp at he

end

lemma lookupWalk_node (m : LpmTrieMap) (key : BpfLpmTrieKey) (n : LpmTrieNode)
    (child0 child1 : Trie) (found : Option LpmTrieNode) : m.lookupWalk key (.node n child0 child1) found =
    if m.longestPrefixMatch n key = m.max_prefixlen then some n
    else if m.longestPrefixMatch n key < n.prefixlen then found
    else if m.longestPrefixMatch n key < key.prefixlen then
    m.lookupWalk key (childOn (bitAt m.data_size key.data n.prefixlen) child0 child1)
    (if n.is_intermediate then found else some n)
    else if n.is_intermediate then found else some n := by
  have hbit : m.extractBit key.data n.prefixlen = bitAt m.data_size key.data n.prefixlen := rfl
  rw [lookupWalk, hbit]
  unfold childOn
  split_ifs <;> rfl

/-- `q` is the longest start of `k` with a value, which is `v`. -/
def Longest (e : List Bool → Option (Option (List UInt8))) (k q : List Bool) (v : List UInt8) : Prop :=
  q <+: k ∧ e q = some (some v) ∧ ∀ q' v', q' <+: k → e q' = some (some v') → q'.length ≤ q.length

/-- Where the walk of `elem_lookup` ends. -/
inductive LookupEnds (m : LpmTrieMap) (vs : ℕ) (key : BpfLpmTrieKey) (t : Trie)
    (found : Option LpmTrieNode) : Option LpmTrieNode → Prop
  | full {n : LpmTrieNode} (hfull : key.prefixlen = m.max_prefixlen)
      (hok : NodeOk m.data_size vs m.max_prefixlen n)
      (he : entry m.data_size t (keyBits m.data_size key) = some (content m.data_size n)) :
      LookupEnds m vs key t found (some n)
  | longest {q : List Bool} {v : List UInt8} {n : LpmTrieNode}
      (hnone : key.prefixlen = m.max_prefixlen → entry m.data_size t (keyBits m.data_size key) = none)
      (hq : Longest (entry m.data_size t) (keyBits m.data_size key) q v)
      (hok : NodeOk m.data_size vs m.max_prefixlen n) (hv : content m.data_size n = some v) :
      LookupEnds m vs key t found (some n)
  | nothing
      (hnone : key.prefixlen = m.max_prefixlen → entry m.data_size t (keyBits m.data_size key) = none)
      (hno : ∀ q v, q <+: keyBits m.data_size key → entry m.data_size t q ≠ some (some v)) :
      LookupEnds m vs key t found found

lemma LookupEnds.of_self {found : Option LpmTrieNode} (hok : NodeOk m.data_size vs m.max_prefixlen n)
    (hpre : nodeBits m.data_size n <+: keyBits m.data_size key)
    (hnone : key.prefixlen = m.max_prefixlen → entry m.data_size t (keyBits m.data_size key) = none)
    (hself : entry m.data_size t (nodeBits m.data_size n) = some (content m.data_size n))
    (honly : ∀ q v, q <+: keyBits m.data_size key → entry m.data_size t q = some (some v) →
    q = nodeBits m.data_size n) : LookupEnds m vs key t found (if n.is_intermediate then found else some n) := by
  split_ifs with him
  · refine .nothing hnone fun q v hq he => ?_
    rw [honly q v hq he, hself, content, if_pos him] at he
    simp at he
  · have hv : content m.data_size n = some (n.data.drop m.data_size) := by rw [content, if_neg him]
    refine .longest hnone ⟨hpre, hself.trans (congrArg some hv), fun q v hq he => ?_⟩ hok hv
    rw [honly q v hq he]

lemma lookupWalk_spec (hwf : WF m.data_size vs m.max_prefixlen p t)
    (hk : key.prefixlen ≤ m.max_prefixlen) (found : Option LpmTrieNode) :
    LookupEnds m vs key t found (m.lookupWalk key t found) := by
  induction t generalizing p found with
  | null => exact .nothing (fun _ => rfl) fun q v _ h => by simp [entry] at h
  | node n child0 child1 ih0 ih1 =>
    have ih : ∀ b found, LookupEnds m vs key (childOn b child0 child1) found
        (m.lookupWalk key (childOn b child0 child1) found) := by
      intro b
      cases b with
      | false => exact ih0 hwf.2.2.1
      | true => exact ih1 hwf.2.2.2
    obtain ⟨hmn, hmk, -, -⟩ := longestPrefixMatch_spec m n key
    have hok := hwf.1
    have hnode := longestPrefixMatch_eq_node m n key
    have hself : entry m.data_size (.node n child0 child1) (nodeBits m.data_size n) =
        some (content m.data_size n) := by rw [entry, if_pos rfl]
    rw [lookupWalk_node]
    by_cases hfull : m.longestPrefixMatch n key = m.max_prefixlen
    · -- Both prefixes have full length.
      have hle := hok.prefixlen_le
      have heq : nodeBits m.data_size n = keyBits m.data_size key :=
        (hnode.mp (by omega)).eq_of_length (by rw [length_nodeBits, length_keyBits]; omega)
      rw [if_pos hfull]
      exact .full (by omega) hok (heq ▸ hself)
    rw [if_neg hfull]
    by_cases hshort : m.longestPrefixMatch n key < n.prefixlen
    · -- No start of the key continues the prefix of the node.
      have hno : ∀ q, q <+: keyBits m.data_size key → entry m.data_size (.node n child0 child1) q =
          none := by
        intro q hq
        refine hwf.entry_node_eq_none fun hpre => ?_
        have := hnode.mpr (hpre.trans hq)
        omega
      rw [if_pos hshort]
      exact .nothing (fun _ => hno _ prefix_rfl) fun q v hq he => by simp [hno q hq] at he
    rw [if_neg hshort]
    have hpre : nodeBits m.data_size n <+: keyBits m.data_size key := hnode.mp (by omega)
    by_cases hlong : m.longestPrefixMatch n key < key.prefixlen
    · rw [if_pos hlong]
      have hsnoc := snoc_isPrefix hpre (by omega)
      generalize bitAt m.data_size key.data n.prefixlen = b at hsnoc
      have hkey := hwf.entry_childOn hsnoc
      -- A start of the key with a node below this one has it on the side of the key.
      have hbelow : ∀ q v, q <+: keyBits m.data_size key →
          entry m.data_size (.node n child0 child1) q = some (some v) →
          q = nodeBits m.data_size n ∨ (nodeBits m.data_size n ++ [b] <+: q ∧
            entry m.data_size (childOn b child0 child1) q = some (some v)) := by
        intro q v hq he
        rcases hwf.entry_cases he with ⟨rfl, -⟩ | ⟨b', hb', he'⟩
        · exact Or.inl rfl
        · obtain rfl := snoc_unique (hb'.trans hq) hsnoc
          exact Or.inr ⟨hb', he'⟩
      generalize hr : m.lookupWalk key (childOn b child0 child1)
        (if n.is_intermediate then found else some n) = r
      have hends := hr ▸ ih b (if n.is_intermediate then found else some n)
      cases hends with
      | full hf hok' he => exact .full hf hok' (hkey.trans he)
      | longest hnone hq hok' hv =>
        rename_i q v n'
        obtain ⟨hqk, hqe, hqmax⟩ := hq
        have hext : nodeBits m.data_size n ++ [b] <+: q := by
          by_contra hnot
          rw [(hwf.childOn b).entry_eq_none hnot] at hqe
          simp at hqe
        refine .longest (fun hf => hkey.trans (hnone hf))
          ⟨hqk, (hwf.entry_childOn hext).trans hqe, fun q' v' hq' he' => ?_⟩ hok' hv
        rcases hbelow q' v' hq' he' with rfl | ⟨-, hbe⟩
        · have hlen := hext.length_le
          rw [length_append] at hlen
          omega
        · exact hqmax q' v' hq' hbe
      | nothing hnone hno =>
        refine .of_self hok hpre (fun hf => hkey.trans (hnone hf)) hself fun q v hq he => ?_
        rcases hbelow q v hq he with rfl | ⟨-, hbe⟩
        · rfl
        · exact absurd hbe (hno q v hq)
    · -- The key is the prefix of the node, and shorter than a full one.
      rw [if_neg hlong]
      have heq : nodeBits m.data_size n = keyBits m.data_size key :=
        hpre.eq_of_length (by rw [length_nodeBits, length_keyBits]; omega)
      refine .of_self hok hpre (fun hf => by omega) hself fun q v hq he => ?_
      rcases hwf.entry_cases he with ⟨rfl, -⟩ | ⟨b, hb, -⟩
      · rfl
      · have hlen := (hb.trans hq).length_le
        rw [← heq, length_append, length_singleton] at hlen
        omega

end Bpftime.LpmTrieMap
