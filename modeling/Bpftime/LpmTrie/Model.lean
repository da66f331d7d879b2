import Bpftime.Basic
import Bpftime.Lib.BitStrings
import Bpftime.Lib.Bytes
import Bpftime.Lib.Runs

/-!
# The longest-prefix-match trie

`lpm_trie_map_impl` of `runtime/src/bpf_map/userspace/lpm_trie_map.cpp`: a binary tree in which a
node stands for a prefix, and a path skips the bits that no prefix below tells apart.
-/

namespace Bpftime

open Bytes BitStrings

/-- A `bpf_lpm_trie_key`. -/
structure BpfLpmTrieKey where
  prefixlen : ℕ
  data : List UInt8
deriving DecidableEq

/-- An `lpm_trie_node` without its children. -/
structure LpmTrieNode where
  prefixlen : ℕ
  is_intermediate : Bool
  data : List UInt8
  /-- How many bytes `data` has room for, which a smaller size does not take away. -/
  capacity : ℕ
deriving DecidableEq

/-- What a `node_unique_ptr` owns: nothing, or a node and its two children. -/
inductive Trie where
  | null
  | node (n : LpmTrieNode) (child0 child1 : Trie)
deriving DecidableEq

/-- An `lpm_trie_map_impl`. -/
structure LpmTrieMap where
  key_size : ℕ
  value_size : ℕ
  max_entries : ℕ
  data_size : ℕ
  max_prefixlen : ℕ
  root : Trie
  n_entries : ℕ
deriving DecidableEq

inductive Alloc where
  | ok
  | null
  | throws
deriving DecidableEq

/-- How the allocations of one `elem_update` end: those of the two nodes that it may create, and
that for the bytes of a node that it makes real, if they have no room for a value. -/
structure Allocs where
  new_node : Alloc
  im_node : Alloc
  resize_throws : Bool
deriving DecidableEq

namespace LpmTrieMap

/-- The constructor, which throws when a size is out of its range. -/
def create (key_size value_size max_entries : ℕ) : Option LpmTrieMap :=
  if key_size < 5 ∨ key_size > 260 then none
  else if value_size = 0 ∨ max_entries = 0 then none
  else some
    { key_size, value_size, max_entries
      data_size := key_size - 4
      max_prefixlen := (key_size - 4) * 8
      root := .null
      n_entries := 0 }

variable (m : LpmTrieMap)

/-- `extract_bit`: bit `index`, counted from the most significant bit of the first byte. -/
def extractBit (data : List UInt8) (index : ℕ) : Bool :=
  if index ≥ m.data_size * 8 then false
  else (data.getD (index / 8) 0).toNat.testBit (7 - index % 8)

/-- `longest_prefix_match`: the number of bits in which a node and a key agree. -/
def longestPrefixMatch (n : LpmTrieNode) (key : BpfLpmTrieKey) : ℕ :=
  agreeLen (m.extractBit n.data) (m.extractBit key.data) (min n.prefixlen key.prefixlen) 0

/-- The walk of `elem_lookup`. -/
def lookupWalk (key : BpfLpmTrieKey) : Trie → Option LpmTrieNode → Option LpmTrieNode
  | .null, found => found
  | .node n child0 child1, found =>
    let matchlen := m.longestPrefixMatch n key
    -- An exact match for the maximum possible prefix.
    if matchlen = m.max_prefixlen then some n
    else if matchlen < n.prefixlen then found
    else
      let found := if n.is_intermediate then found else some n
      if matchlen < key.prefixlen then
        if m.extractBit key.data n.prefixlen then lookupWalk key child1 found
        else lookupWalk key child0 found
      else found

/-- `elem_lookup`: the bytes of the value, or the error number. -/
def elemLookup (key : Option BpfLpmTrieKey) : Option (Except Errno (List UInt8)) :=
  match key with
  | none => some (.error .EINVAL)
  | some key =>
    if key.prefixlen > m.max_prefixlen then some (.error .EINVAL)
    else
      match m.lookupWalk key m.root none with
      | none => some (.error .ENOENT)
      | some found =>
        if found.is_intermediate then some (.error .ENOENT)
        else (readRange found.data m.data_size m.value_size).map .ok

/-- `copy_key_data`. -/
def copyKeyData (n : LpmTrieNode) (key : BpfLpmTrieKey) : Option LpmTrieNode := do
  let bytes ← readRange key.data 0 m.data_size
  let data ← writeRange n.data 0 bytes
  return { n with data }

/-- `copy_value_data`. -/
def copyValueData (n : LpmTrieNode) (value : List UInt8) : Option LpmTrieNode := do
  if n.is_intermediate then
    return n
  let bytes ← readRange value 0 m.value_size
  let data ← writeRange n.data m.data_size bytes
  return { n with data }

/-- `create_node` with a value, and the prefix of the key. -/
def newNode (key : BpfLpmTrieKey) (value : List UInt8) : Option LpmTrieNode := do
  let n ← m.copyValueData ⟨0, false, resize [] (m.data_size + m.value_size),
    m.data_size + m.value_size⟩ value
  m.copyKeyData { n with prefixlen := key.prefixlen } key

/-- `create_node` of an intermediate node, and a prefix of the key. -/
def imNode (key : BpfLpmTrieKey) (matchlen : ℕ) : Option LpmTrieNode :=
  m.copyKeyData ⟨matchlen, true, resize [] m.data_size, m.data_size⟩ key

section Update

variable (key : BpfLpmTrieKey) (value : List UInt8) (flags : ℕ) (allocs : Allocs)

/-- What precedes every insertion: the checks for `BPF_EXIST` and for room, and the new node. -/
def withNewNode (slot : Trie) (insert : LpmTrieNode → Option (Outcome × Trie × Bool)) :
    Option (Outcome × Trie × Bool) :=
  if flags = 2 then some (.error .ENOENT, slot, false)
  else if m.n_entries ≥ m.max_entries then some (.error .ENOSPC, slot, false)
  else
    match allocs.new_node with
    | .null => some (.error .ENOMEM, slot, false)
    | .throws => some (.threw, slot, false)
    | .ok => (m.newNode key value).bind insert

/-- The split of a slot: an intermediate node above what was there and the new node. -/
def split (slot : Trie) (matchlen : ℕ) : Option (Outcome × Trie × Bool) :=
  m.withNewNode key value flags allocs slot fun new_node =>
    match allocs.im_node with
    | .null => some (.error .ENOMEM, slot, false)
    | .throws => some (.threw, slot, false)
    | .ok => (m.imNode key matchlen).map fun im_node =>
      if m.extractBit key.data matchlen then
        (.ok, .node im_node slot (.node new_node .null .null), true)
      else (.ok, .node im_node (.node new_node .null .null) slot, true)

def updateExact (n : LpmTrieNode) (child0 child1 : Trie) : Option (Outcome × Trie × Bool) :=
  if flags = 1 then some (.error .EEXIST, .node n child0 child1, false)
  else if flags = 2 ∧ n.is_intermediate then some (.error .ENOENT, .node n child0 child1, false)
  else if n.is_intermediate then
    if m.n_entries ≥ m.max_entries then some (.error .ENOSPC, .node n child0 child1, false)
    else
      let n := { n with is_intermediate := false }
      -- The node is real from here on, also when the growth of its bytes throws.
      if allocs.resize_throws ∧ n.capacity < m.data_size + m.value_size then
        some (.threw, .node n child0 child1, false)
      else
        (m.copyValueData { n with
          data := resize n.data (m.data_size + m.value_size)
          capacity := max n.capacity (m.data_size + m.value_size) } value).map
          fun n => (.ok, .node n child0 child1, true)
  else (m.copyValueData n value).map fun n => (.ok, .node n child0 child1, false)

/-- The walk of `elem_update` and the four cases at its end. -/
def updateWalk : Trie → Option (Outcome × Trie × Bool)
  | .null =>
    m.withNewNode key value flags allocs .null fun new_node => some (.ok, .node new_node .null .null, true)
  | .node n child0 child1 =>
    let matchlen := m.longestPrefixMatch n key
    if n.prefixlen ≠ matchlen ∨ n.prefixlen = key.prefixlen ∨ n.prefixlen = m.max_prefixlen then
      if n.prefixlen = key.prefixlen then
        if matchlen = key.prefixlen then m.updateExact value flags allocs n child0 child1
        else m.split key value flags allocs (.node n child0 child1) matchlen
      else if matchlen = key.prefixlen then
        m.withNewNode key value flags allocs (.node n child0 child1) fun new_node =>
          if m.extractBit n.data matchlen then
            some (.ok, .node new_node .null (.node n child0 child1), true)
          else some (.ok, .node new_node (.node n child0 child1) .null, true)
      else m.split key value flags allocs (.node n child0 child1) matchlen
    else if m.extractBit key.data n.prefixlen then
      (updateWalk child1).map fun p => (p.1, .node n child0 p.2.1, p.2.2)
    else (updateWalk child0).map fun p => (p.1, .node n p.2.1 child1, p.2.2)

end Update

/-- `elem_update`. -/
def elemUpdate (key : Option BpfLpmTrieKey) (value : Option (List UInt8)) (flags : ℕ)
    (allocs : Allocs) : Option (Outcome × LpmTrieMap) :=
  match key, value with
  | some key, some value =>
    if flags ≠ 0 ∧ flags ≠ 1 ∧ flags ≠ 2 then some (.error .EINVAL, m)
    else if key.prefixlen > m.max_prefixlen then some (.error .EINVAL, m)
    else
      (m.updateWalk key value flags allocs m.root).map fun p =>
        (p.1, { m with
          root := p.2.1
          n_entries := if p.2.2 then add64 m.n_entries 1 else m.n_entries })
  | _, _ => some (.error .EINVAL, m)

/-- The walk of `elem_delete`: the tree with the node made intermediate, when it is there. -/
def deleteWalk (key : BpfLpmTrieKey) : Trie → Option Trie
  | .null => none
  | .node n child0 child1 =>
    let matchlen := m.longestPrefixMatch n key
    if n.prefixlen ≠ matchlen ∨ n.prefixlen = key.prefixlen then
      if n.prefixlen ≠ key.prefixlen ∨ matchlen ≠ n.prefixlen ∨ n.is_intermediate then none
      else
        some (.node { n with is_intermediate := true, data := resize n.data m.data_size } child0 child1)
    else if m.extractBit key.data n.prefixlen then
      (deleteWalk key child1).map fun child => .node n child0 child
    else (deleteWalk key child0).map fun child => .node n child child1

/-- `elem_delete`. -/
def elemDelete (key : Option BpfLpmTrieKey) : Outcome × LpmTrieMap :=
  match key with
  | none => (.error .EINVAL, m)
  | some key =>
    if key.prefixlen > m.max_prefixlen then (.error .EINVAL, m)
    else
      match m.deleteWalk key m.root with
      | none => (.error .ENOENT, m)
      | some root => (.ok, { m with root, n_entries := if m.n_entries > 0 then m.n_entries - 1 else m.n_entries })

end LpmTrieMap

end Bpftime
