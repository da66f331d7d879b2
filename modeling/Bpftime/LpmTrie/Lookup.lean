import Bpftime.LpmTrie.Update

/-!
# Lookups and the history of a trie

`Sys` puts the trie beside its history: for each prefix, whether the last update or delete of it
that succeeded was an update, and with which value.
-/

namespace Bpftime.LpmTrieMap

open Bytes BitStrings Runs Option Function List

structure Key (ds : ℕ) where
  prefixlen : UInt32
  data : List.Vector UInt8 ds

def Key.toKey {ds : ℕ} (key : Key ds) : BpfLpmTrieKey := ⟨key.prefixlen.toNat, key.data.toList⟩

/-- A call of `elem_update` or `elem_delete`, with the pointers that may be null. -/
inductive Op (ds vs : ℕ) where
  | update (key : Option (Key ds)) (value : Option (List.Vector UInt8 vs)) (flags : UInt64)
      (allocs : Allocs)
  | delete (key : Option (Key ds))

structure Sys where
  map : LpmTrieMap
  /-- The last update or delete of a prefix that succeeded: `some (some v)` when it stored `v`,
  `some none` when it was a delete. -/
  last : List Bool → Option (Option (List UInt8))

variable {ds vs : ℕ}

def step (s : Sys) : Op ds vs → Option (Outcome × Sys)
  | .update key value flags allocs =>
    (s.map.elemUpdate (key.map Key.toKey) (value.map fun v =>
    v.toList) flags.toNat allocs).map fun r => (r.1,
        { map := r.2
          last := match r.1, key, value with
            | .ok, some key, some value => update s.last (keyBits ds key.toKey) (some (some value.toList))
            | _, _, _ => s.last })
  | .delete key =>
    let r := s.map.elemDelete (key.map Key.toKey)
    some (r.1,
      { map := r.2
        last := match r.1, key with
          | .ok, some key => update s.last (keyBits ds key.toKey) (some none)
          | _, _ => s.last })

def Sys.new (map : LpmTrieMap) : Sys := ⟨map, fun _ => none⟩

/-- The lookup of a key returns the value of its longest stored prefix, or fails with `ENOENT` when
there is none. -/
def Agrees (s : Sys) (key : Key ds) : Prop :=
  match s.map.elemLookup (some key.toKey) with
  | some (.ok v) => ∃ q, Longest s.last (keyBits ds key.toKey) q v
  | some (.error e) => e = .ENOENT ∧ ∀ q v, q <+: keyBits ds key.toKey → s.last q ≠ some (some v)
  | none => False

/-- Every lookup after the calls `ops` on a new trie agrees with the history. -/
def LookupsAgree (key_size value_size max_entries : ℕ) (ops : List (Op (key_size - 4) value_size)) : Prop :=
  ∃ m rs s, create key_size value_size max_entries = some m ∧ run step (Sys.new m) ops =
    some (rs, s) ∧ ∀ key : Key (key_size - 4), key.prefixlen.toNat ≤ m.max_prefixlen → Agrees s key

/-- The key has full length, its own prefix was deleted, and a prefix of it is stored. -/
def Shadowed (s : Sys) (key : Key ds) : Prop :=
  key.prefixlen.toNat = s.map.max_prefixlen ∧ s.last (keyBits ds key.toKey) = some none ∧
    ∃ q v, q <+: keyBits ds key.toKey ∧ s.last q = some (some v)

def Grown (_ : Sys) : Op ds vs → Prop
  | .update _ _ _ allocs => allocs.resize_throws = false
  | .delete _ => True

structure Inv (ds vs maxp : ℕ) (s : Sys) : Prop where
  data_size : s.map.data_size = ds
  value_size : s.map.value_size = vs
  max_prefixlen : s.map.max_prefixlen = maxp
  wf : WF ds vs maxp [] s.map.root
  stored : ∀ q v, entry ds s.map.root q = some (some v) ↔ s.last q = some (some v)
  full : ∀ q : List Bool, q.length = maxp → entry ds s.map.root q = s.last q

variable {maxp : ℕ} {s : Sys}

lemma inv_update (h : Inv ds vs maxp s) (key : Option (Key ds))
    (value : Option (List.Vector UInt8 vs)) (flags : UInt64) (allocs : Allocs)
    (hres : allocs.resize_throws = false) :
    ∃ r s', step s (.update key value flags allocs) = some (r, s') ∧ Inv ds vs maxp s' ∧
    (r ≠ .ok → s' = s) := by
  obtain ⟨hds, hvs, hmax, hwf, hstored, hfull⟩ := h
  have hsame : ∀ e, e ≠ Outcome.ok →
      s.map.elemUpdate (key.map Key.toKey) (value.map fun v => v.toList) flags.toNat allocs =
        some (e, s.map) →
      ∃ r s', step s (.update key value flags allocs) = some (r, s') ∧ Inv ds vs maxp s' ∧
        (r ≠ .ok → s' = s) := by
    intro e he hup
    refine ⟨e, s, ?_, ⟨hds, hvs, hmax, hwf, hstored, hfull⟩, fun _ => rfl⟩
    rw [step, hup, map_some]
    cases e with
    | ok => exact absurd rfl he
    | error _ => rfl
    | threw => rfl
  cases key with
  | none => exact hsame (.error .EINVAL) (by simp) rfl
  | some key =>
    cases value with
    | none => exact hsame (.error .EINVAL) (by simp) rfl
    | some value =>
      by_cases hflags : flags.toNat ≠ 0 ∧ flags.toNat ≠ 1 ∧ flags.toNat ≠ 2
      · exact hsame (.error .EINVAL) (by simp) (if_pos hflags)
      by_cases hlong : key.toKey.prefixlen > s.map.max_prefixlen
      · exact hsame (.error .EINVAL) (by simp) ((if_neg hflags).trans (if_pos hlong))
      have hwalk : s.map.elemUpdate (some key.toKey) (some value.toList) flags.toNat allocs =
          (s.map.updateWalk key.toKey value.toList flags.toNat allocs s.map.root).map fun p =>
            (p.1, { s.map with
              root := p.2.1
              n_entries := if p.2.2 then add64 s.map.n_entries 1 else s.map.n_entries }) :=
        (if_neg hflags).trans (if_neg hlong)
      subst hds hvs hmax
      rcases updateWalk_spec hwf key.data.toList_length value.toList_length (Nat.not_lt.mp hlong) nil_prefix hres with
        ⟨t', added, hr, hwf', hself, hother⟩ | ⟨outcome, hne, hr⟩
      · -- The prefix has its value, and other values stay.
        refine ⟨.ok, ⟨{ s.map with
              root := t'
              n_entries := if added then add64 s.map.n_entries 1 else s.map.n_entries },
            update s.last (keyBits s.map.data_size key.toKey) (some (some value.toList))⟩,
          ?_, ⟨rfl, rfl, rfl, hwf', fun q v => ?_, fun q hq => ?_⟩, fun hne => absurd rfl hne⟩
        · rw [step, map_some, map_some, hwalk, hr]
          rfl
        · dsimp only
          rw [update_apply]
          split_ifs with hqk
          · rw [hqk, hself]
          · rw [← hstored]
            rcases hother q hqk with heq | ⟨hold, hnew, -⟩
            · rw [heq]
            · rw [hold, hnew]
              simp
        · dsimp only
          rw [update_apply]
          split_ifs with hqk
          · rw [hqk, hself]
          · rcases hother q hqk with heq | ⟨-, -, hlt⟩
            · rw [heq, hfull q hq]
            · omega
      · refine hsame outcome hne ?_
        rw [map_some, map_some, hwalk, hr]
        rfl

lemma inv_delete (h : Inv ds vs maxp s) (key : Option (Key ds)) :
    ∃ r s', step s (.delete key : Op ds vs) = some (r, s') ∧ Inv ds vs maxp s' ∧ (r ≠ .ok → s' = s) := by
  obtain ⟨hds, hvs, hmax, hwf, hstored, hfull⟩ := h
  have hsame : ∀ e, s.map.elemDelete (key.map Key.toKey) = (.error e, s.map) →
      ∃ r s', step s (.delete key : Op ds vs) = some (r, s') ∧ Inv ds vs maxp s' ∧ (r ≠ .ok → s' = s) := by
    intro e hdel
    refine ⟨.error e, s, ?_, ⟨hds, hvs, hmax, hwf, hstored, hfull⟩, fun _ => rfl⟩
    simp only [step, hdel]
  cases key with
  | none => exact hsame .EINVAL rfl
  | some key =>
    by_cases hlong : key.toKey.prefixlen > s.map.max_prefixlen
    · exact hsame .EINVAL (if_pos hlong)
    · cases hdel : s.map.deleteWalk key.toKey s.map.root with
      | none =>
        refine hsame .ENOENT ((if_neg hlong).trans ?_)
        rw [hdel]
      | some root =>
        subst hds hvs hmax
        obtain ⟨hwf', he⟩ := deleteWalk_spec hwf hdel
        have hok : s.map.elemDelete (some key.toKey) = (.ok, { s.map with
            root := root
            n_entries := if s.map.n_entries > 0 then s.map.n_entries - 1 else s.map.n_entries }) := by
          refine (if_neg hlong).trans ?_
          rw [hdel]
        refine ⟨.ok, ⟨{ s.map with
              root := root
              n_entries := if s.map.n_entries > 0 then s.map.n_entries - 1 else s.map.n_entries },
            update s.last (keyBits s.map.data_size key.toKey) (some none)⟩,
          by simp only [step, map_some, hok],
          ⟨rfl, rfl, rfl, hwf', fun q v => ?_, fun q hq => ?_⟩, fun hne => absurd rfl hne⟩
        · dsimp only
          rw [he, update_apply, update_apply]
          split_ifs with hqk
          · simp
          · exact hstored q v
        · dsimp only
          rw [he, update_apply, update_apply]
          split_ifs with hqk
          · rfl
          · exact hfull q hq

lemma inv_or_same_step (s : Sys) (op : Op ds vs) (h : Inv ds vs maxp s) (hC : Grown s op) :
    ∃ r s', step s op = some (r, s') ∧ Inv ds vs maxp s' ∧ (r ≠ .ok → s' = s) := by
  cases op with
  | update key value flags allocs => exact inv_update h key value flags allocs hC
  | delete key => exact inv_delete h key

lemma inv_step (s : Sys) (op : Op ds vs) (h : Inv ds vs maxp s) (hC : Grown s op) :
    ∃ r s', step s op = some (r, s') ∧ Inv ds vs maxp s' := by
  obtain ⟨r, s', hstep, hinv, -⟩ := inv_or_same_step s op h hC
  exact ⟨r, s', hstep, hinv⟩

lemma inv_create {key_size value_size max_entries : ℕ} {m : LpmTrieMap}
    (h : create key_size value_size max_entries = some m) :
    Inv (key_size - 4) value_size m.max_prefixlen (Sys.new m) := by
  unfold create at h
  split_ifs at h
  rw [some.injEq] at h
  subst h
  exact ⟨rfl, rfl, rfl, trivial, fun q v => by simp [entry, Sys.new], fun q _ => rfl⟩

lemma readRange_of_content {n : LpmTrieNode} {v : List UInt8} (hok : NodeOk ds vs maxp n)
    (hv : content ds n = some v) : n.is_intermediate = false ∧ readRange n.data ds vs = some v := by
  unfold content at hv
  split_ifs at hv with him
  have hlen := hok.length_data
  rw [if_neg him] at hlen
  refine ⟨by simpa using him, ?_⟩
  unfold readRange
  rw [if_pos (by omega), ← some.inj hv, take_of_length_le (by rw [length_drop]; omega)]

lemma Inv.key_agrees_iff (h : Inv ds vs maxp s) (key : Key ds)
    (hk : key.prefixlen.toNat ≤ s.map.max_prefixlen) : Agrees s key ↔ ¬ Shadowed s key := by
  obtain ⟨hds, hvs, hmax, hwf, hstored, hfull⟩ := h
  subst hds hvs hmax
  have hlen : (keyBits s.map.data_size key.toKey).length = key.prefixlen.toNat := length_keyBits _ _
  have hends : LookupEnds s.map _ key.toKey s.map.root none _ := lookupWalk_spec hwf hk none
  have hshort : ¬ key.toKey.prefixlen > s.map.max_prefixlen := Nat.not_lt.mpr hk
  unfold Agrees elemLookup Shadowed
  dsimp only
  rw [if_neg hshort]
  generalize s.map.lookupWalk key.toKey s.map.root none = r at hends
  cases hends with
  | full hf hok he =>
    rename_i n
    have hlast := (hfull _ (hlen.trans hf)).symm.trans he
    cases hv : content s.map.data_size n with
    | none =>
      -- The node of the key is intermediate.
      have him : n.is_intermediate = true := by
        unfold content at hv
        split_ifs at hv with him
        exact him
      rw [hv] at hlast
      dsimp only
      rw [if_pos him]
      constructor
      · rintro ⟨-, hno⟩ ⟨-, -, q, v, hq, hqv⟩
        exact hno q v hq hqv
      · intro hnot
        exact ⟨rfl, fun q v hq hqv => hnot ⟨hf, hlast, q, v, hq, hqv⟩⟩
    | some v =>
      obtain ⟨him, hread⟩ := readRange_of_content hok hv
      rw [hv] at hlast
      dsimp only
      rw [if_neg (by simp [him]), hread, map_some]
      refine iff_of_true ⟨_, prefix_rfl, hlast, fun q' _ hq' _ => hq'.length_le⟩ ?_
      rintro ⟨-, hdel, -⟩
      rw [hlast] at hdel
      simp at hdel
  | longest hnone hq hok hv =>
    rename_i q v n
    obtain ⟨hqk, hqe, hqmax⟩ := hq
    obtain ⟨him, hread⟩ := readRange_of_content hok hv
    dsimp only
    rw [if_neg (by simp [him]), hread, map_some]
    refine iff_of_true ⟨q, hqk, (hstored q v).mp hqe, fun q' v' hq' he' =>
      hqmax q' v' hq' ((hstored q' v').mpr he')⟩ ?_
    rintro ⟨hf, hdel, -⟩
    rw [← hfull _ (hlen.trans hf), hnone hf] at hdel
    simp at hdel
  | nothing hnone hno =>
    refine iff_of_true ⟨rfl, fun q v hq hqv => hno q v hq ((hstored q v).mpr hqv)⟩ ?_
    rintro ⟨hf, hdel, -⟩
    rw [← hfull _ (hlen.trans hf), hnone hf] at hdel
    simp at hdel

/-- After every run in which the bytes of nodes can grow, a lookup agrees with the history exactly
when its key is not shadowed. -/
theorem lookup_agrees_iff {key_size value_size max_entries : ℕ} {m : LpmTrieMap}
    (hcreate : create key_size value_size max_entries = some m)
    (ops : List (Op (key_size - 4) value_size)) (hC : Along step Grown (Sys.new m) ops) :
    ∃ rs s, run step (Sys.new m) ops = some (rs, s) ∧
      ∀ key : Key (key_size - 4), key.prefixlen.toNat ≤ m.max_prefixlen →
      (Agrees s key ↔ ¬ Shadowed s key) := by
  obtain ⟨rs, s, hrun, hinv⟩ := run_invariant inv_step (inv_create hcreate) hC
  refine ⟨rs, s, hrun, fun key hk => hinv.key_agrees_iff key ?_⟩
  rw [hinv.max_prefixlen]
  exact hk

/-- Allocations that all succeed. -/
def allOk : Allocs := ⟨.ok, .ok, false⟩

/-- A value under the empty prefix and one under a full prefix, in a trie of one-byte keys. -/
theorem lookup_agrees_default : ∃ rs s, run step (Sys.new ⟨5, 1, 2, 1, 8, .null, 0⟩)
        [.update (some ⟨0, oneByte 0⟩) (some (oneByte 7)) 0 allOk,
          .update (some ⟨8, oneByte 0xff⟩) (some (oneByte 9)) 0 allOk] = some (rs, s) ∧
      ∀ key : Key 1, key.prefixlen.toNat ≤ 8 → (Agrees s key ↔ ¬ Shadowed s key) :=
  lookup_agrees_iff (show create 5 1 2 = some ⟨5, 1, 2, 1, 8, .null, 0⟩ from rfl) _
    ⟨rfl, fun _ _ _ => ⟨rfl, fun _ _ _ => trivial⟩⟩

/-- A value under the empty prefix, and one under a full prefix that is deleted again. -/
def storeAndDelete : List (Op 1 1) :=
  [.update (some ⟨0, oneByte 0⟩) (some (oneByte 7)) 0 allOk,
    .update (some ⟨8, oneByte 0xff⟩) (some (oneByte 9)) 0 allOk,
    .delete (some ⟨8, oneByte 0xff⟩)]

/-- The value under the empty prefix is not found any more under the key whose prefix was
deleted. -/
theorem not_lookupsAgree_storeAndDelete : ¬ LookupsAgree 5 1 2 storeAndDelete := by
  rintro ⟨m, rs, s, hcreate, hrun, hall⟩
  have hagree := hall ⟨8, ⟨[0xff], rfl⟩⟩
  have hm : create 5 1 2 = some ⟨5, 1, 2, 1, 8, .null, 0⟩ := rfl
  obtain rfl := some.inj (hm.symm.trans hcreate)
  have hgot : (run step (Sys.new ⟨5, 1, 2, 1, 8, .null, 0⟩) storeAndDelete).map
      (fun p => (p.2.map.elemLookup (some ⟨8, [0xff]⟩)).map Except.toOption) =
        some (some none) := by decide +kernel
  have hwant : (run step (Sys.new ⟨5, 1, 2, 1, 8, .null, 0⟩) storeAndDelete).map
      (fun p => p.2.last []) = some (some (some [7])) := by decide +kernel
  rw [hrun, map_some, some.injEq] at hgot hwant
  replace hagree := hagree (by decide)
  unfold Agrees at hagree
  have hkey : (⟨8, ⟨[0xff], rfl⟩⟩ : Key 1).toKey = ⟨8, [0xff]⟩ := rfl
  rw [hkey] at hagree
  -- The lookup fails, although the empty prefix is stored.
  cases hlook : s.map.elemLookup (some ⟨8, [0xff]⟩) with
  | none => simp [hlook] at hgot
  | some r =>
    rw [hlook] at hagree hgot
    cases r with
    | ok v => simp [Except.toOption] at hgot
    | error e => exact hagree.2 [] [7] nil_prefix hwant

end Bpftime.LpmTrieMap
