import Bpftime.Frida.Attach
import Bpftime.Lib.Runs

/-!
# The tables of the Frida attach implementation

The two tables agree after any calls: the attach entries that are owned are those that the internal
entries list, each at its function and once, and a function has an internal entry as long as there
is an attach on it (`Inv`).
-/

namespace Bpftime.Frida

open Owners Option List AList
open Runs (run Along run_invariant run_cons_eq_some)

namespace Impl

variable {κ : Type}

/-- An id is left for an attach, and the allocator does not place a new entry on one that is still
owned. -/
def FreshAddr (s : Impl κ) : Op κ → Prop
  | .attach _ _ _ addr inner_addr =>
    s.next_id < 2^31 - 1 ∧ Free s.attaches addr ∧ Free s.internal_attaches inner_addr
  | _ => True

instance (s : Impl κ) (op : Op κ) : Decidable (FreshAddr s op) :=
  match op with
  | .attach _ _ _ addr inner_addr =>
    inferInstanceAs (Decidable (_ ∧ Free s.attaches addr ∧ Free s.internal_attaches inner_addr))
  | .detachById _ => .isTrue trivial
  | .detachByFuncAddr _ => .isTrue trivial

structure Agree (s : Impl κ) : Prop where
  /-- An attach entry is listed once by the internal entry of its function, at which it points. -/
  listed : ∀ id b, s.attaches.lookup id = some b → b.val.self_id = id ∧
    ∃ e, s.internal_attaches.lookup b.val.function = some e ∧ b.val.internal_attach = e.addr ∧
      e.val.function = b.val.function ∧ e.val.user_attaches.count b.addr = 1
  /-- A pointer of an internal entry leads to an attach entry on its function. -/
  live : ∀ f e a, s.internal_attaches.lookup f = some e → a ∈ e.val.user_attaches →
    ∃ id v, s.attaches.lookup id = some ⟨a, v⟩ ∧ v.function = f
  mem_iff : ∀ f, f ∈ s.internal_attaches ↔ ∃ id b, s.attaches.lookup id = some b ∧ b.val.function = f

def concerns (s : Impl κ) : Op κ → Option ℕ
  | .attach func_addr _ _ _ _ => some func_addr
  | .detachById id => (s.attaches.lookup id).map (·.val.function)
  | .detachByFuncAddr func => some func

/-- Only entries of one function, or none, are changed. -/
def OnlyAt (s s' : Impl κ) : Option ℕ → Prop
  | none => s' = s
  | some f => (∀ g, g ≠ f → s'.internal_attaches.lookup g = s.internal_attaches.lookup g) ∧
    ∀ id b, b.val.function ≠ f → (s'.attaches.lookup id = some b ↔ s.attaches.lookup id = some b)

def givenId : Reply → Option ℤ
  | .attached id => some id
  | _ => none

structure Inv (s : Impl κ) : Prop where
  apart : Apart s.attaches
  apart_internal : Apart s.internal_attaches
  id : ∀ id b, s.attaches.lookup id = some b → b.val.self_id = id ∧ id < s.next_id
  listed : ∀ id b, s.attaches.lookup id = some b →
    ∃ e, s.internal_attaches.lookup b.val.function = some e ∧ b.val.internal_attach = e.addr ∧
      b.addr ∈ e.val.user_attaches
  function : ∀ f e, s.internal_attaches.lookup f = some e → e.val.function = f ∧ f ≠ 0
  nodup : ∀ f e, s.internal_attaches.lookup f = some e → e.val.user_attaches.Nodup
  ne_nil : ∀ f e, s.internal_attaches.lookup f = some e → e.val.user_attaches ≠ []
  live : ∀ f e a, s.internal_attaches.lookup f = some e → a ∈ e.val.user_attaches →
    ∃ id v, s.attaches.lookup id = some ⟨a, v⟩ ∧ v.function = f

variable {s : Impl κ}

lemma inv_new : Inv (new : Impl κ) := by
  have hno : ∀ id b, (new : Impl κ).attaches.lookup id ≠ some b := by
    intro id b hb
    simp [new] at hb
  have hno' : ∀ f e, (new : Impl κ).internal_attaches.lookup f ≠ some e := by
    intro f e he
    simp [new] at he
  exact ⟨apart_empty, apart_empty, fun id b hb => absurd hb (hno id b),
    fun id b hb => absurd hb (hno id b), fun f e he => absurd he (hno' f e),
    fun f e he => absurd he (hno' f e), fun f e he => absurd he (hno' f e),
    fun f e a he => absurd he (hno' f e)⟩

lemma Inv.agree (h : Inv s) : Agree s where
  listed id b hb := by
    obtain ⟨e, he, hptr, hmem⟩ := h.listed id b hb
    exact ⟨(h.id id b hb).1, e, he, hptr, (h.function _ e he).1, count_eq_one_of_mem (h.nodup _ e he) hmem⟩
  live := h.live
  mem_iff f := by
    constructor
    · intro hf
      obtain ⟨e, he⟩ := isSome_iff_exists.mp (lookup_isSome.mpr hf)
      obtain ⟨a, ha⟩ := exists_mem_of_ne_nil _ (h.ne_nil f e he)
      obtain ⟨id, v, hb, hv⟩ := h.live f e a he ha
      exact ⟨id, _, hb, hv⟩
    · rintro ⟨id, b, hb, rfl⟩
      obtain ⟨e, he, -⟩ := h.listed id b hb
      exact lookup_isSome.mp (by rw [he]; rfl)

/-! ## Attaching -/

variable {e inner : Owned InternalAttachEntry} {addr : ℕ}

lemma Inv.hasOverride_isSome (h : Inv s) {f : ℕ} (he : s.internal_attaches.lookup f = some e) :
    ∃ b, s.hasOverride e.val.user_attaches = some b := by
  have hlive := fun a => h.live f e a he
  generalize e.val.user_attaches = as at hlive
  induction as with
  | nil => exact ⟨false, rfl⟩
  | cons a as ih =>
    obtain ⟨id, v, hb, -⟩ := hlive a (by simp)
    obtain ⟨b, hrest⟩ := ih fun a' ha' => hlive a' (by simp [ha'])
    rw [hasOverride, h.apart.find_eq_some_iff.mpr hb, bind_eq_bind, bind_some]
    dsimp only
    split_ifs with htype
    · exact ⟨true, rfl⟩
    · exact ⟨b, hrest⟩

/-- The internal entry to which an attach entry is added: that of the function, or a new one. -/
structure Host (s : Impl κ) (f : ℕ) (inner : Owned InternalAttachEntry) : Prop where
  ne_zero : f ≠ 0
  function : inner.val.function = f
  nodup : inner.val.user_attaches.Nodup
  apart : ∀ g e, s.internal_attaches.lookup g = some e → e.addr = inner.addr → g = f
  listed : ∀ id b, s.attaches.lookup id = some b → b.val.function = f →
    b.val.internal_attach = inner.addr ∧ b.addr ∈ inner.val.user_attaches
  live : ∀ a ∈ inner.val.user_attaches, ∃ id v, s.attaches.lookup id = some ⟨a, v⟩ ∧ v.function = f

lemma Inv.host_new (h : Inv s) {f : ℕ} (hf : f ≠ 0) (hnone : s.internal_attaches.lookup f = none)
    (hfresh : Free s.internal_attaches addr) : Host s f ⟨addr, ⟨f, []⟩⟩ where
  ne_zero := hf
  function := rfl
  nodup := nodup_nil
  apart g e he haddr := absurd haddr (hfresh.addr_ne he)
  listed id b hb hfun := by
    obtain ⟨e, he, -⟩ := h.listed id b hb
    rw [hfun, hnone] at he
    cases he
  live a ha := by cases ha

lemma Inv.host (h : Inv s) {f : ℕ} (hinner : s.internal_attaches.lookup f = some inner) :
    Host s f inner where
  ne_zero := (h.function f inner hinner).2
  function := (h.function f inner hinner).1
  nodup := h.nodup f inner hinner
  apart g e he haddr := h.apart_internal g f e inner he hinner haddr
  listed id b hb hfun := by
    obtain ⟨e, he, hptr, hmem⟩ := h.listed id b hb
    rw [hfun, hinner] at he
    cases he
    exact ⟨hptr, hmem⟩
  live a ha := h.live f inner a hinner ha

/-- The state behind the end of `attach_at`. -/
def pushed (s : Impl κ) (f : ℕ) (cb : EntryCallback κ) (inner : Owned InternalAttachEntry)
    (addr : ℕ) : Impl κ where
  next_id := s.next_id + 1
  attaches := s.attaches.insert s.next_id ⟨addr, ⟨s.next_id, cb, f, inner.addr⟩⟩
  internal_attaches := s.internal_attaches.insert f
    ⟨inner.addr, ⟨inner.val.function, inner.val.user_attaches ++ [addr]⟩⟩

lemma Inv.next_id_notMem (h : Inv s) : s.next_id ∉ s.attaches := by
  intro hmem
  obtain ⟨b, hb⟩ := isSome_iff_exists.mp (lookup_isSome.mpr hmem)
  exact absurd (h.id _ b hb).2 (lt_irrefl _)

lemma Inv.pushAttach_eq (h : Inv s) (hleft : s.next_id < 2^31 - 1) (f : ℕ) (cb : EntryCallback κ)
    (inner : Owned InternalAttachEntry) (addr : ℕ) :
    s.pushAttach f cb inner addr = some (.attached s.next_id, s.pushed f cb inner addr) := by
  unfold pushAttach emplace allocateId
  rw [if_pos hleft, bind_eq_bind, bind_some]
  dsimp only
  rw [if_neg h.next_id_notMem, lookup_insert, bind_eq_bind, bind_some, insert_insert]
  rfl

lemma Inv.pushed (h : Inv s) {f : ℕ} (hhost : Host s f inner) (cb : EntryCallback κ)
    (hfresh : Free s.attaches addr) : Inv (s.pushed f cb inner addr) where
  apart := h.apart.insert fun id b hb haddr => absurd haddr (hfresh.addr_ne hb)
  apart_internal := h.apart_internal.insert hhost.apart
  id id b hb := by
    rcases lookup_insert_eq_some_iff.mp hb with ⟨rfl, rfl⟩ | ⟨-, hb'⟩
    · exact ⟨rfl, Int.lt_succ _⟩
    · exact ⟨(h.id id b hb').1, (h.id id b hb').2.trans (Int.lt_succ _)⟩
  listed id b hb := by
    rcases lookup_insert_eq_some_iff.mp hb with ⟨rfl, rfl⟩ | ⟨-, hb'⟩
    · exact ⟨_, lookup_insert _, rfl, by simp⟩
    · rcases eq_or_ne b.val.function f with hfun | hne
      · obtain ⟨hptr, hmem⟩ := hhost.listed id b hb' hfun
        refine ⟨_, lookup_insert_eq_some_iff.mpr (Or.inl ⟨hfun, rfl⟩), hptr, ?_⟩
        exact mem_append_left _ hmem
      · obtain ⟨e, he, hptr, hmem⟩ := h.listed id b hb'
        exact ⟨e, lookup_insert_eq_some_iff.mpr (Or.inr ⟨hne, he⟩), hptr, hmem⟩
  function g e he := by
    rcases lookup_insert_eq_some_iff.mp he with ⟨rfl, rfl⟩ | ⟨-, he'⟩
    · exact ⟨hhost.function, hhost.ne_zero⟩
    · exact h.function g e he'
  nodup g e he := by
    rcases lookup_insert_eq_some_iff.mp he with ⟨rfl, rfl⟩ | ⟨-, he'⟩
    · refine nodup_append.mpr ⟨hhost.nodup, nodup_singleton _, ?_⟩
      rintro a ha _ ha' rfl
      obtain ⟨id, v, hb, -⟩ := hhost.live a ha
      exact hfresh.addr_ne hb (mem_singleton.mp ha')
    · exact h.nodup g e he'
  ne_nil g e he := by
    rcases lookup_insert_eq_some_iff.mp he with ⟨rfl, rfl⟩ | ⟨-, he'⟩
    · simp
    · exact h.ne_nil g e he'
  live g e a he ha := by
    -- The entries that were there still are.
    have hkeep : ∀ g', (∃ id v, s.attaches.lookup id = some ⟨a, v⟩ ∧ v.function = g') →
        ∃ id v, (s.pushed f cb inner addr).attaches.lookup id = some ⟨a, v⟩ ∧ v.function = g' := by
      rintro g' ⟨id, v, hb, hv⟩
      have hne : id ≠ s.next_id := by
        rintro rfl
        exact absurd (h.id _ _ hb).2 (lt_irrefl _)
      exact ⟨id, v, lookup_insert_eq_some_iff.mpr (Or.inr ⟨hne, hb⟩), hv⟩
    rcases lookup_insert_eq_some_iff.mp he with ⟨rfl, rfl⟩ | ⟨-, he'⟩
    · rcases mem_append.mp ha with hold | hnew
      · exact hkeep g (hhost.live a hold)
      · obtain rfl := mem_singleton.mp hnew
        exact ⟨_, _, lookup_insert _, rfl⟩
    · exact hkeep g (h.live g e a he' ha)

lemma Inv.onlyAt_pushed (h : Inv s) (f : ℕ) (cb : EntryCallback κ)
    (inner : Owned InternalAttachEntry) (addr : ℕ) :
    OnlyAt s (s.pushed f cb inner addr) (some f) := by
  refine ⟨fun g hg => lookup_insert_ne hg, fun id b hb => ?_⟩
  constructor
  · intro hlookup
    rcases lookup_insert_eq_some_iff.mp hlookup with ⟨rfl, rfl⟩ | ⟨-, hlookup'⟩
    · exact absurd rfl hb
    · exact hlookup'
  · intro hlookup
    have hne : id ≠ s.next_id := by
      rintro rfl
      exact absurd (h.id _ _ hlookup).2 (lt_irrefl _)
    exact lookup_insert_eq_some_iff.mpr (Or.inr ⟨hne, hlookup⟩)

lemma onlyAt_self (s : Impl κ) (f : Option ℕ) : OnlyAt s s f := by
  cases f with
  | none => rfl
  | some f => exact ⟨fun g _ => rfl, fun id b _ => Iff.rfl⟩

lemma Inv.attachAt (h : Inv s) {f inner_addr : ℕ} {cb : EntryCallback κ} {err : ℤ}
    (hfresh : FreshAddr s (.attach f cb err addr inner_addr)) :
    ∃ r s', s.attachAt f cb err addr inner_addr = some (r, s') ∧ Inv s' ∧ OnlyAt s s' (some f) := by
  obtain ⟨hleft, hentry, hinternal⟩ := hfresh
  unfold Impl.attachAt
  by_cases hzero : f = 0
  · rw [if_pos hzero]
    exact ⟨_, s, rfl, h, onlyAt_self s _⟩
  · rw [if_neg hzero]
    cases hlookup : s.internal_attaches.lookup f with
    | none =>
      dsimp only
      split_ifs with hthrows
      · exact ⟨_, s, rfl, h, onlyAt_self s _⟩
      · exact ⟨_, _, h.pushAttach_eq hleft f cb _ addr,
          h.pushed (h.host_new hzero hlookup hinternal) cb hentry, h.onlyAt_pushed f cb _ addr⟩
    | some inner =>
      obtain ⟨has_override, hhas⟩ := h.hasOverride_isSome hlookup
      dsimp only
      rw [hhas, bind_eq_bind, bind_some]
      split_ifs with hover
      · exact ⟨_, s, rfl, h, onlyAt_self s _⟩
      · exact ⟨_, _, h.pushAttach_eq hleft f cb inner addr, h.pushed (h.host hlookup) cb hentry,
          h.onlyAt_pushed f cb inner addr⟩

/-! ## Detaching -/

/-- The state once some attach entries on one function are taken out, with what is left of its
internal entry. -/
structure TakenOut (s s' : Impl κ) (f : ℕ) (out : ℕ → Prop) : Prop where
  next_id : s'.next_id = s.next_id
  attaches : ∀ id b, s'.attaches.lookup id = some b ↔ s.attaches.lookup id = some b ∧ ¬out b.addr
  other : ∀ g, g ≠ f → s'.internal_attaches.lookup g = s.internal_attaches.lookup g
  out_mem : ∀ a, out a → ∃ e, s.internal_attaches.lookup f = some e ∧ a ∈ e.val.user_attaches
  /-- The internal entry lists the entries that are left. -/
  self : ∀ e', s'.internal_attaches.lookup f = some e' → ∃ e, s.internal_attaches.lookup f =
    some e ∧ e'.addr = e.addr ∧ e'.val.function = e.val.function ∧ e'.val.user_attaches ≠ [] ∧
    e'.val.user_attaches.Sublist e.val.user_attaches ∧ ∀ a ∈ e'.val.user_attaches, ¬out a
  /-- It is there if entries are left. -/
  left : ∀ e a, s.internal_attaches.lookup f = some e → a ∈ e.val.user_attaches → ¬out a →
    ∃ e', s'.internal_attaches.lookup f = some e' ∧ a ∈ e'.val.user_attaches

variable {s' : Impl κ} {f : ℕ} {out : ℕ → Prop}

lemma TakenOut.internal (ht : TakenOut s s' f out) (h : Inv s) {g : ℕ}
    {e' : Owned InternalAttachEntry} (he' : s'.internal_attaches.lookup g = some e') :
    ∃ e, s.internal_attaches.lookup g = some e ∧ e'.addr = e.addr ∧
    e'.val.function = e.val.function ∧ e'.val.user_attaches ≠ [] ∧
    e'.val.user_attaches.Sublist e.val.user_attaches ∧ ∀ a ∈ e'.val.user_attaches, ¬out a := by
  rcases eq_or_ne g f with rfl | hne
  · exact ht.self e' he'
  · have he := ht.other g hne ▸ he'
    refine ⟨e', he, rfl, rfl, h.ne_nil g e' he, Sublist.refl _, fun a ha hout => hne ?_⟩
    -- An entry that is taken out is on the one function only.
    obtain ⟨e, hef, haf⟩ := ht.out_mem a hout
    obtain ⟨id, v, hb, rfl⟩ := h.live g e' a he ha
    obtain ⟨id', v', hb', rfl⟩ := h.live f e a hef haf
    obtain rfl := h.apart id id' _ _ hb hb' rfl
    cases hb.symm.trans hb'
    rfl

section

variable (h : Inv s) (ht : TakenOut s s' f out)
include h ht

lemma Inv.takenOut : Inv s' where
  apart id id' b b' hb hb' :=
    h.apart id id' b b' ((ht.attaches id b).mp hb).1 ((ht.attaches id' b').mp hb').1
  apart_internal g g' e e' he he' haddr := by
    obtain ⟨e1, he1, haddr1, -⟩ := ht.internal h he
    obtain ⟨e2, he2, haddr2, -⟩ := ht.internal h he'
    exact h.apart_internal g g' e1 e2 he1 he2 (haddr1.symm.trans (haddr.trans haddr2))
  id id b hb := by
    rw [ht.next_id]
    exact h.id id b ((ht.attaches id b).mp hb).1
  listed id b hb := by
    obtain ⟨hb, hstays⟩ := (ht.attaches id b).mp hb
    obtain ⟨e, he, hptr, hmem⟩ := h.listed id b hb
    rcases eq_or_ne b.val.function f with hfun | hne
    · rw [hfun] at he ⊢
      obtain ⟨e', he', hmem'⟩ := ht.left e b.addr he hmem hstays
      obtain ⟨e1, he1, haddr, -⟩ := ht.self e' he'
      cases he.symm.trans he1
      exact ⟨e', he', hptr.trans haddr.symm, hmem'⟩
    · exact ⟨e, (ht.other _ hne).trans he, hptr, hmem⟩
  function g e' he' := by
    obtain ⟨e, he, -, hfun, -⟩ := ht.internal h he'
    rw [hfun]
    exact h.function g e he
  nodup g e' he' := by
    obtain ⟨e, he, -, -, -, hsub, -⟩ := ht.internal h he'
    exact (h.nodup g e he).sublist hsub
  ne_nil g e' he' := by
    obtain ⟨e, he, -, -, hne, -⟩ := ht.internal h he'
    exact hne
  live g e' a he' ha := by
    obtain ⟨e, he, -, -, -, hsub, hstay⟩ := ht.internal h he'
    obtain ⟨id, v, hb, hv⟩ := h.live g e a he (hsub.subset ha)
    exact ⟨id, v, (ht.attaches id _).mpr ⟨hb, hstay a ha⟩, hv⟩

lemma Inv.onlyAt_takenOut : OnlyAt s s' (some f) := by
  refine ⟨ht.other, fun id b hfun => ?_⟩
  obtain ⟨a, v⟩ := b
  rw [ht.attaches, and_iff_left_iff_imp]
  intro hb hout
  obtain ⟨e, he, ha⟩ := ht.out_mem _ hout
  obtain ⟨id', v', hb', hv⟩ := h.live f e a he ha
  obtain rfl := h.apart id id' _ _ hb hb' rfl
  cases hb.symm.trans hb'
  exact hfun hv

lemma Inv.inv_and_onlyAt : Inv s' ∧ OnlyAt s s' (some f) := ⟨h.takenOut ht, h.onlyAt_takenOut ht⟩

end

lemma Inv.takenOut_erase (h : Inv s) {id : ℤ} {ent : Owned (AttachEntry κ)}
    (hent : s.attaches.lookup id = some ent)
    (he : s.internal_attaches.lookup ent.val.function = some e) (hmem : ent.addr ∈ e.val.user_attaches)
    {internal_attaches : AList fun _ : ℕ => Owned InternalAttachEntry}
    (hother : ∀ g, g ≠ ent.val.function → internal_attaches.lookup g = s.internal_attaches.lookup g)
    (hself : internal_attaches.lookup ent.val.function = if e.val.user_attaches.filter (· ≠ ent.addr) = [] then none
    else some ⟨e.addr, { e.val with user_attaches := e.val.user_attaches.filter (· ≠ ent.addr) }⟩) :
    TakenOut s { s with attaches := s.attaches.erase id, internal_attaches } ent.val.function (· = ent.addr) where
  next_id := rfl
  attaches id' b := by
    rw [lookup_erase_eq_some_iff]
    constructor
    · rintro ⟨hne, hb⟩
      exact ⟨hb, fun haddr => hne (h.apart id' id b ent hb hent haddr)⟩
    · rintro ⟨hb, hne⟩
      refine ⟨?_, hb⟩
      rintro rfl
      cases hent.symm.trans hb
      exact hne rfl
  other := hother
  out_mem a ha := ⟨e, he, ha ▸ hmem⟩
  self e' he' := by
    rw [hself] at he'
    split_ifs at he' with hempty
    cases he'
    refine ⟨e, he, rfl, rfl, hempty, filter_sublist, fun a ha => ?_⟩
    simpa using (mem_filter.mp ha).2
  left e1 a he1 ha hne := by
    cases he.symm.trans he1
    have hfilter : a ∈ e.val.user_attaches.filter (· ≠ ent.addr) := mem_filter.mpr ⟨ha, by simpa using hne⟩
    rw [hself, if_neg (ne_nil_of_mem hfilter)]
    exact ⟨_, rfl, hfilter⟩

lemma Inv.detachById (h : Inv s) (id : ℤ) :
    ∃ r s', s.detachById id = some (r, s') ∧ Inv s' ∧ OnlyAt s s' (s.concerns (.detachById id)) := by
  have hconcerns : s.concerns (.detachById id) = (s.attaches.lookup id).map (·.val.function) := rfl
  unfold Impl.detachById
  rw [hconcerns]
  cases hent : s.attaches.lookup id with
  | none => exact ⟨_, s, rfl, h, rfl⟩
  | some ent =>
    obtain ⟨e, he, hptr, hmem⟩ := h.listed id ent hent
    obtain ⟨hfun, hzero⟩ := h.function _ e he
    have hfind : find s.internal_attaches ent.val.internal_attach = some (ent.val.function, e.val) := by
      rw [h.apart_internal.find_eq_some_iff, hptr]
      exact he
    dsimp only
    rw [hfind, bind_eq_bind, bind_some]
    refine ⟨_, _, rfl, ?_⟩
    refine h.inv_and_onlyAt (h.takenOut_erase hent he hmem (fun g hg => ?_) ?_)
    · dsimp only
      split_ifs
      · rw [hfun, lookup_erase_ne hg, lookup_insert_ne hg]
      · rw [lookup_insert_ne hg]
    · have hiff : (e.val.user_attaches.filter (· ≠ ent.addr) = [] ∧ e.val.function ≠ 0) ↔
          e.val.user_attaches.filter (· ≠ ent.addr) = [] :=
        and_iff_left (by rw [hfun]; exact hzero)
      simp only [hiff]
      split_ifs with hempty
      · rw [hfun, lookup_erase]
      · rw [lookup_insert, hptr]

lemma eraseEach_spec {m : AList fun _ : ℤ => Owned (AttachEntry κ)} (hapart : Apart m)
    (hid : ∀ id b, m.lookup id = some b → b.val.self_id = id) {as : List ℕ} (hnodup : as.Nodup)
    (hlive : ∀ a ∈ as, ∃ id v, m.lookup id = some ⟨a, v⟩) :
    ∃ m', eraseEach m as = some m' ∧ ∀ id b, m'.lookup id = some b ↔
    m.lookup id = some b ∧ b.addr ∉ as := by
  induction as generalizing m with
  | nil => exact ⟨m, rfl, fun id b => by simp⟩
  | cons a as ih =>
    obtain ⟨id, v, hb⟩ := hlive a (by simp)
    obtain ⟨hnotMem, hnodup'⟩ := nodup_cons.mp hnodup
    obtain rfl : v.self_id = id := hid id _ hb
    have hgone : ∀ id' b', (m.erase v.self_id).lookup id' = some b' ↔
        m.lookup id' = some b' ∧ b'.addr ≠ a := by
      intro id' b'
      rw [lookup_erase_eq_some_iff]
      constructor
      · rintro ⟨hne, hb'⟩
        exact ⟨hb', fun haddr => hne (hapart id' v.self_id b' _ hb' hb haddr)⟩
      · rintro ⟨hb', hne⟩
        refine ⟨?_, hb'⟩
        rintro rfl
        cases hb.symm.trans hb'
        exact hne rfl
    obtain ⟨m', heq, hm'⟩ := ih (hapart.erase v.self_id)
      (fun id' b' hb' => hid id' b' ((hgone id' b').mp hb').1) hnodup' (by
        intro a' ha'
        obtain ⟨id', v', hb'⟩ := hlive a' (by simp [ha'])
        refine ⟨id', v', (hgone id' _).mpr ⟨hb', ?_⟩⟩
        rintro rfl
        exact hnotMem ha')
    refine ⟨m', ?_, fun id' b' => ?_⟩
    · rw [eraseEach, hapart.find_eq_some_iff.mpr hb, bind_eq_bind, bind_some]
      exact heq
    · rw [hm', hgone, mem_cons, not_or, and_assoc]

lemma Inv.detachByFuncAddr (h : Inv s) (f : ℕ) :
    ∃ r s', s.detachByFuncAddr f = some (r, s') ∧ Inv s' ∧ OnlyAt s s' (some f) := by
  unfold Impl.detachByFuncAddr
  cases hinner : s.internal_attaches.lookup f with
  | none => exact ⟨_, s, rfl, h, onlyAt_self s _⟩
  | some inner =>
    obtain ⟨m', heq, hm'⟩ := eraseEach_spec h.apart (fun id b hb => (h.id id b hb).1)
      (h.nodup f inner hinner) fun a ha => by
        obtain ⟨id, v, hb, -⟩ := h.live f inner a hinner ha
        exact ⟨id, v, hb⟩
    dsimp only
    rw [heq, bind_eq_bind, bind_some]
    have ht : TakenOut s { s with
        attaches := m', internal_attaches := s.internal_attaches.erase f } f
        (· ∈ inner.val.user_attaches) := by
      refine ⟨rfl, hm', fun g hg => lookup_erase_ne hg, fun a ha => ⟨inner, hinner, ha⟩, ?_, ?_⟩
      · intro e' he'
        exact absurd rfl (lookup_erase_eq_some_iff.mp he').1
      · intro e a he ha hout
        cases hinner.symm.trans he
        exact absurd ha hout
    exact ⟨_, _, rfl, h.inv_and_onlyAt ht⟩

/-! ## Runs -/

lemma Inv.of_step (h : Inv s) (op : Op κ) (hfresh : FreshAddr s op) :
    ∃ r s', s.step op = some (r, s') ∧ Inv s' ∧ OnlyAt s s' (s.concerns op) := by
  cases op with
  | attach f cb err addr inner_addr => exact h.attachAt hfresh
  | detachById id => exact h.detachById id
  | detachByFuncAddr f => exact h.detachByFuncAddr f

lemma givenId_of_pushAttach {r : Reply} {f addr : ℕ} {cb : EntryCallback κ}
    {inner : Owned InternalAttachEntry} (hpush : s.pushAttach f cb inner addr = some (r, s')) :
    s.next_id ≤ s'.next_id ∧ ∀ id, givenId r = some id → id = s.next_id ∧ id < s'.next_id := by
  obtain ⟨⟨used_id, next_id⟩, hid, hpush⟩ := bind_eq_some_iff.mp hpush
  rw [allocateId, ite_none_right_eq_some] at hid
  cases hid.2
  obtain ⟨inserted, -, heq⟩ := bind_eq_some_iff.mp hpush
  cases heq
  refine ⟨(Int.lt_succ _).le, fun id hid => ?_⟩
  cases hid
  exact ⟨rfl, Int.lt_succ _⟩

lemma givenId_of_step {op : Op κ} {r : Reply} (hstep : s.step op = some (r, s')) :
    s.next_id ≤ s'.next_id ∧ ∀ id, givenId r = some id → id = s.next_id ∧ id < s'.next_id := by
  -- The other ends of the calls give out no id.
  have hother : givenId r = none → s'.next_id = s.next_id →
      s.next_id ≤ s'.next_id ∧ ∀ id, givenId r = some id → id = s.next_id ∧ id < s'.next_id := by
    intro hr hnext
    refine ⟨hnext.ge, fun id hid => ?_⟩
    rw [hr] at hid
    cases hid
  cases op with
  | attach f cb err addr inner_addr =>
    rw [step, attachAt] at hstep
    by_cases hzero : f = 0
    · rw [if_pos hzero] at hstep
      cases hstep
      exact hother rfl rfl
    · rw [if_neg hzero] at hstep
      cases hlookup : s.internal_attaches.lookup f with
      | none =>
        rw [hlookup] at hstep
        split_ifs at hstep with hthrows
        · cases hstep
          exact hother rfl rfl
        · exact givenId_of_pushAttach hstep
      | some inner =>
        rw [hlookup] at hstep
        obtain ⟨has_override, -, hstep'⟩ := bind_eq_some_iff.mp hstep
        split_ifs at hstep' with hover
        · cases hstep'
          exact hother rfl rfl
        · exact givenId_of_pushAttach hstep'
  | detachById id =>
    rw [step, detachById] at hstep
    cases hlookup : s.attaches.lookup id with
    | none =>
      rw [hlookup] at hstep
      cases hstep
      exact hother rfl rfl
    | some ent =>
      rw [hlookup] at hstep
      obtain ⟨p, -, hstep'⟩ := bind_eq_some_iff.mp hstep
      cases hstep'
      exact hother rfl rfl
  | detachByFuncAddr f =>
    rw [step, detachByFuncAddr] at hstep
    cases hlookup : s.internal_attaches.lookup f with
    | none =>
      rw [hlookup] at hstep
      cases hstep
      exact hother rfl rfl
    | some inner =>
      rw [hlookup] at hstep
      obtain ⟨attaches, -, hstep'⟩ := bind_eq_some_iff.mp hstep
      cases hstep'
      exact hother rfl rfl

lemma pairwise_givenId {ops : List (Op κ)} {rs : List Reply} (hrun : run step s ops = some (rs, s')) :
    (rs.filterMap givenId).Pairwise (· < ·) ∧ ∀ id ∈ rs.filterMap givenId, s.next_id ≤ id := by
  induction ops generalizing s rs with
  | nil =>
    cases hrun
    simp
  | cons op ops ih =>
    obtain ⟨r, s1, rs', hstep, hrun', rfl⟩ := run_cons_eq_some hrun
    obtain ⟨hpair, hge⟩ := ih hrun'
    obtain ⟨hle, hgiven⟩ := givenId_of_step hstep
    cases hr : givenId r with
    | none =>
      rw [filterMap_cons_none hr]
      exact ⟨hpair, fun id hid => hle.trans (hge id hid)⟩
    | some id =>
      obtain ⟨rfl, hlt⟩ := hgiven id hr
      rw [filterMap_cons_some hr]
      refine ⟨pairwise_cons.mpr ⟨fun id hid => hlt.trans_le (hge id hid), hpair⟩, ?_⟩
      intro id hid
      rcases mem_cons.mp hid with rfl | hid'
      · exact le_rfl
      · exact hle.trans (hge id hid')

lemma inv_of_run {ops : List (Op κ)} (hfresh : Along step FreshAddr (new : Impl κ) ops) :
    ∃ rs s, run step (new : Impl κ) ops = some (rs, s) ∧ Inv s := by
  refine run_invariant (fun s op h hC => ?_) inv_new hfresh
  obtain ⟨r, s', hstep, h', -⟩ := h.of_step op hC
  exact ⟨r, s', hstep, h'⟩

/-- After any calls the tables agree, no id was given out twice, and the next call changes entries
of the function that it concerns only. -/
theorem agree_of_run (ops : List (Op κ)) (hfresh : Along step FreshAddr (new : Impl κ) ops) :
    ∃ rs s, run step (new : Impl κ) ops = some (rs, s) ∧ Agree s ∧ (rs.filterMap givenId).Nodup ∧
      ∀ op, FreshAddr s op → ∃ r s', step s op = some (r, s') ∧ OnlyAt s s' (s.concerns op) := by
  obtain ⟨rs, s, hrun, h⟩ := inv_of_run hfresh
  refine ⟨rs, s, hrun, h.agree, ?_, fun op hC => ?_⟩
  · exact (pairwise_givenId hrun).1.imp ne_of_lt
  · obtain ⟨r, s', hstep, -, honly⟩ := h.of_step op hC
    exact ⟨r, s', hstep, honly⟩

/-- Two uprobes on one function, an attach on which Frida fails, and one uprobe detached. -/
theorem agree_of_run_uprobes : ∃ rs s, run step (new : Impl Unit) [.attach 100 (.direct .uprobe ()) 0 1 2,
        .attach 100 (.direct .uretprobe ()) 0 3 4, .attach 200 (.ebpf () 6) (-1) 5 6,
        .detachById 1] = some (rs, s) ∧ Agree s ∧ (rs.filterMap givenId).Nodup ∧
      ∀ op, FreshAddr s op → ∃ r s', step s op = some (r, s') ∧ OnlyAt s s' (s.concerns op) :=
  agree_of_run _ (by decide)

/-- A function is attached to and detached from, again and again. -/
def again (n : ℕ) : List (Op Unit) :=
  (replicate n [.attach 100 (.direct .uprobe ()) 0 1 2, .detachByFuncAddr 100]).flatten

lemma run_again (n : ℕ) (next_id : ℤ) (hle : next_id + n < 2^31) :
    ∃ rs, run step ⟨next_id, ∅, ∅⟩ (again n) = some (rs, ⟨next_id + n, ∅, ∅⟩) := by
  induction n generalizing next_id with
  | zero => exact ⟨[], by simp [again, run]⟩
  | succ n ih =>
    obtain ⟨rs, hrun⟩ := ih (next_id + 1) (by omega)
    have hround : run step ⟨next_id, ∅, ∅⟩ [.attach 100 (.direct .uprobe ()) 0 1 2, .detachByFuncAddr 100] =
        some ([.attached next_id, .ret 0], ⟨next_id + 1, ∅, ∅⟩) := by
      have hleft : next_id < 2147483647 := by omega
      simp [run, step, attachAt, pushAttach, allocateId, hleft, constructorThrows, emplace,
        detachByFuncAddr, eraseEach,
        find, -insert_empty]
      exact ⟨AList.ext (kerase_cons_eq rfl), rfl⟩
    have happend : run step ⟨next_id, ∅, ∅⟩ (again (n + 1)) =
        (run step ⟨next_id + 1, ∅, ∅⟩ (again n)).map _ :=
      Runs.run_append hround
    rw [hrun, map_some, add_assoc, add_comm 1] at happend
    exact ⟨_, by exact_mod_cast happend⟩

/-- With each id given out and its attach gone, the next attach overflows the counter. -/
theorem not_agree_of_run : ∃ ops rs s, run step (new : Impl Unit) ops = some (rs, s) ∧ s.attaches =
    ∅ ∧ s.internal_attaches = ∅ ∧ step s (.attach 100 (.direct .uprobe ()) 0 1 2) = none := by
  obtain ⟨rs, hrun⟩ := run_again (2^31 - 2) 1 (by norm_num)
  exact ⟨_, rs, _, hrun, rfl, rfl, rfl⟩

/-- What `detach_by_id` must do: it returns zero exactly for an attach that is live, which is gone
then, and else an error, and nothing is changed. -/
def DetachRight (s : Impl κ) (id : ℤ) : Prop :=
  ∃ n s', s.detachById id = some (.ret n, s') ∧ (n = 0 ↔ id ∈ s.attaches) ∧
    (n = 0 → s'.attaches = s.attaches.erase id) ∧ (n ≠ 0 → n < 0 ∧ s' = s)

/-- After any calls, `detach_by_id` does what it must do exactly for an attach that is live. -/
theorem detachRight_iff (ops : List (Op κ)) (hfresh : Along step FreshAddr (new : Impl κ) ops) :
    ∃ rs s, run step (new : Impl κ) ops = some (rs, s) ∧ ∀ id, DetachRight s id ↔ id ∈ s.attaches := by
  obtain ⟨rs, s, hrun, h⟩ := inv_of_run hfresh
  refine ⟨rs, s, hrun, fun id => ⟨?_, fun hid => ?_⟩⟩
  · rintro ⟨n, s', hdetach, hzero, -⟩
    by_contra hid
    -- The error is noted in `errno` only.
    rw [Impl.detachById, lookup_eq_none.mpr hid] at hdetach
    cases hdetach
    exact hid (hzero.mp rfl)
  · obtain ⟨ent, hent⟩ := isSome_iff_exists.mp (lookup_isSome.mpr hid)
    obtain ⟨r, s', hdetach, -⟩ := h.detachById id
    have hspec := hdetach
    rw [Impl.detachById, hent] at hspec
    obtain ⟨p, -, hspec⟩ := bind_eq_some_iff.mp hspec
    cases hspec
    exact ⟨0, _, hdetach, iff_of_true rfl hid, fun _ => rfl, fun h => absurd rfl h⟩

theorem detachRight_iff_uprobe : ∃ rs s, run step (new : Impl Unit)
      [.attach 100 (.direct .uprobe ()) 0 1 2, .attach 100 (.direct .uretprobe ()) 0 3 4] =
    some (rs, s) ∧ ∀ id, DetachRight s id ↔ id ∈ s.attaches := detachRight_iff _ (by decide)

/-- An id that was never given out is detached with success. -/
theorem not_detachRight_new : ¬DetachRight (new : Impl Unit) 1 := by
  rintro ⟨n, s', hdetach, hzero, -⟩
  cases hdetach
  exact absurd (hzero.mp rfl) (by decide)

end Impl

end Bpftime.Frida
