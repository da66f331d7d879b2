import Bpftime.SyscallTrace.Model
import Bpftime.Lib.Runs

/-!
# A dispatch runs the live callbacks

What is attached is a list of attachments: an attach that is accepted adds one under a new id, a
detach removes the one of its id.
-/

namespace Bpftime.SyscallTrace

open Option List Finset Impl
open Runs (run answers Along)

variable {κ W : Type}

structure Registry (κ : Type) where
  next_id : ℤ
  live : List (Attachment κ)

namespace Registry

def new : Registry κ := ⟨1, []⟩

/-- A call adds an attachment under a new id, or removes that of an id, or is refused. -/
def step (r : Registry κ) : Impl.Op κ → Except Errno ℤ × Registry κ
  | .attach cb private_data attach_type _ =>
    if attach_type ≠ attachSyscallTrace then (.error .ENOTSUP, r)
    else
      match private_data with
      | none => (.error .EINVAL, r)
      | some (sys_nr, is_enter) =>
        if -1 ≤ sys_nr ∧ sys_nr < callbackSlots then
          (.ok r.next_id, ⟨r.next_id + 1, ⟨r.next_id, cb, sys_nr, is_enter⟩ :: r.live⟩)
        else (.error .EINVAL, r)
  | .detach id =>
    if ∃ a ∈ r.live, a.id = id then (.ok 0, { r with live := r.live.filter (·.id ≠ id) })
    else (.error .ENOENT, r)

def on (r : Registry κ) (is_enter : Bool) (sys_nr : ℤ) : List (Attachment κ) :=
  r.live.filter fun a => a.ent.is_enter = is_enter ∧ a.ent.sys_nr = sys_nr

end Registry

/-! ## The sets of callbacks -/

namespace Impl

variable {s : Impl κ} {r : Registry κ} {n : ℤ} {addr : ℕ}

lemma callbacks_modifyCallbacks {b b' : Bool} {n' : ℤ} (f : Finset ℕ → Finset ℕ) (hn : -1 ≤ n)
    (hn' : -1 ≤ n') :
    (s.modifyCallbacks b n f).callbacks b' n' = if b' = b ∧ n' =
    n then f (s.callbacks b n) else s.callbacks b' n' := by
  -- Only numbers of system calls are indices of the arrays.
  have hindex : n ≠ -1 → n' ≠ -1 → (n'.toNat = n.toNat ↔ n' = n) := by omega
  unfold callbacks modifyCallbacks
  by_cases hglobal : n = -1 <;> by_cases hglobal' : n' = -1 <;> cases b <;> cases b' <;>
    simp_all [Function.update_apply, eq_comm]

@[simp] lemma modifyCallbacks_next_id (b : Bool) (n : ℤ) (f : Finset ℕ → Finset ℕ) :
    (s.modifyCallbacks b n f).next_id = s.next_id := by
  unfold modifyCallbacks
  split_ifs <;> rfl

@[simp] lemma modifyCallbacks_attach_entries (b : Bool) (n : ℤ) (f : Finset ℕ → Finset ℕ) :
    (s.modifyCallbacks b n f).attach_entries = s.attach_entries := by
  unfold modifyCallbacks
  split_ifs <;> rfl

structure Rel (s : Impl κ) (r : Registry κ) : Prop where
  next_id_eq : s.next_id = r.next_id
  live_iff : ∀ id ent, ⟨id, ent⟩ ∈ r.live ↔ ∃ addr, s.attach_entries.lookup id = some ⟨addr, ent⟩
  nodup : r.live.Nodup
  below : ∀ id b, s.attach_entries.lookup id = some b → id < s.next_id
  range : ∀ id b, s.attach_entries.lookup id = some b → -1 ≤ b.ent.sys_nr
  apart : ∀ id id' b b', s.attach_entries.lookup id = some b →
    s.attach_entries.lookup id' = some b' → b.addr = b'.addr → id = id'
  sets : ∀ is_enter n addr, -1 ≤ n → (addr ∈ s.callbacks is_enter n ↔
    ∃ id ent, s.attach_entries.lookup id = some ⟨addr, ent⟩ ∧ ent.is_enter = is_enter ∧ ent.sys_nr = n)

lemma rel_new : Rel (new : Impl κ) Registry.new := by
  have hnone : ∀ id, (new : Impl κ).attach_entries.lookup id = none := fun id => rfl
  refine ⟨rfl, ?_, nodup_nil, ?_, ?_, ?_, ?_⟩
  · simp [Registry.new, hnone]
  · simp [hnone]
  · simp [hnone]
  · simp [hnone]
  · intro is_enter n addr _
    simp only [callbacks, new]
    split_ifs <;> simp

/-- An id is left for an attach, and the allocator picks no address of an owned entry. -/
def FreshAddr (s : Impl κ) : Op κ → Prop
  | .attach _ _ _ addr => s.next_id < 2^31 - 1 ∧ ∀ e ∈ s.attach_entries.entries, e.2.addr ≠ addr
  | .detach _ => True

instance : ∀ (s : Impl κ) (op : Op κ), Decidable (FreshAddr s op)
  | s, .attach _ _ _ _ => inferInstanceAs (Decidable (_ ∧ ∀ e ∈ s.attach_entries.entries, _))
  | _, .detach _ => inferInstanceAs (Decidable True)

variable {id : ℤ}

lemma mem_entries_iff {b : Boxed κ} : (⟨id, b⟩ : Sigma fun _ : ℤ => Boxed κ) ∈ s.attach_entries.entries ↔
      s.attach_entries.lookup id = some b := AList.mem_lookup_iff.symm

lemma Rel.attach (h : Rel s r) {cb : κ} {is_enter : Bool} (hn : -1 ≤ n)
    (hfresh : ∀ e ∈ s.attach_entries.entries, e.2.addr ≠ addr) : Rel (({ s with
        next_id := s.next_id + 1
        attach_entries := s.attach_entries.insert s.next_id ⟨addr, ⟨cb, n, is_enter⟩⟩ } :
          Impl κ).modifyCallbacks is_enter n (insert addr))
      ⟨r.next_id + 1, ⟨r.next_id, cb, n, is_enter⟩ :: r.live⟩ := by
  have hnew : ∀ b, s.attach_entries.lookup s.next_id = some b → False := fun b hb =>
    absurd (h.below _ _ hb) (lt_irrefl _)
  have hfresh' : ∀ id ent, s.attach_entries.lookup id = some ⟨addr, ent⟩ → False := fun id ent hb =>
    hfresh _ (mem_entries_iff.mpr hb) rfl
  -- What is found in the table afterwards.
  have hlookup : ∀ id b, (s.attach_entries.insert s.next_id ⟨addr, ⟨cb, n, is_enter⟩⟩).lookup id = some b ↔
      (id = s.next_id ∧ b = ⟨addr, ⟨cb, n, is_enter⟩⟩) ∨ s.attach_entries.lookup id = some b := by
    intro id b
    by_cases hid : id = s.next_id
    · subst hid
      rw [AList.lookup_insert]
      constructor
      · intro hb
        exact .inl ⟨rfl, (some.inj hb).symm⟩
      · rintro (⟨-, rfl⟩ | hb)
        · rfl
        · exact (hnew b hb).elim
    · rw [AList.lookup_insert_ne hid]
      simp [hid]
  refine ⟨?_, ?_, ?_, ?_, ?_, ?_, ?_⟩
  · rw [modifyCallbacks_next_id, h.next_id_eq]
  · intro id ent
    rw [modifyCallbacks_attach_entries]
    simp only [List.mem_cons, h.live_iff, hlookup, Attachment.mk.injEq, Boxed.mk.injEq]
    constructor
    · rintro (⟨rfl, rfl⟩ | ⟨addr', hb⟩)
      · exact ⟨addr, .inl ⟨h.next_id_eq.symm, rfl, rfl⟩⟩
      · exact ⟨addr', .inr hb⟩
    · rintro ⟨addr', ⟨rfl, rfl, rfl⟩ | hb⟩
      · exact .inl ⟨h.next_id_eq, rfl⟩
      · exact .inr ⟨addr', hb⟩
  · refine nodup_cons.mpr ⟨fun hmem => ?_, h.nodup⟩
    obtain ⟨addr', hb⟩ := (h.live_iff _ _).mp hmem
    exact hnew _ (h.next_id_eq ▸ hb)
  · intro id b hb
    rw [modifyCallbacks_attach_entries, hlookup] at hb
    rw [modifyCallbacks_next_id]
    show id < s.next_id + 1
    rcases hb with ⟨rfl, -⟩ | hb
    · omega
    · have := h.below id b hb
      omega
  · intro id b hb
    rw [modifyCallbacks_attach_entries, hlookup] at hb
    rcases hb with ⟨-, rfl⟩ | hb
    · exact hn
    · exact h.range id b hb
  · intro id id' b b' hb hb' haddr
    rw [modifyCallbacks_attach_entries, hlookup] at hb hb'
    rcases hb with ⟨rfl, rfl⟩ | hb <;> rcases hb' with ⟨rfl, rfl⟩ | hb'
    · rfl
    · exact (hfresh _ (mem_entries_iff.mpr hb') haddr.symm).elim
    · exact (hfresh _ (mem_entries_iff.mpr hb) haddr).elim
    · exact h.apart id id' b b' hb hb' haddr
  · intro is_enter' n' addr' hn'
    rw [callbacks_modifyCallbacks _ hn hn', modifyCallbacks_attach_entries]
    simp only [hlookup]
    have hsame : ∀ b m, ({ s with
        next_id := s.next_id + 1
        attach_entries := s.attach_entries.insert s.next_id ⟨addr, ⟨cb, n, is_enter⟩⟩ } :
          Impl κ).callbacks b m = s.callbacks b m := fun b m => rfl
    rw [hsame, hsame]
    split_ifs with hthis
    · obtain ⟨rfl, rfl⟩ := hthis
      rw [mem_insert, h.sets _ _ _ hn]
      constructor
      · rintro (rfl | ⟨id, ent, hb, hent⟩)
        · exact ⟨s.next_id, _, .inl ⟨rfl, rfl⟩, rfl, rfl⟩
        · exact ⟨id, ent, .inr hb, hent⟩
      · rintro ⟨id, ent, ⟨-, hb⟩ | hb, hent⟩
        · exact .inl (Boxed.mk.inj hb).1
        · exact .inr ⟨id, ent, hb, hent⟩
    · rw [h.sets _ _ _ hn']
      constructor
      · rintro ⟨id, ent, hb, hent⟩
        exact ⟨id, ent, .inr hb, hent⟩
      · rintro ⟨id, ent, ⟨-, hb⟩ | hb, rfl, rfl⟩
        · obtain ⟨rfl, rfl⟩ := Boxed.mk.inj hb
          exact (hthis ⟨rfl, rfl⟩).elim
        · exact ⟨id, ent, hb, rfl, rfl⟩

lemma Rel.detach (h : Rel s r) {ent : AttachEntry κ} (hid : s.attach_entries.lookup id = some ⟨addr, ent⟩) :
    Rel ({ s.modifyCallbacks ent.is_enter ent.sys_nr (erase · addr) with
        attach_entries := s.attach_entries.erase id } : Impl κ)
      { r with live := r.live.filter (·.id ≠ id) } := by
  have hlookup : ∀ id' b, (s.attach_entries.erase id).lookup id' = some b ↔
      id' ≠ id ∧ s.attach_entries.lookup id' = some b := by
    intro id' b
    by_cases heq : id' = id
    · subst heq
      simp
    · rw [AList.lookup_erase_ne heq]
      simp [heq]
  refine ⟨?_, ?_, ?_, ?_, ?_, ?_, ?_⟩
  · show (s.modifyCallbacks _ _ _).next_id = _
    rw [modifyCallbacks_next_id, h.next_id_eq]
  · intro id' ent'
    simp only [mem_filter, h.live_iff, hlookup, decide_eq_true_eq]
    tauto
  · exact h.nodup.filter _
  · intro id' b hb
    show id' < (s.modifyCallbacks _ _ _).next_id
    rw [modifyCallbacks_next_id]
    exact h.below id' b ((hlookup id' b).mp hb).2
  · intro id' b hb
    exact h.range id' b ((hlookup id' b).mp hb).2
  · intro id1 id2 b1 b2 hb1 hb2
    exact h.apart id1 id2 b1 b2 ((hlookup _ _).mp hb1).2 ((hlookup _ _).mp hb2).2
  · intro is_enter n addr' hn
    show addr' ∈ (s.modifyCallbacks _ _ _).callbacks _ _ ↔ _
    rw [callbacks_modifyCallbacks _ (h.range id _ hid) hn]
    simp only [hlookup]
    -- Another entry is not at the address that is erased.
    have hother : ∀ id' ent', s.attach_entries.lookup id' = some ⟨addr', ent'⟩ →
        (id' ≠ id ↔ addr' ≠ addr) := by
      intro id' ent' hb
      refine not_congr ⟨?_, fun haddr => h.apart id' id _ _ hb hid haddr⟩
      rintro rfl
      rw [hid, some.injEq] at hb
      exact (Boxed.mk.inj hb).1.symm
    split_ifs with hthis
    · obtain ⟨rfl, rfl⟩ := hthis
      rw [mem_erase, h.sets _ _ _ hn]
      constructor
      · rintro ⟨hne, id', ent', hb, hent⟩
        exact ⟨id', ent', ⟨(hother id' ent' hb).mpr hne, hb⟩, hent⟩
      · rintro ⟨id', ent', ⟨hne, hb⟩, hent⟩
        exact ⟨(hother id' ent' hb).mp hne, id', ent', hb, hent⟩
    · rw [h.sets _ _ _ hn]
      constructor
      · rintro ⟨id', ent', hb, rfl, rfl⟩
        refine ⟨id', ent', ⟨?_, hb⟩, rfl, rfl⟩
        rintro rfl
        rw [hid, some.injEq] at hb
        obtain ⟨-, rfl⟩ := Boxed.mk.inj hb
        exact hthis ⟨rfl, rfl⟩
      · rintro ⟨id', ent', ⟨-, hb⟩, hent⟩
        exact ⟨id', ent', hb, hent⟩

lemma Rel.step (h : Rel s r) {op : Op κ} (hfresh : FreshAddr s op) :
    ∃ s', s.step op = some ((r.step op).1, s') ∧ Rel s' (r.step op).2 := by
  cases op with
  | attach cb private_data attach_type addr =>
    unfold Impl.step createAttachWithEbpfCallback Registry.step
    dsimp only
    split_ifs with htype
    · exact ⟨s, rfl, h⟩
    · cases private_data with
      | none => exact ⟨s, rfl, h⟩
      | some data =>
        obtain ⟨n, is_enter⟩ := data
        dsimp only
        by_cases hn : -1 ≤ n ∧ n < callbackSlots
        · rw [if_neg (by omega), if_pos hn, allocateId, if_pos hfresh.1, ← h.next_id_eq]
          refine ⟨_, rfl, ?_⟩
          have hadded : Rel _ ⟨r.next_id + 1, ⟨r.next_id, cb, n, is_enter⟩ :: r.live⟩ :=
            h.attach hn.1 hfresh.2
          rwa [← h.next_id_eq] at hadded
        · rw [if_pos (by omega), if_neg hn]
          exact ⟨s, rfl, h⟩
  | detach id =>
    unfold Impl.step detachById Registry.step
    dsimp only
    cases hid : s.attach_entries.lookup id with
    | none =>
      rw [if_neg]
      · exact ⟨s, rfl, h⟩
      · rintro ⟨⟨id', ent⟩, hmem, rfl⟩
        obtain ⟨addr, hb⟩ := (h.live_iff _ _).mp hmem
        rw [hid] at hb
        cases hb
    | some b =>
      obtain ⟨addr, ent⟩ := b
      rw [if_pos ⟨⟨id, ent⟩, (h.live_iff _ _).mpr ⟨addr, hid⟩, rfl⟩]
      refine ⟨_, rfl, ?_⟩
      rw [modifyCallbacks_attach_entries]
      exact h.detach hid

lemma Rel.deref_eq_some_iff (h : Rel s r) {a : Attachment κ} :
    s.deref addr = some a ↔ s.attach_entries.lookup a.id = some ⟨addr, a.ent⟩ := by
  unfold deref
  constructor
  · intro hderef
    obtain ⟨⟨id, b⟩, hfind, rfl⟩ := map_eq_some_iff.mp hderef
    have haddr : b.addr = addr := by simpa using find?_some hfind
    have hb := mem_entries_iff.mp (mem_of_find?_eq_some hfind)
    rw [hb, ← haddr]
  · intro hb
    cases hfind : s.attach_entries.entries.find? fun e => e.2.addr = addr with
    | none =>
      have := find?_eq_none.mp hfind _ (mem_entries_iff.mpr hb)
      simp at this
    | some e =>
      obtain ⟨id, b⟩ := e
      have haddr : b.addr = addr := by simpa using find?_some hfind
      have hb' := mem_entries_iff.mp (mem_of_find?_eq_some hfind)
      -- No other entry is at the address.
      obtain rfl := h.apart _ _ _ _ hb' hb haddr
      rw [hb', some.injEq] at hb
      rw [hb]
      rfl

lemma Rel.deref_sort (h : Rel s r) (is_enter : Bool) (hn : -1 ≤ n) :
    ∃ as, Forall₂ (fun addr a => s.deref addr = some a)
        ((s.callbacks is_enter n).sort (· ≤ ·)) as ∧ as.Perm (r.on is_enter n) := by
  have hmem : ∀ addr, addr ∈ (s.callbacks is_enter n).sort (· ≤ ·) ↔
      ∃ a, s.deref addr = some a ∧ a.ent.is_enter = is_enter ∧ a.ent.sys_nr = n := by
    intro addr
    rw [mem_sort, h.sets _ _ _ hn]
    constructor
    · rintro ⟨id, ent, hb, hent⟩
      exact ⟨⟨id, ent⟩, h.deref_eq_some_iff.mpr hb, hent⟩
    · rintro ⟨a, ha, hent⟩
      exact ⟨a.id, a.ent, h.deref_eq_some_iff.mp ha, hent⟩
  refine ⟨((s.callbacks is_enter n).sort (· ≤ ·)).filterMap s.deref, ?_, ?_⟩
  · have hsome : ∀ addr ∈ (s.callbacks is_enter n).sort (· ≤ ·), ∃ a, s.deref addr = some a :=
      fun addr haddr => ((hmem addr).mp haddr).imp fun a ha => ha.1
    generalize (s.callbacks is_enter n).sort (· ≤ ·) = addrs at hsome
    induction addrs with
    | nil => exact .nil
    | cons addr addrs ih =>
      obtain ⟨a, ha⟩ := hsome addr (by simp)
      rw [filterMap_cons_some ha]
      exact .cons ha (ih fun addr' haddr' => hsome addr' (by simp [haddr']))
  · refine (perm_ext_iff_of_nodup ?_ (h.nodup.filter _)).mpr fun a => ?_
    · refine (sort_nodup _ _).filterMap fun addr addr' a ha ha' => ?_
      have hb := h.deref_eq_some_iff.mp ha
      rw [h.deref_eq_some_iff.mp ha', some.injEq] at hb
      exact (Boxed.mk.inj hb).1.symm
    · obtain ⟨id, ent⟩ := a
      rw [List.mem_filterMap, List.mem_filter, h.live_iff]
      simp only [hmem, decide_eq_true_eq]
      constructor
      · rintro ⟨addr, ⟨a', ha', hent⟩, ha⟩
        cases ha'.symm.trans ha
        exact ⟨⟨addr, h.deref_eq_some_iff.mp ha⟩, hent⟩
      · rintro ⟨⟨addr, hb⟩, hent⟩
        have ha : s.deref addr = some ⟨id, ent⟩ := h.deref_eq_some_iff.mpr hb
        exact ⟨addr, ⟨_, ha, hent⟩, ha⟩

/-- The callbacks of a list of attachments, one after the other: the values that they set as return
values, in order, and the world after them. -/
def callAll (env : Env κ W) (ctx : Ctx) : List (Attachment κ) → W → List (BitVec 64) × W
  | [], w => ([], w)
  | a :: as, w =>
    let ran := env.cb a.ent.cb ctx w
    let rest := callAll env ctx as ran.world
    (ran.overrides ++ rest.1, rest.2)

lemma foldl_setOverride (vs : List (BitVec 64)) (f : Frame W) : vs.foldl Frame.setOverride f = { f with
        is_overrided := f.is_overrided || !vs.isEmpty
        user_ret := vs.getLast?.getD f.user_ret } := by
  induction vs generalizing f with
  | nil => simp
  | cons v vs ih =>
    rw [foldl_cons, ih]
    simp [Frame.setOverride, getLast?_cons]

lemma foldl_call (env : Env κ W) (ctx : Ctx) (as : List (Attachment κ)) (f : Frame W) :
    as.foldl (call env ctx) f =
      { is_overrided := f.is_overrided || !(callAll env ctx as f.world).1.isEmpty
        user_ret := (callAll env ctx as f.world).1.getLast?.getD f.user_ret
        world := (callAll env ctx as f.world).2
        events := f.events ++ as.map fun a => .callback a.id ctx } := by
  induction as generalizing f with
  | nil => simp [callAll]
  | cons a as ih =>
    rw [foldl_cons, ih]
    have hempty : ∀ vs vs' : List (BitVec 64), (!vs.isEmpty || !vs'.isEmpty) = !(vs ++ vs').isEmpty := by
      intro vs vs'
      cases vs <;> cases vs' <;> rfl
    simp [callAll, call, foldl_setOverride, Bool.or_assoc, getLast?_append, getD_or, hempty]

lemma callEach_eq {env : Env κ W} {ctx : Ctx} {addrs : List ℕ} {as : List (Attachment κ)}
    (h : Forall₂ (fun addr a => s.deref addr = some a) addrs as) (f : Frame W) :
    s.callEach env ctx addrs f = some (as.foldl (call env ctx) f) := by
  induction h generalizing f with
  | nil => rfl
  | cons hderef _ ih =>
    rw [callEach, hderef, bind_eq_bind, bind_some, ih]
    rfl

lemma Rel.callPhase_eq (h : Rel s r) (env : Env κ W) (is_enter : Bool) (sys_nr : ℕ) :
    ∃ as : List (Attachment κ), as.Perm (r.on is_enter sys_nr ++ r.on is_enter (-1)) ∧
      ∀ ctx f, s.callPhase env is_enter sys_nr ctx f = some (as.foldl (call env ctx) f) := by
  obtain ⟨per_nr, hper, hperm⟩ := h.deref_sort is_enter (show (-1 : ℤ) ≤ sys_nr by omega)
  obtain ⟨globals, hglob, hperm'⟩ := h.deref_sort is_enter (le_refl (-1))
  refine ⟨per_nr ++ globals, hperm.append hperm', fun ctx f => ?_⟩
  unfold callPhase
  dsimp only
  split_ifs with hempty
  · rw [callEach_eq hper, bind_eq_bind, bind_some, callEach_eq hglob, foldl_append]
  · -- Both sets are empty, so that nothing is called.
    rw [not_or, not_nonempty_iff_eq_empty, not_nonempty_iff_eq_empty] at hempty
    rw [hempty.1, sort_empty] at hper
    rw [hempty.2, sort_empty] at hglob
    cases hper
    cases hglob
    rfl

end Impl

/-! ## Dispatching -/

/-- A dispatch that calls the callbacks `es` before and `xs` after the system call: the return
value, what happens and the world after it. -/
def dispatched (env : Env κ W) (es xs : List (Attachment κ)) (sys_nr : BitVec 64) (args : Args)
    (w : W) : BitVec 64 × List Event × W :=
  let entering := Ctx.sysEnter {} sys_nr args
  let entered := Impl.callAll env entering es w
  let before := es.map fun a => Event.callback a.id entering
  match entered.1.getLast? with
  | some v => (v, before, entered.2)
  | none =>
    let r := env.orig_syscall sys_nr args entered.2
    let exiting := Ctx.sysExit {} sys_nr r.1
    let exited := Impl.callAll env exiting xs r.2
    (exited.1.getLast?.getD r.1,
      before ++ [.syscall sys_nr args] ++ xs.map (fun a => Event.callback a.id exiting), exited.2)

lemma Impl.dispatchSyscall_eq {s : Impl κ} {env : Env κ W} {sys_nr : BitVec 64}
    {es xs : List (Attachment κ)} (hnr : sys_nr.toNat < callbackSlots) (hexit : sys_nr ≠ env.nr_exit)
    (hgroup : sys_nr ≠ env.nr_exit_group)
    (henter : ∀ ctx f, s.callPhase env true sys_nr.toNat ctx f = some (es.foldl (call env ctx) f))
    (hleave : ∀ ctx f, s.callPhase env false sys_nr.toNat ctx f = some (xs.foldl (call env ctx) f))
    (args : Args) (w : W) :
    ∃ f, s.dispatchSyscall env sys_nr args w = some ((dispatched env es xs sys_nr args w).1, f) ∧
      (f.events, f.world) = (dispatched env es xs sys_nr args w).2 := by
  unfold dispatchSyscall dispatched
  rw [if_neg (by tauto), if_neg (by omega), henter, bind_eq_bind, bind_some, foldl_call]
  dsimp only
  generalize callAll env (.sysEnter {} sys_nr args) es w = entered
  obtain ⟨overrides, w'⟩ := entered
  cases hlast : overrides.getLast? with
  | some v =>
    -- A callback set a return value, so that the system call is not made.
    have hne : overrides ≠ [] := by
      rintro rfl
      simp at hlast
    rw [if_pos (by simp [hne])]
    exact ⟨_, rfl, rfl⟩
  | none =>
    have hnil : overrides = [] := by simpa using hlast
    rw [if_neg (by simp [hnil]), hleave, bind_some, foldl_call]
    dsimp only
    generalize env.orig_syscall sys_nr args w' = made
    generalize callAll env (.sysExit {} sys_nr made.1) xs made.2 = exited
    obtain ⟨overrides', w''⟩ := exited
    cases hlast' : overrides'.getLast? with
    | some v =>
      have hne : overrides' ≠ [] := by
        rintro rfl
        simp at hlast'
      rw [if_pos (by simp [hne])]
      exact ⟨_, rfl, rfl⟩
    | none =>
      have hnil' : overrides' = [] := by simpa using hlast'
      rw [if_neg (by simp [hnil, hnil'])]
      exact ⟨_, rfl, rfl⟩

/-- An attach and its detach, again and again. -/
def again : ℕ → ℤ → List (Impl.Op Unit)
  | 0, _ => []
  | n + 1, id => .attach () (some (-1, true)) 2 100 :: .detach id :: again n (id + 1)

/-- No callback is attached. -/
def emptied (next_id : ℤ) : Impl Unit := ⟨next_id, ∅, ∅, fun _ => ∅, fun _ => ∅, ∅⟩

lemma run_again (n : ℕ) (id : ℤ) (hle : id + n < 2^31) :
    ∃ rs, run step (emptied id) (again n id) = some (rs, emptied (id + n)) := by
  induction n generalizing id with
  | zero => exact ⟨[], by simp [again, run]⟩
  | succ n ih =>
    obtain ⟨rs, hrun⟩ := ih (id + 1) (by omega)
    let entries : AList fun _ : ℤ => Boxed Unit := AList.insert id ⟨100, ⟨(), -1, true⟩⟩ ∅
    have hlookup : entries.lookup id = some ⟨100, ⟨(), -1, true⟩⟩ := AList.lookup_insert _
    have herase : entries.erase id = ∅ := AList.ext (kerase_cons_eq rfl)
    have hattach : step (emptied id) (.attach () (some (-1, true)) 2 100) =
        some (.ok id, ⟨id + 1, {100}, ∅, fun _ => ∅, fun _ => ∅, entries⟩) := by
      have hid : allocateId id = some (id, id + 1) := if_pos (by omega)
      simp only [step, createAttachWithEbpfCallback, emptied, hid]
      rfl
    have hdetach : step ⟨id + 1, {100}, ∅, fun _ => ∅, fun _ => ∅, entries⟩ (.detach id) =
        some (.ok 0, emptied (id + 1)) := by
      simp only [step, detachById, hlookup, modifyCallbacks_attach_entries, herase]
      rfl
    rw [again, Runs.run_cons hattach, Runs.run_cons hdetach, hrun]
    have hnext : id + 1 + n = id + (n + 1 : ℕ) := by omega
    rw [hnext]
    exact ⟨_, rfl⟩

/-- What a dispatch must do for any number: it stays in the tables, and for a number outside of them
the callbacks for all numbers run and the system call is made once. -/
def NumberRight (env : Env κ W) (s : Impl κ) (sys_nr : BitVec 64) (args : Args) (w : W) : Prop :=
  ∃ ret f, s.dispatchSyscall env sys_nr args w = some (ret, f) ∧ (callbackSlots ≤ sys_nr.toNat →
    f.events.count (.syscall sys_nr args) = 1 ∧ ∀ id b, s.attach_entries.lookup id = some b →
      b.ent.sys_nr = -1 → ∃ ctx, .callback id ctx ∈ f.events)

/-- After every history of calls, a dispatch does what it must do exactly for the numbers that are
indices of the tables, as those of the system calls that do not return are. -/
theorem numberRight_iff (env : Env κ W) (hexit : env.nr_exit.toNat < 512)
    (hgroup : env.nr_exit_group.toNat < 512) (ops : List (Impl.Op κ))
    (hfresh : Along step Impl.FreshAddr new ops) : ∃ rs s, run step new ops = some (rs, s) ∧
      ∀ sys_nr args w, NumberRight env s sys_nr args w ↔ sys_nr.toNat < 512 := by
  obtain ⟨s, hrun, hrel⟩ := Runs.run_refines (fun s r op h hop => h.step hop) rel_new hfresh
  refine ⟨_, s, hrun, fun sys_nr args w => ⟨?_, fun hnr => ?_⟩⟩
  · rintro ⟨ret, f, hdispatch, -⟩
    by_contra hnr
    have hreturns : ¬(sys_nr = env.nr_exit_group ∨ sys_nr = env.nr_exit) := by
      rintro (rfl | rfl)
      · exact hnr hgroup
      · exact hnr hexit
    rw [dispatchSyscall, if_neg hreturns, if_pos (show callbackSlots ≤ sys_nr.toNat from not_lt.mp hnr)] at hdispatch
    cases hdispatch
  · have hinside : ¬callbackSlots ≤ sys_nr.toNat := not_le.mpr hnr
    by_cases hreturns : sys_nr = env.nr_exit_group ∨ sys_nr = env.nr_exit
    · exact ⟨_, _, if_pos hreturns, fun h => absurd h hinside⟩
    · rw [not_or] at hreturns
      obtain ⟨es, -, henter⟩ := hrel.callPhase_eq env true sys_nr.toNat
      obtain ⟨xs, -, hleave⟩ := hrel.callPhase_eq env false sys_nr.toNat
      obtain ⟨f, hf, -⟩ := dispatchSyscall_eq hnr hreturns.2 hreturns.1 henter hleave args w
      exact ⟨_, f, hf, fun h => absurd h hinside⟩

/-- Callbacks that do nothing. -/
def quietEnv : Env Unit Unit := ⟨60, 231, fun _ ctx w => ⟨[], ctx, w⟩, fun _ _ w => (0, w)⟩

theorem numberRight_iff_global : ∃ rs s, run step new [.attach () (some (-1, true)) 2 100] =
      some (rs, s) ∧ ∀ sys_nr args w, NumberRight quietEnv s sys_nr args w ↔ sys_nr.toNat < 512 :=
  numberRight_iff quietEnv (by decide) (by decide) _ (by decide)

/-- With the number `-1` the tables are read behind their end. -/
theorem not_numberRight : ¬NumberRight quietEnv new (-1) (fun _ => 0) () := by
  rintro ⟨ret, f, hdispatch, -⟩
  cases hdispatch

end Bpftime.SyscallTrace
