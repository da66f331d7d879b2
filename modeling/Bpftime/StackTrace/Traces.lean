import Bpftime.StackTrace.Model

/-!
# What a stack trace map holds

A trace that is put into an empty bucket is there afterwards, and one that is put into a bucket with
another trace is there afterwards if the other one is to be discarded, except that two traces of one
length count as equal (`fillRight_iff`).
-/

namespace Bpftime.StackTrace

open Bytes Runs Option List Function

namespace StackTraceMap

variable (hashStackTrace : Trace → UInt64) (m : StackTraceMap)

structure FillRight (stk : Trace) : Prop where
  /-- A trace that discards the old one is there afterwards. -/
  discard : ∃ id m', m.fillStackTrace hashStackTrace stk true false = some (id, m') ∧
    m'.elemLookup (some id) = .ok stk
  /-- Else a bucket keeps the trace that it has. -/
  keep : ∀ compare_only_by_hash, ∃ id m',
    m.fillStackTrace hashStackTrace stk false compare_only_by_hash = some (id, m') ∧
      m'.data id = some ((m.data id).getD stk)
  /-- The traces of other ids stay. -/
  others : ∀ discard_old_one compare_only_by_hash, ∃ id m',
    m.fillStackTrace hashStackTrace stk discard_old_one compare_only_by_hash = some (id, m') ∧
      ∀ id', id' ≠ id → m'.data id' = m.data id'

variable {hashStackTrace m} {stk : Trace} {old : Trace} {m' : StackTraceMap}

lemma equals_false_iff : equals stk old false = false ↔ old.length ≠ stk.length := by
  unfold equals
  cases h : old.length == stk.length
  · simpa using h
  · simpa using h

lemma fillStackTrace_others (hm : m.max_entries ≠ 0) (stk : Trace)
    (discard_old_one compare_only_by_hash : Bool) :
    ∃ m', m.fillStackTrace hashStackTrace stk discard_old_one compare_only_by_hash =
    some (m.bucket hashStackTrace stk, m') ∧ ∀ id, id ≠ m.bucket hashStackTrace stk → m'.data id =
    m.data id := by
  unfold fillStackTrace
  rw [if_neg hm]
  dsimp only
  have hupdate : ∀ id, id ≠ m.bucket hashStackTrace stk →
      update m.data (m.bucket hashStackTrace stk) (some stk) id = m.data id :=
    fun id hid => update_of_ne hid _ _
  cases m.data (m.bucket hashStackTrace stk) with
  | none => exact ⟨_, rfl, hupdate⟩
  | some old =>
    dsimp only
    split_ifs
    · exact ⟨m, rfl, fun _ _ => rfl⟩
    · exact ⟨_, rfl, hupdate⟩
    · exact ⟨m, rfl, fun _ _ => rfl⟩

lemma fillStackTrace_of_none (hm : m.max_entries ≠ 0)
    (hnone : m.data (m.bucket hashStackTrace stk) = none) (discard_old_one compare_only_by_hash : Bool) :
    m.fillStackTrace hashStackTrace stk discard_old_one compare_only_by_hash =
    some (m.bucket hashStackTrace stk,
    { m with data := update m.data (m.bucket hashStackTrace stk) (some stk) }) := by
  unfold fillStackTrace
  rw [if_neg hm]
  dsimp only
  rw [hnone]

lemma fillStackTrace_of_some (hm : m.max_entries ≠ 0)
    (hsome : m.data (m.bucket hashStackTrace stk) = some old) (discard_old_one compare_only_by_hash : Bool) :
    m.fillStackTrace hashStackTrace stk discard_old_one compare_only_by_hash =
    some (m.bucket hashStackTrace stk,
    if equals stk old compare_only_by_hash = false ∧ discard_old_one = true then
    { m with data := update m.data (m.bucket hashStackTrace stk) (some stk) }
        else m) := by
  unfold fillStackTrace
  rw [if_neg hm]
  dsimp only
  rw [hsome]
  dsimp only
  cases equals stk old compare_only_by_hash <;> cases discard_old_one <;> rfl

/-- Traces come back from a map exactly when the bucket does not hold another trace of the same
length. -/
theorem fillRight_iff (hm : m.max_entries ≠ 0) (stk : Trace) : FillRight hashStackTrace m stk ↔
      ∀ old, m.data (m.bucket hashStackTrace stk) = some old → old.length = stk.length → old = stk := by
  constructor
  · rintro ⟨⟨id, m', hfill, hlookup⟩, -, -⟩ old hold hlen
    have hequal : ¬(equals stk old false = false ∧ true = true) := by
      rw [equals_false_iff]
      exact fun h => h.1 hlen
    rw [fillStackTrace_of_some hm hold, if_neg hequal] at hfill
    cases hfill
    rw [elemLookup, hold] at hlookup
    exact Except.ok.inj hlookup
  · intro h
    refine ⟨?_, ?_, ?_⟩
    · cases hold : m.data (m.bucket hashStackTrace stk) with
      | none =>
        refine ⟨_, _, fillStackTrace_of_none hm hold _ _, ?_⟩
        rw [elemLookup]
        dsimp only
        rw [update_self]
      | some old =>
        refine ⟨_, _, fillStackTrace_of_some hm hold _ _, ?_⟩
        by_cases hlen : old.length = stk.length
        · -- The traces count as equal, and are.
          rw [if_neg fun hne => equals_false_iff.mp hne.1 hlen, elemLookup, hold]
          exact congrArg Except.ok (h old hold hlen)
        · rw [if_pos ⟨equals_false_iff.mpr hlen, rfl⟩, elemLookup]
          dsimp only
          rw [update_self]
    · intro compare_only_by_hash
      cases hold : m.data (m.bucket hashStackTrace stk) with
      | none =>
        refine ⟨_, _, fillStackTrace_of_none hm hold _ _, ?_⟩
        rw [hold]
        exact update_self _ _ _
      | some old =>
        refine ⟨_, _, fillStackTrace_of_some hm hold _ _, ?_⟩
        rw [if_neg (by simp), hold]
        rfl
    · intro discard_old_one compare_only_by_hash
      obtain ⟨m', hfill, hothers⟩ := fillStackTrace_others hm stk discard_old_one compare_only_by_hash
      exact ⟨_, m', hfill, hothers⟩

/-- A map with one bucket, and a trace in it. -/
def oneBucket : StackTraceMap := ⟨8, 1, update (fun _ => none) 0 (some [1])⟩

/-- A trace of another length takes the place of the one in the bucket. -/
theorem fillRight_oneBucket : FillRight (fun _ => 0) oneBucket [2, 3] := by
  refine (fillRight_iff (by decide) [2, 3]).mpr fun old hold hlen => ?_
  obtain rfl : [1] = old := some.inj hold
  exact absurd hlen (by decide)

/-- A trace of the same length does not. -/
theorem not_fillRight_oneBucket :
    (∃ m, create 4 8 1 = some m ∧ m.fillStackTrace (fun _ =>
      0) [1] true false = some (0, oneBucket)) ∧ ¬FillRight (fun _ => 0) oneBucket [2] := by
  refine ⟨⟨_, rfl, rfl⟩, fun h => ?_⟩
  obtain ⟨id, m', hfill, hlookup⟩ := h.discard
  cases hfill
  exact absurd hlookup (by decide)

/-! ## Lookups -/

/-- The bytes of a trace. -/
def traceBytes (stk : Trace) : List UInt8 := stk.flatMap fun frame => toLe 8 frame.toNat

@[simp] lemma length_traceBytes (stk : Trace) : (traceBytes stk).length = 8 * stk.length := by
  induction stk with
  | nil => rfl
  | cons frame stk ih =>
    unfold traceBytes at ih ⊢
    rw [flatMap_cons, length_append, ih, length_toLe, length_cons]
    omega

/-- Each trace fits in a value, and a lookup copies its bytes and zeros behind them. -/
def Bounded (m : StackTraceMap) : Prop :=
  ∀ id stk, m.data id = some stk → stk.length ≤ m.value_size / 8 ∧
    m.sysLookup id = some (.ok (traceBytes stk ++ List.replicate (m.value_size - 8 * stk.length) 0))

/-- A call of `bpftime_get_stackid`. -/
structure Call where
  flags : UInt64
  generated : Generated

def step (hashStackTrace : Trace → UInt64) (m : StackTraceMap) (call : Call) : Option (ℤ × StackTraceMap) :=
  m.getStackid hashStackTrace call.flags call.generated

/-- The trace of a call is kept: its bucket is empty, or the trace there is to be discarded and does
not count as equal. -/
def Kept (hashStackTrace : Trace → UInt64) (m : StackTraceMap) (flags : UInt64) (stk : Trace) : Prop :=
  ∀ old, m.data (m.bucket hashStackTrace stk) = some old →
    equals stk old (flags &&& bpfFFastStackCmp ≠ 0) = false ∧ flags &&& bpfFReuseStackid ≠ 0

/-- A call for the stack of the user that gets one finds buckets, and if its trace is kept it has
exactly the frames of a value. -/
def Fits (hashStackTrace : Trace → UInt64) (m : StackTraceMap) (call : Call) : Prop :=
  ∀ frames, call.flags &&& bpfFUserStack ≠ 0 → call.generated = .stack frames → m.max_entries ≠ 0 ∧
    (Kept hashStackTrace m call.flags (skipFrames call.flags frames) →
      (skipFrames call.flags frames).length = m.value_size / 8)

lemma bounded_iff_length (hvalue : m.value_size % 8 = 0) :
    Bounded m ↔ ∀ id stk, m.data id = some stk → stk.length = m.value_size / 8 := by
  have hlookup : ∀ id stk, m.data id = some stk →
      m.sysLookup id = (readRange (traceBytes stk) 0 m.value_size).map .ok := by
    intro id stk hstk
    have hfound : m.elemLookup (some id) = .ok stk := by
      unfold elemLookup
      dsimp only
      rw [hstk]
    unfold sysLookup
    rw [hfound]
    rfl
  constructor
  · intro h id stk hstk
    obtain ⟨hle, hread⟩ := h id stk hstk
    rw [hlookup id stk hstk] at hread
    obtain ⟨bytes, hbytes, -⟩ := map_eq_some_iff.mp hread
    -- The copy stays inside the trace.
    have hin : 0 + m.value_size ≤ (traceBytes stk).length := by
      unfold readRange at hbytes
      split_ifs at hbytes with hin
      exact hin
    rw [length_traceBytes] at hin
    omega
  · intro h id stk hstk
    have hlen := h id stk hstk
    refine ⟨hlen.le, ?_⟩
    have hsize : (traceBytes stk).length = m.value_size := by
      rw [length_traceBytes]
      omega
    rw [hlookup id stk hstk, ← length_traceBytes, hsize, Nat.sub_self, replicate_zero, append_nil]
    unfold readRange
    rw [if_pos (by omega), drop_zero, ← hsize, take_length, map_some]

lemma fillStackTrace_bounded_iff (hvalue : m.value_size % 8 = 0) (hm : Bounded m) (flags : UInt64)
    (stk : Trace) :
    (∃ id m', m.fillStackTrace hashStackTrace stk (flags &&& bpfFReuseStackid ≠ 0)
    (flags &&& bpfFFastStackCmp ≠ 0) = some (id, m') ∧ Bounded m') ↔
    m.max_entries ≠ 0 ∧ (Kept hashStackTrace m flags stk → stk.length = m.value_size / 8) := by
  by_cases hzero : m.max_entries = 0
  · refine iff_of_false ?_ fun h => h.1 hzero
    rintro ⟨id, m', hfill, -⟩
    rw [fillStackTrace, if_pos hzero] at hfill
    exact absurd hfill (by simp)
  · rw [and_iff_right hzero]
    have hold := (bounded_iff_length hvalue).mp hm
    -- With the trace in its bucket, the map is bounded when the trace is.
    have hupdate : Bounded { m with data := update m.data (m.bucket hashStackTrace stk) (some stk) } ↔
        stk.length = m.value_size / 8 := by
      have hvalue' : ({ m with data := update m.data (m.bucket hashStackTrace stk) (some stk) } :
          StackTraceMap).value_size % 8 = 0 := hvalue
      rw [bounded_iff_length hvalue']
      constructor
      · intro h
        exact h _ stk (update_self _ _ _)
      · intro h id stk' hstk'
        dsimp only at hstk' ⊢
        by_cases hid : id = m.bucket hashStackTrace stk
        · subst hid
          rw [update_self, some.injEq] at hstk'
          rw [← hstk']
          exact h
        · rw [update_of_ne hid] at hstk'
          exact hold id stk' hstk'
    cases hdata : m.data (m.bucket hashStackTrace stk) with
    | none =>
      have hkept : Kept hashStackTrace m flags stk := by
        intro old h
        rw [hdata] at h
        exact absurd h (by simp)
      rw [fillStackTrace_of_none hzero hdata, forall_prop_of_true hkept, ← hupdate]
      simp
    | some old =>
      rw [fillStackTrace_of_some hzero hdata]
      by_cases hkeep : equals stk old (flags &&& bpfFFastStackCmp ≠ 0) = false ∧
          decide (flags &&& bpfFReuseStackid ≠ 0) = true
      · have hkept : Kept hashStackTrace m flags stk := by
          intro old' h
          rw [hdata, some.injEq] at h
          rw [← h]
          exact ⟨hkeep.1, of_decide_eq_true hkeep.2⟩
        rw [if_pos hkeep, forall_prop_of_true hkept, ← hupdate]
        simp
      · rw [if_neg hkeep]
        refine iff_of_true ⟨_, m, rfl, hm⟩ fun hkept => absurd ?_ hkeep
        obtain ⟨hne, hreuse⟩ := hkept old hdata
        exact ⟨hne, decide_eq_true hreuse⟩

lemma step_bounded_iff (hvalue : m.value_size % 8 = 0) (hm : Bounded m) (call : Call) :
    (∃ r m', step hashStackTrace m call = some (r, m') ∧ Bounded m') ↔ Fits hashStackTrace m call := by
  obtain ⟨flags, generated⟩ := call
  unfold step getStackid Fits
  dsimp only
  by_cases hflags : flags &&& bpfFUserStack = 0
  · rw [if_pos hflags]
    exact iff_of_true ⟨_, m, rfl, hm⟩ fun frames hne => absurd hflags hne
  · rw [if_neg hflags]
    cases generated with
    | unregistered | failed => exact iff_of_true ⟨_, m, rfl, hm⟩ fun frames _ hgen => absurd hgen (by simp)
    | stack frames =>
      have hfill : (∃ id m', m.fillStackTrace hashStackTrace (skipFrames flags frames)
          (flags &&& bpfFReuseStackid ≠ 0) (flags &&& bpfFFastStackCmp ≠ 0) = some (id, m') ∧ Bounded m') ↔ _ :=
        fillStackTrace_bounded_iff hvalue hm flags (skipFrames flags frames)
      dsimp only
      constructor
      · rintro ⟨r, m', hr, hm'⟩ frames' - hgen
        obtain ⟨p, hp, hrp⟩ := map_eq_some_iff.mp hr
        cases hrp
        obtain rfl : frames = frames' := by cases hgen; rfl
        exact hfill.mp ⟨p.1, p.2, hp, hm'⟩
      · intro h
        obtain ⟨id, m', hp, hm'⟩ := hfill.mpr (h frames hflags rfl)
        refine ⟨id.toNat, m', ?_, hm'⟩
        rw [hp, map_some]

lemma value_size_of_fillStackTrace {discard_old_one compare_only_by_hash : Bool} {id : BitVec 32}
    (h : m.fillStackTrace hashStackTrace stk discard_old_one compare_only_by_hash = some (id, m')) :
    m'.value_size = m.value_size := by
  by_cases hzero : m.max_entries = 0
  · rw [fillStackTrace, if_pos hzero] at h
    exact absurd h (by simp)
  · cases hdata : m.data (m.bucket hashStackTrace stk) with
    | none =>
      rw [fillStackTrace_of_none hzero hdata] at h
      cases h
      rfl
    | some old =>
      rw [fillStackTrace_of_some hzero hdata] at h
      cases h
      split_ifs
      · rfl
      · rfl

lemma value_size_of_step {call : Call} {r : ℤ}
    (h : step hashStackTrace m call = some (r, m')) : m'.value_size = m.value_size := by
  unfold step getStackid at h
  split_ifs at h
  · cases h
    rfl
  · split at h
    · cases h
      rfl
    · cases h
      rfl
    · obtain ⟨p, hp, hrp⟩ := map_eq_some_iff.mp h
      cases hrp
      exact value_size_of_fillStackTrace hp

/-- Whatever stacks are collected, the map keeps traces that fit in a value, lookups stay inside
them and buckets are computed with a divisor other than zero, exactly as long as each call fits. -/
theorem bounded_iff {key_size value_size max_entries : UInt32}
    (hm : create key_size value_size max_entries = some m)
    (calls : List Call) :
    (∀ pre, pre <+: calls → ∃ rs m', run (step hashStackTrace) m pre = some (rs, m') ∧ Bounded m') ↔
      Along (step hashStackTrace) (Fits hashStackTrace) m calls := by
  have hcreated : m.value_size % 8 = 0 ∧ Bounded m := by
    unfold create at hm
    split_ifs at hm with h4 h8
    cases hm
    refine ⟨?_, fun id stk hstk => absurd hstk (by simp)⟩
    have hmod := congrArg UInt32.toNat (not_not.mp h8)
    simpa using hmod
  refine forall_prefix_runs_iff_along (I := fun m => m.value_size % 8 = 0) (D := fun _ _ => True)
    (fun m call r m' hvalue _ hstep => ?_) (fun m call hvalue hb _ => step_bounded_iff hvalue hb call)
    hcreated.1 hcreated.2 (along_of_forall_mem fun _ _ _ => trivial)
  rw [value_size_of_step hstep]
  exact hvalue

/-- Two stacks of two frames in a map for two frames. -/
theorem bounded_two_frames : ∃ m, create 4 16 1 = some m ∧
    ∀ pre, pre <+: [(⟨0x100, .stack [1, 2]⟩ : Call), ⟨0x100, .stack [3, 4]⟩] →
      ∃ rs m', run (step fun _ => 0) m pre = some (rs, m') ∧ Bounded m' := by
  have hcreate : create 4 16 1 = some ⟨16, 1, fun _ => none⟩ := rfl
  refine ⟨_, hcreate, (bounded_iff hcreate _).mpr ⟨fun frames _ hgen => ?_, fun r m' hstep =>
    ⟨fun frames _ hgen => ?_, fun _ _ _ => trivial⟩⟩⟩
  · obtain rfl : [1, 2] = frames := by cases hgen; rfl
    exact ⟨by decide, fun _ => by decide⟩
  · cases hstep
    obtain rfl : [3, 4] = frames := by cases hgen; rfl
    exact ⟨by decide, fun _ => by decide⟩

/-- A stack of one frame in a map for two: a lookup reads behind its trace. -/
theorem not_bounded_one_frame : ¬∀ m, create 4 16 1 = some m → ∀ pre, pre <+:
    [(⟨0x100, .stack [1]⟩ : Call)] →
      ∃ rs m', run (step fun _ => 0) m pre = some (rs, m') ∧ Bounded m' := by
  intro h
  obtain ⟨rs, m', hrun, hbounded⟩ := h _ rfl _ (prefix_refl _)
  cases hrun
  have hlookup := (hbounded 0 [1] rfl).2
  exact absurd hlookup (by decide)

end StackTraceMap

end Bpftime.StackTrace
