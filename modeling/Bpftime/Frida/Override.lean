import Bpftime.Frida.Attach
import Bpftime.Lib.Runs

/-!
# The override handler

Frida calls `__bpftime_frida_attach_manager__override_handler` in place of a function with an
override.
-/

namespace Bpftime.Frida

open List Option
open Runs (run Along run_invariant)

abbrev Word := BitVec 64

/-- The part of a `frida_internal_attach_entry` that the handler uses. -/
structure HookEntry (κ : Type) where
  user_attaches : List (EntryCallback κ)
  is_overrided : Bool
  user_ret : Word
  user_ret_ctx : Word

/-- `run_filter_callback`: the callback that it runs. -/
def HookEntry.filterCallback {κ : Type} (e : HookEntry κ) : Option (EntryCallback κ) :=
  e.user_attaches.find? fun v => v.getType = attachUprobeOverride

inductive Phase where
  /-- The filter callback runs. It has called the function or not since it last set a value. -/
  | callback (called : Bool)
  /-- The function itself runs, on these arguments. -/
  | original (given : List Word)
deriving DecidableEq

/-- A call that has not returned, with the values that its callback has set. -/
structure Frame (φ : Type) where
  func : φ
  args : List Word
  sets : List Word
  phase : Phase
deriving DecidableEq

/-- A call that has returned: its arguments, the values that its callback set, the calls of the
function itself with what they returned, and what it returned. -/
structure Finished where
  args : List Word
  sets : List Word
  calls : List (List Word × Word)
  ret : Word
deriving DecidableEq

/-- A thread: the hook entries of the functions with an override, the calls that have not returned,
the innermost first, and those that have. -/
structure Hooked (φ κ : Type) where
  entry : φ → HookEntry κ
  /-- The entry that the callback in `curr_thread_override_return_callback` writes. -/
  curr : Option φ
  stack : List (Frame φ)
  finished : List Finished

inductive HookEvent (φ : Type) where
  /-- A function is called through the handler, by what runs innermost. -/
  | enter (func : φ) (args : List Word)
  /-- A traced system call is dispatched, which leaves `curr_thread_override_return_callback`
  empty. -/
  | traced
  /-- The innermost callback sets a return value, with `bpftime_override_return` or
  `bpftime_set_retval`. -/
  | set (ctx value : Word)
  /-- The innermost callback returns. The values stand where a sixth argument and those behind it
  would. -/
  | leave (rest : List Word)
  /-- The function itself, innermost, returns. -/
  | back (ret : Word)
deriving DecidableEq

namespace Hooked

variable {φ κ : Type} [DecidableEq φ]

def init (hooks : φ → List (EntryCallback κ)) : Hooked φ κ := ⟨fun f => ⟨hooks f, false, 0, 0⟩, none, [], []⟩

/-- The arguments that the function reads when the handler has passed five of them. -/
def forwarded (args rest : List Word) : List Word := (args.take 5 ++ rest).take args.length

/-- A frame while a function is called: its callback has then called that function. -/
def Frame.calling (func : φ) (f : Frame φ) : Frame φ :=
  match f.phase with
  | .callback called => { f with phase := .callback (called || f.func = func) }
  | .original _ => f

/-- What the thread does, with no result where it throws. -/
def step (s : Hooked φ κ) : HookEvent φ → Option (Unit × Hooked φ κ)
  | .enter func args =>
    match (s.entry func).filterCallback with
    | none => none
    | some _ => some ((), { s with
        entry := Function.update s.entry func { s.entry func with is_overrided := false }
        curr := some func
        stack := ⟨func, args, [], .callback false⟩ :: s.stack.map (Frame.calling func) })
  | .traced => some ((), { s with curr := none })
  | .set ctx value =>
    match s.stack with
    | ⟨func, args, sets, .callback called⟩ :: stack => s.curr.map fun g => ((), { s with
        entry := Function.update s.entry g { s.entry g with
          is_overrided := true, user_ret := value, user_ret_ctx := ctx }
        stack := ⟨func, args, sets ++ [value], .callback (called && g ≠ func)⟩ :: stack })
    | _ => some ((), s)
  | .leave rest =>
    match s.stack with
    | ⟨func, args, sets, .callback _⟩ :: stack =>
      if (s.entry func).is_overrided then some ((), { s with
        stack, finished := s.finished ++ [⟨args, sets, [], (s.entry func).user_ret⟩] })
      else some ((), { s with stack := ⟨func, args, sets, .original (forwarded args rest)⟩ :: stack })
    | _ => some ((), s)
  | .back ret =>
    match s.stack with
    | ⟨_, args, sets, .original given⟩ :: stack => some ((), { s with
        stack, finished := s.finished ++ [⟨args, sets, [(given, ret)], ret⟩] })
    | _ => some ((), s)

/-- A call did what it should: if its callback set no value, the function itself was called once,
with the same arguments, and its result was returned, and else it was not called, and the last value
was returned. -/
structure Right (c : Finished) : Prop where
  transparent : c.sets = [] → c.calls = [(c.args, c.ret)]
  overridden : ∀ v, c.sets.getLast? = some v → c.calls = [] ∧ c.ret = v

/-- What must hold when a callback sets a value: `curr_thread_override_return_callback` is that of
its function, so since it began no other function with an override was called last and no traced
system call dispatched. And when it returns: its function was not called since it last set a value,
and it set one or the function has no more than five arguments. -/
def Fits (s : Hooked φ κ) : HookEvent φ → Prop
  | .set _ _ => ∀ f ∈ s.stack.head?, s.curr = some f.func
  | .leave _ => ∀ f ∈ s.stack.head?, f.phase ≠ .callback true ∧
    (f.phase = .callback false → f.sets ≠ [] ∨ f.args.length ≤ 5)
  | _ => True

instance (s : Hooked φ κ) (ev : HookEvent φ) : Decidable (Fits s ev) := by
  cases ev <;> unfold Fits <;> infer_instance

/-! ## The invariant -/

/-- The hook entry says what a callback has set, if its function was not called since. -/
def Noted (e : HookEntry κ) (f : Frame φ) : Prop :=
  f.phase = .callback false → (f.sets = [] → e.is_overrided = false) ∧
    ∀ v, f.sets.getLast? = some v → e.is_overrided = true ∧ e.user_ret = v

/-- The function itself runs on the arguments of the call, whose callback set nothing. -/
def Passed (f : Frame φ) : Prop := ∀ given, f.phase = .original given → f.sets = [] ∧ given = f.args

structure Inv (s : Hooked φ κ) : Prop where
  filter : ∀ f, ∃ cb, (s.entry f).filterCallback = some cb
  noted : ∀ f ∈ s.stack, Noted (s.entry f.func) f
  /-- The callback of a call under another call of its function has called the function. -/
  calling : s.stack.Pairwise fun g f => f.func = g.func → f.phase ≠ .callback false
  passed : ∀ f ∈ s.stack, Passed f
  right : ∀ c ∈ s.finished, Right c

variable {s : Hooked φ κ}

lemma forwarded_of_le {args : List Word} (h : args.length ≤ 5) (rest : List Word) :
    forwarded args rest = args := by
  rw [forwarded, take_of_length_le h, take_left']
  rfl

/-- A frame that has not called its function is as before the call, which is of another function. -/
lemma calling_eq {func : φ} {f : Frame φ} (h : (Frame.calling func f).phase = .callback false) :
    Frame.calling func f = f ∧ f.func ≠ func := by
  obtain ⟨g, args, sets, called | given⟩ := f
  · simp only [Frame.calling, Phase.callback.injEq, Bool.or_eq_false_iff, decide_eq_false_iff_not] at h
    simp [Frame.calling, h]
  · simp [Frame.calling] at h

lemma func_calling (func : φ) (f : Frame φ) : (Frame.calling func f).func = f.func := by
  unfold Frame.calling
  split <;> rfl

lemma Passed.calling {func : φ} {f : Frame φ} (h : Passed f) : Passed (Frame.calling func f) := by
  obtain ⟨g, args, sets, called | given⟩ := f
  · exact nofun
  · exact h

lemma Inv.enter (h : Inv s) (func : φ) (args : List Word) :
    ∃ s', s.step (.enter func args) = some ((), s') ∧ Inv s' := by
  obtain ⟨cb, hcb⟩ := h.filter func
  rw [step, hcb]
  refine ⟨_, rfl, fun f => ?_, forall_mem_cons.mpr ⟨?_, forall_mem_map.mpr fun f hf hphase => ?_⟩,
    pairwise_cons.mpr ⟨forall_mem_map.mpr fun f hf hfunc hphase => ?_, pairwise_map.mpr ?_⟩,
    forall_mem_cons.mpr ⟨nofun, forall_mem_map.mpr fun f hf => (h.passed f hf).calling⟩, h.right⟩
  · rcases eq_or_ne f func with rfl | hne
    · exact ⟨cb, by dsimp only; rw [Function.update_self]; exact hcb⟩
    · dsimp only
      rw [Function.update_of_ne hne]
      exact h.filter f
  · dsimp only
    rw [Function.update_self]
    exact fun _ => ⟨fun _ => rfl, nofun⟩
  · obtain ⟨hsame, hne⟩ := calling_eq hphase
    rw [hsame] at hphase ⊢
    dsimp only
    rw [Function.update_of_ne hne]
    exact h.noted f hf hphase
  · exact (calling_eq hphase).2 ((func_calling func f).symm.trans hfunc)
  · refine h.calling.imp fun {g f} hgf hfunc hphase => ?_
    rw [func_calling, func_calling] at hfunc
    exact hgf hfunc ((calling_eq hphase).1 ▸ hphase)

lemma Inv.set (h : Inv s) (ctx value : Word) (hC : Fits s (.set ctx value)) :
    ∃ s', s.step (.set ctx value) = some ((), s') ∧ Inv s' := by
  rw [step]
  split
  · next func args sets called stack hstack =>
    obtain ⟨hfilter, hnoted, hcalling, hpassed, hright⟩ := h
    rw [Fits, hstack] at hC
    rw [hstack] at hnoted hcalling hpassed
    rw [hC _ rfl]
    obtain ⟨hunder, hcalling⟩ := pairwise_cons.mp hcalling
    refine ⟨_, rfl, fun f => ?_, forall_mem_cons.mpr ⟨?_, fun f hf hphase => ?_⟩,
      pairwise_cons.mpr ⟨hunder, hcalling⟩, forall_mem_cons.mpr ⟨nofun, (forall_mem_cons.mp hpassed).2⟩, hright⟩
    · rcases eq_or_ne f func with rfl | hne
      · dsimp only
        rw [Function.update_self]
        exact hfilter f
      · dsimp only
        rw [Function.update_of_ne hne]
        exact hfilter f
    · dsimp only
      rw [Function.update_self]
      refine fun _ => ⟨fun hnil => by simp at hnil, fun v hv => ⟨rfl, ?_⟩⟩
      simpa using hv
    · -- The entry of another function is not written.
      have hne : f.func ≠ func := fun hfunc => hunder f hf hfunc hphase
      dsimp only
      rw [Function.update_of_ne hne]
      exact hnoted f (mem_cons_of_mem _ hf) hphase
  · exact ⟨s, rfl, h⟩

lemma Inv.leave (h : Inv s) (rest : List Word) (hC : Fits s (.leave rest)) :
    ∃ s', s.step (.leave rest) = some ((), s') ∧ Inv s' := by
  rw [step]
  split
  · next func args sets called stack hstack =>
    obtain ⟨hfilter, hnoted, hcalling, hpassed, hright⟩ := h
    rw [Fits, hstack] at hC
    rw [hstack] at hnoted hcalling hpassed
    obtain ⟨hcalled, hargs⟩ := hC _ rfl
    obtain rfl : called = false := by simpa using hcalled
    obtain ⟨hnoted, hnoted'⟩ := forall_mem_cons.mp hnoted
    obtain ⟨hnone, hlast⟩ := hnoted rfl
    obtain ⟨-, hpassed⟩ := forall_mem_cons.mp hpassed
    split_ifs with hover
    · -- A value was set, and the last one is returned.
      refine ⟨_, rfl, hfilter, hnoted', hcalling.of_cons, hpassed, forall_mem_append.mpr ⟨hright, ?_⟩⟩
      refine forall_mem_singleton.mpr ⟨fun hsets => ?_, fun v hv => ⟨rfl, (hlast v hv).2⟩⟩
      have hno := hnone hsets
      rw [hover] at hno
      cases hno
    · -- No value was set, and the function is called.
      have hsets : sets = [] := by
        by_contra hne
        exact hover (hlast _ (getLast?_eq_some_getLast hne)).1
      have hlen : args.length ≤ 5 := (hargs rfl).resolve_left (not_not.mpr hsets)
      refine ⟨_, rfl, hfilter, forall_mem_cons.mpr ⟨nofun, hnoted'⟩,
        pairwise_cons.mpr (pairwise_cons.mp hcalling), forall_mem_cons.mpr ⟨?_, hpassed⟩, hright⟩
      intro given hgiven
      cases hgiven
      exact ⟨hsets, forwarded_of_le hlen rest⟩
  · exact ⟨s, rfl, h⟩

lemma Inv.back (h : Inv s) (ret : Word) : ∃ s', s.step (.back ret) = some ((), s') ∧ Inv s' := by
  rw [step]
  split
  · next func args sets given stack hstack =>
    obtain ⟨hfilter, hnoted, hcalling, hpassed, hright⟩ := h
    rw [hstack] at hnoted hcalling hpassed
    obtain ⟨hpassed, hpassed'⟩ := forall_mem_cons.mp hpassed
    obtain ⟨rfl, rfl⟩ := hpassed given rfl
    exact ⟨_, rfl, hfilter, (forall_mem_cons.mp hnoted).2, hcalling.of_cons, hpassed',
      forall_mem_append.mpr ⟨hright, forall_mem_singleton.mpr ⟨fun _ => rfl, nofun⟩⟩⟩
  · exact ⟨s, rfl, h⟩

lemma Inv.of_step (h : Inv s) (ev : HookEvent φ) (hC : Fits s ev) :
    ∃ s', s.step ev = some ((), s') ∧ Inv s' := by
  cases ev with
  | enter func args => exact h.enter func args
  | traced => exact ⟨_, rfl, h.filter, h.noted, h.calling, h.passed, h.right⟩
  | set ctx value => exact h.set ctx value hC
  | leave rest => exact h.leave rest hC
  | back ret => exact h.back ret

omit [DecidableEq φ] in
lemma inv_init {hooks : φ → List (EntryCallback κ)}
    (hfilter : ∀ f, ∃ cb ∈ hooks f, cb.getType = attachUprobeOverride) : Inv (init hooks) := by
  refine ⟨fun f => ?_, nofun, .nil, nofun, nofun⟩
  obtain ⟨cb, hmem, htype⟩ := hfilter f
  exact isSome_iff_exists.mp (find?_isSome.mpr ⟨cb, hmem, by simpa using htype⟩)

/-- In every run in which the callbacks meet the condition when they set a value and when they
return, every call of a function with an override that has returned did what it should, however deep
the calls were nested. -/
theorem right_of_fits (hooks : φ → List (EntryCallback κ))
    (hfilter : ∀ f, ∃ cb ∈ hooks f, cb.getType = attachUprobeOverride) (evs : List (HookEvent φ))
    (hfits : Along step Fits (init hooks) evs) :
    ∃ rs s, run step (init hooks) evs = some (rs, s) ∧ ∀ c ∈ s.finished, Right c := by
  have hkeep : ∀ (s : Hooked φ κ) ev, Inv s → Fits s ev → ∃ r s', step s ev = some (r, s') ∧ Inv s' := by
    intro s ev h hC
    obtain ⟨s', hstep, h'⟩ := h.of_step ev hC
    exact ⟨(), s', hstep, h'⟩
  obtain ⟨rs, s, hrun, h⟩ := run_invariant hkeep (inv_init hfilter) hfits
  exact ⟨rs, s, hrun, h.right⟩

/-- Two functions with an override. -/
def bothHooked (_ : Bool) : List (EntryCallback Unit) := [.direct .uprobeOverride ()]

/-- A function calls itself once, and the inner call is overridden. Its callback has then called the
other function, and the other callback has called none. -/
theorem right_of_fits_recursive :
    ∃ rs s, run step (init bothHooked) [.enter true [1, 2], .leave [], .enter true [3, 4],
        .set 0 7, .set 0 8, .enter false [5], .set 0 6, .leave [], .leave [], .back 9] = some (rs, s) ∧
      ∀ c ∈ s.finished, Right c :=
  right_of_fits bothHooked (fun _ => ⟨_, mem_singleton_self _, rfl⟩) _ (by decide)

/-- A function of six arguments is called with something else for the sixth. A callback that has set
a value and then calls the function does not override. And one that calls another function with an
override before it sets its value overrides that one. -/
theorem not_right : (∃ rs s, run step (init bothHooked) [.enter true [1, 2, 3, 4, 5, 6], .leave [0],
        .back 9] = some (rs, s) ∧ s.finished = [⟨[1, 2, 3, 4, 5, 6], [], [([1, 2, 3, 4, 5, 0], 9)], 9⟩] ∧
      ¬∀ c ∈ s.finished, Right c) ∧
    (∃ rs s, run step (init bothHooked) [.enter true [1], .set 0 7, .enter true [2], .leave [],
        .back 5, .leave [], .back 6] = some (rs, s) ∧
      s.finished = [⟨[2], [], [([2], 5)], 5⟩, ⟨[1], [7], [([1], 6)], 6⟩] ∧ ¬∀ c ∈ s.finished, Right c) ∧
    ∃ rs s, run step (init bothHooked) [.enter true [1], .enter false [2], .leave [], .back 5, .set 0 7,
        .leave [], .back 6] = some (rs, s) ∧
      s.finished = [⟨[2], [], [([2], 5)], 5⟩, ⟨[1], [7], [([1], 6)], 6⟩] ∧ ¬∀ c ∈ s.finished, Right c := by
  have hwrong : ∀ cs : List Finished, ⟨[1], [7], [([1], 6)], 6⟩ ∈ cs → ¬∀ c ∈ cs, Right c := by
    intro cs hmem h
    have hret := ((h _ hmem).overridden 7 rfl).2
    revert hret
    decide
  refine ⟨⟨_, _, rfl, by decide, fun h => ?_⟩, ⟨_, _, rfl, by decide, hwrong _ (by decide)⟩,
    ⟨_, _, rfl, by decide, hwrong _ (by decide)⟩⟩
  have hcalls := (h ⟨[1, 2, 3, 4, 5, 6], [], [([1, 2, 3, 4, 5, 0], 9)], 9⟩ (by decide)).transparent rfl
  revert hcalls
  decide

end Hooked

end Bpftime.Frida
