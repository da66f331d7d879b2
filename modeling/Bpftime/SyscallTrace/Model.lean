import Mathlib.Data.List.AList
import Bpftime.Basic

/-!
# Syscall tracepoints

`syscall_trace_attach_impl` runs callbacks before and after system calls.
-/

namespace Bpftime.SyscallTrace

/-- `ATTACH_SYSCALL_TRACE`. -/
def attachSyscallTrace : ℤ := 2

/-- The size of `sys_enter_callbacks` and of `sys_exit_callbacks`. -/
def callbackSlots : ℕ := 512

abbrev Args := Fin 6 → BitVec 64

/-- `trace_entry`. -/
structure TraceEntry where
  type : BitVec 16 := 0
  flags : BitVec 8 := 0
  preempt_count : BitVec 8 := 0
  pid : BitVec 32 := 0
  deriving DecidableEq

/-- What a callback is given: `trace_event_raw_sys_enter` or `trace_event_raw_sys_exit`. -/
inductive Ctx
  | sysEnter (ent : TraceEntry) (id : BitVec 64) (args : Args)
  | sysExit (ent : TraceEntry) (id : BitVec 64) (ret : BitVec 64)
  deriving DecidableEq

/-- What a callback does: the values it sets as return values, in order, what it leaves in its copy
of the context, and the world after it. -/
structure CallbackRun (W : Type) where
  overrides : List (BitVec 64)
  ctx : Ctx
  world : W

/-- What the attach implementation is not itself: the numbers of `exit` and `exit_group` on the
architecture, the callbacks and the original system call. -/
structure Env (κ W : Type) where
  nr_exit : BitVec 64
  nr_exit_group : BitVec 64
  cb : κ → Ctx → W → CallbackRun W
  orig_syscall : BitVec 64 → Args → W → BitVec 64 × W

/-- `syscall_trace_attach_entry`. -/
structure AttachEntry (κ : Type) where
  cb : κ
  sys_nr : ℤ
  is_enter : Bool
  deriving DecidableEq

/-- A `std::unique_ptr` to an attach entry. -/
structure Boxed (κ : Type) where
  addr : ℕ
  ent : AttachEntry κ

/-- `syscall_trace_attach_impl`. -/
structure Impl (κ : Type) where
  next_id : ℤ
  global_enter_callbacks : Finset ℕ
  global_exit_callbacks : Finset ℕ
  sys_enter_callbacks : ℕ → Finset ℕ
  sys_exit_callbacks : ℕ → Finset ℕ
  attach_entries : AList fun _ : ℤ => Boxed κ

structure Attachment (κ : Type) where
  id : ℤ
  ent : AttachEntry κ
  deriving DecidableEq

inductive Event
  | callback (id : ℤ) (ctx : Ctx)
  | syscall (sys_nr : BitVec 64) (args : Args)
  deriving DecidableEq

/-- The variables of a dispatch, with the world and what happened so far. -/
structure Frame (W : Type) where
  is_overrided : Bool
  user_ret : BitVec 64
  world : W
  events : List Event

/-- The callback in `curr_thread_override_return_callback`. -/
def Frame.setOverride {W : Type} (f : Frame W) (v : BitVec 64) : Frame W :=
  { f with is_overrided := true, user_ret := v }

namespace Impl

variable {κ W : Type}

/-- The object that is made by the constructor. -/
def new : Impl κ where
  next_id := 1
  global_enter_callbacks := ∅
  global_exit_callbacks := ∅
  sys_enter_callbacks _ := ∅
  sys_exit_callbacks _ := ∅
  attach_entries := ∅

def callbacks (s : Impl κ) (is_enter : Bool) (sys_nr : ℤ) : Finset ℕ :=
  if is_enter then
    if sys_nr = -1 then s.global_enter_callbacks else s.sys_enter_callbacks sys_nr.toNat
  else
    if sys_nr = -1 then s.global_exit_callbacks else s.sys_exit_callbacks sys_nr.toNat

def modifyCallbacks (s : Impl κ) (is_enter : Bool) (sys_nr : ℤ) (f : Finset ℕ → Finset ℕ) : Impl κ :=
  if is_enter then
    if sys_nr = -1 then { s with global_enter_callbacks := f s.global_enter_callbacks }
    else { s with
      sys_enter_callbacks := Function.update s.sys_enter_callbacks sys_nr.toNat
        (f (s.sys_enter_callbacks sys_nr.toNat)) }
  else
    if sys_nr = -1 then { s with global_exit_callbacks := f s.global_exit_callbacks }
    else { s with
      sys_exit_callbacks := Function.update s.sys_exit_callbacks sys_nr.toNat
        (f (s.sys_exit_callbacks sys_nr.toNat)) }

/-- The private data of an attach: the number and the direction, if it is that of a system call
tracepoint. -/
abbrev PrivateData := Option (ℤ × Bool)

/-- `create_attach_with_ebpf_callback`, the new entry being allocated at `addr`: the id, or an
error. -/
def createAttachWithEbpfCallback (s : Impl κ) (cb : κ) (private_data : PrivateData) (attach_type : ℤ)
    (addr : ℕ) : Option (Except Errno ℤ × Impl κ) :=
  if attach_type ≠ attachSyscallTrace then some (.error .ENOTSUP, s)
  else
    match private_data with
    -- The `dynamic_cast` throws.
    | none => some (.error .EINVAL, s)
    | some (sys_nr, is_enter) =>
      if (callbackSlots : ℤ) ≤ sys_nr ∨ sys_nr < -1 then some (.error .EINVAL, s)
      else do
        let (id, next_id) ← allocateId s.next_id
        let owned : Impl κ := { s with
          next_id
          attach_entries := s.attach_entries.insert id ⟨addr, ⟨cb, sys_nr, is_enter⟩⟩ }
        some (.ok id, owned.modifyCallbacks is_enter sys_nr (insert addr))

/-- `detach_by_id`. -/
def detachById (s : Impl κ) (id : ℤ) : Except Errno ℤ × Impl κ :=
  match s.attach_entries.lookup id with
  | none => (.error .ENOENT, s)
  | some ⟨addr, ent⟩ =>
    let unlinked := s.modifyCallbacks ent.is_enter ent.sys_nr (Finset.erase · addr)
    (.ok 0, { unlinked with attach_entries := unlinked.attach_entries.erase id })

/-- The calls on the attach implementation, with the addresses that the allocator picks. -/
inductive Op (κ : Type)
  | attach (cb : κ) (private_data : PrivateData) (attach_type : ℤ) (addr : ℕ)
  | detach (id : ℤ)

def step (s : Impl κ) : Op κ → Option (Except Errno ℤ × Impl κ)
  | .attach cb private_data attach_type addr =>
    s.createAttachWithEbpfCallback cb private_data attach_type addr
  | .detach id => some (s.detachById id)

def deref (s : Impl κ) (addr : ℕ) : Option (Attachment κ) :=
  (s.attach_entries.entries.find? fun e => e.2.addr = addr).map fun e => ⟨e.1, e.2.ent⟩

/-- A call of a callback on a copy of the context, which is dropped afterwards. -/
def call (env : Env κ W) (ctx : Ctx) (f : Frame W) (a : Attachment κ) : Frame W :=
  let ran := env.cb a.ent.cb ctx f.world
  let set := ran.overrides.foldl Frame.setOverride f
  { set with world := ran.world, events := set.events ++ [.callback a.id ctx] }

/-- The loop over a set of callbacks, `none` where a pointer dangles. -/
def callEach (s : Impl κ) (env : Env κ W) (ctx : Ctx) : List ℕ → Frame W → Option (Frame W)
  | [], f => some f
  | addr :: addrs, f => do
    let a ← s.deref addr
    callEach s env ctx addrs (call env ctx f a)

/-- The callbacks of a direction: those for the number, then those for all. -/
def callPhase (s : Impl κ) (env : Env κ W) (is_enter : Bool) (sys_nr : ℕ) (ctx : Ctx)
    (f : Frame W) : Option (Frame W) :=
  let per_nr := s.callbacks is_enter sys_nr
  let globals := s.callbacks is_enter (-1)
  if per_nr.Nonempty ∨ globals.Nonempty then do
    let f₁ ← s.callEach env ctx (per_nr.sort (· ≤ ·)) f
    s.callEach env ctx (globals.sort (· ≤ ·)) f₁
  else some f

/-- `dispatch_syscall`: the return value, and the variables at the end. -/
def dispatchSyscall (s : Impl κ) (env : Env κ W) (sys_nr : BitVec 64) (args : Args) (w : W) :
    Option (BitVec 64 × Frame W) :=
  if sys_nr = env.nr_exit_group ∨ sys_nr = env.nr_exit then
    let r := env.orig_syscall sys_nr args w
    some (r.1, ⟨false, 0, r.2, [.syscall sys_nr args]⟩)
  else if callbackSlots ≤ sys_nr.toNat then none
  else do
    let f ← s.callPhase env true sys_nr.toNat (.sysEnter {} sys_nr args) ⟨false, 0, w, []⟩
    if f.is_overrided then some (f.user_ret, f)
    else
      let r := env.orig_syscall sys_nr args f.world
      let f' ← s.callPhase env false sys_nr.toNat (.sysExit {} sys_nr r.1)
        { f with world := r.2, events := f.events ++ [.syscall sys_nr args] }
      if f'.is_overrided then some (f'.user_ret, f') else some (r.1, f')

end Impl

end Bpftime.SyscallTrace
