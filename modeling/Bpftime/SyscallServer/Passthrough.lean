import Bpftime.SyscallServer.Model

/-!
# Which interposed calls are passed on

A call has to be passed on when mocking is disabled, or when none of the descriptors and addresses
that it is about is managed.
-/

namespace Bpftime.SyscallServer

open BpftimeShm World List Call BpfAttr

def Call.original : Call → OrigCall
  | .close fd => .close fd
  | .openat fd file oflag mode => .openat fd file.addr oflag mode
  | .read fd buf count => .read fd buf count
  | .sysbpf attr ptr size => .syscall .bpf [attr.cmd, ptr, size]
  | .perfevent _ ptr pid cpu group_fd flags =>
    .syscall .perfEventOpen [ptr, pid.toInt, cpu.toInt, group_fd, flags]
  | .mmap addr length prot flags fd offset => .mmap addr length prot flags fd offset
  | .mmap64 addr length prot flags fd offset => .mmap addr length prot flags fd offset
  | .ioctl fd req data => .ioctl fd req data
  | .epollCreate1 flags => .epollCreate1 flags
  | .epollCtl epfd op fd evt => .epollCtl epfd op fd evt
  | .epollWait epfd evt maxevents timeout => .epollWait epfd evt maxevents timeout
  | .munmap addr size => .munmap addr size
  | .dup3 oldfd newfd flags => .syscall .dup3 [oldfd, newfd, flags]
  | .memfdCreate name flags => .syscall .memfdCreate [name.addr, flags.toInt]

def BpfAttr.fds : BpfAttr → List ℤ
  | mapCreate .. | progLoad .. => []
  | mapLookupElem fd _ | mapUpdateElem fd .. | mapDeleteElem fd _ | mapLookupAndDeleteElem fd
  | mapGetNextKey fd _ | mapFreeze fd | objGetInfoByFd fd | other _ fd => [fd]
  | linkCreate prog_fd target_fd _ _ => [prog_fd, target_fd]
  | progAttach attach_bpf_fd target_fd => [attach_bpf_fd, target_fd]

def BpfAttr.isOther : BpfAttr → Bool
  | other .. => true
  | _ => false

def Call.fds : Call → List ℤ
  | .close fd | .openat fd .. | .read fd .. | .mmap _ _ _ _ fd _ | .mmap64 _ _ _ _ fd _ | .ioctl fd ..
  | .epollWait fd .. => [fd]
  | .sysbpf attr _ _ => attr.fds
  | .perfevent _ _ _ _ group_fd _ => [group_fd]
  | .epollCtl epfd _ fd _ => [epfd, fd]
  | .dup3 oldfd newfd _ => [oldfd, newfd]
  | .epollCreate1 _ | .munmap .. | .memfdCreate .. => []

def Call.addrs : Call → List ℕ
  | .munmap addr _ => [addr]
  | _ => []

/-- A descriptor stands for a mocked file, or has a handler in the table. -/
def World.Manages (env : Env) (w : World) (fd : ℤ) : Prop :=
  fd ∈ w.mocked_files ∨ (w.table env).isAllocated fd

/-- Mocking is off: for good, while CUDA starts, or after the table says so. -/
def World.off (w : World) : Bool := !w.enable_mock || w.initializing_cuda || !w.enable_mock_after_initialized

abbrev World.inert (w : World) : Bool :=
  !w.enable_mock || w.run_with_kernel || w.initializing_cuda || !w.enable_mock_after_initialized

/-- Mocking is off also where the kernel runs the programs, for the calls that are then left to
it. -/
def World.mockingDisabled (w : World) : Call → Bool
  | .close _ | .openat .. | .read .. | .sysbpf .. | .perfevent .. | .ioctl .. => w.off
  | .mmap .. | .mmap64 .. | .epollCreate1 _ | .epollCtl .. | .epollWait .. | .munmap .. | .dup3 ..
  | .memfdCreate .. => w.off || w.run_with_kernel

def MustPass (env : Env) (w : World) (c : Call) : Prop :=
  w.mockingDisabled c ∨ ((c.fds ≠ [] ∨ c.addrs ≠ []) ∧ (∀ fd ∈ c.fds, ¬ w.Manages env fd) ∧
      ∀ addr ∈ c.addrs, addr ∉ w.mocked_mmap_values)

/-- A call is passed on: whatever the original functions return, one original call is made, the same
one, its result is returned, and the table stays as it is. -/
def PassesThrough (env : Env) (w : World) (c : Call) : Prop :=
  ∀ orig : Results, ∃ w', handle env orig c w = some (orig w.trace c.original, w') ∧
    w'.trace = w.trace ++ [c.original] ∧ w'.table env = w.table env

def mockedType (env : Env) (type : ℤ) : Bool :=
  type = env.uprobe_perf_type ∨ type = env.kprobe_perf_type ∨ type = 2 ∨ type = 1 ∨ type = 1009 ∨ type = 1008

/-- The calls that are passed on, of those that have to be. -/
def passes (env : Env) (w : World) : Call → Bool
  | .close _ | .read .. | .ioctl .. | .epollCreate1 _ | .dup3 .. => true
  | .openat fd file _ _ => w.off || ((env.fullPath fd file.text).bind createMockedFileBasedOnFullPath).isNone
  | .sysbpf attr _ _ => w.off || w.run_with_kernel || attr.isOther
  | .perfevent attr .. => w.off || !mockedType env attr.type
  | .mmap .. => w.off || w.run_with_kernel
  | .mmap64 .. => !w.enable_mock || w.run_with_kernel || w.initializing_cuda
  | .epollCtl epfd op fd _ =>
    !w.enable_mock || w.run_with_kernel || !w.enable_mock_after_initialized || !addsToEpoll (w.table env) epfd op fd
  | .epollWait .. | .munmap .. => !(w.off || w.run_with_kernel)
  | .memfdCreate .. => false

variable {env : Env} {w w' : World} {c : Call} {n : ℤ}

lemma off_or_kernel : (!w.enable_mock || w.run_with_kernel || w.initializing_cuda ||
    !w.enable_mock_after_initialized) = (w.off || w.run_with_kernel) := by
  unfold off
  cases w.enable_mock <;> cases w.run_with_kernel <;> cases w.initializing_cuda <;> simp

@[simp] lemma tryStartup_table : (tryStartup env w).table env = w.table env := rfl

@[simp] lemma tryStartup_mocked_files : (tryStartup env w).mocked_files = w.mocked_files := rfl

@[simp] lemma tryStartup_mocked_mmap_values :
    (tryStartup env w).mocked_mmap_values = w.mocked_mmap_values := rfl

@[simp] lemma tryStartup_run_with_kernel : (tryStartup env w).run_with_kernel = w.run_with_kernel := rfl

@[simp] lemma tryStartup_trace : (tryStartup env w).trace = w.trace := rfl

variable {f : BpftimeShm → Option (ShmReply × BpftimeShm)} {orig : Results} {size evt req ptr : ℕ}
  {epfd data : ℤ}

lemma trace_of_onTable (h : onTable env f w = some (n, w')) : w'.trace = w.trace := by
  unfold onTable at h
  obtain ⟨⟨reply, s⟩, -, h⟩ := Option.bind_eq_some_iff.mp h
  obtain ⟨m, -, h⟩ := Option.bind_eq_some_iff.mp h
  cases h
  rfl

lemma trace_of_onMap {fd : ℤ} {call : MapCall} (h : onMap env fd call w = some (n, w')) :
    w'.trace = w.trace := by
  unfold onMap at h
  obtain ⟨⟨m, w1⟩, h1, h⟩ := Option.bind_eq_some_iff.mp h
  cases h
  exact trace_of_onTable h1

lemma trace_of_createLink {prog_fd target_fd : ℤ} {attach_type : ℕ} {bpf_cookie : UInt64}
    (h : createLink env prog_fd target_fd attach_type bpf_cookie w = some (n, w')) : w'.trace = w.trace := by
  unfold createLink at h
  obtain ⟨⟨id, w1⟩, h1, h⟩ := Option.bind_eq_some_iff.mp h
  rw [← trace_of_onTable h1]
  dsimp only at h
  split_ifs at h
  · obtain ⟨⟨m, w2⟩, h2, h⟩ := Option.bind_eq_some_iff.mp h
    cases h
    exact trace_of_onTable h2
  · cases h
    rfl

lemma passesThrough_of_original (h : ∀ orig, ∃ w0 : World,
    handle env orig c w = original orig c.original w0 ∧
    w0.trace = w.trace ∧ w0.table env = w.table env) : PassesThrough env w c := by
  intro orig
  obtain ⟨w0, hw0, htrace, htable⟩ := h orig
  refine ⟨w0.called c.original, ?_, ?_, htable⟩
  · rw [hw0, original, htrace]
  · show w0.trace ++ [c.original] = _
    rw [htrace]

lemma not_passesThrough_of_trace {calls : List OrigCall} (hne : calls ≠ [c.original])
    (h : ∀ n w', handle env (fun _ _ => 0) c w = some (n, w') → w'.trace = w.trace ++ calls) :
    ¬ PassesThrough env w c := by
  intro hpass
  obtain ⟨w', hw', htrace, -⟩ := hpass fun _ _ => 0
  rw [h _ _ hw'] at htrace
  exact hne (append_cancel_left htrace)

lemma not_passesThrough_of_silent (h : ∀ n w', handle env (fun _ _ => 0) c w = some (n, w') →
    w'.trace = w.trace) :
    ¬ PassesThrough env w c := by
  refine not_passesThrough_of_trace (cons_ne_nil _ _).symm fun n w' hw' => ?_
  rw [h n w' hw', append_nil]

lemma not_passesThrough_of_result (m : ℤ) (h : ∀ orig, ∃ w', handle env orig c w = some (m, w')) :
    ¬ PassesThrough env w c := by
  intro hpass
  obtain ⟨w', hw', -⟩ := hpass fun _ _ => m + 1
  obtain ⟨w'', hw''⟩ := h fun _ _ => m + 1
  rw [hw''] at hw'
  have : m = m + 1 := congrArg Prod.fst (Option.some.inj hw')
  omega

lemma getHandler_of_not_manages {fd : ℤ} (h : ¬ w.Manages env fd) :
    (w.table env).getHandler fd = none ∨ (w.table env).getHandler fd = some .unused := by
  have halloc : (w.table env).isAllocated fd = false := by
    unfold World.Manages at h
    simp only [not_or, Bool.not_eq_true] at h
    exact h.2
  unfold isAllocated at halloc
  split at halloc
  · exact .inl ‹_›
  · exact .inr ‹_›
  · cases halloc

lemma not_mem_mocked_files_of_not_manages {fd : ℤ} (h : ¬ w.Manages env fd) :
    fd ∉ w.mocked_files := fun hmem => h (.inl hmem)

section Unmanaged

variable {s : BpftimeShm} {fd : ℤ}
  (h : s.getHandler fd = none ∨ s.getHandler fd = some .unused)
include h

lemma isPerfFd_eq_false : s.isPerfFd fd = false := by
  unfold isPerfFd
  rcases h with h | h <;> rw [h]

lemma isMapFd_eq_false : isMapFd s fd = false := by
  unfold isMapFd
  rcases h with h | h <;> rw [h]

lemma isEpollFd_eq_false : isEpollFd s fd = false := by
  unfold isEpollFd
  rcases h with h | h <;> rw [h] <;> rfl

lemma closeFd_eq_self : s.closeFd fd = s := by
  unfold closeFd clearIdAt
  rcases h with h | h
  · rw [h]
  · rw [h]
    have hfd : 0 ≤ fd := by
      by_contra hneg
      simp [getHandler, hneg] at h
    have hslot : s.handlers[fd.toNat]? = some .unused := by simpa [getHandler, hfd] using h
    obtain ⟨hlt, hget⟩ := List.getElem?_eq_some_iff.mp hslot
    show { s with handlers := s.handlers.set fd.toNat .unused } = s
    rw [← hget, set_getElem_self]

lemma perfEventEnable_eq (enabled : Bool) : s.perfEventEnable fd enabled = (.error .ENOENT, s) := by
  unfold perfEventEnable
  rcases h with h | h <;> rw [h]

lemma attachPerfToBpf_eq (bpf_fd : ℤ) (cookie : Option UInt64) :
    s.attachPerfToBpf fd bpf_fd cookie = some (.error .ENOENT, s) := by
  unfold attachPerfToBpf
  rw [isPerfFd_eq_false h]
  rfl

end Unmanaged

/-! ## The handlers -/

lemma close_passesThrough {fd : ℤ} (h : w.off ∨ ¬ w.Manages env fd) : PassesThrough env w (.close fd) := by
  refine passesThrough_of_original fun orig => ?_
  show ∃ w0 : World, handleClose env orig fd w = original orig (.close fd) w0 ∧ _
  unfold handleClose
  by_cases hoff : w.off
  · exact ⟨w, if_pos hoff, rfl, rfl⟩
  · have hfd := h.resolve_left hoff
    unfold off at hoff
    rw [if_neg hoff]
    dsimp only
    rw [tryStartup_mocked_files, if_neg (not_mem_mocked_files_of_not_manages hfd), tryStartup_table,
      closeFd_eq_self (getHandler_of_not_manages hfd)]
    exact ⟨_, rfl, rfl, rfl⟩

lemma read_passesThrough {fd : ℤ} {buf count : ℕ} (h : w.off ∨ ¬ w.Manages env fd) :
    PassesThrough env w (.read fd buf count) := by
  refine passesThrough_of_original fun orig => ?_
  show ∃ w0 : World, handleRead env orig fd buf count w = original orig (.read fd buf count) w0 ∧ _
  unfold handleRead
  by_cases hoff : w.off
  · exact ⟨w, if_pos hoff, rfl, rfl⟩
  · have hfd : w.mocked_files.lookup fd = none :=
      AList.lookup_eq_none.mpr (not_mem_mocked_files_of_not_manages (h.resolve_left hoff))
    unfold off at hoff
    rw [if_neg hoff]
    dsimp only
    rw [tryStartup_mocked_files, hfd]
    exact ⟨_, rfl, rfl, rfl⟩

lemma openat_passesThrough_iff {fd oflag : ℤ} {file : CStr} {mode : BitVec 16} :
    PassesThrough env w (.openat fd file oflag mode) ↔
    w.off ∨ (env.fullPath fd file.text).bind createMockedFileBasedOnFullPath = none := by
  have hhandle : ∀ orig, handle env orig (.openat fd file oflag mode) w =
      handleOpenat env orig fd file oflag mode w := fun orig => rfl
  unfold handleOpenat at hhandle
  by_cases hoff : w.off
  · refine iff_of_true (passesThrough_of_original fun orig => ⟨w, ?_, rfl, rfl⟩) (.inl hoff)
    rw [hhandle]
    exact if_pos hoff
  · rw [or_iff_right hoff]
    unfold off at hoff
    simp only [if_neg hoff] at hhandle
    cases hpath : env.fullPath fd file.text with
    | none =>
      simp only [hpath] at hhandle
      exact iff_of_true (passesThrough_of_original fun orig => ⟨_, hhandle orig, rfl, rfl⟩) rfl
    | some path =>
      rw [Option.bind_some]
      simp only [hpath] at hhandle
      cases hmock : createMockedFileBasedOnFullPath path with
      | none =>
        simp only [hmock] at hhandle
        exact iff_of_true (passesThrough_of_original fun orig => ⟨_, hhandle orig, rfl, rfl⟩) rfl
      | some mocker =>
        simp only [hmock] at hhandle
        refine iff_of_false ?_ (Option.some_ne_none _)
        by_cases hfd : env.mkstemp < 0
        · have hopen : [OrigCall.open file.addr oflag mode] ≠
              [(Call.openat fd file oflag mode).original] := by simp [Call.original]
          refine not_passesThrough_of_trace hopen fun n w' hw' => ?_
          rw [hhandle, if_pos hfd] at hw'
          cases hw'
          rfl
        · refine not_passesThrough_of_silent fun n w' hw' => ?_
          rw [hhandle, if_neg hfd] at hw'
          cases hw'
          rfl

variable {addr length : ℕ} {prot flags : BitVec 32}

lemma handleMmap64_trace {fd offset : ℤ} (hguard : (!w.enable_mock || w.run_with_kernel || w.initializing_cuda) = false)
    (h : handleMmap64 env orig addr length prot flags fd offset w = some (n, w')) :
    w'.trace = w.trace ∨ w'.trace = w.trace ++
    [.mmap addr length (prot ||| 2) (flags ||| 0x20) (-1) 0, .mmap addr length prot flags fd offset] := by
  unfold handleMmap64 at h
  rw [if_neg (by rw [hguard]; decide)] at h
  dsimp only at h
  unfold mapAt at h
  cases hobj : mappedObject env (tryStartup env w) length prot fd with
  | some p =>
    rw [hobj] at h
    cases h
    exact .inl rfl
  | none =>
    rw [hobj] at h
    cases h
    exact .inr (append_assoc _ _ _)

lemma not_passesThrough_of_trace_or {c1 c2 : OrigCall}
    (h : ∀ n w', handle env (fun _ _ => 0) c w = some (n, w') →
    w'.trace = w.trace ∨ w'.trace = w.trace ++ [c1, c2]) : ¬ PassesThrough env w c := by
  intro hpass
  obtain ⟨w', hw', htrace, -⟩ := hpass fun _ _ => 0
  have hlen := congrArg length htrace
  rcases h _ _ hw' with h' | h' <;> rw [h'] at hlen <;> simp at hlen

lemma mmap64_passesThrough_iff {fd offset : ℤ} :
    PassesThrough env w (.mmap64 addr length prot flags fd offset) ↔
    (!w.enable_mock || w.run_with_kernel || w.initializing_cuda) = true := by
  by_cases hguard : (!w.enable_mock || w.run_with_kernel || w.initializing_cuda) = true
  · exact iff_of_true (passesThrough_of_original fun orig => ⟨w, if_pos hguard, rfl, rfl⟩) hguard
  · exact iff_of_false (not_passesThrough_of_trace_or fun n w' hw' =>
      handleMmap64_trace (Bool.eq_false_iff.mpr hguard) hw') hguard

lemma mmap_passesThrough_iff {fd offset : ℤ} : PassesThrough env w
    (.mmap addr length prot flags fd offset) ↔ w.inert = true := by
  by_cases hguard : w.inert = true
  · exact iff_of_true (passesThrough_of_original fun orig => ⟨w, if_pos hguard, rfl, rfl⟩) hguard
  · have hpast : handle env (fun _ _ => 0) (.mmap addr length prot flags fd offset) w =
        handleMmap64 env (fun _ _ => 0) addr length prot flags fd offset (tryStartup env w) :=
      if_neg hguard
    have hguard' : (!(tryStartup env w).enable_mock || (tryStartup env w).run_with_kernel ||
        (tryStartup env w).initializing_cuda) = false := by
      simp only [inert, Bool.or_eq_true, not_or, Bool.not_eq_true] at hguard
      simp [tryStartup, hguard]
    have htrace : ∀ n w', handle env (fun _ _ => 0) (.mmap addr length prot flags fd offset) w =
        some (n, w') → w'.trace = (tryStartup env w).trace ∨ w'.trace = (tryStartup env w).trace ++ [_, _] :=
      fun n w' hw' => handleMmap64_trace hguard' (hpast ▸ hw')
    exact iff_of_false (not_passesThrough_of_trace_or htrace) hguard

lemma epollCreate1_passesThrough_iff {flags : ℤ} : PassesThrough env w (.epollCreate1 flags) ↔
    w.inert = true := by
  by_cases hguard : w.inert = true
  · exact iff_of_true (passesThrough_of_original fun orig => ⟨w, if_pos hguard, rfl, rfl⟩) hguard
  · refine iff_of_false (not_passesThrough_of_silent fun n w' hw' => ?_) hguard
    have hpast : handle env (fun _ _ => 0) (.epollCreate1 flags) w =
        onTable env (·.epollCreate) (tryStartup env w) := if_neg hguard
    rw [hpast] at hw'
    exact (trace_of_onTable hw').trans tryStartup_trace

lemma memfdCreate_not_passesThrough {name : CStr} {flags : Int32} :
    ¬ PassesThrough env w (.memfdCreate name flags) := by
  by_cases hguard : w.inert = true
  · have hdup3 : [OrigCall.syscall .dup3 [name.addr, flags.toInt]] ≠
        [(Call.memfdCreate name flags).original] := by simp [Call.original]
    refine not_passesThrough_of_trace hdup3 fun n w' hw' => ?_
    have hcall : handle env (fun _ _ => 0) (.memfdCreate name flags) w =
        original (fun _ _ => 0) (.syscall .dup3 [name.addr, flags.toInt]) w := if_pos hguard
    rw [hcall] at hw'
    cases hw'
    rfl
  · refine not_passesThrough_of_silent fun n w' hw' => ?_
    have hpast : handle env (fun _ _ => 0) (.memfdCreate name flags) w =
        onTable env (·.addMemfdHandler name.text flags) (tryStartup env w) := if_neg hguard
    rw [hpast] at hw'
    exact (trace_of_onTable hw').trans tryStartup_trace

lemma dup3_passesThrough {oldfd newfd flags : ℤ} (h : (w.off || w.run_with_kernel) ∨
    ¬ w.Manages env oldfd) : PassesThrough env w (.dup3 oldfd newfd flags) := by
  refine passesThrough_of_original fun orig => ?_
  show ∃ w0 : World, handleDup3 env orig oldfd newfd flags w = original orig _ w0 ∧ _
  unfold handleDup3
  rw [← off_or_kernel] at h
  by_cases hguard : w.inert = true
  · exact ⟨w, if_pos hguard, rfl, rfl⟩
  · have hfd := getHandler_of_not_manages (h.resolve_left hguard)
    rw [if_neg hguard]
    dsimp only
    rw [tryStartup_table, isMapFd_eq_false hfd, if_neg (by decide)]
    exact ⟨_, rfl, rfl, rfl⟩

lemma passesThrough_iff_of_dropped {P : Prop} [Decidable P] (m : ℤ) (g : World → World)
    (hhandle : ∀ orig, ∃ w1, w1 = (if (w.off || w.run_with_kernel) = true then w.called c.original
    else w) ∧ handle env orig c w =
    if P then some (m, g (tryStartup env w1)) else original orig c.original (tryStartup env w1)) :
    PassesThrough env w c ↔ ¬ (w.off || w.run_with_kernel) ∧ ¬ P := by
  by_cases hP : P
  · refine iff_of_false (not_passesThrough_of_result m fun orig => ?_) fun h => h.2 hP
    obtain ⟨w1, -, heq⟩ := hhandle orig
    exact ⟨_, heq.trans (if_pos hP)⟩
  · by_cases hguard : (w.off || w.run_with_kernel) = true
    · have htwice : [c.original, c.original] ≠ [c.original] := by simp
      refine iff_of_false (not_passesThrough_of_trace htwice fun n w' hw' => ?_) fun h => h.1 hguard
      obtain ⟨w1, hw1, heq⟩ := hhandle fun _ _ => 0
      rw [heq, if_neg hP, hw1, if_pos hguard] at hw'
      cases hw'
      exact append_assoc _ _ _
    · refine iff_of_true (passesThrough_of_original fun orig => ⟨tryStartup env w, ?_, rfl, rfl⟩) ⟨hguard, hP⟩
      obtain ⟨w1, hw1, heq⟩ := hhandle orig
      rw [heq, if_neg hP, hw1, if_neg hguard]

lemma munmap_passesThrough_iff : PassesThrough env w (.munmap addr size) ↔
    ¬ (w.off || w.run_with_kernel) ∧ ¬ addr ∈ w.mocked_mmap_values := by
  refine passesThrough_iff_of_dropped 0
    (fun w => { w with mocked_mmap_values := w.mocked_mmap_values.erase addr }) fun orig => ?_
  refine ⟨_, rfl, ?_⟩
  show handleMunmap env orig addr size w = _
  unfold handleMunmap
  rw [off_or_kernel]
  cases w.off || w.run_with_kernel <;> rfl

lemma epollWait_passesThrough_iff {maxevents timeout : ℤ} :
    PassesThrough env w (.epollWait epfd evt maxevents timeout) ↔
    ¬ (w.off || w.run_with_kernel) ∧ ¬ isEpollFd (w.table env) epfd := by
  refine passesThrough_iff_of_dropped (env.epollWait epfd) id fun orig => ?_
  refine ⟨_, rfl, ?_⟩
  show handleEpollWait env orig epfd evt maxevents timeout w = _
  unfold handleEpollWait
  rw [off_or_kernel]
  cases w.off || w.run_with_kernel <;> rfl

lemma epollCtl_passesThrough_iff {op fd : ℤ} : PassesThrough env w (.epollCtl epfd op fd evt) ↔
    (!w.enable_mock || w.run_with_kernel || !w.enable_mock_after_initialized) = true ∨
    ¬ addsToEpoll (w.table env) epfd op fd := by
  by_cases hguard : (!w.enable_mock || w.run_with_kernel || !w.enable_mock_after_initialized) = true
  · exact iff_of_true (passesThrough_of_original fun orig => ⟨w, if_pos hguard, rfl, rfl⟩) (.inl hguard)
  · rw [or_iff_right hguard]
    have hpast : ∀ orig, handle env orig (.epollCtl epfd op fd evt) w =
        if addsToEpoll (w.table env) epfd op fd then some (0, tryStartup env w)
        else original orig (.epollCtl epfd op fd evt) (tryStartup env w) := fun orig => if_neg hguard
    by_cases hadds : addsToEpoll (w.table env) epfd op fd
    · refine iff_of_false (not_passesThrough_of_silent fun n w' hw' => ?_) (not_not_intro hadds)
      rw [hpast, if_pos hadds] at hw'
      cases hw'
      rfl
    · refine iff_of_true (passesThrough_of_original fun orig => ⟨tryStartup env w, ?_, rfl, rfl⟩) hadds
      exact (hpast orig).trans (if_neg hadds)

lemma onPerfEvent_eq {fd : ℤ} (hf : f (w.table env) = some (.error .ENOENT, w.table env)) :
    ∃ w0 : World, onPerfEvent env orig fd req data f (tryStartup env w) =
    original orig (.ioctl fd req data) w0 ∧ w0.trace = w.trace ∧ w0.table env = w.table env := by
  unfold onPerfEvent
  split_ifs
  · exact ⟨_, rfl, rfl, rfl⟩
  · unfold onTable
    rw [tryStartup_table, hf]
    exact ⟨_, rfl, rfl, rfl⟩

lemma ioctl_passesThrough {fd : ℤ} (h : w.off ∨ ¬ w.Manages env fd) :
    PassesThrough env w (.ioctl fd req data) := by
  refine passesThrough_of_original fun orig => ?_
  show ∃ w0 : World, handleIoctl env orig fd req data w = original orig (.ioctl fd req data) w0 ∧ _
  unfold handleIoctl
  by_cases hoff : w.off
  · exact ⟨w, if_pos hoff, rfl, rfl⟩
  · have hfd := getHandler_of_not_manages (h.resolve_left hoff)
    unfold off at hoff
    rw [if_neg hoff]
    split_ifs
    · exact onPerfEvent_eq (congrArg some (perfEventEnable_eq hfd true))
    · exact onPerfEvent_eq (congrArg some (perfEventEnable_eq hfd false))
    · exact onPerfEvent_eq (attachPerfToBpf_eq hfd data none)
    · exact ⟨_, rfl, rfl, rfl⟩

lemma perfevent_passesThrough_iff {attr : PerfEventAttr} {flags : ℕ} {pid cpu : Int32}
    {group_fd : ℤ} : PassesThrough env w (.perfevent attr ptr pid cpu group_fd flags) ↔
    w.off ∨ ¬ mockedType env attr.type := by
  have hhandle : ∀ orig, handle env orig (.perfevent attr ptr pid cpu group_fd flags) w =
      handlePerfevent env orig attr ptr pid cpu group_fd flags w := fun orig => rfl
  unfold handlePerfevent at hhandle
  by_cases hoff : w.off
  · refine iff_of_true (passesThrough_of_original fun orig => ⟨w, ?_, rfl, rfl⟩) (.inl hoff)
    rw [hhandle]
    exact if_pos hoff
  · rw [or_iff_right hoff]
    unfold off at hoff
    simp only [if_neg hoff] at hhandle
    unfold mockedType
    by_cases hmock : attr.type = env.uprobe_perf_type ∨ attr.type = env.kprobe_perf_type ∨
        attr.type = 2 ∨ attr.type = 1 ∨ attr.type = 1009 ∨ attr.type = 1008
    · -- The event is created in the table.
      refine iff_of_false (not_passesThrough_of_silent fun n w' hw' => ?_)
        (not_not_intro (decide_eq_true hmock))
      rw [hhandle] at hw'
      split_ifs at hw' <;>
        first
        | exact (trace_of_onTable hw').trans tryStartup_trace
        | omega
    · refine iff_of_true (passesThrough_of_original fun orig => ⟨tryStartup env w, ?_, rfl, rfl⟩) (by simpa using hmock)
      simp only [not_or] at hmock
      rw [hhandle, if_neg hmock.1, if_neg hmock.2.1, if_neg hmock.2.2.1, if_neg hmock.2.2.2.1,
        if_neg hmock.2.2.2.2.1, if_neg hmock.2.2.2.2.2]
      rfl

lemma passesThrough_iff_of_kernel {a : Action} {b : Bool} (hhandle : ∀ orig, handle env orig c w =
    if b = true then original orig c.original (tryStartup env w) else a (tryStartup env w))
    (hsilent : ∀ n w', a (tryStartup env w) = some (n, w') → w'.trace = w.trace) :
    PassesThrough env w c ↔ b = true := by
  by_cases hb : b = true
  · exact iff_of_true (passesThrough_of_original fun orig => ⟨_, (hhandle orig).trans (if_pos hb), rfl, rfl⟩) hb
  · refine iff_of_false (not_passesThrough_of_silent fun n w' hw' => ?_) hb
    rw [hhandle, if_neg hb] at hw'
    exact hsilent n w' hw'

lemma sysbpf_passesThrough_iff {attr : BpfAttr}
    (h : w.off ∨ attr.fds ≠ [] ∧ ∀ fd ∈ attr.fds, ¬ w.Manages env fd) :
    PassesThrough env w (.sysbpf attr ptr size) ↔ w.off ∨ w.run_with_kernel ∨ attr.isOther := by
  by_cases hoff : w.off
  · exact iff_of_true (passesThrough_of_original fun orig => ⟨w, if_pos hoff, rfl, rfl⟩) (.inl hoff)
  · rw [or_iff_right hoff]
    obtain ⟨hne, hfds⟩ := h.resolve_left hoff
    have hhandle : ∀ orig, handle env orig (.sysbpf attr ptr size) w = _ := fun orig => if_neg hoff
    have hmap : ∀ fd call n w', onMap env fd call (tryStartup env w) = some (n, w') →
        w'.trace = w.trace := fun fd call n w' h => (trace_of_onMap h).trans tryStartup_trace
    cases attr with
    | mapCreate | progLoad => exact (hne rfl).elim
    | mapLookupElem | mapUpdateElem | mapDeleteElem | mapLookupAndDeleteElem | mapGetNextKey =>
      simpa [isOther] using passesThrough_iff_of_kernel hhandle (hmap _ _)
    | linkCreate prog_fd target_fd attach_type bpf_cookie =>
      have hperf := isPerfFd_eq_false (getHandler_of_not_manages (hfds target_fd (by simp [BpfAttr.fds])))
      have hlink := passesThrough_iff_of_kernel hhandle fun n w' hw' =>
          (trace_of_createLink hw').trans tryStartup_trace
      rw [tryStartup_table, hperf] at hlink
      simpa [isOther] using hlink
    | mapFreeze | objGetInfoByFd =>
      simpa [isOther] using passesThrough_iff_of_kernel (a := fun w => some (0, w)) hhandle
        fun n w' hw' => by cases hw'; rfl
    | progAttach attach_bpf_fd target_fd =>
      have hperf := isPerfFd_eq_false (getHandler_of_not_manages (hfds target_fd (by simp [BpfAttr.fds])))
      have hattach := passesThrough_iff_of_kernel hhandle fun n w' hw' =>
          (trace_of_onTable hw').trans tryStartup_trace
      rw [tryStartup_table, hperf] at hattach
      simpa [isOther] using hattach
    | other => exact iff_of_true (passesThrough_of_original fun orig => ⟨_, hhandle orig, rfl, rfl⟩) (.inr rfl)

/-- Of the calls that have to be passed on, exactly those with `passes` are. -/
theorem passesThrough_iff (hmust : MustPass env w c) : PassesThrough env w c ↔ passes env w c = true := by
  -- What is known of the descriptors when mocking is on.
  have hfd : ∀ fd ∈ c.fds, w.mockingDisabled c ∨ ¬ w.Manages env fd := fun fd hmem =>
    hmust.imp_right fun h => h.2.1 fd hmem
  unfold passes
  cases c with
  | close fd => exact iff_of_true (close_passesThrough (hfd fd (by simp [Call.fds]))) rfl
  | openat fd file oflag mode =>
    rw [openat_passesThrough_iff]
    simp
  | read fd buf count => exact iff_of_true (read_passesThrough (hfd fd (by simp [Call.fds]))) rfl
  | sysbpf attr ptr size =>
    rw [sysbpf_passesThrough_iff (hmust.imp_right fun h => ⟨h.1.resolve_right (by simp [addrs]), h.2.1⟩)]
    simp [or_assoc]
  | perfevent attr ptr pid cpu group_fd flags =>
    rw [perfevent_passesThrough_iff]
    simp
  | mmap addr length prot flags fd offset => rw [mmap_passesThrough_iff, inert, off_or_kernel]
  | mmap64 addr length prot flags fd offset => rw [mmap64_passesThrough_iff]
  | ioctl fd req data => exact iff_of_true (ioctl_passesThrough (hfd fd (by simp [Call.fds]))) rfl
  | epollCreate1 flags =>
    refine iff_of_true ?_ rfl
    rw [epollCreate1_passesThrough_iff, inert, off_or_kernel]
    exact hmust.resolve_right fun h => h.1.elim (fun h => h rfl) (fun h => h rfl)
  | epollCtl epfd op fd evt =>
    rw [epollCtl_passesThrough_iff]
    simp
  | epollWait epfd evt maxevents timeout =>
    rw [epollWait_passesThrough_iff]
    have hepoll : w.mockingDisabled (.epollWait epfd evt maxevents timeout) ∨
        isEpollFd (w.table env) epfd = false :=
      (hfd epfd (by simp [Call.fds])).imp_right fun h => isEpollFd_eq_false (getHandler_of_not_manages h)
    unfold mockingDisabled at hepoll
    rcases hepoll with hoff | hepoll
    · simp [hoff]
    · simp [hepoll]
  | munmap addr size =>
    rw [munmap_passesThrough_iff]
    have haddr : w.mockingDisabled (.munmap addr size) ∨ addr ∉ w.mocked_mmap_values :=
      hmust.imp_right fun h => h.2.2 addr (by simp [addrs])
    unfold mockingDisabled at haddr
    rcases haddr with hoff | haddr
    · simp [hoff]
    · simp [haddr]
  | dup3 oldfd newfd flags => exact iff_of_true (dup3_passesThrough (hfd oldfd (by simp [Call.fds]))) rfl
  | memfdCreate name flags => exact iff_of_false memfdCreate_not_passesThrough (by simp)

lemma not_manages_new (fd : ℤ) : ¬ (new false).Manages plainEnv fd := by
  rintro (hmem | halloc)
  · simp [new] at hmem
  · have htable : ((new false).table plainEnv).handlers = replicate 4 .unused := rfl
    unfold isAllocated getHandler at halloc
    rw [htable, getElem?_replicate] at halloc
    split_ifs at halloc

/-- A mapping that was not made for the table is removed by the original call. -/
theorem passesThrough_munmap : MustPass plainEnv (new false) (.munmap 4096 4096) ∧
      PassesThrough plainEnv (new false) (.munmap 4096 4096) := by
  have hmust : MustPass plainEnv (new false) (.munmap 4096 4096) :=
    .inr ⟨.inr (by simp [Call.addrs]), by simp [Call.fds], by simp [new]⟩
  exact ⟨hmust, (passesThrough_iff hmust).mpr rfl⟩

/-- An anonymous mapping is made twice. While mocking is off, a mapping is removed twice, an epoll
instance is waited for twice, and instead of a memory file a descriptor is duplicated. -/
theorem not_passed_on : (MustPass plainEnv (new false) (.mmap64 0 4096 3 0x22 (-1) 0) ∧
      ¬ PassesThrough plainEnv (new false) (.mmap64 0 4096 3 0x22 (-1) 0)) ∧
    (MustPass plainEnv { new false with enable_mock := false } (.munmap 4096 4096) ∧
      ¬ PassesThrough plainEnv { new false with enable_mock := false } (.munmap 4096 4096)) ∧
    (MustPass plainEnv { new false with enable_mock := false } (.epollWait 3 4096 8 0) ∧
      ¬ PassesThrough plainEnv { new false with enable_mock := false } (.epollWait 3 4096 8 0)) ∧
    (MustPass plainEnv { new false with enable_mock := false } (.memfdCreate ⟨4096, "m"⟩ 0) ∧
      ¬ PassesThrough plainEnv { new false with enable_mock := false } (.memfdCreate ⟨4096, "m"⟩ 0)) := by
  refine ⟨⟨.inr ⟨.inl (by simp [Call.fds]), fun fd _ => not_manages_new fd, by simp [Call.addrs]⟩,
    ?_⟩, ⟨.inl rfl, ?_⟩, ⟨.inl rfl, ?_⟩, ⟨.inl rfl, memfdCreate_not_passesThrough⟩⟩
  · rw [mmap64_passesThrough_iff]
    decide
  · rw [munmap_passesThrough_iff]
    exact fun h => h.1 rfl
  · rw [epollWait_passesThrough_iff]
    exact fun h => h.1 rfl

end Bpftime.SyscallServer
