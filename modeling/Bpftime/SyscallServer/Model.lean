import Bpftime.Shm.Model

/-!
# The interposed libc calls

`syscall_context` of `runtime/syscall-server/syscall_context.cpp` stands in for some calls of the C
library.
-/

namespace Bpftime.SyscallServer

/-- A string of the caller: where it is and what it says. -/
structure CStr where
  addr : ℕ
  text : String
  deriving DecidableEq

/-- What the `bpf_attr` of a command says. -/
inductive BpfAttr
  | mapCreate (map_name : String) (attr : BpfMapAttr)
  | mapLookupElem (map_fd : ℤ) (key : List UInt8)
  | mapUpdateElem (map_fd : ℤ) (key value : List UInt8) (flags : UInt64)
  | mapDeleteElem (map_fd : ℤ) (key : List UInt8)
  | mapLookupAndDeleteElem (map_fd : ℤ)
  | mapGetNextKey (map_fd : ℤ) (key : Option (List UInt8))
  | progLoad (insns : List UInt64) (prog_name : String) (prog_type : Int32)
  | linkCreate (prog_fd target_fd : ℤ) (attach_type : ℕ) (bpf_cookie : UInt64)
  | mapFreeze (map_fd : ℤ)
  | objGetInfoByFd (bpf_fd : ℤ)
  | progAttach (attach_bpf_fd target_fd : ℤ)
  | other (cmd : ℤ) (fd : ℤ)
  deriving DecidableEq

def BpfAttr.cmd : BpfAttr → ℤ
  | mapCreate .. => 0
  | mapLookupElem .. => 1
  | mapUpdateElem .. => 2
  | mapDeleteElem .. => 3
  | mapGetNextKey .. => 4
  | progLoad .. => 5
  | progAttach .. => 8
  | objGetInfoByFd .. => 15
  | mapLookupAndDeleteElem .. => 21
  | mapFreeze .. => 22
  | linkCreate .. => 28
  | other cmd _ => cmd

/-- The members of a `perf_event_attr` that are read. -/
structure PerfEventAttr where
  type : ℤ
  config : UInt64
  config1 : CStr
  config2 : UInt64
  sample_type : Int32
  deriving DecidableEq

inductive Call
  | close (fd : ℤ)
  | openat (fd : ℤ) (file : CStr) (oflag : ℤ) (mode : BitVec 16)
  | read (fd : ℤ) (buf count : ℕ)
  | sysbpf (attr : BpfAttr) (ptr size : ℕ)
  | perfevent (attr : PerfEventAttr) (ptr : ℕ) (pid cpu : Int32) (group_fd : ℤ) (flags : ℕ)
  | mmap (addr length : ℕ) (prot flags : BitVec 32) (fd offset : ℤ)
  | mmap64 (addr length : ℕ) (prot flags : BitVec 32) (fd offset : ℤ)
  | ioctl (fd : ℤ) (req : ℕ) (data : ℤ)
  | epollCreate1 (flags : ℤ)
  | epollCtl (epfd op fd : ℤ) (evt : ℕ)
  | epollWait (epfd : ℤ) (evt : ℕ) (maxevents timeout : ℤ)
  | munmap (addr size : ℕ)
  | dup3 (oldfd newfd flags : ℤ)
  | memfdCreate (name : CStr) (flags : Int32)
  deriving DecidableEq

inductive SyscallNr
  | bpf
  | perfEventOpen
  | dup3
  | memfdCreate
  deriving DecidableEq

inductive OrigCall
  | close (fd : ℤ)
  | openat (fd : ℤ) (file : ℕ) (oflag : ℤ) (mode : BitVec 16)
  | open (file : ℕ) (oflag : ℤ) (mode : BitVec 16)
  | read (fd : ℤ) (buf count : ℕ)
  | mmap (addr length : ℕ) (prot flags : BitVec 32) (fd offset : ℤ)
  | ioctl (fd : ℤ) (req : ℕ) (data : ℤ)
  | epollCreate1 (flags : ℤ)
  | epollCtl (epfd op fd : ℤ) (evt : ℕ)
  | epollWait (epfd : ℤ) (evt : ℕ) (maxevents timeout : ℤ)
  | munmap (addr size : ℕ)
  | syscall (nr : SyscallNr) (args : List ℤ)
  deriving DecidableEq

/-- What the original functions return, each given the original calls before it. -/
abbrev Results := List OrigCall → OrigCall → ℤ

/-! ## State -/

/-- A `mocked_file_provider`. -/
structure MockedFile where
  cursor : Int32
  buf : String
  deriving DecidableEq

structure KernelMapInfo where
  id : UInt32
  name : String
  attr : BpfMapAttr

structure Env where
  /-- The table that `start_up` makes. -/
  max_fd_count : ℕ
  fake_fds : Stream' ℤ
  prog_types : Stream' Int32
  /-- `resolve_filename_and_fd_to_full_path`. -/
  fullPath : ℤ → String → Option String
  mkstemp : ℤ
  /-- What `determine_uprobe_perf_type` and the like return. -/
  uprobe_perf_type : ℤ
  uprobe_retprobe_bit : ℕ
  kprobe_perf_type : ℤ
  kprobe_retprobe_bit : ℕ
  /-- What a call on a map returns. -/
  mapReply : Container → MapCall → ℤ
  /-- The addresses of what can be mapped, null when there is none. -/
  consumerPage : ℤ → Option ℕ
  producerPage : ℤ → Option ℕ
  arrayRawData : ℤ → Option ℕ
  softwareBuffer : ℤ → ℕ → Option ℕ
  /-- What `bpftime_epoll_wait` returns. -/
  epollWait : ℤ → ℤ
  /-- `bpf_obj_get_info_by_fd`. -/
  kernelMapInfo : ℤ → Option KernelMapInfo
  /-- Whether a program goes past the verifier of the kernel, and the attributes for that. -/
  byPass : String → Bool
  local_attr : ℕ
  /-- Whether the verifier admits a program for a section. -/
  verify : String → List UInt64 → Bool

def plainEnv : Env where
  max_fd_count := 4
  fake_fds := Stream'.const 3
  prog_types := Stream'.const 0
  fullPath _ _ := none
  mkstemp := -1
  uprobe_perf_type := 9
  uprobe_retprobe_bit := 0
  kprobe_perf_type := 8
  kprobe_retprobe_bit := 0
  mapReply _ _ := 0
  consumerPage _ := none
  producerPage _ := none
  arrayRawData _ := none
  softwareBuffer _ _ := none
  epollWait _ := 0
  kernelMapInfo _ := none
  byPass _ := false
  local_attr := 0
  verify _ _ := true

/-- The state of a `syscall_context`, with the table of handlers and the original calls made so
far. -/
structure World where
  enable_mock : Bool
  initializing_cuda : Bool
  enable_mock_after_initialized : Bool
  run_with_kernel : Bool
  mocked_files : AList fun _ : ℤ => MockedFile
  mocked_mmap_values : Finset ℕ
  shm : Option BpftimeShm
  trace : List OrigCall

/-- The state that the constructor leaves. -/
def World.new (run_with_kernel : Bool) : World where
  enable_mock := true
  initializing_cuda := false
  enable_mock_after_initialized := true
  run_with_kernel := run_with_kernel
  mocked_files := ∅
  mocked_mmap_values := ∅
  shm := none
  trace := []

/-- The table that `start_up` makes. -/
def Env.newShm (env : Env) : BpftimeShm := BpftimeShm.create env.max_fd_count env.fake_fds env.prog_types

/-- The table of handlers, which is a new one until `start_up`. -/
def World.table (env : Env) (w : World) : BpftimeShm := w.shm.getD env.newShm

def World.setTable (w : World) (s : BpftimeShm) : World := { w with shm := some s }

/-- What a handler does: the result and the state after it. -/
abbrev Action := World → Option (ℤ × World)

def World.called (w : World) (c : OrigCall) : World := { w with trace := w.trace ++ [c] }

def original (orig : Results) (c : OrigCall) : Action := fun w => some (orig w.trace c, w.called c)

def replyOf : ShmReply → Option ℤ
  | .ret n => some n
  | .error _ => some (-1)
  | .threw => none

def onTable (env : Env) (f : BpftimeShm → Option (ShmReply × BpftimeShm)) : Action := fun w => do
  let (reply, s) ← f (w.table env)
  let n ← replyOf reply
  return (n, w.setTable s)

/-- `try_startup`. -/
def tryStartup (env : Env) (w : World) : World := { w with enable_mock := true, shm := some (w.table env) }

/-- `is_map_fd`. -/
def isMapFd (s : BpftimeShm) (fd : ℤ) : Bool := s.getHandler fd matches some (.map _)

/-- The test of `is_ringbuf_map_fd` and `is_array_map_fd`. -/
def isMapOfType (s : BpftimeShm) (type : BpfMapType) (fd : ℤ) : Bool :=
  match s.getHandler fd with
  | some (.map m) => BpfMapType.ofInt m.attr.type.toInt = type
  | _ => false

/-- `is_ringbuf_map_fd`. -/
def isRingbufMapFd (s : BpftimeShm) (fd : ℤ) : Bool := isMapOfType s .ringbuf fd

/-- `is_array_map_fd`. -/
def isArrayMapFd (s : BpftimeShm) (fd : ℤ) : Bool := isMapOfType s .array fd

/-- `is_software_perf_event_handler_fd`. -/
def isSoftwarePerfEventHandlerFd (s : BpftimeShm) (fd : ℤ) : Bool :=
  match s.getHandler fd with
  | some (.perfEvent h) => h.type = 1
  | _ => false

/-- `is_epoll_fd`. -/
def isEpollFd (s : BpftimeShm) (fd : ℤ) : Bool := s.getHandler fd = some .epoll

/-- `add_ringbuf_to_epoll`: whether it returns 0. -/
def addRingbufToEpoll (s : BpftimeShm) (fd epfd : ℤ) : Bool :=
  isEpollFd s epfd &&
    match s.getHandler fd with
    | some (.map m) => m.map_impl_ptr.isSome
    | _ => false

/-- `add_software_perf_event_to_epoll`: whether it returns 0. -/
def addSoftwarePerfEventToEpoll (s : BpftimeShm) (fd epfd : ℤ) : Bool :=
  isEpollFd s epfd &&
    match s.getHandler fd with
    | some (.perfEvent h) => h.type = 1 && (h.data matches .software ..)
    | _ => false

/-- `handle_close`. -/
def handleClose (env : Env) (orig : Results) (fd : ℤ) : Action := fun w =>
  if !w.enable_mock || w.initializing_cuda || !w.enable_mock_after_initialized then
    original orig (.close fd) w
  else
    let w := tryStartup env w
    if fd ∈ w.mocked_files then some (0, { w with mocked_files := w.mocked_files.erase fd })
    else original orig (.close fd) (w.setTable ((w.table env).closeFd fd))

/-- `create_mocked_file_based_on_full_path`. -/
def createMockedFileBasedOnFullPath (path : String) : Option MockedFile :=
  if path = "/sys/bus/event_source/devices/uprobe/type" then some ⟨0, "9"⟩
  else if path = "/sys/bus/event_source/devices/uprobe/format/retprobe" then some ⟨0, "config:0"⟩
  else none

/-- `handle_openat`. -/
def handleOpenat (env : Env) (orig : Results) (fd : ℤ) (file : CStr) (oflag : ℤ)
    (mode : BitVec 16) : Action := fun w =>
  if !w.enable_mock || w.initializing_cuda || !w.enable_mock_after_initialized then
    original orig (.openat fd file.addr oflag mode) w
  else
    let w := tryStartup env w
    match env.fullPath fd file.text with
    | none => original orig (.openat fd file.addr oflag mode) w
    | some path =>
      match createMockedFileBasedOnFullPath path with
      | some mocker =>
        if env.mkstemp < 0 then original orig (.open file.addr oflag mode) w
        else
          -- `emplace` leaves a file that is there.
          let files := if env.mkstemp ∈ w.mocked_files then w.mocked_files
            else w.mocked_files.insert env.mkstemp mocker
          some (env.mkstemp, { w with mocked_files := files })
      | none => original orig (.openat fd file.addr oflag mode) w

/-- The bytes that `handle_read` copies of a mocked file, and the file behind them. -/
def MockedFile.read (file : MockedFile) (count : ℕ) : Option (List Char × MockedFile) :=
  -- The cursor is an `int`, and a `size_t` where it is subtracted or added to.
  let cursor := (file.cursor.toInt % 2^64).toNat
  let can_read_bytes := min count (sub64 file.buf.length cursor)
  if can_read_bytes = 0 then some ([], file)
  else if cursor + can_read_bytes ≤ file.buf.length then
    some ((file.buf.toList.drop cursor).take can_read_bytes,
      { file with cursor := .ofInt (cursor + can_read_bytes) })
  -- The copy reads behind the contents.
  else none

/-- `handle_read`. -/
def handleRead (env : Env) (orig : Results) (fd : ℤ) (buf count : ℕ) : Action := fun w =>
  if !w.enable_mock || w.initializing_cuda || !w.enable_mock_after_initialized then
    original orig (.read fd buf count) w
  else
    let w := tryStartup env w
    match w.mocked_files.lookup fd with
    | some file => (file.read count).map fun p =>
      (p.1.length, { w with mocked_files := w.mocked_files.replace fd p.2 })
    | none => original orig (.read fd buf count) w

/-! ## Handlers of `bpf` and `perf_event_open` -/

def kernelUserMapOffset : Int32 := 1000

/-- `create_kernel_bpf_map`. -/
def createKernelBpfMap (env : Env) (map_fd : ℤ) : Action := fun w =>
  match env.kernelMapInfo map_fd with
  | none => some (-1, w)
  | some info =>
    let attr := { info.attr with
      type := info.attr.type + kernelUserMapOffset
      kernel_bpf_map_id := info.id }
    if isMapFd (w.table env) info.id.toNat then some (0, w)
    else do
      let (res, w) ← onTable env (·.addBpfMap info.id.toNat info.name attr) w
      return (if res < 0 then -1 else map_fd, w)

/-- The instruction with the id of a map for its descriptor, in `EBPF_OP_LDDW`. -/
def relocate (env : Env) (inst : UInt64) : Option UInt64 :=
  let code := inst &&& 0xff
  let src_reg := (inst >>> 12) &&& 0xf
  if code = 0x18 ∧ (src_reg = 1 ∨ src_reg = 2) then
    (env.kernelMapInfo (inst >>> 32).toUInt32.toInt32.toInt).map fun info =>
      (inst &&& (0xffffffff : UInt64)) ||| (info.id.toUInt64 <<< (32 : UInt64))
  else some inst

/-- `create_kernel_bpf_prog_in_userspace`. -/
def createKernelBpfProgInUserspace (env : Env) (orig : Results) (insns : List UInt64)
    (prog_name : String) (prog_type : Int32) (ptr size : ℕ) : Action := fun w => do
  let ptr := if env.byPass prog_name then env.local_attr else ptr
  let (res, w) ← original orig (.syscall .bpf [5, ptr, size]) w
  if res < 0 then return (res, w)
  else
    match insns.mapM (relocate env) with
    | none => return (-1, w)
    | some insns => onTable env (·.addBpfProg res insns prog_name prog_type) w

def onMap (env : Env) (fd : ℤ) (c : MapCall) : Action := fun w => do
  let reply := match (w.table env).container fd with
    | some o => env.mapReply o c
    | none => -1
  let (_, w) ← onTable env (·.mapCall fd c) w
  return (reply, w)

def simpleSectionName (prog_type : Int32) : Option String :=
  if prog_type = 5 then some "tracepoint" else if prog_type = 1 then some "uprobe" else none

/-- The link of `BPF_LINK_CREATE`. -/
def createLink (env : Env) (prog_fd target_fd : ℤ) (attach_type : ℕ) (bpf_cookie : UInt64) : Action :=
  fun w => do
    let (id, w) ← onTable env (·.addBpfLink (-1) prog_fd target_fd) w
    -- `BPF_PERF_EVENT`.
    if (w.table env).isProgFd prog_fd && (w.table env).isPerfFd target_fd && attach_type = 41 then do
      let (_, w) ← onTable env (·.attachPerfToBpf target_fd prog_fd (some bpf_cookie)) w
      return (id, w)
    else return (id, w)

/-- `handle_sysbpf`. -/
def handleSysbpf (env : Env) (orig : Results) (attr : BpfAttr) (ptr size : ℕ) : Action := fun w =>
  let pass := original orig (.syscall .bpf [attr.cmd, ptr, size])
  if !w.enable_mock || w.initializing_cuda || !w.enable_mock_after_initialized then pass w
  else
    let w := tryStartup env w
    match attr with
    | .mapCreate map_name map_attr =>
      if w.run_with_kernel then do
        let (fd, w) ← pass w
        createKernelBpfMap env fd w
      else onTable env (·.addBpfMap (-1) map_name map_attr) w
    | .mapLookupElem map_fd key =>
      if w.run_with_kernel then pass w else onMap env map_fd (.lookup key) w
    | .mapUpdateElem map_fd key value flags =>
      if w.run_with_kernel then pass w else onMap env map_fd (.update key value flags) w
    | .mapDeleteElem map_fd key =>
      if w.run_with_kernel then pass w else onMap env map_fd (.delete key) w
    | .mapLookupAndDeleteElem map_fd =>
      if w.run_with_kernel then pass w else onMap env map_fd .pop w
    | .mapGetNextKey map_fd key =>
      if w.run_with_kernel then pass w else onMap env map_fd (.getNextKey key) w
    | .progLoad insns prog_name prog_type =>
      if w.run_with_kernel then
        createKernelBpfProgInUserspace env orig insns prog_name prog_type ptr size w
      else if (simpleSectionName prog_type).any fun section_name => !env.verify section_name insns then
        some (-1, w)
      else onTable env (·.addBpfProg (-1) insns prog_name prog_type) w
    | .linkCreate prog_fd target_fd attach_type bpf_cookie =>
      if w.run_with_kernel && !(w.table env).isPerfFd target_fd then pass w
      else createLink env prog_fd target_fd attach_type bpf_cookie w
    | .mapFreeze _ => if w.run_with_kernel then pass w else some (0, w)
    | .objGetInfoByFd _ => if w.run_with_kernel then pass w else some (0, w)
    | .progAttach attach_bpf_fd target_fd =>
      if w.run_with_kernel && !(w.table env).isPerfFd target_fd then pass w
      else onTable env (·.attachPerfToBpf target_fd attach_bpf_fd none) w
    | .other _ _ => pass w

/-- `handle_perfevent`. -/
def handlePerfevent (env : Env) (orig : Results) (attr : PerfEventAttr) (ptr : ℕ) (pid cpu : Int32)
    (group_fd : ℤ) (flags : ℕ) : Action := fun w =>
  let pass := original orig
    (.syscall .perfEventOpen [ptr, pid.toInt, cpu.toInt, group_fd, flags])
  if !w.enable_mock || w.initializing_cuda || !w.enable_mock_after_initialized then pass w
  else
    let w := tryStartup env w
    let name := attr.config1.text
    let ref_ctr_off := attr.config >>> 32
    if attr.type = env.uprobe_perf_type then
      let retprobe := attr.config.toNat.testBit env.uprobe_retprobe_bit
      onTable env (·.addUprobe (-1) pid name attr.config2 retprobe ref_ctr_off) w
    else if attr.type = env.kprobe_perf_type then
      let is_ret_probe := attr.config.toNat.testBit env.kprobe_retprobe_bit
      onTable env (·.addKprobe none name attr.config2 is_ret_probe ref_ctr_off) w
    -- `PERF_TYPE_TRACEPOINT`, `PERF_TYPE_SOFTWARE`, `BPF_TYPE_UREPLACE`,
    -- `BPF_TYPE_UPROBE_OVERRIDE`.
    else if attr.type = 2 then onTable env (·.addTracepoint (-1) pid attr.config.toUInt32.toInt32) w
    else if attr.type = 1 then
      onTable env (·.addSoftwarePerfEvent none cpu attr.sample_type attr.config.toInt64) w
    else if attr.type = 1009 then onTable env (·.addUprobeOverride (-1) pid name attr.config2 true) w
    else if attr.type = 1008 then onTable env (·.addUprobeOverride (-1) pid name attr.config2 false) w
    else pass w

/-- The result of mapping an object of the table at an address, if there is one. -/
def mapAt (ptr : Option ℕ) (w : World) : Option (ℤ × World) :=
  ptr.map fun p : ℕ => (p, { w with mocked_mmap_values := insert p w.mocked_mmap_values })

/-- The object of the table that `mmap64` maps for a descriptor. -/
def mappedObject (env : Env) (w : World) (length : ℕ) (prot : BitVec 32) (fd : ℤ) : Option ℕ :=
  if fd ≠ -1 ∧ isRingbufMapFd (w.table env) fd then
    if prot = 3 then env.consumerPage fd else if prot = 1 then env.producerPage fd else none
  else if fd ≠ -1 ∧ isArrayMapFd (w.table env) fd then env.arrayRawData fd
  else if fd ≠ -1 ∧ isSoftwarePerfEventHandlerFd (w.table env) fd then env.softwareBuffer fd length
  else none

/-- `handle_mmap64`. -/
def handleMmap64 (env : Env) (orig : Results) (addr length : ℕ) (prot flags : BitVec 32)
    (fd offset : ℤ) : Action := fun w =>
  if !w.enable_mock || w.run_with_kernel || w.initializing_cuda then
    original orig (.mmap addr length prot flags fd offset) w
  else
    let w := tryStartup env w
    match mapAt (mappedObject env w length prot fd) w with
    | some r => some r
    | none =>
      let w := w.called (.mmap addr length (prot ||| 2) (flags ||| 0x20) (-1) 0)
      original orig (.mmap addr length prot flags fd offset) w

/-- `handle_mmap`. -/
def handleMmap (env : Env) (orig : Results) (addr length : ℕ) (prot flags : BitVec 32)
    (fd offset : ℤ) : Action := fun w =>
  if !w.enable_mock || w.run_with_kernel || w.initializing_cuda || !w.enable_mock_after_initialized then
    original orig (.mmap addr length prot flags fd offset) w
  else handleMmap64 env orig addr length prot flags fd offset (tryStartup env w)

/-- `handle_munmap`. -/
def handleMunmap (env : Env) (orig : Results) (addr size : ℕ) : Action := fun w =>
  let w :=
    if !w.enable_mock || w.run_with_kernel || w.initializing_cuda || !w.enable_mock_after_initialized then
      w.called (.munmap addr size)
    else w
  let w := tryStartup env w
  if addr ∈ w.mocked_mmap_values then
    some (0, { w with mocked_mmap_values := w.mocked_mmap_values.erase addr })
  else original orig (.munmap addr size) w

/-- A request of `ioctl` about a perf event: on the table, or the original when that fails. -/
def onPerfEvent (env : Env) (orig : Results) (fd : ℤ) (req : ℕ) (data : ℤ)
    (f : BpftimeShm → Option (ShmReply × BpftimeShm)) : Action := fun w =>
  if w.run_with_kernel && !(w.table env).isPerfFd fd then original orig (.ioctl fd req data) w
  else do
    let (res, w) ← onTable env f w
    if 0 ≤ res then return (res, w) else original orig (.ioctl fd req data) w

/-- `handle_ioctl`. -/
def handleIoctl (env : Env) (orig : Results) (fd : ℤ) (req : ℕ) (data : ℤ) : Action := fun w =>
  if !w.enable_mock || w.initializing_cuda || !w.enable_mock_after_initialized then
    original orig (.ioctl fd req data) w
  else
    let w := tryStartup env w
    -- `PERF_EVENT_IOC_ENABLE`, `PERF_EVENT_IOC_DISABLE`, `PERF_EVENT_IOC_SET_BPF`.
    if req = 0x2400 then
      onPerfEvent env orig fd req data (fun s => some (s.perfEventEnable fd true)) w
    else if req = 0x2401 then
      onPerfEvent env orig fd req data (fun s => some (s.perfEventEnable fd false)) w
    else if req = 0x40042408 then
      onPerfEvent env orig fd req data (·.attachPerfToBpf fd data none) w
    else original orig (.ioctl fd req data) w

/-- `handle_epoll_create1`. -/
def handleEpollCreate1 (env : Env) (orig : Results) (flags : ℤ) : Action := fun w =>
  if !w.enable_mock || w.run_with_kernel || w.initializing_cuda || !w.enable_mock_after_initialized then
    original orig (.epollCreate1 flags) w
  else onTable env (·.epollCreate) (tryStartup env w)

/-- Whether `epoll_ctl` adds an object of the table to an epoll instance of the table. -/
def addsToEpoll (s : BpftimeShm) (epfd op fd : ℤ) : Bool :=
  -- `EPOLL_CTL_ADD`.
  op = 1 &&
    if isRingbufMapFd s fd then addRingbufToEpoll s fd epfd
    else isSoftwarePerfEventHandlerFd s fd && addSoftwarePerfEventToEpoll s fd epfd

/-- `handle_epoll_ctl`. -/
def handleEpollCtl (env : Env) (orig : Results) (epfd op fd : ℤ) (evt : ℕ) : Action := fun w =>
  if !w.enable_mock || w.run_with_kernel || !w.enable_mock_after_initialized then
    original orig (.epollCtl epfd op fd evt) w
  else
    let w := tryStartup env w
    if addsToEpoll (w.table env) epfd op fd then some (0, w)
    else original orig (.epollCtl epfd op fd evt) w

/-- `handle_epoll_wait`. -/
def handleEpollWait (env : Env) (orig : Results) (epfd : ℤ) (evt : ℕ) (maxevents timeout : ℤ) :
    Action := fun w =>
  let w :=
    if !w.enable_mock || w.run_with_kernel || w.initializing_cuda || !w.enable_mock_after_initialized then
      w.called (.epollWait epfd evt maxevents timeout)
    else w
  let w := tryStartup env w
  if isEpollFd (w.table env) epfd then some (env.epollWait epfd, w)
  else original orig (.epollWait epfd evt maxevents timeout) w

/-- `handle_dup3`. -/
def handleDup3 (env : Env) (orig : Results) (oldfd newfd flags : ℤ) : Action := fun w =>
  if !w.enable_mock || w.run_with_kernel || w.initializing_cuda || !w.enable_mock_after_initialized then
    original orig (.syscall .dup3 [oldfd, newfd, flags]) w
  else
    let w := tryStartup env w
    if isMapFd (w.table env) oldfd then onTable env (·.dupBpfMap oldfd newfd) w
    else original orig (.syscall .dup3 [oldfd, newfd, flags]) w

/-- `handle_memfd_create`. -/
def handleMemfdCreate (env : Env) (orig : Results) (name : CStr) (flags : Int32) : Action := fun w =>
  if !w.enable_mock || w.run_with_kernel || w.initializing_cuda || !w.enable_mock_after_initialized then
    original orig (.syscall .dup3 [name.addr, flags.toInt]) w
  else onTable env (·.addMemfdHandler name.text flags) (tryStartup env w)

def handle (env : Env) (orig : Results) : Call → Action
  | .close fd => handleClose env orig fd
  | .openat fd file oflag mode => handleOpenat env orig fd file oflag mode
  | .read fd buf count => handleRead env orig fd buf count
  | .sysbpf attr ptr size => handleSysbpf env orig attr ptr size
  | .perfevent attr ptr pid cpu group_fd flags => handlePerfevent env orig attr ptr pid cpu group_fd flags
  | .mmap addr length prot flags fd offset => handleMmap env orig addr length prot flags fd offset
  | .mmap64 addr length prot flags fd offset => handleMmap64 env orig addr length prot flags fd offset
  | .ioctl fd req data => handleIoctl env orig fd req data
  | .epollCreate1 flags => handleEpollCreate1 env orig flags
  | .epollCtl epfd op fd evt => handleEpollCtl env orig epfd op fd evt
  | .epollWait epfd evt maxevents timeout => handleEpollWait env orig epfd evt maxevents timeout
  | .munmap addr size => handleMunmap env orig addr size
  | .dup3 oldfd newfd flags => handleDup3 env orig oldfd newfd flags
  | .memfdCreate name flags => handleMemfdCreate env orig name flags

end Bpftime.SyscallServer
