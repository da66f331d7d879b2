import Bpftime.Basic
import Mathlib.Data.List.AList

/-!
# The table of handlers

`bpftime_shm` of `runtime/src/bpftime_shm_internal.cpp` and the `handler_manager` behind it: a table
in shared memory that has one handler for each descriptor, a program, a map, a perf event, a link,
an epoll instance or a memory file.
-/

namespace Bpftime

open Function

/-! ## Handlers -/

/-- A `bpf_map_attr`. -/
structure BpfMapAttr where
  type : Int32
  key_size : UInt32
  value_size : UInt32
  max_ents : UInt32
  flags : UInt64
  ifindex : UInt32
  btf_vmlinux_value_type_id : UInt32
  btf_id : UInt32
  btf_key_type_id : UInt32
  btf_value_type_id : UInt32
  map_extra : UInt64
  kernel_bpf_map_id : UInt32
  gpu_thread_count : UInt32
deriving DecidableEq

/-- The map types of `bpf_map_type` that `map_init` knows. -/
inductive BpfMapType where
  | hash
  | array
  | progArray
  | perfEventArray
  | percpuHash
  | percpuArray
  | stackTrace
  | lruHash
  | lpmTrie
  | arrayOfMaps
  | queue
  | stack
  | ringbuf
  | bloomFilter
  | kernelUserHash
  | kernelUserArray
  | kernelUserPerfEventArray
  | kernelUserPercpuArray
  | other
deriving DecidableEq

def BpfMapType.ofInt (n : ℤ) : BpfMapType :=
  match n with
  | 1 => .hash
  | 2 => .array
  | 3 => .progArray
  | 4 => .perfEventArray
  | 5 => .percpuHash
  | 6 => .percpuArray
  | 7 => .stackTrace
  | 9 => .lruHash
  | 11 => .lpmTrie
  | 12 => .arrayOfMaps
  | 22 => .queue
  | 23 => .stack
  | 27 => .ringbuf
  | 30 => .bloomFilter
  | 1001 => .kernelUserHash
  | 1002 => .kernelUserArray
  | 1004 => .kernelUserPerfEventArray
  | 1006 => .kernelUserPercpuArray
  | _ => .other

/-- A `bpf_map_handler`. -/
structure BpfMapHandler where
  attr : BpfMapAttr
  name : String
  /-- The address of the container in the segment. -/
  map_impl_ptr : Option ℕ
deriving DecidableEq

/-- A `bpf_prog_handler`, with its instructions as words of eight bytes. -/
structure BpfProgHandler where
  type : Int32
  insns : List UInt64
  name : String
deriving DecidableEq

/-- A `bpf_link_handler`. -/
structure BpfLinkHandler where
  prog_id : ℤ
  attach_target_id : ℤ
  attach_cookie : Option UInt64
deriving DecidableEq

/-- A `perf_event_data_variant`. -/
inductive PerfEventData where
  | uprobe (offset : UInt64) (pid : Int32) (ref_ctr_off : UInt64) (module_name : String)
  | tracepoint (pid tracepoint_id : Int32)
  | software (cpu : Int32) (config : Int64) (sample_type : Int32)
  | custom (attach_argument : String)
  | kprobe (func_name : String) (addr ref_ctr_off : UInt64)
deriving DecidableEq

/-- A `bpf_perf_event_handler`. -/
structure BpfPerfEventHandler where
  type : Int32
  enabled : Bool
  data : PerfEventData
deriving DecidableEq

/-- A `handler_variant`. -/
inductive Handler where
  | unused
  | map (h : BpfMapHandler)
  | link (h : BpfLinkHandler)
  | prog (h : BpfProgHandler)
  | perfEvent (h : BpfPerfEventHandler)
  | epoll
  | memfd (name : String) (flags : Int32)
deriving DecidableEq

inductive MapCall where
  | lookup (key : List UInt8)
  | update (key value : List UInt8) (flags : UInt64)
  | delete (key : List UInt8)
  | getNextKey (key : Option (List UInt8))
  | push (value : List UInt8) (flags : UInt64)
  | pop
  | peek
deriving DecidableEq

/-- The container of a map: the attributes it was made with, and the calls made on it since. -/
structure Container where
  attr : BpfMapAttr
  calls : List MapCall
deriving DecidableEq

structure Segment where
  /-- The addresses of the objects that have a name. -/
  names : AList fun _ : String => ℕ
  objects : ℕ → Option Container
  /-- No object was ever made at this address or behind it. -/
  fresh : ℕ

namespace Segment

def empty : Segment := ⟨∅, fun _ => none, 0⟩

/-- `construct(name)`: null when the name is taken. -/
def construct (g : Segment) (name : String) (attr : BpfMapAttr) : Option ℕ × Segment :=
  if name ∈ g.names then (none, g)
  else (some g.fresh,
    { names := g.names.insert name g.fresh
      objects := update g.objects g.fresh (some ⟨attr, []⟩)
      fresh := g.fresh + 1 })

/-- `destroy(name)`: the object of that name is gone. -/
def destroy (g : Segment) (name : String) : Segment :=
  match g.names.lookup name with
  | none => g
  | some a => { g with names := g.names.erase name, objects := update g.objects a none }

end Segment

namespace BpfMapHandler

variable (h : BpfMapHandler)

/-- `get_container_name`. -/
def getContainerName : String := "ebpf_map_fd_" ++ h.name

/-- The checks of `map_init` in front of the construction of a container. -/
def constructs : Bool :=
  match BpfMapType.ofInt h.attr.type.toInt with
  -- The number of entries must be a power of two.
  | .ringbuf => ((List.range 32).filter fun i => h.attr.max_ents.toNat.testBit i).length = 1
  | .bloomFilter => h.attr.key_size = 0
  | .other => false
  | _ => true

/-- `map_init`: whether it returns 0. -/
def mapInit (g : Segment) : Bool × BpfMapHandler × Segment :=
  if h.constructs then
    let (ptr, g) := g.construct h.getContainerName h.attr
    (true, { h with map_impl_ptr := ptr }, g)
  else (false, h, g)

/-- The types whose container `map_free` destroys. -/
def frees : Bool :=
  match BpfMapType.ofInt h.attr.type.toInt with
  | .arrayOfMaps | .other => false
  | _ => true

/-- `map_free`. -/
def mapFree (g : Segment) : Segment := if h.frees then g.destroy h.getContainerName else g

end BpfMapHandler

/-- A `bpftime_shm`, with what the process around it will decide. -/
structure BpftimeShm where
  handlers : List Handler
  segment : Segment
  /-- The descriptors that `open_fake_fd` will return. -/
  fake_fds : Stream' ℤ
  /-- What the member `type` of the next program handlers will be. -/
  prog_types : Stream' Int32

/-- How a call ends: with a number, with -1 and an error number, or with an exception. -/
inductive ShmReply where
  | ret (n : ℤ)
  | error (e : Errno)
  | threw
deriving DecidableEq

namespace BpftimeShm

/-- A new table of `max_fd_count` slots. -/
def create (max_fd_count : ℕ) (fake_fds : Stream' ℤ) (prog_types : Stream' Int32) : BpftimeShm :=
  ⟨List.replicate max_fd_count .unused, .empty, fake_fds, prog_types⟩

variable (s : BpftimeShm)

/-- `get_handler`. -/
def getHandler (fd : ℤ) : Option Handler := if 0 ≤ fd then s.handlers[fd.toNat]? else none

def put (fd : ℤ) (h : Handler) : BpftimeShm := { s with handlers := s.handlers.set fd.toNat h }

/-- `is_allocated`. -/
def isAllocated (fd : ℤ) : Bool :=
  match s.getHandler fd with
  | none | some .unused => false
  | _ => true

/-- `is_prog_fd`. -/
def isProgFd (fd : ℤ) : Bool := s.getHandler fd matches some (.prog _)

/-- `is_perf_fd`. -/
def isPerfFd (fd : ℤ) : Bool := s.getHandler fd matches some (.perfEvent _)

/-- `set_handler`. -/
def setHandler (fd : ℤ) (h : Handler) : Option (ℤ × BpftimeShm) :=
  if s.isAllocated fd then some (-Errno.EEXIST.code, s)
  else if h = .unused then some (-Errno.ENOTSUP.code, s)
  else
    match s.getHandler fd with
    | none => none
    | some _ =>
      match h with
      | .map m =>
        -- What `map_init` returns is not looked at.
        let (_, m, g) := m.mapInit s.segment
        some (fd, { s.put fd (.map m) with segment := g })
      | h => some (fd, s.put fd h)

/-- The loop of `clear_id_at` over the links that meet a test. -/
def clearLinks (p : BpfLinkHandler → Bool) : BpftimeShm :=
  { s with handlers := s.handlers.map fun
    | .link l => if p l then .unused else .link l
    | h => h }

/-- `clear_id_at`. -/
def clearIdAt (fd : ℤ) : BpftimeShm :=
  match s.getHandler fd with
  | none => s
  | some (.map m) => { s.put fd .unused with segment := m.mapFree s.segment }
  | some (.perfEvent _) => (s.clearLinks fun l => l.attach_target_id = fd).put fd .unused
  | some (.prog _) => (s.clearLinks fun l => l.prog_id = fd).put fd .unused
  | some _ => s.put fd .unused

/-- `open_fake_fd`. -/
def openFakeFd : ℤ × BpftimeShm := (s.fake_fds.head, { s with fake_fds := s.fake_fds.tail })

def orFakeFd (fd : ℤ) : ℤ × BpftimeShm := if fd < 0 then s.openFakeFd else (fd, s)

/-- `set_handler` at a descriptor that is given, or at a new one. -/
def setHandlerAt (fd : ℤ) (h : Handler) : Option (ShmReply × BpftimeShm) :=
  let (fd, s) := s.orFakeFd fd
  (s.setHandler fd h).map fun p => (.ret p.1, p.2)

/-- `add_bpf_prog`. -/
def addBpfProg (fd : ℤ) (insns : List UInt64) (prog_name : String) (_prog_type : Int32) :
    Option (ShmReply × BpftimeShm) :=
  { s with prog_types := s.prog_types.tail }.setHandlerAt fd
    (.prog ⟨s.prog_types.head, insns, prog_name⟩)

/-- `add_bpf_map`. -/
def addBpfMap (fd : ℤ) (name : String) (attr : BpfMapAttr) : Option (ShmReply × BpftimeShm) :=
  let (fd, s) := s.orFakeFd fd
  match s.getHandler fd with
  | none => none
  | some h =>
    let s := if h = .unused then s else s.clearIdAt fd
    (s.setHandler fd (.map ⟨attr, name, none⟩)).map fun p => (.ret p.1, p.2)

/-- `dup_bpf_map`. -/
def dupBpfMap (oldfd newfd : ℤ) : Option (ShmReply × BpftimeShm) :=
  match s.getHandler oldfd with
  | some (.map m) =>
    let (newfd, s) := s.orFakeFd newfd
    match s.getHandler newfd with
    | none => none
    | some h =>
      if newfd = oldfd then none
      else
        let s := if h = .unused then s else s.clearIdAt newfd
        (s.setHandler newfd (.map ⟨m.attr, "dup_" ++ m.name, none⟩)).map fun p => (.ret p.1, p.2)
  | _ => some (.error .EBADF, s)

/-- `add_uprobe`. -/
def addUprobe (fd : ℤ) (pid : Int32) (name : String) (offset : UInt64) (retprobe : Bool)
    (ref_ctr_off : UInt64) : Option (ShmReply × BpftimeShm) :=
  s.setHandlerAt fd
    (.perfEvent ⟨if retprobe then 7 else 6, false, .uprobe offset pid ref_ctr_off name⟩)

/-- `add_uprobe_override`. -/
def addUprobeOverride (fd : ℤ) (pid : Int32) (name : String) (offset : UInt64) (is_replace : Bool) :
    Option (ShmReply × BpftimeShm) :=
  s.setHandlerAt fd
    (.perfEvent ⟨if is_replace then 1009 else 1008, true, .uprobe offset pid 0 name⟩)

/-- `add_kprobe`. -/
def addKprobe (fd : Option ℤ) (func_name : String) (addr : UInt64) (retprobe : Bool)
    (ref_ctr_off : UInt64) : Option (ShmReply × BpftimeShm) :=
  let (fd, s) := match fd with
    | some fd => (fd, s)
    | none => s.openFakeFd
  (s.setHandler fd (.perfEvent ⟨if retprobe then 9 else 8, false, .kprobe func_name addr ref_ctr_off⟩)).map
      fun p => (.ret p.1, p.2)

/-- `add_tracepoint`. -/
def addTracepoint (fd : ℤ) (pid tracepoint_id : Int32) : Option (ShmReply × BpftimeShm) :=
  s.setHandlerAt fd (.perfEvent ⟨2, false, .tracepoint pid tracepoint_id⟩)

/-- `add_software_perf_event`, which opens a descriptor when none is given. -/
def addSoftwarePerfEvent (fd : Option ℤ) (cpu sample_type : Int32) (config : Int64) :
    Option (ShmReply × BpftimeShm) :=
  let (fd, s) := match fd with
    | some fd => (fd, s)
    | none => s.openFakeFd
  (s.setHandler fd (.perfEvent ⟨1, false, .software cpu config sample_type⟩)).map
    fun p => (.ret p.1, p.2)

/-- `add_custom_perf_event`. -/
def addCustomPerfEvent (type : Int32) (attach_argument : String) : Option (ShmReply × BpftimeShm) :=
  let (fd, s) := s.openFakeFd
  if fd < 0 then some (.ret fd, s)
  else (s.setHandler fd (.perfEvent ⟨type, false, .custom attach_argument⟩)).map
    fun p => (.ret fd, p.2)

/-- `add_bpf_prog_attach_target`. -/
def addBpfProgAttachTarget (perf_fd bpf_fd : ℤ) (cookie : Option UInt64) : Option (ShmReply × BpftimeShm) :=
  if ¬ s.isProgFd bpf_fd then some (.error .ENOENT, s)
  else
    let (next_id, s) := s.openFakeFd
    if next_id < 0 then some (.ret (-Errno.ENOSPC.code), s)
    else (s.setHandler next_id (.link ⟨bpf_fd, perf_fd, cookie⟩)).map fun p => (.ret next_id, p.2)

/-- `attach_perf_to_bpf`. -/
def attachPerfToBpf (perf_fd bpf_fd : ℤ) (cookie : Option UInt64) : Option (ShmReply × BpftimeShm) :=
  if ¬ s.isPerfFd perf_fd then some (.error .ENOENT, s)
  else s.addBpfProgAttachTarget perf_fd bpf_fd cookie

/-- `add_bpf_link`, given the descriptors of its `bpf_link_create_args` as `int`s. -/
def addBpfLink (fd prog_fd target_fd : ℤ) : Option (ShmReply × BpftimeShm) :=
  let (fd, s) := s.orFakeFd fd
  if ¬ s.isProgFd prog_fd then some (.error .EBADF, s)
  else (s.setHandler fd (.link ⟨prog_fd, target_fd, none⟩)).map fun p => (.ret p.1, p.2)

/-- `perf_event_enable` and `perf_event_disable`. -/
def perfEventEnable (fd : ℤ) (enabled : Bool) : ShmReply × BpftimeShm :=
  match s.getHandler fd with
  | some (.perfEvent h) => (.ret 0, s.put fd (.perfEvent { h with enabled }))
  | _ => (.error .ENOENT, s)

/-- `epoll_create`. -/
def epollCreate : Option (ShmReply × BpftimeShm) :=
  let (fd, s) := s.openFakeFd
  if s.isAllocated fd then some (.ret (-1), s)
  else (s.setHandler fd .epoll).map fun p => (.ret p.1, p.2)

/-- `add_memfd_handler`. -/
def addMemfdHandler (name : String) (flags : Int32) : Option (ShmReply × BpftimeShm) :=
  let (fd, s) := s.openFakeFd
  (s.setHandler fd (.memfd name flags)).map fun p => (.ret p.1, p.2)

/-- `close_fd`. -/
def closeFd (fd : ℤ) : BpftimeShm := s.clearIdAt fd

def container (fd : ℤ) : Option Container :=
  match s.getHandler fd with
  | some (.map m) => m.map_impl_ptr.bind s.segment.objects
  | _ => none

/-- `bpf_map_lookup_elem` and the other calls on the map at a descriptor. -/
def mapCall (fd : ℤ) (c : MapCall) : Option (ShmReply × BpftimeShm) :=
  match s.getHandler fd with
  | some (.map m) => do
    let ptr ← m.map_impl_ptr
    let o ← s.segment.objects ptr
    let objects := update s.segment.objects ptr (some { o with calls := o.calls ++ [c] })
    return (.ret 0, { s with segment := { s.segment with objects } })
  | _ => some (.error .ENOENT, s)

end BpftimeShm

end Bpftime
