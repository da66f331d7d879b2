import Bpftime.SyscallServer.Model

/-!
# The driver of the daemon

`bpftime_driver` keeps a copy of the programs, maps and perf events of other processes in the table
of handlers.
-/

namespace Bpftime.Daemon

open SyscallServer (KernelMapInfo kernelUserMapOffset isMapFd replyOf)

structure ProgInfo where
  name : String
  type : Int32

/-- What the kernel answers while the driver handles an event. -/
structure Kernel where
  /-- `bpf_prog_get_fd_by_id` and `bpf_obj_get_info_by_fd`. -/
  progInfo : ℤ → Option ProgInfo
  /-- The ids of the maps of a program. -/
  relatedMaps : ℤ → Option (List ℤ)
  /-- `bpf_map_get_fd_by_id` and `bpf_obj_get_info_by_fd`. -/
  mapInfo : ℤ → Option KernelMapInfo
  /-- The instructions that the tracer has seen, in `bpf_prog_insns_map`. -/
  progInsns : ℤ → Option (List UInt64)
  /-- `get_bpf_obj_id_from_pid_fd`, which is negative if it fails. -/
  objId : BitVec 32 → ℤ → ℤ

/-- A `bpftime_driver` and the table of handlers. -/
structure Driver where
  shm : BpftimeShm
  pid_fd_to_id_map : AList fun _ : BitVec 64 => ℤ

/-- `get_pid_fd_key`. -/
def getPidFdKey (pid fd : BitVec 32) : BitVec 64 := (pid.signExtend 64 <<< 32) ||| fd.signExtend 64

/-- `find_minimal_unused_idx`. -/
def findMinimalUnusedIdx (shm : BpftimeShm) : ℤ :=
  match shm.handlers.findIdx? (· = .unused) with
  | some i => i
  | none => -1

def relocate (k : Kernel) (pid : BitVec 32) (inst : UInt64) : Option UInt64 :=
  let code := inst &&& 0xff
  let src_reg := (inst >>> 12) &&& 0xf
  if code = 0x18 ∧ (src_reg = 1 ∨ src_reg = 2) then
    let map_id := k.objId pid (inst >>> 32).toUInt32.toInt32.toInt
    if map_id < 0 then none
    else some ((inst &&& (0xffffffff : UInt64)) ||| ((UInt32.ofInt map_id).toUInt64 <<< (32 : UInt64)))
  else some inst

/-- `relocate_bpf_prog_insns`. -/
def relocateBpfProgInsns (k : Kernel) (id : ℤ) (pid : BitVec 32) : Option (List UInt64) :=
  (k.progInsns id).bind fun insns => insns.mapM (relocate k pid)

/-- `bpftime_maps_create_server`. -/
def bpftimeMapsCreateServer (k : Kernel) (kernel_id : ℤ) (shm : BpftimeShm) : Option (ℤ × BpftimeShm) :=
  match k.mapInfo kernel_id with
  | none => some (-1, shm)
  | some info =>
    let attr := { info.attr with
      type := info.attr.type + kernelUserMapOffset
      kernel_bpf_map_id := UInt32.ofInt kernel_id }
    if isMapFd shm kernel_id then some (0, shm)
    else do
      let (reply, shm) ← shm.addBpfMap kernel_id info.name attr
      let res ← replyOf reply
      return (if res < 0 then -1 else kernel_id, shm)

/-- The loop of `check_and_create_prog_related_maps`. -/
def createRelatedMaps (k : Kernel) : List ℤ → BpftimeShm → Option (ℤ × BpftimeShm)
  | [], shm => some (0, shm)
  | map_id :: map_ids, shm =>
    if isMapFd shm map_id then createRelatedMaps k map_ids shm
    else do
      let (res, shm) ← bpftimeMapsCreateServer k map_id shm
      if res < 0 then return (-1, shm) else createRelatedMaps k map_ids shm

/-- `check_and_create_prog_related_maps`. -/
def checkAndCreateProgRelatedMaps (k : Kernel) (kernel_id : ℤ) (shm : BpftimeShm) :
    Option (ℤ × BpftimeShm) :=
  match k.relatedMaps kernel_id with
  | none => some (-1, shm)
  | some map_ids => createRelatedMaps k map_ids shm

/-- `bpftime_progs_create_server`. -/
def bpftimeProgsCreateServer (k : Kernel) (kernel_id : ℤ) (server_pid : BitVec 32)
    (shm : BpftimeShm) : Option (ℤ × BpftimeShm) :=
  match k.progInfo kernel_id with
  | none => some (-1, shm)
  | some info =>
    if shm.isProgFd kernel_id then some (0, shm)
    else
      match relocateBpfProgInsns k kernel_id server_pid with
      | none => some (-1, shm)
      | some insns => do
        let (reply, shm) ← shm.addBpfProg kernel_id insns info.name info.type
        let res ← replyOf reply
        if res < 0 then return (-1, shm)
        let (res, shm) ← checkAndCreateProgRelatedMaps k kernel_id shm
        return (if res < 0 then -1 else kernel_id, shm)

namespace Driver

variable (d : Driver)

/-- `check_and_get_pid_fd`. -/
def checkAndGetPidFd (pid fd : BitVec 32) : ℤ := (d.pid_fd_to_id_map.lookup (getPidFdKey pid fd)).getD (-1)

def ensureProg (k : Kernel) (kernel_bpf_id : ℤ) (server_pid : BitVec 32) : Option (ℤ × BpftimeShm) :=
  if d.shm.isProgFd kernel_bpf_id then some (0, d.shm)
  else bpftimeProgsCreateServer k kernel_bpf_id server_pid d.shm

/-- `bpftime_attach_perf_to_bpf_server`. -/
def bpftimeAttachPerfToBpfServer (k : Kernel) (server_pid perf_fd : BitVec 32) (kernel_bpf_id : ℤ) :
    Option (ℤ × Driver) :=
  let perf_id := d.checkAndGetPidFd server_pid perf_fd
  if perf_id < 0 then some (-1, d)
  else do
    let (res, shm) ← d.ensureProg k kernel_bpf_id server_pid
    if res < 0 then return (-1, { d with shm })
    let (reply, shm) ← shm.attachPerfToBpf perf_id kernel_bpf_id none
    let res ← replyOf reply
    return (if res < 0 then -1 else 0, { d with shm })

/-- `bpftime_attach_perf_to_bpf_fd_server`. -/
def bpftimeAttachPerfToBpfFdServer (k : Kernel) (server_pid perf_fd : BitVec 32) (bpf_prog_fd : ℤ) :
    Option (ℤ × Driver) :=
  let prog_id := k.objId server_pid bpf_prog_fd
  if prog_id < 0 then some (-1, d)
  else d.bpftimeAttachPerfToBpfServer k server_pid perf_fd prog_id

/-- `bpftime_uprobe_create_server`. -/
def bpftimeUprobeCreateServer (server_pid fd : BitVec 32) (target_pid : Int32) (name : String)
    (offset : UInt64) (retprobe : Bool) (ref_ctr_off : UInt64) : Option (ℤ × Driver) :=
  let id := findMinimalUnusedIdx d.shm
  if id < 0 then some (-1, d)
  else do
    let (reply, shm) ← d.shm.addUprobe id target_pid name offset retprobe ref_ctr_off
    let res ← replyOf reply
    if res < 0 then return (-1, { d with shm })
    else return (id, ⟨shm, d.pid_fd_to_id_map.insert (getPidFdKey server_pid fd) id⟩)

/-- `bpftime_close_server`. -/
def bpftimeCloseServer (server_pid fd : BitVec 32) : Driver :=
  let fd_id := d.checkAndGetPidFd server_pid fd
  if fd_id < 0 then d
  else ⟨d.shm.closeFd fd_id, d.pid_fd_to_id_map.erase (getPidFdKey server_pid fd)⟩

/-- `bpftime_btf_load_server`. -/
def bpftimeBtfLoadServer (server_pid fd : BitVec 32) : ℤ × Driver :=
  let id := findMinimalUnusedIdx d.shm
  if id < 0 then (-1, d)
  else (0, { d with pid_fd_to_id_map := d.pid_fd_to_id_map.insert (getPidFdKey server_pid fd) id })

end Driver

inductive Object
  | prog (id : ℤ)
  | map (id : ℤ)
  | perf (pid fd : BitVec 32)
  | link (slot prog_id perf_id : ℤ)
deriving DecidableEq

inductive Event
  | progLoad (kernel_id : ℤ) (server_pid : BitVec 32)
  | mapCreate (kernel_id : ℤ)
  | btfLoad (server_pid fd : BitVec 32)
  | perfEventOpen (server_pid fd : BitVec 32) (target_pid : Int32) (name : String) (offset : UInt64)
      (retprobe : Bool) (ref_ctr_off : UInt64)
  | progAttach (server_pid perf_fd : BitVec 32) (kernel_bpf_id : ℤ)
  | progAttachFd (server_pid perf_fd : BitVec 32) (bpf_prog_fd : ℤ)
  | close (server_pid fd : BitVec 32) (dead : List Object)

/-- The driver, and the objects of the kernel that are alive and that it was told of. -/
structure State where
  driver : Driver
  alive : List Object

def State.init (max_fd_count : ℕ) (fake_fds : Stream' ℤ) (prog_types : Stream' Int32) : State :=
  ⟨⟨.create max_fd_count fake_fds prog_types, ∅⟩, []⟩

variable (k : Kernel)

/-- The maps of a program that the driver gets to: it stops at the first one that it can not ask
about. -/
def reached (shm : BpftimeShm) (kernel_id : ℤ) : List ℤ :=
  ((k.relatedMaps kernel_id).getD []).takeWhile fun m => isMapFd shm m || (k.mapInfo m).isSome

/-- The objects that `bpftime_progs_create_server` has to make copies of. -/
def progObjects (shm : BpftimeShm) (kernel_id : ℤ) (server_pid : BitVec 32) : List Object :=
  if (k.progInfo kernel_id).isNone then []
  else if shm.isProgFd kernel_id then [.prog kernel_id]
  else if (relocateBpfProgInsns k kernel_id server_pid).isNone then []
  else .prog kernel_id :: (reached k shm kernel_id).map .map

/-- The objects that `bpftime_attach_perf_to_bpf_server` has to make copies of, given its result. -/
def attachObjects (d : Driver) (server_pid perf_fd : BitVec 32) (kernel_bpf_id res : ℤ) : List Object :=
  let perf_id := d.checkAndGetPidFd server_pid perf_fd
  if perf_id < 0 then []
  else
    (if d.shm.isProgFd kernel_bpf_id then [] else progObjects k d.shm kernel_bpf_id server_pid) ++
      if res < 0 then [] else [.link d.shm.fake_fds.head kernel_bpf_id perf_id]

/-- The objects that are alive when a descriptor was closed: its perf event is gone with the
attachments to it. -/
def survivors (d : Driver) (server_pid fd : BitVec 32) (dead : List Object) (alive : List Object) :
    List Object :=
  alive.filter fun
    | .perf pid' fd' => ¬(pid' = server_pid ∧ fd' = fd)
    | .link slot prog_id perf_id => .link slot prog_id perf_id ∉ dead ∧ perf_id ≠ d.checkAndGetPidFd server_pid fd
    | o => o ∉ dead

def step (s : State) : Kernel × Event → Option (ℤ × State)
  | (k, .progLoad kernel_id server_pid) =>
    (bpftimeProgsCreateServer k kernel_id server_pid s.driver.shm).map fun p =>
      (p.1, ⟨{ s.driver with shm := p.2 }, s.alive ++ progObjects k s.driver.shm kernel_id server_pid⟩)
  | (k, .mapCreate kernel_id) =>
    (bpftimeMapsCreateServer k kernel_id s.driver.shm).map fun p =>
      (p.1, ⟨{ s.driver with shm := p.2 }, s.alive ++ if (k.mapInfo kernel_id).isNone then [] else [.map kernel_id]⟩)
  | (_, .btfLoad server_pid fd) =>
    let p := s.driver.bpftimeBtfLoadServer server_pid fd
    some (p.1, ⟨p.2, s.alive⟩)
  | (_, .perfEventOpen server_pid fd target_pid name offset retprobe ref_ctr_off) =>
    (s.driver.bpftimeUprobeCreateServer server_pid fd target_pid name offset retprobe ref_ctr_off).map
      fun p => (p.1, ⟨p.2, s.alive ++
        if findMinimalUnusedIdx s.driver.shm < 0 then [] else [.perf server_pid fd]⟩)
  | (k, .progAttach server_pid perf_fd kernel_bpf_id) =>
    (s.driver.bpftimeAttachPerfToBpfServer k server_pid perf_fd kernel_bpf_id).map fun p =>
      (p.1, ⟨p.2, s.alive ++ attachObjects k s.driver server_pid perf_fd kernel_bpf_id p.1⟩)
  | (k, .progAttachFd server_pid perf_fd bpf_prog_fd) =>
    (s.driver.bpftimeAttachPerfToBpfFdServer k server_pid perf_fd bpf_prog_fd).map fun p =>
      (p.1, ⟨p.2, s.alive ++ if k.objId server_pid bpf_prog_fd < 0 then []
        else attachObjects k s.driver server_pid perf_fd (k.objId server_pid bpf_prog_fd) p.1⟩)
  | (_, .close server_pid fd dead) =>
    some (0, ⟨s.driver.bpftimeCloseServer server_pid fd, survivors s.driver server_pid fd dead s.alive⟩)

end Bpftime.Daemon
