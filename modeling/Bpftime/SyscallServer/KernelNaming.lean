import Bpftime.SyscallServer.Model
import Bpftime.Shm.Filing
import Bpftime.Lib.Runs

/-!
# The names of objects in kernel-assisted mode

With `run_with_kernel` the server also creates a map or a program in the kernel, which gives it a
descriptor, and an id if it is a map.
-/

namespace Bpftime.SyscallServer

open Option List AList BpftimeShm Int
open Runs (run Along forall_prefix_runs_iff_along)

inductive KernelObject
  | map (info : KernelMapInfo)
  | prog (info : KernelMapInfo)
  | other

/-- What the caller of a successful create was given a descriptor of. -/
inductive Granted
  | map (id : UInt32)
  | prog (insns : List UInt64) (name : String)

structure KernelSys where
  world : World
  /-- The descriptors of the process. -/
  fds : AList fun _ : ℤ => KernelObject
  /-- The ids that maps were given so far. -/
  map_ids : List UInt32
  /-- The descriptors that creates returned and that were not closed since. -/
  granted : AList fun _ : ℤ => Granted
  /-- The handlers that were removed when a descriptor of another object was closed. -/
  lost : List (Handler × ℕ)

/-- The calls, with what the kernel answers: the descriptor and the info on a new map, or the
descriptor and the like of a new program, or nothing if it fails. -/
inductive KernelOp
  | mapCreate (map_name : String) (attr : BpfMapAttr) (reply : Option (ℤ × KernelMapInfo))
  | progLoad (insns : List UInt64) (prog_name : String) (prog_type : Int32)
      (reply : Option (ℤ × KernelMapInfo))
  | close (fd : ℤ)

namespace KernelSys

def idsOf (fds : AList fun _ : ℤ => KernelObject) : List UInt32 :=
  fds.entries.filterMap fun e =>
    match e.2 with
    | .map info => some info.id
    | _ => none

/-- A server with a new table, in a process with some open descriptors. -/
def init (fds : AList fun _ : ℤ => KernelObject) : KernelSys := ⟨World.new true, fds, idsOf fds, ∅, []⟩

def infoOf (fds : AList fun _ : ℤ => KernelObject) (fd : ℤ) : Option KernelMapInfo :=
  match fds.lookup fd with
  | some (.map info) => some info
  | some (.prog info) => some info
  | _ => none

/-- The process around the handlers, with the descriptors as they are. -/
def envAt (env : Env) (fds : AList fun _ : ℤ => KernelObject) : Env :=
  { env with kernelMapInfo := infoOf fds }

def opened (fds : AList fun _ : ℤ => KernelObject) (object : KernelMapInfo → KernelObject) :
    Option (ℤ × KernelMapInfo) → AList fun _ : ℤ => KernelObject
  | some (fd, info) => fds.insert fd (object info)
  | none => fds

def returned (reply : Option (ℤ × KernelMapInfo)) : Results := fun _ _ =>
  match reply with
  | some (fd, _) => fd
  | none => -1

/-- What callers were granted, once a create has returned a number. -/
def grant (granted : AList fun _ : ℤ => Granted) (fd : ℤ) (object : Option Granted) : AList fun _ :
    ℤ => Granted :=
  match object with
  | some g => if 0 ≤ fd then granted.insert fd g else granted
  | none => granted

def isHandlerOf (fds : AList fun _ : ℤ => KernelObject) (fd : ℤ) (h : Handler) (i : ℕ) : Bool :=
  match fds.lookup fd, h with
  | some (.map info), .map _ => i = info.id.toNat
  | some (.prog _), .prog _ => (i : ℤ) = fd
  | _, _ => false

/-- The handlers of a table that are not in another any more, with their slots. -/
def removed (s s' : BpftimeShm) : List (Handler × ℕ) :=
  s.handlers.zipIdx.filter fun p => p.1 ≠ .unused ∧ s'.handlers[p.2]? ≠ some p.1

variable (env : Env)

def step (s : KernelSys) : KernelOp → Option (ℤ × KernelSys)
  | .mapCreate map_name attr reply =>
    let fds := opened s.fds .map reply
    (handleSysbpf (envAt env fds) (returned reply) (.mapCreate map_name attr) 0 0 s.world).map fun p =>
      (p.1, { s with
        world := p.2
        fds
        map_ids := s.map_ids ++ (reply.map fun r => r.2.id).toList
        granted := grant s.granted p.1 (reply.map fun r => .map r.2.id) })
  | .progLoad insns prog_name prog_type reply =>
    let fds := opened s.fds .prog reply
    (handleSysbpf (envAt env fds) (returned reply) (.progLoad insns prog_name prog_type) 0 0 s.world).map fun p =>
      (p.1, { s with
        world := p.2
        fds
        granted := grant s.granted p.1
          ((insns.mapM (relocate (envAt env fds))).map fun insns => .prog insns prog_name) })
  | .close fd =>
    (handleClose (envAt env s.fds) (fun _ _ => if fd ∈ s.fds then 0 else -1) fd s.world).map fun p =>
      (p.1, { s with
        world := p.2
        fds := s.fds.erase fd
        granted := s.granted.erase fd
        lost := s.lost ++ (removed (s.world.table env) (p.2.table env)).filter fun q => !isHandlerOf s.fds fd q.1 q.2 })

/-- What a descriptor was granted for can be used through it: the kernel has a map behind the
descriptor and its handler is filed under its id, or it has a program there and the handler is filed
under the descriptor. -/
def Usable (s : KernelSys) (fd : ℤ) : Granted → Prop
  | .map id => (∃ info, s.fds.lookup fd = some (.map info) ∧ info.id = id) ∧
    ∃ m, (s.world.table env).getHandler id.toNat = some (.map m) ∧ m.attr.kernel_bpf_map_id = id
  | .prog insns name => (∃ info, s.fds.lookup fd = some (.prog info)) ∧
    ∃ p, (s.world.table env).getHandler fd = some (.prog p) ∧ p.insns = insns ∧ p.name = name

/-- Every object can be used through the descriptor that its creator was given, and no handler was
lost when a descriptor of another object was closed. -/
structure Named (s : KernelSys) : Prop where
  usable : ∀ fd g, s.granted.lookup fd = some g → Usable env s fd g
  lost : s.lost = []

/-- What is known of the kernel: it gives out the lowest descriptor that is not in use, and ids that
no map was given before. -/
def KernelFresh (s : KernelSys) : KernelOp → Prop
  | .mapCreate _ _ (some (fd, info)) => 0 ≤ fd ∧ fd ∉ s.fds ∧ (∀ i, 0 ≤ i → i < fd → i ∈ s.fds) ∧ info.id ∉ s.map_ids
  | .progLoad _ _ _ (some (fd, _)) => 0 ≤ fd ∧ fd ∉ s.fds ∧ ∀ i, 0 ≤ i → i < fd → i ∈ s.fds
  | _ => True

instance (s : KernelSys) (op : KernelOp) : Decidable (KernelFresh s op) := by
  unfold KernelFresh
  split <;> infer_instance

def Fits (s : KernelSys) : KernelOp → Prop
  | .mapCreate _ _ (some (_, info)) => (s.world.table env).getHandler info.id.toNat = some .unused
  | .progLoad insns _ _ (some (fd, info)) =>
    insns.mapM (relocate (envAt env (opened s.fds .prog (some (fd, info))))) = none ∨
      ((s.world.table env).getHandler fd).isSome = true
  | .close fd => ∀ h, (s.world.table env).getHandler fd = some h → h = .unused ∨ isHandlerOf s.fds fd h fd.toNat = true
  | _ => True

instance (s : KernelSys) (op : KernelOp) : Decidable (Fits env s op) := by
  unfold Fits
  split
  · infer_instance
  · infer_instance
  · rename_i fd
    cases hget : (s.world.table env).getHandler fd with
    | none => exact isTrue fun h hh => by cases hh
    | some h => exact decidable_of_iff (h = .unused ∨ isHandlerOf s.fds fd h fd.toNat = true) (by simp)
  · infer_instance

/-! ## The handlers of the three calls -/

/-- The server handles calls, with the kernel, and has no mocked files. -/
structure Ready (w : World) : Prop where
  enable_mock : w.enable_mock = true
  initializing_cuda : w.initializing_cuda = false
  enable_mock_after_initialized : w.enable_mock_after_initialized = true
  run_with_kernel : w.run_with_kernel = true
  mocked_files : w.mocked_files = ∅

variable {env} {s : KernelSys} {w w' : World}

variable {f : BpftimeShm → Option (ShmReply × BpftimeShm)} {i : ℤ} {map_name prog_name : String}
  {prog_type : Int32} {op : KernelOp}

lemma onTable_eq {n : ℤ} {reply : ShmReply}
    {shm : BpftimeShm} (hf : f (w.table env) = some (reply, shm)) (hn : replyOf reply = some n) :
    onTable env f w = some (n, w.setTable shm) := by
  unfold onTable
  rw [hf]
  simp only [bind_eq_bind, bind_some, hn, pure]

lemma onTable_none (hf : f (w.table env) = none) : onTable env f w = none := by
  unfold onTable
  rw [hf]
  rfl

lemma handleSysbpf_mapCreate (hw : Ready w) (orig : Results) (map_name : String)
    (attr : BpfMapAttr) : handleSysbpf env orig (.mapCreate map_name attr) 0 0 w =
    createKernelBpfMap env (orig w.trace (.syscall .bpf [0, 0, 0]))
    ((tryStartup env w).called (.syscall .bpf [0, 0, 0])) := by
  obtain ⟨h1, h2, h3, h4, -⟩ := hw
  unfold handleSysbpf
  simp only [h1, h2, h3]
  simp [tryStartup, h4, original, BpfAttr.cmd]

lemma handleSysbpf_progLoad (hw : Ready w) (orig : Results) (insns : List UInt64) (prog_name : String)
    (prog_type : Int32) : handleSysbpf env orig (.progLoad insns prog_name prog_type) 0 0 w =
    createKernelBpfProgInUserspace env orig insns prog_name prog_type 0 0 (tryStartup env w) := by
  obtain ⟨h1, h2, h3, h4, -⟩ := hw
  unfold handleSysbpf
  simp only [h1, h2, h3]
  simp [tryStartup, h4]

lemma handleClose_eq (hw : Ready w) (orig : Results) (fd : ℤ) :
    handleClose env orig fd w = some (orig w.trace (.close fd),
    ((tryStartup env w).setTable ((w.table env).closeFd fd)).called (.close fd)) := by
  obtain ⟨h1, h2, h3, -, h5⟩ := hw
  unfold handleClose
  simp only [h1, h2, h3]
  simp [tryStartup, h5, original, World.setTable, World.table]

variable {info : KernelMapInfo} {fd fd' : ℤ} {h' : Handler} {insns : List UInt64} {s' : KernelSys}
  {g : Granted}

lemma createKernelBpfMap_spec (hinfo : env.kernelMapInfo fd = some info)
    (hmap : isMapFd (w.table env) info.id.toNat = false) :
    ((w.table env).addBpfMap info.id.toNat info.name { info.attr with
    type := info.attr.type + kernelUserMapOffset, kernel_bpf_map_id := info.id } = none →
      createKernelBpfMap env fd w = none) ∧
    ∀ n shm, 0 ≤ n → (w.table env).addBpfMap info.id.toNat info.name { info.attr with
        type := info.attr.type + kernelUserMapOffset, kernel_bpf_map_id := info.id } = some (.ret n, shm) →
      createKernelBpfMap env fd w = some (fd, w.setTable shm) := by
  have hmap' : ¬(isMapFd (w.table env) info.id.toNat = true) := by rw [hmap]; decide
  unfold createKernelBpfMap onTable
  simp only [hinfo]
  rw [if_neg hmap']
  constructor
  · intro hadd
    rw [hadd]
    rfl
  · intro n shm hn hadd
    have hn' : ¬n < 0 := by omega
    rw [hadd]
    simp only [bind_eq_bind, bind_some, replyOf, pure, hn', if_false]

lemma createKernelBpfProg_eq (env : Env) {o : Results} (hfd : 0 ≤ fd) (ho : ∀ t c, o t c = fd)
    (insns : List UInt64) (prog_name : String) (prog_type : Int32) :
    ∃ c, createKernelBpfProgInUserspace env o insns prog_name prog_type 0 0 w =
    match insns.mapM (relocate env) with
      | none => some (-1, w.called c)
      | some insns => onTable env (·.addBpfProg fd insns prog_name prog_type) (w.called c) := by
  have hfd' : ¬fd < 0 := by omega
  unfold createKernelBpfProgInUserspace original
  simp only [bind_eq_bind, bind_some, ho, hfd', if_false]
  exact ⟨_, rfl⟩

/-- What every call keeps: the table has programs that were granted under their descriptors, and
maps under the ids that they were given, and nothing else. -/
structure Inv (env : Env) (s : KernelSys) : Prop where
  ready : Ready s.world
  nonneg : ∀ fd ∈ s.fds, 0 ≤ fd
  granted_mem : ∀ fd ∈ s.granted, fd ∈ s.fds
  ids : ∀ fd info, s.fds.lookup fd = some (.map info) → info.id ∈ s.map_ids
  alone : ∀ fd id, s.granted.lookup fd = some (.map id) → id ∈ s.map_ids ∧
    ∀ fd' info, s.fds.lookup fd' = some (.map info) → info.id = id → fd' = fd
  slots : ∀ i h, (s.world.table env).getHandler i = some h → h = .unused ∨
    (∃ m, h = .map m ∧ (m.attr.kernel_bpf_map_id.toNat : ℤ) = i ∧ m.attr.kernel_bpf_map_id ∈ s.map_ids) ∨
    ∃ p insns name, h = .prog p ∧ s.granted.lookup i = some (.prog insns name)

section

variable (h : Inv env s)
include h

lemma Inv.ne_link (hi : (s.world.table env).getHandler i = some h') (l : BpfLinkHandler) : h' ≠ .link l := by
  rintro rfl
  rcases h.slots i _ hi with hunused | ⟨m, hm, -⟩ | ⟨p, insns, name, hp, -⟩
  · cases hunused
  · cases hm
  · cases hp

lemma Inv.getHandler_clearIdAt (hfd : (s.world.table env).getHandler fd = some h') (i : ℤ) :
    ((s.world.table env).clearIdAt fd).getHandler i =
    if i = fd then some .unused else (s.world.table env).getHandler i := by
  rw [BpftimeShm.getHandler_clearIdAt hfd]
  split_ifs with hi
  · rfl
  · cases hget : (s.world.table env).getHandler i with
    | none => rfl
    | some h'' => rw [map_some, BpftimeShm.cutSlot_of_ne_link (h.ne_link hget)]

lemma Inv.not_granted (hfd : fd ∉ s.fds) : s.granted.lookup fd = none :=
  lookup_eq_none.mpr fun hmem => hfd (h.granted_mem fd hmem)

lemma Inv.isMapFd_eq_false {id : UInt32} (hid : id ∉ s.map_ids) :
    isMapFd (s.world.table env) id.toNat = false := by
  unfold isMapFd
  cases hget : (s.world.table env).getHandler id.toNat with
  | none => rfl
  | some h' =>
    rcases h.slots _ _ hget with rfl | ⟨m, rfl, hm, hmem⟩ | ⟨p, insns, name, rfl, -⟩
    · rfl
    · have heq : m.attr.kernel_bpf_map_id = id := UInt32.toNat_inj.mp (by exact_mod_cast hm)
      rw [heq] at hmem
      exact absurd hmem hid
    · rfl

lemma Inv.addBpfMap_spec (i : ℕ) (name : String) (attr : BpfMapAttr) :
    ((s.world.table env).getHandler i = none → (s.world.table env).addBpfMap i name attr = none) ∧
    (((s.world.table env).getHandler i).isSome = true →
    ∃ shm m, (s.world.table env).addBpfMap i name attr = some (.ret i, shm) ∧ m.attr = attr ∧
    ∀ j, shm.getHandler j = if j = i then some (.map m) else (s.world.table env).getHandler j) := by
  refine ⟨fun hnone => addBpfMap_none (natCast_nonneg i) hnone name attr, fun hsome => ?_⟩
  obtain ⟨h', hget⟩ := isSome_iff_exists.mp hsome
  obtain ⟨shm, m, hadd, hattr, -, hslots⟩ := addBpfMap_some hget name attr
  refine ⟨shm, m, hadd, hattr, fun j => ?_⟩
  rw [hslots, h.getHandler_clearIdAt hget]
  split_ifs with hj
  · rfl
  · rfl

end

/-! ## What the calls do -/

structure Leaves (s s' : KernelSys) (fds : AList fun _ : ℤ => KernelObject) (map_ids : List UInt32)
    (granted : AList fun _ : ℤ => Granted) : Prop where
  ready : Ready s'.world
  fds : s'.fds = fds
  map_ids : s'.map_ids = map_ids
  granted : s'.granted = granted

section

variable (h : Inv env s)
include h

lemma Inv.mapCreate_none (map_name : String) (attr : BpfMapAttr) :
    ∃ s', step env s (.mapCreate map_name attr none) = some (-1, s') ∧
    Leaves s s' s.fds s.map_ids s.granted ∧ s'.lost = s.lost ∧
    ∀ j, (s'.world.table env).getHandler j = (s.world.table env).getHandler j := by
  have hinfo : infoOf s.fds (-1) = none := by
    have hmem : (-1 : ℤ) ∉ s.fds := fun hmem => by have := h.nonneg _ hmem; omega
    unfold infoOf
    rw [lookup_eq_none.mpr hmem]
  have hkernel : (envAt env s.fds).kernelMapInfo (-1) = none := hinfo
  obtain ⟨h1, h2, h3, h4, h5⟩ := h.ready
  rw [step, handleSysbpf_mapCreate h.ready]
  unfold createKernelBpfMap
  simp only [opened, returned, hkernel]
  refine ⟨_, rfl, ⟨⟨rfl, h2, h3, h4, h5⟩, rfl, by simp, rfl⟩, rfl, fun j => rfl⟩

lemma Inv.mapCreate_some {attr : BpfMapAttr}
    (hD : KernelFresh s (.mapCreate map_name attr (some (fd, info)))) :
    ((s.world.table env).getHandler info.id.toNat = none →
    step env s (.mapCreate map_name attr (some (fd, info))) = none) ∧
    (((s.world.table env).getHandler info.id.toNat).isSome = true →
    ∃ s' m, step env s (.mapCreate map_name attr (some (fd, info))) = some (fd, s') ∧
    Leaves s s' (s.fds.insert fd (.map info)) (s.map_ids ++ [info.id])
    (s.granted.insert fd (.map info.id)) ∧ s'.lost = s.lost ∧
    m.attr.kernel_bpf_map_id = info.id ∧ ∀ j, (s'.world.table env).getHandler j =
    if j = info.id.toNat then some (.map m) else (s.world.table env).getHandler j) := by
  obtain ⟨hfd, -, -, hid⟩ := hD
  have hinfo : (envAt env (s.fds.insert fd (.map info))).kernelMapInfo fd = some info := by
    show infoOf (s.fds.insert fd (.map info)) fd = some info
    unfold infoOf
    rw [lookup_insert]
  obtain ⟨h1, h2, h3, h4, h5⟩ := h.ready
  have hmap := h.isMapFd_eq_false hid
  obtain ⟨hnone, hsome⟩ := h.addBpfMap_spec info.id.toNat info.name { info.attr with
    type := info.attr.type + kernelUserMapOffset, kernel_bpf_map_id := info.id }
  obtain ⟨hcreateNone, hcreate⟩ := createKernelBpfMap_spec
    (w := (tryStartup (envAt env (s.fds.insert fd (.map info))) s.world).called (.syscall .bpf [0, 0, 0]))
    hinfo hmap
  rw [step, handleSysbpf_mapCreate h.ready]
  dsimp only [opened, returned]
  constructor
  · intro hbeyond
    rw [hcreateNone (hnone hbeyond)]
    rfl
  · intro hin
    obtain ⟨shm, m, hadd, hattr, hslots⟩ := hsome hin
    rw [hcreate _ _ (by omega) hadd, map_some]
    simp only [grant, map_some, hfd, if_true]
    exact ⟨_, m, rfl, ⟨⟨rfl, h2, h3, h4, h5⟩, rfl, rfl, rfl⟩, rfl, by rw [hattr], hslots⟩

lemma Inv.progLoad_none (insns : List UInt64) (prog_name : String) (prog_type : Int32) :
    ∃ s', step env s (.progLoad insns prog_name prog_type none) = some (-1, s') ∧
    Leaves s s' s.fds s.map_ids s.granted ∧ s'.lost = s.lost ∧
    ∀ j, (s'.world.table env).getHandler j = (s.world.table env).getHandler j := by
  obtain ⟨h1, h2, h3, h4, h5⟩ := h.ready
  have hgrant : ∀ object, grant s.granted (-1) object = s.granted := by
    intro object
    cases object with
    | none => rfl
    | some g =>
      rw [grant]
      exact if_neg (by decide)
  rw [step, handleSysbpf_progLoad h.ready]
  unfold createKernelBpfProgInUserspace original
  simp only [opened, returned, bind_eq_bind, bind_some, reduceNeg, reduceLT, if_true, pure, map_some, hgrant]
  exact ⟨_, rfl, ⟨⟨rfl, h2, h3, h4, h5⟩, rfl, rfl, rfl⟩, rfl, fun j => rfl⟩

lemma Inv.progLoad_some (hD : KernelFresh s (.progLoad insns prog_name prog_type (some (fd, info)))) :
    (insns.mapM (relocate (envAt env (s.fds.insert fd (.prog info)))) = none ∨
    (s.world.table env).isAllocated fd = true →
    ∃ r s', step env s (.progLoad insns prog_name prog_type (some (fd, info))) = some (r, s') ∧
    Leaves s s' (s.fds.insert fd (.prog info)) s.map_ids s.granted ∧ s'.lost = s.lost ∧
    ∀ j, (s'.world.table env).getHandler j = (s.world.table env).getHandler j) ∧
    (∀ insns', insns.mapM (relocate (envAt env (s.fds.insert fd (.prog info)))) = some insns' →
    ((s.world.table env).getHandler fd = none →
    step env s (.progLoad insns prog_name prog_type (some (fd, info))) = none) ∧
    ((s.world.table env).getHandler fd = some .unused →
    ∃ s' p, step env s (.progLoad insns prog_name prog_type (some (fd, info))) = some (fd, s') ∧
    Leaves s s' (s.fds.insert fd (.prog info)) s.map_ids
    (s.granted.insert fd (.prog insns' prog_name)) ∧ s'.lost = s.lost ∧
    p.insns = insns' ∧ p.name = prog_name ∧ ∀ j, (s'.world.table env).getHandler j =
    if j = fd then some (.prog p) else (s.world.table env).getHandler j)) := by
  have hfd : 0 ≤ fd := hD.1
  obtain ⟨h1, h2, h3, h4, h5⟩ := h.ready
  obtain ⟨c, hcreate⟩ := createKernelBpfProg_eq (envAt env (s.fds.insert fd (.prog info)))
      (w := tryStartup env s.world)
    (o := returned (some (fd, info))) hfd (fun _ _ => rfl) insns prog_name prog_type
  rw [step, handleSysbpf_progLoad h.ready]
  dsimp only [opened]
  rw [show tryStartup (envAt env (s.fds.insert fd (.prog info))) s.world = tryStartup env s.world from rfl, hcreate]
  constructor
  · intro hfail
    cases hinsns : insns.mapM (relocate (envAt env (s.fds.insert fd (.prog info)))) with
    | none => exact ⟨_, _, rfl, ⟨⟨rfl, h2, h3, h4, h5⟩, rfl, rfl, rfl⟩, rfl, fun j => rfl⟩
    | some insns' =>
      have halloc : (s.world.table env).isAllocated fd = true := by
        rcases hfail with hnone | halloc
        · rw [hinsns] at hnone
          cases hnone
        · exact halloc
      obtain ⟨shm, hadd, hslots⟩ := addBpfProg_allocated hfd halloc insns' prog_name prog_type
      dsimp only
      rw [onTable_eq (w := (tryStartup env s.world).called c) hadd rfl]
      exact ⟨_, _, rfl, ⟨⟨rfl, h2, h3, h4, h5⟩, rfl, rfl, rfl⟩, rfl, hslots⟩
  · intro insns' hinsns
    rw [hinsns]
    dsimp only
    constructor
    · intro hnone
      rw [onTable_none (w := (tryStartup env s.world).called c) (addBpfProg_none hfd hnone insns' prog_name prog_type)]
      rfl
    · intro hunused
      obtain ⟨shm, p, hadd, hinsns', hname, -, hslots⟩ :=
        addBpfProg_unused hfd hunused insns' prog_name prog_type
      rw [onTable_eq (w := (tryStartup env s.world).called c) hadd rfl, map_some]
      simp only [grant, map_some, hfd, if_true]
      exact ⟨_, p, rfl, ⟨⟨rfl, h2, h3, h4, h5⟩, rfl, rfl, rfl⟩, rfl, hinsns', hname, hslots⟩

lemma Inv.close_spec (fd : ℤ) : ∃ r s', step env s (.close fd) = some (r, s') ∧
    Leaves s s' (s.fds.erase fd) s.map_ids (s.granted.erase fd) ∧
    s'.lost = s.lost ++ (removed (s.world.table env) ((s.world.table env).clearIdAt fd)).filter
    (fun q => !isHandlerOf s.fds fd q.1 q.2) ∧ s'.world.table env = (s.world.table env).clearIdAt fd := by
  obtain ⟨h1, h2, h3, h4, h5⟩ := h.ready
  rw [step, handleClose_eq h.ready]
  exact ⟨_, _, rfl, ⟨⟨rfl, h2, h3, h4, h5⟩, rfl, rfl, rfl⟩, rfl, rfl⟩

end

/-- Descriptors that some others are added to, none of them of a map. -/
structure Extends (s : KernelSys) (fds : AList fun _ : ℤ => KernelObject) : Prop where
  nonneg : ∀ fd ∈ fds, 0 ≤ fd
  mem : ∀ fd ∈ s.fds, fd ∈ fds
  maps : ∀ fd info, fds.lookup fd = some (.map info) → s.fds.lookup fd = some (.map info)

section

variable (h : Inv env s)
include h

lemma Inv.extends_self : Extends s s.fds := ⟨h.nonneg, fun _ h => h, fun _ _ h => h⟩

lemma Inv.nonneg_insert (hfd : 0 ≤ fd) (object : KernelObject) :
    ∀ fd' ∈ s.fds.insert fd object, 0 ≤ fd' := by
  intro fd' hfd'
  rcases (mem_insert _).mp hfd' with rfl | hmem
  · exact hfd
  · exact h.nonneg fd' hmem

lemma Inv.extends_prog (hfd : 0 ≤ fd) (info : KernelMapInfo) : Extends s (s.fds.insert fd (.prog info)) := by
  refine ⟨h.nonneg_insert hfd _, fun _ hmem => (mem_insert _).mpr (.inr hmem), fun fd' info' hfd' => ?_⟩
  by_cases heq : fd' = fd
  · rw [heq, lookup_insert] at hfd'
    cases hfd'
  · rwa [lookup_insert_ne heq] at hfd'

lemma Inv.granted_insert (fd : ℤ) (object : KernelObject) (g : Granted) :
    ∀ fd' ∈ s.granted.insert fd g, fd' ∈ s.fds.insert fd object := by
  intro fd' hfd'
  rw [mem_insert] at hfd' ⊢
  exact hfd'.imp_right (h.granted_mem fd')

lemma Inv.of_leaves {fds : AList fun _ : ℤ => KernelObject}
    (hl : Leaves s s' fds s.map_ids s.granted) (hfds : Extends s fds)
    (hslots : ∀ j, (s'.world.table env).getHandler j = (s.world.table env).getHandler j) : Inv env s' := by
  refine ⟨hl.ready, ?_, ?_, ?_, ?_, fun i h' hi => ?_⟩
  · rw [hl.fds]
    exact hfds.nonneg
  · rw [hl.fds, hl.granted]
    exact fun fd hfd => hfds.mem fd (h.granted_mem fd hfd)
  · rw [hl.fds, hl.map_ids]
    exact fun fd info hfd => h.ids fd info (hfds.maps fd info hfd)
  · rw [hl.fds, hl.map_ids, hl.granted]
    intro fd id hfd
    obtain ⟨hmem, hone⟩ := h.alone fd id hfd
    exact ⟨hmem, fun fd' info hfd' => hone fd' info (hfds.maps fd' info hfd')⟩
  · rw [hslots] at hi
    rw [hl.map_ids, hl.granted]
    exact h.slots i h' hi

lemma Inv.filed_map {m : BpfMapHandler} (hfd : 0 ≤ fd) (hnew : fd ∉ s.fds) (hid : info.id ∉ s.map_ids)
    (hl : Leaves s s' (s.fds.insert fd (.map info)) (s.map_ids ++ [info.id])
    (s.granted.insert fd (.map info.id))) (hm : m.attr.kernel_bpf_map_id = info.id)
    (hslots : ∀ j, (s'.world.table env).getHandler j =
    if j = info.id.toNat then some (.map m) else (s.world.table env).getHandler j) : Inv env s' := by
  refine ⟨hl.ready, hl.fds ▸ h.nonneg_insert hfd _, ?_, ?_, ?_, fun i h' hi => ?_⟩
  · rw [hl.fds, hl.granted]
    exact h.granted_insert fd _ _
  · rw [hl.fds, hl.map_ids]
    intro fd' info' hfd'
    rw [mem_append]
    by_cases heq : fd' = fd
    · rw [heq, lookup_insert] at hfd'
      cases hfd'
      exact .inr (mem_singleton_self _)
    · rw [lookup_insert_ne heq] at hfd'
      exact .inl (h.ids fd' info' hfd')
  · -- The new map has a new id, so no other descriptor denotes it, and the new descriptor no other map.
    rw [hl.fds, hl.map_ids, hl.granted]
    intro fd' id hfd'
    rw [mem_append]
    by_cases heq : fd' = fd
    · rw [heq, lookup_insert] at hfd'
      cases hfd'
      refine ⟨.inr (mem_singleton_self _), fun fd'' info'' hfd'' hid'' => ?_⟩
      by_contra hne
      rw [heq] at hne
      rw [lookup_insert_ne hne] at hfd''
      exact hid (hid'' ▸ h.ids fd'' info'' hfd'')
    · rw [lookup_insert_ne heq] at hfd'
      obtain ⟨hmem, hone⟩ := h.alone fd' id hfd'
      refine ⟨.inl hmem, fun fd'' info'' hfd'' hid'' => ?_⟩
      by_cases heq' : fd'' = fd
      · rw [heq', lookup_insert] at hfd''
        cases hfd''
        exact absurd (hid'' ▸ hmem) hid
      · rw [lookup_insert_ne heq'] at hfd''
        exact hone fd'' info'' hfd'' hid''
  · rw [hl.map_ids, hl.granted]
    rw [hslots] at hi
    split_ifs at hi with heq
    · cases hi
      refine .inr (.inl ⟨m, rfl, ?_, ?_⟩)
      · rw [hm, heq]
      · rw [hm]
        simp
    · rcases h.slots i h' hi with hunused | ⟨m', rfl, hid', hmem⟩ | ⟨p, insns, name, rfl, hgranted⟩
      · exact .inl hunused
      · exact .inr (.inl ⟨m', rfl, hid', by simp [hmem]⟩)
      · refine .inr (.inr ⟨p, insns, name, rfl, ?_⟩)
        have hne : i ≠ fd := by
          rintro rfl
          rw [h.not_granted hnew] at hgranted
          cases hgranted
        rw [lookup_insert_ne hne, hgranted]

lemma Inv.filed_prog {p : BpfProgHandler} {name : String} (hfd : 0 ≤ fd)
    (hl : Leaves s s' (s.fds.insert fd (.prog info)) s.map_ids (s.granted.insert fd (.prog insns name)))
    (hslots : ∀ j, (s'.world.table env).getHandler j =
    if j = fd then some (.prog p) else (s.world.table env).getHandler j) : Inv env s' := by
  have hfds := h.extends_prog hfd info
  refine ⟨hl.ready, hl.fds ▸ hfds.nonneg, ?_, ?_, ?_, fun i h' hi => ?_⟩
  · rw [hl.fds, hl.granted]
    exact h.granted_insert fd _ _
  · rw [hl.fds, hl.map_ids]
    exact fun fd' info' hfd' => h.ids fd' info' (hfds.maps fd' info' hfd')
  · rw [hl.fds, hl.map_ids, hl.granted]
    intro fd' id hfd'
    by_cases heq : fd' = fd
    · rw [heq, lookup_insert] at hfd'
      cases hfd'
    · rw [lookup_insert_ne heq] at hfd'
      obtain ⟨hmem, hone⟩ := h.alone fd' id hfd'
      exact ⟨hmem, fun fd'' info'' hfd'' => hone fd'' info'' (hfds.maps fd'' info'' hfd'')⟩
  · rw [hl.map_ids, hl.granted]
    rw [hslots] at hi
    split_ifs at hi with heq
    · cases hi
      refine .inr (.inr ⟨p, insns, name, rfl, ?_⟩)
      rw [heq, lookup_insert]
    · rw [lookup_insert_ne heq]
      exact h.slots i h' hi

end

lemma ne_of_lookup_erase {β : Type} {fds : AList fun _ : ℤ => β} {b : β}
    (h : (fds.erase fd).lookup fd' = some b) : fd' ≠ fd := by
  rintro rfl
  rw [lookup_erase] at h
  cases h

lemma Inv.closed (h : Inv env s) (hl : Leaves s s' (s.fds.erase fd) s.map_ids (s.granted.erase fd))
    (htable : s'.world.table env = (s.world.table env).clearIdAt fd) : Inv env s' := by
  have hmaps : ∀ fd' object, (s.fds.erase fd).lookup fd' = some object → s.fds.lookup fd' = some object := by
    intro fd' object hfd'
    rwa [lookup_erase_ne (ne_of_lookup_erase hfd')] at hfd'
  refine ⟨hl.ready, ?_, ?_, ?_, ?_, fun i h' hi => ?_⟩
  · rw [hl.fds]
    exact fun fd' hfd' => h.nonneg fd' (mem_erase.mp hfd').2
  · rw [hl.fds, hl.granted]
    intro fd' hfd'
    rw [mem_erase] at hfd' ⊢
    exact hfd'.imp_right (h.granted_mem fd')
  · rw [hl.fds, hl.map_ids]
    exact fun fd' info hfd' => h.ids fd' info (hmaps fd' _ hfd')
  · rw [hl.fds, hl.map_ids, hl.granted]
    intro fd' id hfd'
    rw [lookup_erase_ne (ne_of_lookup_erase hfd')] at hfd'
    obtain ⟨hmem, hone⟩ := h.alone fd' id hfd'
    exact ⟨hmem, fun fd'' info'' hfd'' => hone fd'' info'' (hmaps fd'' _ hfd'')⟩
  · rw [htable] at hi
    rw [hl.map_ids, hl.granted]
    have hslot : h' = .unused ∨ i ≠ fd ∧ (s.world.table env).getHandler i = some h' := by
      cases hfd : (s.world.table env).getHandler fd with
      | none =>
        rw [clearIdAt_of_none hfd] at hi
        refine .inr ⟨?_, hi⟩
        rintro rfl
        rw [hfd] at hi
        cases hi
      | some h0 =>
        rw [h.getHandler_clearIdAt hfd] at hi
        split_ifs at hi with heq
        · exact .inl (some.inj hi).symm
        · exact .inr ⟨heq, hi⟩
    rcases hslot with hunused | ⟨hne, hi'⟩
    · exact .inl hunused
    · rw [lookup_erase_ne hne]
      exact h.slots i h' hi'

lemma Inv.of_step (h : Inv env s) {r : ℤ} (hD : KernelFresh s op)
    (hstep : step env s op = some (r, s')) : Inv env s' := by
  cases op with
  | mapCreate map_name attr reply =>
    cases reply with
    | none =>
      obtain ⟨s1, hstep1, hl, -, hslots⟩ := h.mapCreate_none map_name attr
      cases hstep.symm.trans hstep1
      exact h.of_leaves hl h.extends_self hslots
    | some reply =>
      obtain ⟨fd, info⟩ := reply
      obtain ⟨hnone, hsome⟩ := h.mapCreate_some hD
      cases hget : (s.world.table env).getHandler info.id.toNat with
      | none =>
        rw [hnone hget] at hstep
        cases hstep
      | some h' =>
        obtain ⟨s1, m, hstep1, hl, -, hm, hslots⟩ := hsome (by rw [hget]; rfl)
        cases hstep.symm.trans hstep1
        exact h.filed_map hD.1 hD.2.1 hD.2.2.2 hl hm hslots
  | progLoad insns prog_name prog_type reply =>
    cases reply with
    | none =>
      obtain ⟨s1, hstep1, hl, -, hslots⟩ := h.progLoad_none insns prog_name prog_type
      cases hstep.symm.trans hstep1
      exact h.of_leaves hl h.extends_self hslots
    | some reply =>
      obtain ⟨fd, info⟩ := reply
      obtain ⟨hfail, hload⟩ := h.progLoad_some hD
      by_cases hbad : insns.mapM (relocate (envAt env (s.fds.insert fd (.prog info)))) = none ∨
          (s.world.table env).isAllocated fd = true
      · obtain ⟨r1, s1, hstep1, hl, -, hslots⟩ := hfail hbad
        cases hstep.symm.trans hstep1
        exact h.of_leaves hl (h.extends_prog hD.1 info) hslots
      · obtain ⟨hinsns, halloc⟩ := not_or.mp hbad
        obtain ⟨insns', hinsns'⟩ := ne_none_iff_exists'.mp hinsns
        obtain ⟨hnone, hunused⟩ := hload insns' hinsns'
        rcases getHandler_of_not_isAllocated halloc with hget | hget
        · rw [hnone hget] at hstep
          cases hstep
        · obtain ⟨s1, p, hstep1, hl, -, -, -, hslots⟩ := hunused hget
          cases hstep.symm.trans hstep1
          exact h.filed_prog hD.1 hl hslots
  | close fd =>
    obtain ⟨r1, s1, hstep1, hl, -, htable⟩ := h.close_spec fd
    cases hstep.symm.trans hstep1
    exact h.closed hl htable

/-! ## Which calls keep the names -/

/-- The slot in which the handler of a granted object is to be found. -/
def slotOf (fd : ℤ) : Granted → ℤ
  | .map id => id.toNat
  | .prog _ _ => fd

lemma Usable.of_eq (hu : Usable env s fd g) (hfd : s'.fds.lookup fd = s.fds.lookup fd)
    (hslot : (s'.world.table env).getHandler (slotOf fd g) =
    (s.world.table env).getHandler (slotOf fd g)) : Usable env s' fd g := by
  unfold slotOf at hslot
  unfold Usable at hu ⊢
  cases g with
  | map _ | prog _ _ =>
    dsimp only at hu hslot ⊢
    rwa [hfd, hslot]

lemma Usable.slot_ne (hu : Usable env s fd g) :
    (s.world.table env).getHandler (slotOf fd g) ≠ some .unused := by
  cases g with
  | map id =>
    obtain ⟨-, m, hm, -⟩ := hu
    rw [slotOf, hm]
    simp
  | prog insns name =>
    obtain ⟨-, p, hp, -⟩ := hu
    rw [slotOf, hp]
    simp

lemma Inv.ne_of_granted (h : Inv env s) (hfd : fd ∉ s.fds) (hg : s.granted.lookup fd' = some g) :
    fd' ≠ fd := by
  rintro rfl
  rw [h.not_granted hfd] at hg
  cases hg

lemma Named.of_leaves (hn : Named env s) {fds : AList fun _ : ℤ => KernelObject}
    (hl : Leaves s s' fds s.map_ids s.granted)
    (hfds : ∀ fd g, s.granted.lookup fd = some g → fds.lookup fd = s.fds.lookup fd)
    (hlost : s'.lost = s.lost)
    (hslots : ∀ j, (s'.world.table env).getHandler j = (s.world.table env).getHandler j) : Named env s' := by
  refine ⟨fun fd g hg => ?_, hlost.trans hn.lost⟩
  rw [hl.granted] at hg
  exact (hn.usable fd g hg).of_eq ((congrArg _ hl.fds).trans (hfds fd g hg)) (hslots _)

lemma Named.filed (hn : Named env s) {object : KernelObject} {map_ids : List UInt32}
    (hl : Leaves s s' (s.fds.insert fd object) map_ids (s.granted.insert fd g)) (hlost : s'.lost = s.lost)
    (hi : (s.world.table env).getHandler i = some .unused) (hslots : ∀ j, (s'.world.table env).getHandler j =
    if j = i then some h' else (s.world.table env).getHandler j) (hu : Usable env s' fd g) : Named env s' := by
  refine ⟨fun fd' g' hg' => ?_, hlost.trans hn.lost⟩
  rw [hl.granted] at hg'
  by_cases heq : fd' = fd
  · rw [heq, lookup_insert] at hg'
    cases hg'
    exact heq ▸ hu
  · rw [lookup_insert_ne heq] at hg'
    have hu' := hn.usable fd' g' hg'
    have hne : slotOf fd' g' ≠ i := fun hslot => hu'.slot_ne (hslot ▸ hi)
    refine hu'.of_eq ?_ ?_
    · rw [hl.fds, lookup_insert_ne heq]
    · rw [hslots, if_neg hne]

section

variable (h : Inv env s)
include h

lemma Inv.mapCreate_iff (hn : Named env s) {attr : BpfMapAttr}
    (hD : KernelFresh s (.mapCreate map_name attr (some (fd, info)))) :
    (∃ r s', step env s (.mapCreate map_name attr (some (fd, info))) = some (r, s') ∧
    Named env s') ↔ (s.world.table env).getHandler info.id.toNat = some .unused := by
  obtain ⟨hnone, hsome⟩ := h.mapCreate_some hD
  obtain ⟨-, hnew, -, hid⟩ := hD
  constructor
  · rintro ⟨r, s', hstep, hn'⟩
    cases hget : (s.world.table env).getHandler info.id.toNat with
    | none =>
      rw [hnone hget] at hstep
      cases hstep
    | some h' =>
      obtain ⟨s1, m, hstep1, hl, -, -, hslots⟩ := hsome (by rw [hget]; rfl)
      cases hstep.symm.trans hstep1
      rcases h.slots _ _ hget with rfl | ⟨m', rfl, hm', hmem⟩ | ⟨p, insns, name, rfl, hg⟩
      · rfl
      · have heq : m'.attr.kernel_bpf_map_id = info.id := UInt32.toNat_inj.mp (by exact_mod_cast hm')
        exact absurd (heq ▸ hmem) hid
      · -- The program was granted, and a map is now in its slot.
        have hg' : s'.granted.lookup (info.id.toNat : ℤ) = some (.prog insns name) := by
          rw [hl.granted, lookup_insert_ne (h.ne_of_granted hnew hg), hg]
        obtain ⟨-, p', hp', -⟩ := hn'.usable _ _ hg'
        rw [hslots, if_pos rfl] at hp'
        cases hp'
  · intro hunused
    obtain ⟨s', m, hstep, hl, hlost, hm, hslots⟩ := hsome (by rw [hunused]; rfl)
    refine ⟨fd, s', hstep, hn.filed hl hlost hunused hslots ⟨⟨info, ?_, rfl⟩, m, ?_, hm⟩⟩
    · rw [hl.fds, lookup_insert]
    · rw [hslots, if_pos rfl]

lemma Inv.progLoad_iff (hn : Named env s) (hD : KernelFresh s (.progLoad insns prog_name prog_type (some (fd, info)))) :
    (∃ r s', step env s (.progLoad insns prog_name prog_type (some (fd, info))) = some (r, s') ∧
    Named env s') ↔ insns.mapM (relocate (envAt env (s.fds.insert fd (.prog info)))) = none ∨
    ((s.world.table env).getHandler fd).isSome = true := by
  obtain ⟨hfail, hload⟩ := h.progLoad_some hD
  obtain ⟨-, hnew, -⟩ := hD
  by_cases hbad : insns.mapM (relocate (envAt env (s.fds.insert fd (.prog info)))) = none ∨
      (s.world.table env).isAllocated fd = true
  · obtain ⟨r, s', hstep, hl, hlost, hslots⟩ := hfail hbad
    have hn' : Named env s' := hn.of_leaves hl (fun fd' g hg =>
        lookup_insert_ne (h.ne_of_granted hnew hg)) hlost hslots
    refine iff_of_true ⟨r, s', hstep, hn'⟩ (hbad.imp_right fun halloc => ?_)
    cases hget : (s.world.table env).getHandler fd with
    | none =>
      unfold isAllocated at halloc
      rw [hget] at halloc
      exact absurd halloc (by decide)
    | some h' => rfl
  · obtain ⟨hinsns, halloc⟩ := not_or.mp hbad
    obtain ⟨insns', hinsns'⟩ := ne_none_iff_exists'.mp hinsns
    obtain ⟨hnone, hunused⟩ := hload insns' hinsns'
    rcases getHandler_of_not_isAllocated halloc with hget | hget
    · rw [hnone hget, hget]
      simp [hinsns]
    · obtain ⟨s', p, hstep, hl, hlost, hp, hname, hslots⟩ := hunused hget
      refine iff_of_true ⟨fd, s', hstep, ?_⟩ (.inr (by rw [hget]; rfl))
      refine hn.filed hl hlost hget hslots ⟨⟨info, ?_⟩, p, ?_, hp, hname⟩
      · rw [hl.fds, lookup_insert]
      · rw [hslots, if_pos rfl]

lemma Inv.mem_removed_iff (fd : ℤ) (h' : Handler) (i : ℕ) :
    (h', i) ∈ removed (s.world.table env) ((s.world.table env).clearIdAt fd) ↔
    h' ≠ .unused ∧ (i : ℤ) = fd ∧ (s.world.table env).getHandler fd = some h' := by
  have hat : ∀ (shm : BpftimeShm), shm.handlers[i]? = shm.getHandler i := fun shm => by
    unfold getHandler
    rw [if_pos (natCast_nonneg i), toNat_natCast]
  unfold removed
  rw [mem_filter, mk_mem_zipIdx_iff_getElem?, decide_eq_true_iff, hat, hat]
  cases hfd : (s.world.table env).getHandler fd with
  | none =>
    rw [clearIdAt_of_none hfd]
    simp only [reduceCtorEq, and_false, iff_false]
    rintro ⟨hi, -, hne⟩
    exact hne hi
  | some h0 =>
    rw [h.getHandler_clearIdAt hfd]
    by_cases heq : (i : ℤ) = fd
    · rw [if_pos heq, heq, hfd, some_inj]
      constructor
      · rintro ⟨rfl, hne, -⟩
        exact ⟨hne, rfl, rfl⟩
      · rintro ⟨hne, -, rfl⟩
        exact ⟨rfl, hne, fun hunused => hne (some.inj hunused).symm⟩
    · rw [if_neg heq]
      constructor
      · rintro ⟨hi, -, hne⟩
        exact absurd hi hne
      · rintro ⟨-, hi, -⟩
        exact absurd hi heq

lemma Inv.not_isHandlerOf (hu : Usable env s fd' g) (hg : s.granted.lookup fd' = some g) (hne : fd' ≠ fd)
    (hslot : slotOf fd' g = fd) (hget : (s.world.table env).getHandler (slotOf fd' g) = some h') :
    ¬isHandlerOf s.fds fd h' fd.toNat = true := by
  intro howns
  cases g with
  | prog insns name => exact hne hslot
  | map id =>
    obtain ⟨-, m, hm, -⟩ := hu
    rw [slotOf] at hslot hget
    rw [hm] at hget
    cases hget
    unfold isHandlerOf at howns
    cases hlook : s.fds.lookup fd with
    | none =>
      rw [hlook] at howns
      cases howns
    | some object =>
      rw [hlook] at howns
      cases object with
      | map info =>
        -- The descriptor denotes a map of the same id, which is the granted one.
        have hid : info.id = id := by
          refine UInt32.toNat_inj.mp ?_
          have htoNat : fd.toNat = info.id.toNat := by simpa using howns
          omega
        exact hne ((h.alone fd' id hg).2 fd info hlook hid).symm
      | prog _ | other => cases howns

lemma Inv.close_iff (hn : Named env s) (fd : ℤ) :
    (∃ r s', step env s (.close fd) = some (r, s') ∧ Named env s') ↔
    ∀ h', (s.world.table env).getHandler fd = some h' → h' = .unused ∨
    isHandlerOf s.fds fd h' fd.toNat = true := by
  obtain ⟨r, s', hstep, hl, hlost, htable⟩ := h.close_spec fd
  rw [hn.lost, nil_append] at hlost
  constructor
  · rintro ⟨r1, s1, hstep1, hn'⟩ h' hget
    cases hstep.symm.trans hstep1
    obtain ⟨hpos, -⟩ := getHandler_eq_some.mp hget
    by_contra hbad
    obtain ⟨hused, hother⟩ := not_or.mp hbad
    have hmem : (h', fd.toNat) ∈ s'.lost := by
      rw [hlost, mem_filter, h.mem_removed_iff]
      exact ⟨⟨hused, toNat_of_nonneg hpos, hget⟩, by simpa using hother⟩
    rw [hn'.lost] at hmem
    cases hmem
  · intro hfits
    refine ⟨r, s', hstep, fun fd' g hg => ?_, ?_⟩
    · rw [hl.granted] at hg
      have hne := ne_of_lookup_erase hg
      rw [lookup_erase_ne hne] at hg
      have hu := hn.usable fd' g hg
      refine hu.of_eq (by rw [hl.fds, lookup_erase_ne hne]) ?_
      rw [htable]
      cases hget : (s.world.table env).getHandler fd with
      | none => rw [clearIdAt_of_none hget]
      | some h' =>
        rw [h.getHandler_clearIdAt hget]
        refine if_neg fun hslot => ?_
        -- The slot is that of the object, so its handler is not that of what the descriptor
        -- denotes.
        rw [← hslot] at hget
        rcases hfits h' (hslot ▸ hget) with rfl | howns
        · exact hu.slot_ne hget
        · exact h.not_isHandlerOf hu hg hne hslot hget howns
    · rw [hlost, filter_eq_nil_iff]
      rintro ⟨h', i⟩ hmem hother
      obtain ⟨hused, hi, hget⟩ := (h.mem_removed_iff fd h' i).mp hmem
      rcases hfits h' hget with hunused | howns
      · exact hused hunused
      · rw [← hi, toNat_natCast, hi] at howns
        simp [howns] at hother

lemma Inv.keep_iff (hn : Named env s) (hD : KernelFresh s op) :
    (∃ r s', step env s op = some (r, s') ∧ Named env s') ↔ Fits env s op := by
  cases op with
  | mapCreate map_name attr reply =>
    cases reply with
    | none =>
      obtain ⟨s', hstep, hl, hlost, hslots⟩ := h.mapCreate_none map_name attr
      exact iff_of_true ⟨-1, s', hstep, hn.of_leaves hl (fun _ _ _ => rfl) hlost hslots⟩ trivial
    | some reply => exact h.mapCreate_iff hn hD
  | progLoad insns prog_name prog_type reply =>
    cases reply with
    | none =>
      obtain ⟨s', hstep, hl, hlost, hslots⟩ := h.progLoad_none insns prog_name prog_type
      exact iff_of_true ⟨-1, s', hstep, hn.of_leaves hl (fun _ _ _ => rfl) hlost hslots⟩ trivial
    | some reply => exact h.progLoad_iff hn hD
  | close fd => exact h.close_iff hn fd

end

lemma inv_init {fds : AList fun _ : ℤ => KernelObject} (hfds : ∀ fd ∈ fds, 0 ≤ fd) : Inv env (init fds) := by
  refine ⟨⟨rfl, rfl, rfl, rfl, rfl⟩, hfds, fun fd hfd => absurd hfd (notMem_empty fd), ?_, ?_, ?_⟩
  · intro fd info hfd
    have hmem := mem_lookup_iff.mp hfd
    exact mem_filterMap.mpr ⟨_, hmem, rfl⟩
  · intro fd id hfd
    rw [init, lookup_empty] at hfd
    cases hfd
  · intro i h' hi
    obtain ⟨-, hget⟩ := getHandler_eq_some.mp hi
    exact .inl (eq_of_mem_replicate (mem_of_getElem? hget))

/-- In every run of creates and closes, with a kernel that gives out the lowest unused descriptors
and fresh ids, every object that was created can be used through the descriptor that its creator was
given, until it is closed, and closing a descriptor removes no handler of another object, if and
only if each map finds the slot of its id unused, each program has its descriptor within the table,
and no descriptor is closed in whose slot another object is. -/
theorem named_iff {fds : AList fun _ : ℤ => KernelObject} {ops : List KernelOp}
    (hfds : ∀ fd ∈ fds, 0 ≤ fd) (hkernel : Along (step env) KernelFresh (init fds) ops) :
    (∀ pre, pre <+: ops → ∃ rs s, run (step env) (init fds) pre = some (rs, s) ∧ Named env s) ↔
      Along (step env) (Fits env) (init fds) ops := by
  have hstart : Named env (init fds) := by
    refine ⟨fun fd g hg => ?_, rfl⟩
    rw [init, lookup_empty] at hg
    cases hg
  exact forall_prefix_runs_iff_along (I := Inv env) (D := KernelFresh)
    (fun _ _ _ _ h hD hstep => h.of_step hD hstep) (fun _ _ h hn hD => h.keep_iff hn hD)
    (inv_init hfds) hstart hkernel

/-- A process with its three standard descriptors open. -/
def standardFds : AList fun _ : ℤ => KernelObject :=
  ((AList.singleton 0 .other).insert 1 .other).insert 2 .other

def kernelArray (id : UInt32) : KernelMapInfo := ⟨id, "m", ⟨2, 4, 8, 1, 0, 0, 0, 0, 0, 0, 0, 0, 0⟩⟩

/-- A program and a map whose id is not a descriptor of the process, both of which are closed. -/
def progAndMap : List KernelOp :=
  [.progLoad [0x95] "p" 0 (some (3, kernelArray 0)), .close 3,
    .mapCreate "m" (kernelArray 3).attr (some (3, kernelArray 3)), .close 3]

/-- The names stay where no id is the descriptor of something else. -/
theorem named_progAndMap : Along (step plainEnv) KernelFresh (init standardFds) progAndMap ∧
    ∀ pre, pre <+: progAndMap → ∃ rs s,
      run (step plainEnv) (init standardFds) pre = some (rs, s) ∧ Named plainEnv s := by
  have hkernel : Along (step plainEnv) KernelFresh (init standardFds) progAndMap := by decide
  exact ⟨hkernel, (named_iff (by decide) hkernel).mpr (by decide)⟩

/-- The map with the id 3 takes the place of the program with the descriptor 3, and closing the
descriptor 2 removes the map with the id 2. -/
theorem not_named : (∃ rs s, Along (step plainEnv) KernelFresh (init standardFds)
        [.progLoad [0x95] "p" 0 (some (3, kernelArray 0)),
          .mapCreate "m" (kernelArray 3).attr (some (4, kernelArray 3))] ∧
      run (step plainEnv) (init standardFds) [.progLoad [0x95] "p" 0 (some (3, kernelArray 0)),
        .mapCreate "m" (kernelArray 3).attr (some (4, kernelArray 3))] = some (rs, s) ∧
      s.granted.lookup 3 = some (.prog [0x95] "p") ∧ ¬Usable plainEnv s 3 (.prog [0x95] "p")) ∧
    ∃ rs s, Along (step plainEnv) KernelFresh (init standardFds)
        [.mapCreate "m" (kernelArray 2).attr (some (3, kernelArray 2)), .close 2] ∧
      run (step plainEnv) (init standardFds)
        [.mapCreate "m" (kernelArray 2).attr (some (3, kernelArray 2)), .close 2] = some (rs, s) ∧
      s.granted.lookup 3 = some (.map 2) ∧ ¬Usable plainEnv s 3 (.map 2) ∧ s.lost ≠ [] := by
  refine ⟨⟨_, _, by decide, rfl, rfl, ?_⟩, _, _, by decide, rfl, rfl, ?_, by decide⟩
  · rintro ⟨-, p, hp, -⟩
    cases hp
  · rintro ⟨-, m, hm, -⟩
    cases hm

end KernelSys

end Bpftime.SyscallServer
