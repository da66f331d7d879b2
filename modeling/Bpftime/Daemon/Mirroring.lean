import Bpftime.Daemon.Driver
import Bpftime.Shm.Filing
import Bpftime.Lib.Runs

/-!
# The copies that the daemon keeps

Every object of the kernel that is alive and that the driver was told of has a handler of its kind,
distinct objects have distinct handlers, and `pid_fd_to_id_map` is injective and has handlers that
are in use (`Mirrored`).
-/

namespace Bpftime.Daemon

open Option (bind_eq_bind bind_some isNone_some map_some some)
open List (append_nil mem_append mem_singleton)
open BpftimeShm Driver List
open Runs (run Along run_invariant)
open SyscallServer (KernelMapInfo isMapFd replyOf)

def slotOf (d : Driver) : Object → Option ℤ
  | .prog id => some id
  | .map id => some id
  | .perf pid fd => d.pid_fd_to_id_map.lookup (getPidFdKey pid fd)
  | .link slot _ _ => some slot

def isCopy : Object → Handler → Bool
  | .prog _, .prog _ => true
  | .map _, .map _ => true
  | .perf _ _, .perfEvent _ => true
  | .link _ prog_id perf_id, .link l => l.prog_id = prog_id ∧ l.attach_target_id = perf_id
  | _, _ => false

def Copied (d : Driver) (o : Object) : Prop :=
  ∃ i h, slotOf d o = some i ∧ d.shm.getHandler i = some h ∧ isCopy o h = true

/-- The objects that are alive have distinct handlers of their kinds, and `pid_fd_to_id_map` is
injective and has handlers that are in use. -/
structure Mirrored (s : State) : Prop where
  copied : ∀ o ∈ s.alive, Copied s.driver o
  distinct : ∀ o ∈ s.alive, ∀ o' ∈ s.alive, slotOf s.driver o = slotOf s.driver o' → o = o'
  live : ∀ key i, s.driver.pid_fd_to_id_map.lookup key = some i → s.driver.shm.isAllocated i = true
  injective : ∀ key key' i, s.driver.pid_fd_to_id_map.lookup key = some i →
    s.driver.pid_fd_to_id_map.lookup key' = some i → key = key'

/-- What is known of the kernel: a perf event that is opened has a descriptor that no other of the
process has. -/
def KernelDistinct (s : State) : Kernel × Event → Prop
  | (_, .perfEventOpen server_pid fd _ _ _ _ _) => fd.msb = false ∧ .perf server_pid fd ∉ s.alive
  | _ => True

/-- An object loses its handler when a slot is cleared: it is in the slot, or it is a link of what
is. -/
def Uses (d : Driver) : Object → ℤ → Prop
  | .link slot prog_id perf_id, i => slot = i ∨ prog_id = i ∨ perf_id = i
  | o, i => slotOf d o = some i

/-- A map can be filed: there is one already, or the slot is in the table and no object needs it. -/
def MapFits (s : State) (id : ℤ) : Prop :=
  isMapFd s.driver.shm id = true ∨
    (s.driver.shm.getHandler id).isSome = true ∧ ∀ o ∈ s.alive, ¬Uses s.driver o id

/-- A program can be filed with its maps, if it is not there and the kernel says what is to be
filed. -/
def ProgFits (k : Kernel) (s : State) (id : ℤ) (server_pid : BitVec 32) : Prop :=
  k.progInfo id = none ∨ s.driver.shm.isProgFd id = true ∨ relocateBpfProgInsns k id server_pid = none ∨
    s.driver.shm.getHandler id = some .unused ∧ ∀ m ∈ reached k s.driver.shm id, m ≠ id ∧ MapFits s m

/-- The link gets an unused slot that is not taken by the program or its maps. -/
def LinkFits (k : Kernel) (s : State) (id : ℤ) : Prop :=
  s.driver.shm.fake_fds.head < 0 ∨ s.driver.shm.getHandler s.driver.shm.fake_fds.head = some .unused ∧
      s.driver.shm.fake_fds.head ≠ id ∧ s.driver.shm.fake_fds.head ∉ reached k s.driver.shm id

def AttachFits (k : Kernel) (s : State) (server_pid perf_fd : BitVec 32) (id : ℤ) : Prop :=
  s.driver.checkAndGetPidFd server_pid perf_fd < 0 ∨
    (s.driver.shm.isProgFd id = true ∨ ProgFits k s id server_pid) ∧ LinkFits k s id

def Fits (s : State) : Kernel × Event → Prop
  | (k, .progLoad kernel_id server_pid) => ProgFits k s kernel_id server_pid
  | (k, .mapCreate kernel_id) => k.mapInfo kernel_id = none ∨ MapFits s kernel_id
  | (_, .btfLoad _ _) => findMinimalUnusedIdx s.driver.shm < 0
  | (k, .progAttach server_pid perf_fd kernel_bpf_id) => AttachFits k s server_pid perf_fd kernel_bpf_id
  | (k, .progAttachFd server_pid perf_fd bpf_prog_fd) =>
    k.objId server_pid bpf_prog_fd < 0 ∨ AttachFits k s server_pid perf_fd (k.objId server_pid bpf_prog_fd)
  | _ => True

instance (d : Driver) (o : Object) (i : ℤ) : Decidable (Uses d o i) := by
  unfold Uses
  split <;> infer_instance

instance (s : State) (id : ℤ) : Decidable (MapFits s id) := by
  unfold MapFits
  infer_instance

instance (k : Kernel) (s : State) (id : ℤ) (server_pid : BitVec 32) :
    Decidable (ProgFits k s id server_pid) := by
  unfold ProgFits
  infer_instance

instance (k : Kernel) (s : State) (server_pid perf_fd : BitVec 32) (id : ℤ) :
    Decidable (AttachFits k s server_pid perf_fd id) := by
  unfold AttachFits LinkFits
  infer_instance

instance (s : State) (op : Kernel × Event) : Decidable (Fits s op) := by
  unfold Fits
  split <;> infer_instance

instance (s : State) (op : Kernel × Event) : Decidable (KernelDistinct s op) := by
  unfold KernelDistinct
  split <;> infer_instance

variable {s : State} {k : Kernel} {d d' : Driver} {o : Object}

variable {fd server_pid : BitVec 32} {i id : ℤ} {shm : BpftimeShm}

lemma getPidFdKey_inj {pid pid' fd' : BitVec 32} (hfd : fd.msb = false)
    (h : getPidFdKey pid fd = getPidFdKey pid' fd') : pid = pid' ∧ fd = fd' := by
  unfold getPidFdKey at h
  have hbit : ∀ i, ((pid.signExtend 64 <<< 32) ||| fd.signExtend 64).getLsbD i =
      ((pid'.signExtend 64 <<< 32) ||| fd'.signExtend 64).getLsbD i := fun i => by rw [h]
  have heq : fd = fd' := by
    refine BitVec.eq_of_getLsbD_eq fun i hi => ?_
    have := hbit i
    simpa [BitVec.getElem_signExtend, hi, show i < 64 by omega] using this
  refine ⟨BitVec.eq_of_getLsbD_eq fun i hi => ?_, heq⟩
  have := hbit (i + 32)
  rw [← heq] at this
  simpa [BitVec.getElem_signExtend, hi, hfd,
    show i + 32 < 64 by omega, show ¬i + 32 < 32 by omega] using this

structure Inv (s : State) : Prop where
  copied : ∀ o ∈ s.alive, Copied s.driver o
  known : ∀ key i, s.driver.pid_fd_to_id_map.lookup key = some i →
    ∃ pid fd, key = getPidFdKey pid fd ∧ .perf pid fd ∈ s.alive
  injective : ∀ key key' i, s.driver.pid_fd_to_id_map.lookup key = some i →
    s.driver.pid_fd_to_id_map.lookup key' = some i → key = key'
  nonneg : ∀ pid fd, .perf pid fd ∈ s.alive → fd.msb = false

lemma Inv.perfEvent (h : Inv s) {key : BitVec 64} (hkey : s.driver.pid_fd_to_id_map.lookup key = some i) :
    ∃ e, s.driver.shm.getHandler i = some (.perfEvent e) := by
  obtain ⟨pid, fd, rfl, hmem⟩ := h.known key i hkey
  obtain ⟨j, h', hslot, hget, hcopy⟩ := h.copied _ hmem
  rw [slotOf, hkey] at hslot
  cases hslot
  cases h' with
  | perfEvent e => exact ⟨e, hget⟩
  | _ => cases hcopy

lemma Inv.distinct (h : Inv s) {o o' : Object} (ho : o ∈ s.alive) (ho' : o' ∈ s.alive)
    (hslot : slotOf s.driver o = slotOf s.driver o') : o = o' := by
  obtain ⟨i, h1, hi, hget, hcopy⟩ := h.copied o ho
  obtain ⟨i', h2, hi', hget', hcopy'⟩ := h.copied o' ho'
  obtain rfl : i = i' := some.inj (hi.symm.trans (hslot.trans hi'))
  obtain rfl : h1 = h2 := some.inj (hget.symm.trans hget')
  -- The kind of the handler is the kind of both objects.
  cases h1 with
  | prog _ | map _ | link _ => cases o <;> cases o' <;> simp_all [isCopy, slotOf]
  | perfEvent e =>
    cases o with
    | perf pid fd =>
      cases o' with
      | perf pid' fd' =>
        obtain ⟨rfl, rfl⟩ := getPidFdKey_inj (h.nonneg pid fd ho) (h.injective _ _ i hi hi')
        rfl
      | _ => cases hcopy'
    | _ => cases hcopy
  | _ => cases o <;> cases hcopy

lemma Inv.mirrored (h : Inv s) : Mirrored s := by
  refine ⟨h.copied, fun o ho o' ho' => h.distinct ho ho', fun key i hkey => ?_, h.injective⟩
  obtain ⟨e, he⟩ := h.perfEvent hkey
  unfold isAllocated
  rw [he]

lemma Copied.of_eq (h : Copied d o) (hslot : slotOf d' o = slotOf d o)
    (hget : ∀ i, slotOf d o = some i → d'.shm.getHandler i = d.shm.getHandler i) : Copied d' o := by
  obtain ⟨i, h', hi, hi', hcopy⟩ := h
  exact ⟨i, h', hslot.trans hi, (hget i hi).trans hi', hcopy⟩

lemma Copied.ne_unused (h : Copied d o) (hi : slotOf d o = some i) : d.shm.getHandler i ≠ some .unused := by
  obtain ⟨i', h', hi', hget, hcopy⟩ := h
  obtain rfl : i = i' := some.inj (hi.symm.trans hi')
  rw [hget]
  rintro heq
  cases heq
  cases o <;> cases hcopy

variable {h' : Handler} {shm' : BpftimeShm} {m j perf_fd bpf_fd : ℤ}

lemma Copied.getHandler_clearIdAt (h : Copied d o) {fd : ℤ}
    (hfd : d.shm.getHandler fd = some h') (huse : ¬Uses d o fd) (hi : slotOf d o = some i) :
    i ≠ fd ∧ (d.shm.clearIdAt fd).getHandler i = d.shm.getHandler i := by
  obtain ⟨i', h1, hi', hget, hcopy⟩ := h
  obtain rfl : i = i' := some.inj (hi.symm.trans hi')
  have hne : i ≠ fd := by
    rintro rfl
    cases o <;> simp_all [Uses, slotOf]
  refine ⟨hne, ?_⟩
  rw [BpftimeShm.getHandler_clearIdAt hfd, if_neg hne, hget, map_some]
  congr 1
  cases h1 with
  | link l =>
    cases o with
    | link slot prog_id perf_id =>
      simp only [isCopy, decide_eq_true_eq] at hcopy
      simp only [Uses, not_or] at huse
      have hcut : cutLink fd h' l = false := by
        unfold cutLink
        split
        · exact decide_eq_false fun heq => huse.2.2 (hcopy.2 ▸ heq)
        · exact decide_eq_false fun heq => huse.2.1 (hcopy.1 ▸ heq)
        · rfl
      rw [cutSlot, if_neg (by simp [hcut])]
    | _ => cases hcopy
  | _ => rfl

lemma Inv.grow (h : Inv s) {new : List Object} (hkeep : ∀ o ∈ s.alive, Copied { s.driver with shm } o)
    (hnew : ∀ o ∈ new, Copied { s.driver with shm } o) (hperf : ∀ pid fd, .perf pid fd ∉ new) :
    Inv ⟨{ s.driver with shm }, s.alive ++ new⟩ := by
  refine ⟨fun o ho => ?_, fun key i hkey => ?_, h.injective, fun pid fd hmem => ?_⟩
  · rcases mem_append.mp ho with ho | ho
    · exact hkeep o ho
    · exact hnew o ho
  · obtain ⟨pid, fd, hpf, hmem⟩ := h.known key i hkey
    exact ⟨pid, fd, hpf, mem_append_left _ hmem⟩
  · rcases mem_append.mp hmem with hmem | hmem
    · exact h.nonneg pid fd hmem
    · exact absurd hmem (hperf pid fd)

lemma Inv.file (h : Inv s) {o : Object} (hi : s.driver.shm.getHandler i = some .unused)
    (hslots : ∀ j, shm.getHandler j = if j = i then some h' else s.driver.shm.getHandler j)
    (hslot : slotOf s.driver o = some i) (hcopy : isCopy o h' = true)
    (hperf : ∀ pid fd, o ≠ .perf pid fd) : Inv ⟨{ s.driver with shm }, s.alive ++ [o]⟩ := by
  refine h.grow (fun o' ho' => ?_) (fun o' ho' => ?_) fun pid fd hmem => ?_
  · refine (h.copied o' ho').of_eq rfl fun j hj => ?_
    have hne : j ≠ i := by
      rintro rfl
      exact (h.copied o' ho').ne_unused hj hi
    exact (hslots j).trans (if_neg hne)
  · rw [mem_singleton.mp ho']
    exact ⟨i, h', hslot, (hslots i).trans (if_pos rfl), hcopy⟩
  · exact hperf pid fd (mem_singleton.mp hmem).symm

/-! ## Maps -/

structure Follows (shm shm' : BpftimeShm) (ms : List ℤ) : Prop where
  fake_fds : shm'.fake_fds = shm.fake_fds
  isSome : ∀ j, (shm.getHandler j).isSome = true → (shm'.getHandler j).isSome = true
  isMapFd_iff : ∀ j, isMapFd shm' j = true ↔ isMapFd shm j = true ∨ j ∈ ms
  unused : ∀ j, j ∉ ms → shm.getHandler j = some .unused → shm'.getHandler j = some .unused

lemma Follows.trans {shm'' : BpftimeShm} {ms ms' : List ℤ} (h : Follows shm shm' ms)
    (h' : Follows shm' shm'' ms') : Follows shm shm'' (ms ++ ms') := by
  refine ⟨h'.fake_fds.trans h.fake_fds, fun j hj => h'.isSome j (h.isSome j hj), fun j =>
    ?_, fun j hj hunused => ?_⟩
  · rw [h'.isMapFd_iff, h.isMapFd_iff, mem_append, or_assoc]
  · rw [mem_append, not_or] at hj
    exact h'.unused j hj.2 (h.unused j hj.1 hunused)

lemma Follows.of_isMapFd (hm : isMapFd shm m = true) : Follows shm shm [m] := by
  refine ⟨rfl, fun j hj => hj, fun j => ⟨.inl, ?_⟩, fun j _ hj => hj⟩
  rintro (hj | hj)
  · exact hj
  · rw [mem_singleton.mp hj]
    exact hm

lemma isMapFd_eq_true_iff : isMapFd shm j = true ↔ ∃ m, shm.getHandler j = some (.map m) := by
  unfold isMapFd
  constructor
  · intro h
    split at h
    · exact ⟨_, ‹_›⟩
    · cases h
  · rintro ⟨m, hm⟩
    rw [hm]

lemma isProgFd_eq_true_iff : shm.isProgFd j = true ↔ ∃ p, shm.getHandler j = some (.prog p) := by
  unfold isProgFd
  constructor
  · intro h
    split at h
    · exact ⟨_, ‹_›⟩
    · cases h
  · rintro ⟨m, hm⟩
    rw [hm]

lemma Follows.of_slots {h : Handler} {m : BpfMapHandler}
    (hget : shm.getHandler i = some h) (hfake : shm'.fake_fds = shm.fake_fds)
    (hslots : ∀ j, shm'.getHandler j = if j = i then some (.map m) else (shm.clearIdAt i).getHandler j) :
    Follows shm shm' [i] := by
  have hother : ∀ j, j ≠ i → shm'.getHandler j = (shm.getHandler j).map (cutSlot i h) := by
    intro j hj
    rw [hslots, if_neg hj, getHandler_clearIdAt hget, if_neg hj]
  have hself : shm'.getHandler i = some (.map m) := (hslots i).trans (if_pos rfl)
  refine ⟨hfake, fun j hj => ?_, fun j => ?_, fun j hj hunused => ?_⟩
  · by_cases hji : j = i
    · rw [hji, hself]
      rfl
    · rw [hother j hji, Option.isSome_map]
      exact hj
  · rw [isMapFd_eq_true_iff, isMapFd_eq_true_iff, mem_singleton]
    by_cases hji : j = i
    · exact iff_of_true ⟨m, hji ▸ hself⟩ (.inr hji)
    · rw [hother j hji, or_iff_left hji]
      cases hj : shm.getHandler j with
      | none => simp
      | some h' =>
        cases h' with
        | link l =>
          simp only [map_some, cutSlot]
          split_ifs <;> simp
        | _ => simp [cutSlot]
  · rw [mem_singleton] at hj
    rw [hother j hj, hunused]
    rfl

lemma Inv.mapsCreate (h : Inv s) {info : KernelMapInfo} (hinfo : k.mapInfo id = some info)
    (hfits : MapFits s id) :
    ∃ res shm, bpftimeMapsCreateServer k id s.driver.shm = some (res, shm) ∧ 0 ≤ res ∧
    Inv ⟨{ s.driver with shm }, s.alive ++ [.map id]⟩ ∧ Follows s.driver.shm shm [id] := by
  unfold bpftimeMapsCreateServer
  rw [hinfo]
  dsimp only
  by_cases hmap : isMapFd s.driver.shm id = true
  · rw [if_pos hmap]
    refine ⟨0, s.driver.shm, rfl, le_refl _, h.grow h.copied (fun o ho => ?_) (by simp), .of_isMapFd hmap⟩
    obtain ⟨m, hm⟩ := isMapFd_eq_true_iff.mp hmap
    rw [mem_singleton.mp ho]
    exact ⟨id, .map m, rfl, hm, rfl⟩
  · obtain ⟨hsome, huse⟩ := hfits.resolve_left hmap
    obtain ⟨h', hget⟩ := Option.isSome_iff_exists.mp hsome
    obtain ⟨hid, -⟩ := getHandler_eq_some.mp hget
    obtain ⟨shm, m, hadd, -, hfake, hslots⟩ := addBpfMap_some hget info.name
      { info.attr with
        type := info.attr.type + SyscallServer.kernelUserMapOffset
        kernel_bpf_map_id := UInt32.ofInt id }
    rw [if_neg hmap, hadd]
    have hres : ¬id < 0 := by omega
    simp only [bind_eq_bind, bind_some, replyOf, pure, hres, if_false]
    refine ⟨id, shm, rfl, hid, h.grow (fun o ho => ?_) (fun o ho => ?_) (by simp),
      .of_slots hget hfake hslots⟩
    · refine (h.copied o ho).of_eq rfl fun j hj => ?_
      obtain ⟨hne, hclear⟩ := (h.copied o ho).getHandler_clearIdAt hget (huse o ho) hj
      exact (hslots j).trans ((if_neg hne).trans hclear)
    · rw [mem_singleton.mp ho]
      exact ⟨id, .map m, rfl, (hslots id).trans (if_pos rfl), rfl⟩

lemma MapFits.next (hfits : MapFits s m) {new : List Object}
    (hmaps : isMapFd s.driver.shm m = true → isMapFd shm m = true)
    (hsome : (s.driver.shm.getHandler m).isSome = true → (shm.getHandler m).isSome = true)
    (hnew : ∀ o ∈ new, ¬Uses s.driver o m) : MapFits ⟨{ s.driver with shm }, s.alive ++ new⟩ m := by
  refine hfits.imp hmaps fun h => ⟨hsome h.1, fun o ho => ?_⟩
  have hsame : Uses { s.driver with shm } o m ↔ Uses s.driver o m := by cases o <;> rfl
  rw [hsame]
  rcases mem_append.mp ho with ho | ho
  · exact h.2 o ho
  · exact hnew o ho

def reachedOf (k : Kernel) (shm : BpftimeShm) (ms : List ℤ) : List ℤ :=
  ms.takeWhile fun m => isMapFd shm m || (k.mapInfo m).isSome

lemma Inv.createRelatedMaps (ms : List ℤ) (h : Inv s)
    (hfits : ∀ m ∈ reachedOf k s.driver.shm ms, MapFits s m) :
    ∃ res shm, createRelatedMaps k ms s.driver.shm = some (res, shm) ∧
    Inv ⟨{ s.driver with shm }, s.alive ++ (reachedOf k s.driver.shm ms).map .map⟩ ∧
    Follows s.driver.shm shm (reachedOf k s.driver.shm ms) := by
  induction ms generalizing s with
  | nil =>
    refine ⟨0, s.driver.shm, rfl, ?_, ⟨rfl, fun _ h => h, fun j => by simp [reachedOf], fun _ _ h => h⟩⟩
    simpa [reachedOf] using h
  | cons m ms ih =>
    unfold Daemon.createRelatedMaps
    by_cases hpred : (isMapFd s.driver.shm m || (k.mapInfo m).isSome) = true
    · -- The map is filed, or was; the driver gets to the same maps after it.
      have hreach : reachedOf k s.driver.shm (m :: ms) = m :: reachedOf k s.driver.shm ms := by
        unfold reachedOf
        rw [takeWhile_cons, if_pos hpred]
      rw [hreach] at hfits ⊢
      obtain ⟨hm, hrest⟩ := forall_mem_cons.mp hfits
      have hnext : ∀ shm, Follows s.driver.shm shm [m] → Inv ⟨{ s.driver with shm }, s.alive ++ [.map m]⟩ →
          ∃ res shm', Daemon.createRelatedMaps k ms shm = some (res, shm') ∧
            Inv ⟨{ s.driver with shm := shm' }, s.alive ++ (m :: reachedOf k s.driver.shm ms).map .map⟩ ∧
            Follows s.driver.shm shm' (m :: reachedOf k s.driver.shm ms) := by
        intro shm hfollows hinv
        have hsame : reachedOf k shm ms = reachedOf k s.driver.shm ms := by
          unfold reachedOf
          congr 1
          funext x
          rw [Bool.eq_iff_iff, Bool.or_eq_true, Bool.or_eq_true, hfollows.isMapFd_iff, mem_singleton]
          constructor
          · rintro ((hx | rfl) | hx)
            · exact .inl hx
            · exact (Bool.or_eq_true _ _).mp hpred
            · exact .inr hx
          · rintro (hx | hx)
            · exact .inl (.inl hx)
            · exact .inr hx
        obtain ⟨res, shm', hrun, hinv', hfollows'⟩ := ih hinv (fun x hx => by
          rw [show reachedOf k _ ms = reachedOf k s.driver.shm ms from hsame] at hx
          by_cases hxm : x = m
          · exact .inl ((hfollows.isMapFd_iff x).mpr (.inr (by simp [hxm])))
          · refine (hrest x hx).next (fun hmap => (hfollows.isMapFd_iff x).mpr (.inl hmap))
              (hfollows.isSome x) fun o ho => ?_
            rw [mem_singleton.mp ho]
            exact fun huse => hxm (some.inj huse).symm)
        rw [hsame] at hinv' hfollows'
        refine ⟨res, shm', hrun, ?_, hfollows.trans hfollows'⟩
        rwa [map_cons, append_cons]
      by_cases hmap : isMapFd s.driver.shm m = true
      · rw [if_pos hmap]
        refine hnext s.driver.shm (.of_isMapFd hmap) (h.grow h.copied (fun o ho => ?_) (by simp))
        obtain ⟨m', hm'⟩ := isMapFd_eq_true_iff.mp hmap
        rw [mem_singleton.mp ho]
        exact ⟨m, .map m', rfl, hm', rfl⟩
      · rw [if_neg hmap]
        have hsome : (k.mapInfo m).isSome = true := by simpa [hmap] using hpred
        obtain ⟨info, hinfo⟩ := Option.isSome_iff_exists.mp hsome
        obtain ⟨res, shm, hcreate, hres, hinv, hfollows⟩ := h.mapsCreate hinfo hm
        obtain ⟨res', shm', hrun, hrest'⟩ := hnext shm hfollows hinv
        refine ⟨res', shm', ?_, hrest'⟩
        have hres' : ¬res < 0 := by omega
        simp only [hcreate, bind_eq_bind, bind_some, hres', if_false, hrun]
    · have hreach : reachedOf k s.driver.shm (m :: ms) = [] := by
        unfold reachedOf
        rw [takeWhile_cons, if_neg hpred]
      obtain ⟨hmap, hinfo⟩ : ¬isMapFd s.driver.shm m = true ∧ ¬(k.mapInfo m).isSome = true := by
        simpa [not_or] using hpred
      rw [Option.not_isSome_iff_eq_none] at hinfo
      rw [hreach, if_neg hmap]
      unfold bpftimeMapsCreateServer
      rw [hinfo]
      refine ⟨-1, s.driver.shm, rfl, ?_, ⟨rfl, fun _ h => h, fun j => by simp, fun _ _ h => h⟩⟩
      simpa using h

lemma Inv.progsCreate (h : Inv s) (hfits : ProgFits k s id server_pid) :
    ∃ res shm, bpftimeProgsCreateServer k id server_pid s.driver.shm = some (res, shm) ∧
    Inv ⟨{ s.driver with shm }, s.alive ++ progObjects k s.driver.shm id server_pid⟩ ∧
    shm.fake_fds = s.driver.shm.fake_fds ∧ (0 ≤ res → shm.isProgFd id = true) ∧
    ∀ j, j ≠ id → j ∉ reached k s.driver.shm id → s.driver.shm.getHandler j = some .unused →
    shm.getHandler j = some .unused := by
  unfold bpftimeProgsCreateServer progObjects
  cases hinfo : k.progInfo id with
  | none =>
    refine ⟨-1, s.driver.shm, rfl, ?_, rfl, fun h => absurd h (by decide), fun _ _ _ h => h⟩
    simpa using h
  | some info =>
    simp only [isNone_some, Bool.false_eq_true, if_false]
    by_cases hprog : s.driver.shm.isProgFd id = true
    · rw [if_pos hprog, if_pos hprog]
      obtain ⟨p, hp⟩ := isProgFd_eq_true_iff.mp hprog
      refine ⟨0, s.driver.shm, rfl, h.grow h.copied (fun o ho => ?_) (by simp), rfl, fun _ =>
        hprog, fun _ _ _ h => h⟩
      rw [mem_singleton.mp ho]
      exact ⟨id, .prog p, rfl, hp, rfl⟩
    · rw [if_neg hprog, if_neg hprog]
      cases hinsns : relocateBpfProgInsns k id server_pid with
      | none =>
        refine ⟨-1, s.driver.shm, rfl, ?_, rfl, fun h => absurd h (by decide), fun _ _ _ h => h⟩
        simpa using h
      | some insns =>
        have hfits' : s.driver.shm.getHandler id = some .unused ∧
            ∀ m ∈ reached k s.driver.shm id, m ≠ id ∧ MapFits s m := by
          rcases hfits with hnone | hprog' | hnone | hfits
          · rw [hinfo] at hnone
            cases hnone
          · exact absurd hprog' hprog
          · rw [hinsns] at hnone
            cases hnone
          · exact hfits
        obtain ⟨hunused, hmaps⟩ := hfits'
        obtain ⟨hid, -⟩ := getHandler_eq_some.mp hunused
        obtain ⟨shm1, p, hadd, -, -, hfake1, hslots⟩ :=
          addBpfProg_unused hid hunused insns info.name info.type
        have hinv1 : Inv ⟨{ s.driver with shm := shm1 }, s.alive ++ [.prog id]⟩ :=
          h.file hunused hslots rfl rfl (by simp)
        -- A program in an unused slot is no map, so the driver gets to the same maps.
        have hsame : ∀ ms, reachedOf k shm1 ms = reachedOf k s.driver.shm ms := by
          intro ms
          unfold reachedOf
          congr 1
          funext x
          congr 1
          rw [Bool.eq_iff_iff, isMapFd_eq_true_iff, isMapFd_eq_true_iff, hslots]
          split_ifs with hx
          · rw [hx, hunused]
            simp
          · rfl
        obtain ⟨res, shm, hrun, hinv, hfollows⟩ :=
          hinv1.createRelatedMaps ((k.relatedMaps id).getD []) (k := k) (fun m hm => by
            rw [show reachedOf k _ _ = reachedOf k s.driver.shm _ from hsame _] at hm
            obtain ⟨hne, hm⟩ := hmaps m hm
            refine hm.next (fun hmap => ?_) (fun hsome => ?_) fun o ho => ?_
            · rwa [isMapFd_eq_true_iff, hslots, if_neg hne, ← isMapFd_eq_true_iff]
            · rwa [hslots, if_neg hne]
            · rw [mem_singleton.mp ho]
              exact fun huse => hne (some.inj huse).symm)
        rw [hsame] at hinv hfollows
        have hcheck : ∃ res, checkAndCreateProgRelatedMaps k id shm1 = some (res, shm) := by
          unfold checkAndCreateProgRelatedMaps
          cases hms : k.relatedMaps id with
          | none =>
            rw [hms] at hrun
            cases hrun
            exact ⟨-1, rfl⟩
          | some ms =>
            rw [hms] at hrun
            exact ⟨res, hrun⟩
        obtain ⟨res', hcheck⟩ := hcheck
        have hid' : ¬id < 0 := by omega
        simp only [hadd, bind_eq_bind, bind_some, replyOf, pure, hid', if_false, hcheck,
          isNone_some, Bool.false_eq_true]
        refine ⟨_, shm, rfl, ?_, hfollows.fake_fds.trans hfake1, fun _ => ?_, fun j hj hreach hj' => ?_⟩
        · rw [append_cons]
          exact hinv
        · obtain ⟨i, h', hslot, hget, hcopy⟩ := hinv.copied (.prog id) (by simp)
          cases hslot
          cases h' with
          | prog p' => exact isProgFd_eq_true_iff.mpr ⟨p', hget⟩
          | _ => cases hcopy
        · exact hfollows.unused j hreach ((hslots j).trans ((if_neg hj).trans hj'))

/-! ## Perf events -/

lemma getHandler_findMinimalUnusedIdx (h : ¬findMinimalUnusedIdx shm < 0) :
    shm.getHandler (findMinimalUnusedIdx shm) = some .unused := by
  unfold findMinimalUnusedIdx at h ⊢
  cases hfind : shm.handlers.findIdx? (· = .unused) with
  | none =>
    rw [hfind] at h
    exact absurd (by decide) h
  | some i =>
    obtain ⟨hlt, hat, -⟩ := findIdx?_eq_some_iff_getElem.mp hfind
    refine getHandler_eq_some.mpr ⟨Int.natCast_nonneg i, ?_⟩
    rw [Int.toNat_natCast, List.getElem?_eq_getElem hlt]
    exact congrArg some (of_decide_eq_true hat)

lemma addUprobe_unused (hid : shm.getHandler id = some .unused) (pid : Int32)
    (name : String) (offset : UInt64) (retprobe : Bool) (ref_ctr_off : UInt64) :
    ∃ shm' e, shm.addUprobe id pid name offset retprobe ref_ctr_off = some (.ret id, shm') ∧
    ∀ j, shm'.getHandler j = if j = id then some (.perfEvent e) else shm.getHandler j := by
  obtain ⟨hpos, -⟩ := getHandler_eq_some.mp hid
  have hat : shm.orFakeFd id = (id, shm) := if_neg (by omega)
  unfold addUprobe setHandlerAt
  rw [hat]
  dsimp only
  rw [setHandler_of_unused hid (by simp)]
  exact ⟨_, _, rfl, getHandler_filled hid _ _⟩

lemma Inv.uprobeCreate (h : Inv s) (hfd : fd.msb = false)
    (hnew : .perf server_pid fd ∉ s.alive) (target_pid : Int32) (name : String) (offset : UInt64)
    (retprobe : Bool) (ref_ctr_off : UInt64) :
    ∃ res d, s.driver.bpftimeUprobeCreateServer server_pid fd target_pid name offset retprobe ref_ctr_off =
    some (res, d) ∧
    Inv ⟨d, s.alive ++ if findMinimalUnusedIdx s.driver.shm < 0 then [] else [.perf server_pid fd]⟩ := by
  unfold bpftimeUprobeCreateServer
  by_cases hfull : findMinimalUnusedIdx s.driver.shm < 0
  · simp only [hfull, if_true, append_nil]
    exact ⟨-1, s.driver, rfl, h⟩
  · have hid := getHandler_findMinimalUnusedIdx hfull
    generalize findMinimalUnusedIdx s.driver.shm = id at hfull hid
    obtain ⟨shm, e, hadd, hslots⟩ := addUprobe_unused hid target_pid name offset retprobe ref_ctr_off
    simp only [hfull, if_false, hadd, bind_eq_bind, bind_some, replyOf, pure]
    refine ⟨id, _, rfl, ?_⟩
    have hkey : ∀ pid' fd', .perf pid' fd' ∈ s.alive → getPidFdKey pid' fd' ≠
        getPidFdKey server_pid fd := by
      intro pid' fd' hmem hkey
      obtain ⟨rfl, rfl⟩ := getPidFdKey_inj (h.nonneg pid' fd' hmem) hkey
      exact hnew hmem
    -- No pair is mapped to the new slot, which was unused.
    have hfree : ∀ key, s.driver.pid_fd_to_id_map.lookup key ≠ some id := by
      intro key hlook
      obtain ⟨e', he'⟩ := h.perfEvent hlook
      rw [hid] at he'
      cases he'
    refine ⟨fun o ho => ?_, fun key i hlook => ?_, fun key key' i hlook hlook' =>
      ?_, fun pid' fd' hmem => ?_⟩
    · rcases mem_append.mp ho with hold | hnew
      · have hcopied := h.copied o hold
        refine hcopied.of_eq ?_ fun j hj => (hslots j).trans (if_neg fun hj' => ?_)
        · cases o with
          | perf pid' fd' => exact AList.lookup_insert_ne (hkey pid' fd' hold)
          | _ => rfl
        · exact hcopied.ne_unused hj (hj' ▸ hid)
      · rw [mem_singleton.mp hnew]
        exact ⟨id, .perfEvent e, AList.lookup_insert _, (hslots id).trans (if_pos rfl), rfl⟩
    · dsimp only at hlook
      by_cases heq : key = getPidFdKey server_pid fd
      · exact ⟨server_pid, fd, heq, by simp⟩
      · rw [AList.lookup_insert_ne heq] at hlook
        obtain ⟨pid', fd', hpf, hmem⟩ := h.known key i hlook
        exact ⟨pid', fd', hpf, mem_append_left _ hmem⟩
    · dsimp only at hlook hlook'
      by_cases heq : key = getPidFdKey server_pid fd
      · by_cases heq' : key' = getPidFdKey server_pid fd
        · rw [heq, heq']
        · rw [heq, AList.lookup_insert] at hlook
          rw [AList.lookup_insert_ne heq', ← hlook] at hlook'
          exact absurd hlook' (hfree key')
      · rw [AList.lookup_insert_ne heq] at hlook
        by_cases heq' : key' = getPidFdKey server_pid fd
        · rw [heq', AList.lookup_insert] at hlook'
          rw [← hlook'] at hlook
          exact absurd hlook (hfree key)
        · rw [AList.lookup_insert_ne heq'] at hlook'
          exact h.injective key key' i hlook hlook'
    · rcases mem_append.mp hmem with hmem | hmem
      · exact h.nonneg pid' fd' hmem
      · cases mem_singleton.mp hmem
        exact hfd

lemma mem_survivors {d : Driver} {dead alive : List Object} :
    o ∈ survivors d server_pid fd dead alive ↔ o ∈ alive ∧ (match o with
      | .perf pid' fd' => ¬(pid' = server_pid ∧ fd' = fd)
      | .link slot prog_id perf_id => .link slot prog_id perf_id ∉ dead ∧ perf_id ≠ d.checkAndGetPidFd server_pid fd
      | o => o ∉ dead) := by
  unfold survivors
  rw [mem_filter]
  cases o with
  | perf pid' fd' => rw [decide_eq_true_iff]
  | _ => simp

lemma Inv.closeServer (h : Inv s) (server_pid fd : BitVec 32) (dead : List Object) :
    Inv ⟨s.driver.bpftimeCloseServer server_pid fd, survivors s.driver server_pid fd dead s.alive⟩ := by
  unfold bpftimeCloseServer
  cases hlook : s.driver.pid_fd_to_id_map.lookup (getPidFdKey server_pid fd) with
  | none =>
    have hid : s.driver.checkAndGetPidFd server_pid fd = -1 := by
      unfold checkAndGetPidFd
      rw [hlook]
      rfl
    simp only [hid, Int.reduceNeg, Int.reduceLT, if_true]
    refine ⟨fun o ho => h.copied o (mem_survivors.mp ho).1, fun key i hkey => ?_, h.injective,
      fun pid' fd' hmem => h.nonneg pid' fd' (mem_survivors.mp hmem).1⟩
    obtain ⟨pid', fd', rfl, hmem⟩ := h.known key i hkey
    refine ⟨pid', fd', rfl, mem_survivors.mpr ⟨hmem, ?_⟩⟩
    rintro ⟨rfl, rfl⟩
    rw [hlook] at hkey
    cases hkey
  | some id =>
    have hid : s.driver.checkAndGetPidFd server_pid fd = id := by
      unfold checkAndGetPidFd
      rw [hlook]
      rfl
    obtain ⟨e, he⟩ := h.perfEvent hlook
    obtain ⟨hpos, -⟩ := getHandler_eq_some.mp he
    have hpos' : ¬id < 0 := by omega
    simp only [hid, hpos', if_false]
    -- Only the perf event and the links to it use the slot.
    have huse : ∀ o ∈ survivors s.driver server_pid fd dead s.alive, ∀ i, slotOf s.driver o =
        some i → i ≠ id ∧ (s.driver.shm.clearIdAt id).getHandler i = s.driver.shm.getHandler i := by
      intro o ho i hi
      obtain ⟨hmem, hkeep⟩ := mem_survivors.mp ho
      have hcopied := h.copied o hmem
      have hne : i ≠ id := by
        rintro rfl
        obtain ⟨pid0, fd0, hpf, hmem0⟩ := h.known _ _ hlook
        have heq : o = .perf pid0 fd0 := h.distinct hmem hmem0 (by rw [hi, slotOf, ← hpf, hlook])
        obtain ⟨rfl, rfl⟩ := getPidFdKey_inj (h.nonneg _ _ hmem0) hpf.symm
        rw [heq] at hkeep
        exact hkeep ⟨rfl, rfl⟩
      refine ⟨hne, ?_⟩
      obtain ⟨i', h', hi', hget, hcopy⟩ := hcopied
      obtain rfl : i = i' := some.inj (hi.symm.trans hi')
      rw [getHandler_clearIdAt he, if_neg hne, hget, map_some]
      congr 1
      cases h' with
      | link l =>
        cases o with
        | link slot prog_id perf_id =>
          simp only [isCopy, decide_eq_true_eq] at hcopy
          have hcut : cutLink id (.perfEvent e) l = false :=
            decide_eq_false fun heq => hkeep.2 (hcopy.2 ▸ heq.trans hid.symm)
          rw [cutSlot, if_neg (by simp [hcut])]
        | _ => cases hcopy
      | _ => rfl
    have herase : ∀ {key i}, (s.driver.pid_fd_to_id_map.erase (getPidFdKey server_pid fd)).lookup key =
        some i → key ≠ getPidFdKey server_pid fd ∧ s.driver.pid_fd_to_id_map.lookup key = some i := by
      intro key i hkey
      have hne : key ≠ getPidFdKey server_pid fd := by
        rintro rfl
        rw [AList.lookup_erase] at hkey
        cases hkey
      exact ⟨hne, by rwa [AList.lookup_erase_ne hne] at hkey⟩
    refine ⟨fun o ho => ?_, fun key i hkey => ?_, fun key key' i hkey hkey' => ?_,
      fun pid' fd' hmem => h.nonneg pid' fd' (mem_survivors.mp hmem).1⟩
    · obtain ⟨hmem, hkeep⟩ := mem_survivors.mp ho
      refine (h.copied o hmem).of_eq ?_ fun i hi => (huse o ho i hi).2
      cases o with
      | perf pid' fd' =>
        refine AList.lookup_erase_ne fun hkey => hkeep ?_
        exact getPidFdKey_inj (h.nonneg pid' fd' hmem) hkey
      | _ => rfl
    · obtain ⟨hne, hkey⟩ := herase hkey
      obtain ⟨pid', fd', rfl, hmem⟩ := h.known key i hkey
      refine ⟨pid', fd', rfl, mem_survivors.mpr ⟨hmem, ?_⟩⟩
      rintro ⟨rfl, rfl⟩
      exact hne rfl
    · exact h.injective key key' i (herase hkey).2 (herase hkey').2

section

variable (hperf : shm.isPerfFd perf_fd = true) (hprog : shm.isProgFd bpf_fd = true)
include hperf hprog

lemma attachPerfToBpf_full (hfake : shm.fake_fds.head < 0) :
    ∃ shm', shm.attachPerfToBpf perf_fd bpf_fd none = some (.ret (-Errno.ENOSPC.code), shm') ∧
    ∀ j, shm'.getHandler j = shm.getHandler j := by
  unfold attachPerfToBpf addBpfProgAttachTarget
  rw [if_neg (by simp [hperf]), if_neg (by simp [hprog])]
  unfold openFakeFd
  dsimp only
  rw [if_pos hfake]
  exact ⟨_, rfl, fun j => rfl⟩

lemma attachPerfToBpf_unused (hfree : shm.getHandler shm.fake_fds.head = some .unused) :
    ∃ shm', shm.attachPerfToBpf perf_fd bpf_fd none = some (.ret shm.fake_fds.head, shm') ∧ ∀ j,
    shm'.getHandler j =
    if j = shm.fake_fds.head then some (.link ⟨bpf_fd, perf_fd, none⟩) else shm.getHandler j := by
  obtain ⟨hpos, -⟩ := getHandler_eq_some.mp hfree
  have hfree' : getHandler { shm with fake_fds := shm.fake_fds.tail } shm.fake_fds.head =
      some .unused := hfree
  unfold attachPerfToBpf addBpfProgAttachTarget
  rw [if_neg (by simp [hperf]), if_neg (by simp [hprog])]
  unfold openFakeFd
  dsimp only
  rw [if_neg (by omega), setHandler_of_unused hfree' (by simp)]
  exact ⟨_, rfl, getHandler_filled hfree' _ _⟩

end

lemma Inv.of_slots (h : Inv s)
    (hslots : ∀ j, shm.getHandler j = s.driver.shm.getHandler j) :
    Inv ⟨{ s.driver with shm }, s.alive⟩ := by
  have hinv : Inv ⟨{ s.driver with shm }, s.alive ++ []⟩ := h.grow
    (fun o ho => (h.copied o ho).of_eq rfl fun i _ => hslots i) (by simp) (by simp)
  rwa [append_nil] at hinv

lemma Inv.ensureProg (h : Inv s) (hfits : s.driver.shm.isProgFd id = true ∨
    ProgFits k s id server_pid) : ∃ res shm, s.driver.ensureProg k id server_pid = some (res, shm) ∧
    Inv ⟨{ s.driver with shm }, s.alive ++
    if s.driver.shm.isProgFd id then [] else progObjects k s.driver.shm id server_pid⟩ ∧
    shm.fake_fds = s.driver.shm.fake_fds ∧ (0 ≤ res → shm.isProgFd id = true) ∧
    ∀ j, j ≠ id → j ∉ reached k s.driver.shm id → s.driver.shm.getHandler j = some .unused →
    shm.getHandler j = some .unused := by
  unfold Driver.ensureProg
  by_cases hexists : s.driver.shm.isProgFd id = true
  · rw [if_pos hexists, if_pos hexists, append_nil]
    exact ⟨0, s.driver.shm, rfl, h, rfl, fun _ => hexists, fun _ _ _ h => h⟩
  · rw [if_neg hexists, if_neg hexists]
    exact h.progsCreate (hfits.resolve_left hexists)

lemma Inv.attach (h : Inv s) {perf_fd : BitVec 32} (hfits : AttachFits k s server_pid perf_fd id) :
    ∃ res d, s.driver.bpftimeAttachPerfToBpfServer k server_pid perf_fd id = some (res, d) ∧
    Inv ⟨d, s.alive ++ attachObjects k s.driver server_pid perf_fd id res⟩ := by
  unfold bpftimeAttachPerfToBpfServer attachObjects
  by_cases hnone : s.driver.checkAndGetPidFd server_pid perf_fd < 0
  · simp only [hnone, if_true, append_nil]
    exact ⟨-1, s.driver, rfl, h⟩
  · obtain ⟨hprog, hlink⟩ := hfits.resolve_left hnone
    have hlook : s.driver.pid_fd_to_id_map.lookup (getPidFdKey server_pid perf_fd) =
        some (s.driver.checkAndGetPidFd server_pid perf_fd) := by
      unfold checkAndGetPidFd at hnone ⊢
      cases hlook : s.driver.pid_fd_to_id_map.lookup (getPidFdKey server_pid perf_fd) with
      | none =>
        rw [hlook] at hnone
        exact absurd (by decide) hnone
      | some i => rfl
    simp only [hnone, if_false]
    generalize s.driver.checkAndGetPidFd server_pid perf_fd = perf_id at hnone hlook
    obtain ⟨res, shm, hcreate, hinv, hfake, hprog', hunused⟩ := h.ensureProg hprog
    rw [hcreate]
    simp only [bind_eq_bind, bind_some]
    by_cases hres : res < 0
    · rw [if_pos hres]
      exact ⟨-1, _, rfl, by simpa using hinv⟩
    · rw [if_neg hres]
      have hperf : shm.isPerfFd perf_id = true := by
        obtain ⟨e, he⟩ := hinv.perfEvent hlook
        unfold isPerfFd
        rw [show shm.getHandler perf_id = _ from he]
      have hprog'' := hprog' (by omega)
      rw [← hfake]
      rcases hlink with hfull | ⟨hfree, hne, hreach⟩
      · obtain ⟨shm', hattach, hslots⟩ := attachPerfToBpf_full hperf hprog'' (by rwa [hfake])
        simp only [hattach, bind_some, replyOf, pure]
        refine ⟨-1, _, rfl, ?_⟩
        simpa using hinv.of_slots hslots
      · rw [← hfake] at hfree hne hreach
        have hfree' := hunused _ hne hreach hfree
        obtain ⟨shm', hattach, hslots⟩ := attachPerfToBpf_unused hperf hprog'' hfree'
        obtain ⟨hpos, -⟩ := getHandler_eq_some.mp hfree'
        have hpos' : ¬shm.fake_fds.head < 0 := by omega
        simp only [hattach, bind_some, replyOf, pure, hpos', if_false]
        refine ⟨0, _, rfl, ?_⟩
        rw [if_neg (show ¬(0 : ℤ) < 0 by decide), ← List.append_assoc]
        exact hinv.file (o := .link shm.fake_fds.head id perf_id) hfree' hslots rfl (by simp [isCopy]) (by simp)

lemma Inv.of_fits (h : Inv s) {op : Kernel × Event} (hfits : KernelDistinct s op ∧ Fits s op) :
    ∃ r s', step s op = some (r, s') ∧ Inv s' := by
  obtain ⟨k, event⟩ := op
  obtain ⟨hkernel, hfits⟩ := hfits
  cases event with
  | progLoad kernel_id server_pid =>
    obtain ⟨res, shm, hrun, hinv, -⟩ := h.progsCreate (k := k) hfits
    rw [step, hrun]
    exact ⟨res, _, rfl, hinv⟩
  | mapCreate kernel_id =>
    rw [step]
    cases hinfo : k.mapInfo kernel_id with
    | none =>
      unfold bpftimeMapsCreateServer
      rw [hinfo]
      exact ⟨-1, _, rfl, by simpa using h⟩
    | some info =>
      have hmap : MapFits s kernel_id := hfits.resolve_left (by simp [hinfo])
      obtain ⟨res, shm, hrun, -, hinv, -⟩ := h.mapsCreate hinfo hmap
      rw [hrun]
      exact ⟨res, _, rfl, hinv⟩
  | btfLoad server_pid fd =>
    have hfull : findMinimalUnusedIdx s.driver.shm < 0 := hfits
    rw [step]
    unfold bpftimeBtfLoadServer
    simp only [hfull, if_true]
    exact ⟨-1, s, rfl, h⟩
  | perfEventOpen server_pid fd target_pid name offset retprobe ref_ctr_off =>
    obtain ⟨res, d, hrun, hinv⟩ := h.uprobeCreate hkernel.1 hkernel.2 target_pid name offset retprobe ref_ctr_off
    rw [step, hrun]
    exact ⟨res, _, rfl, hinv⟩
  | progAttach server_pid perf_fd kernel_bpf_id =>
    obtain ⟨res, d, hrun, hinv⟩ := h.attach (k := k) hfits
    rw [step, hrun]
    exact ⟨res, _, rfl, hinv⟩
  | progAttachFd server_pid perf_fd bpf_prog_fd =>
    rw [step]
    unfold bpftimeAttachPerfToBpfFdServer
    by_cases hid : k.objId server_pid bpf_prog_fd < 0
    · simp only [hid, if_true]
      exact ⟨-1, _, rfl, by simpa using h⟩
    · obtain ⟨res, d, hrun, hinv⟩ := h.attach (k := k) (Or.resolve_left hfits hid)
      simp only [hid, if_false, hrun]
      exact ⟨res, _, rfl, hinv⟩
  | close server_pid fd dead => exact ⟨0, _, rfl, h.closeServer server_pid fd dead⟩

/-- In every run of events that meet the condition, every state has the copies: each object that is
alive has a handler of its kind, distinct objects have distinct handlers, and `pid_fd_to_id_map` is
injective and has handlers that are in use. -/
theorem mirrored_of_fits {max_fd_count : ℕ} {fake_fds : Stream' ℤ} {prog_types : Stream' Int32}
    {ops : List (Kernel × Event)}
    (hkernel : Along step KernelDistinct (State.init max_fd_count fake_fds prog_types) ops)
    (hfits : Along step Fits (State.init max_fd_count fake_fds prog_types) ops) :
    ∃ rs s, run step (State.init max_fd_count fake_fds prog_types) ops = some (rs, s) ∧ Mirrored s := by
  have hinit : Inv (State.init max_fd_count fake_fds prog_types) := by
    refine ⟨by simp [State.init], fun key i hkey => ?_, fun key key' i hkey => ?_, by simp [State.init]⟩
    all_goals
      rw [State.init, AList.lookup_empty] at hkey
      cases hkey
  obtain ⟨rs, s, hrun, hinv⟩ := run_invariant (fun _ _ h hC => h.of_fits hC) hinit (hkernel.and hfits)
  exact ⟨rs, s, hrun, hinv.mirrored⟩

def oneMap (map_id : ℤ) : Kernel where
  progInfo _ := some ⟨"p", 0⟩
  relatedMaps _ := some [map_id]
  mapInfo _ := some ⟨0, "m", ⟨2, 4, 8, 1, 0, 0, 0, 0, 0, 0, 0, 0, 0⟩⟩
  progInsns _ := some [0x95]
  objId _ _ := -1

def eightSlots : State := .init 8 (Stream'.const 7) (Stream'.const 0)

/-- A perf event is opened, a program with a map is attached to it, and the perf event is closed. -/
def attached : List (Kernel × Event) :=
  [(oneMap 4, .perfEventOpen 10 5 (-1) "a" 0 false 0), (oneMap 4, .progAttach 10 5 3),
    (oneMap 4, .close 10 5 [])]

/-- The copies of an attachment whose numbers differ. -/
theorem mirrored_attached : ∃ rs s, run step eightSlots attached = some (rs, s) ∧ Mirrored s :=
  mirrored_of_fits (by decide) (by decide)

/-- A map takes the place of the program with its id, a program finds its slot taken by a perf
event, and BTF that is loaded has no handler. -/
theorem not_mirrored :
    (∃ rs s, Along step KernelDistinct eightSlots [(oneMap 4, .progLoad 3 10), (oneMap 4, .mapCreate 3)] ∧
      run step eightSlots [(oneMap 4, .progLoad 3 10), (oneMap 4, .mapCreate 3)] = some (rs, s) ∧ ¬Mirrored s) ∧
    (∃ rs s, Along step KernelDistinct eightSlots [(oneMap 4, .perfEventOpen 10 5 (-1) "a" 0 false 0),
        (oneMap 4, .perfEventOpen 10 6 (-1) "a" 0 false 0), (oneMap 4, .progLoad 1 10)] ∧
      run step eightSlots [(oneMap 4, .perfEventOpen 10 5 (-1) "a" 0 false 0),
        (oneMap 4, .perfEventOpen 10 6 (-1) "a" 0 false 0), (oneMap 4, .progLoad 1 10)] = some (rs, s) ∧ ¬Mirrored s) ∧
    ∃ rs s, Along step KernelDistinct eightSlots [(oneMap 4, .btfLoad 10 5)] ∧
      run step eightSlots [(oneMap 4, .btfLoad 10 5)] = some (rs, s) ∧ ¬Mirrored s := by
  refine ⟨⟨_, _, by decide, rfl, fun h => ?_⟩, ⟨_, _, by decide, rfl, fun h => ?_⟩, _, _, by decide, rfl,
    fun h => ?_⟩
  · obtain ⟨i, h', hi, hget, hcopy⟩ := h.copied (.prog 3) (by decide)
    cases hi
    cases hget
    cases hcopy
  · obtain ⟨i, h', hi, hget, hcopy⟩ := h.copied (.prog 1) (by decide)
    cases hi
    cases hget
    cases hcopy
  · exact absurd (h.live (getPidFdKey 10 5) 0 rfl) (by decide)

end Bpftime.Daemon
