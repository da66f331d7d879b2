import Bpftime.KernelUser.Transporter
import Bpftime.Shm.Model

/-!
# The helpers that output records and stacks

`bpf_perf_event_output` binds its thread to a processor while it works,
`bpftime_shared_perf_event_output` goes through two layers that report errors in different ways, and
`bpftime_get_stack` copies frames.
-/

namespace Bpftime.Outputs

open List

/-- `bpftime_map_get_info`, for the type of a map. -/
def mapType (s : BpftimeShm) (fd : ℤ) : Option BpfMapType :=
  match s.getHandler fd with
  | some (.map m) => some (BpfMapType.ofInt m.attr.type.toInt)
  | _ => none

/-! ## Shared perf event arrays -/

/-- The records of the user ring buffer and `errno`. -/
structure UserRing where
  records : List (List UInt8)
  errno : ℤ

/-- `output_data_into_kernel` with the space for its record: `reserve` says what there is for a
size. -/
def outputDataIntoKernel (reserve : ℕ → Except Errno Unit) (ring : UserRing) (buf : List UInt8) :
    ℤ × UserRing :=
  match KernelUser.outputDataIntoKernel buf with
  | .error e => (-1, { ring with errno := e.code })
  | .ok record =>
    match reserve record.length with
    | .error e => (e.code, { ring with errno := e.code })
    | .ok _ => (0, { ring with records := ring.records ++ [record] })

/-- `bpftime_shared_perf_event_output` -/
def sharedPerfEventOutput (s : BpftimeShm) (reserve : ℕ → Except Errno Unit) (ring : UserRing) (map_fd : ℤ)
    (buf : List UInt8) : ℤ × UserRing :=
  if mapType s map_fd ≠ some .kernelUserPerfEventArray then (-1, { ring with errno := Errno.EINVAL.code })
  else
    let (err, ring) := outputDataIntoKernel reserve ring buf
    if err < 0 then (-1, { ring with errno := -err }) else (0, ring)

variable (s : BpftimeShm) (reserve : ℕ → Except Errno Unit) (ring : UserRing) (map_fd : ℤ) (buf : List UInt8)

def cause : Option Errno :=
  if mapType s map_fd ≠ some .kernelUserPerfEventArray then some .EINVAL
  else if 448 < buf.length then some .E2BIG
  else
    match reserve (buf.length + 8) with
    | .error e => some e
    | .ok _ => none

/-- What a call must do: it returns zero exactly if the record is there, and minus one with the
cause if not. -/
def OutputRight (p : ℤ × UserRing) : Prop :=
  (p.1 = 0 ↔ p.2.records = ring.records ++ [Bytes.toLe 8 buf.length ++ buf]) ∧
    (p.1 ≠ 0 → p.1 = -1 ∧ ∃ e, cause s reserve map_fd buf = some e ∧ p.2.errno = e.code)

lemma code_pos (e : Errno) : 0 < e.code := by cases e <;> decide

/-- A call does what it must do exactly if it is made for another kind of map, or if the record fits
and there is space for it. -/
theorem outputRight_iff : OutputRight s reserve ring map_fd buf
    (sharedPerfEventOutput s reserve ring map_fd buf) ↔
    mapType s map_fd ≠ some .kernelUserPerfEventArray ∨ buf.length ≤ 448 ∧
    (reserve (buf.length + 8)).isOk = true := by
  have hne : ring.records ≠ ring.records ++ [Bytes.toLe 8 buf.length ++ buf] := by simp
  unfold OutputRight sharedPerfEventOutput cause
  by_cases htype : mapType s map_fd ≠ some .kernelUserPerfEventArray
  · rw [if_pos htype, if_pos htype]
    exact iff_of_true ⟨iff_of_false (by simp) hne, fun _ => ⟨rfl, _, rfl, rfl⟩⟩ (Or.inl htype)
  rw [if_neg htype, if_neg htype, or_iff_right htype]
  unfold outputDataIntoKernel KernelUser.outputDataIntoKernel
  by_cases hbig : 448 < buf.length
  · -- The first layer returns minus one, which the second one takes for an error number.
    rw [if_pos hbig, if_pos (show 480 - 32 < buf.length from hbig)]
    refine iff_of_false (fun h => ?_) (fun h => by omega)
    obtain ⟨-, e, he, herrno⟩ := h.2 (show (-1 : ℤ) ≠ 0 by decide)
    cases he
    exact absurd (show (1 : ℤ) = 7 from herrno) (by decide)
  have hlength : (Bytes.toLe 8 buf.length ++ buf).length = buf.length + 8 := by simp [add_comm]
  rw [if_neg hbig, if_neg (show ¬480 - 32 < buf.length from hbig)]
  dsimp only
  rw [hlength]
  cases hreserve : reserve (buf.length + 8) with
  | error e =>
    -- The first layer returns the error number itself, which is not negative.
    have hpos := code_pos e
    dsimp only
    rw [if_neg (by omega)]
    exact iff_of_false (fun h => hne (h.1.mp rfl)) (fun h => by cases h.2)
  | ok u => exact iff_of_true ⟨iff_of_true rfl rfl, fun h => absurd rfl h⟩ ⟨by omega, rfl⟩

/-- A table with a shared perf event array at its only descriptor. -/
def arrayTable : BpftimeShm := (BpftimeShm.create 1 (Stream'.const 0) (Stream'.const 0)).put 0
  (.map ⟨⟨1004, 0, 0, 0, 0, 0, 0, 0, 0, 0, 0, 0, 0⟩, "a", none⟩)

/-- There is no space, and zero is returned. -/
theorem not_outputRight : sharedPerfEventOutput arrayTable (fun _ => .error .ENOSPC) ⟨[], 0⟩ 0 [1] =
    (0, ⟨[], 28⟩) ∧
    ¬OutputRight arrayTable (fun _ => .error .ENOSPC) ⟨[], 0⟩ 0 [1] (0, ⟨[], 28⟩) := by
  refine ⟨rfl, fun h => ?_⟩
  exact absurd (h.1.mp rfl) (by decide)

/-- What the calls of `bpf_perf_event_output` give: the processor of the thread, the value in a perf
event array, and what the two functions that output give. -/
structure Calls where
  sched_getcpu : Option ℕ
  lookup : ℤ → ℕ → Option ℤ
  output : ℤ → List UInt8 → ℤ
  sharedOutput : ℤ → List UInt8 → ℤ

/-- `bpf_perf_event_output`, with the affinity of the thread. The calls that get and set it do not
fail. -/
def bpfPerfEventOutput (c : Calls) (fd : ℤ) (data : List UInt8) (affinity : Finset ℕ) : ℤ × Finset ℕ :=
  match c.sched_getcpu with
  | none => (-1, affinity)
  | some current_cpu =>
    let mask := {current_cpu}
    let orig := affinity
    match mapType s fd with
    | none => (-1, mask)
    | some .perfEventArray =>
      match c.lookup fd current_cpu with
      | none => (-1, mask)
      | some perf_handler_fd => (c.output perf_handler_fd data, orig)
    | some .kernelUserPerfEventArray => (c.sharedOutput fd data, orig)
    | some _ => (-1, orig)

/-- The call gets past its two returns in the middle, for a map that is there and an entry of the
processor. -/
def Finishes (c : Calls) (fd : ℤ) (current_cpu : ℕ) : Prop :=
  ∃ type, mapType s fd = some type ∧ (type = .perfEventArray → (c.lookup fd current_cpu).isSome = true)

/-- The affinity is the one at the start exactly if the processor is not known, the thread was bound
to it before, or the call gets past its returns in the middle. -/
theorem affinity_restored_iff (c : Calls) (fd : ℤ) (data : List UInt8) (affinity : Finset ℕ) :
    (bpfPerfEventOutput s c fd data affinity).2 = affinity ↔
      ∀ cpu, c.sched_getcpu = some cpu → affinity = {cpu} ∨ Finishes s c fd cpu := by
  unfold bpfPerfEventOutput Finishes
  cases hcpu : c.sched_getcpu with
  | none => simp
  | some cpu =>
    simp only [Option.some.injEq, forall_eq']
    cases htype : mapType s fd with
    | none => exact ⟨fun h => Or.inl h.symm, fun h => (h.resolve_right (by simp)).symm⟩
    | some type =>
      by_cases hperf : type = .perfEventArray
      · subst hperf
        cases hlookup : c.lookup fd cpu with
        | none => exact ⟨fun h => Or.inl h.symm, fun h => (h.resolve_right (by simp)).symm⟩
        | some v => exact iff_of_true rfl (Or.inr ⟨_, rfl, fun _ => rfl⟩)
      · refine iff_of_true ?_ (Or.inr ⟨type, rfl, fun h => absurd h hperf⟩)
        cases type <;> first | rfl | exact absurd rfl hperf

/-- A thread of two processors, and no map. -/
theorem not_affinity_restored : (bpfPerfEventOutput (BpftimeShm.create 1 (Stream'.const 0) (Stream'.const 0))
      ⟨some 1, fun _ _ => none, fun _ _ => 0, fun _ _ => 0⟩ 0 [] {0, 1}).2 ≠ {0, 1} := by
  show ({1} : Finset ℕ) ≠ {0, 1}
  decide

/-- The bytes of some frames. -/
def frameBytes (frames : List (BitVec 64)) : List UInt8 := frames.flatMap fun frame =>
  Bytes.toLe 8 frame.toNat

/-- `bpftime_get_stack`: the bytes that it copies to the buffer, for the frames that were
collected. -/
def getStack (collected : Except Errno (List (BitVec 64))) (size : ℕ) (flags : BitVec 64) :
    Except Errno (List UInt8) :=
  -- `BPF_F_USER_STACK` and `BPF_F_USER_BUILD_ID`.
  if flags &&& 0x100 = 0 then .error .ENOTSUP
  else if flags &&& 0x800 = 0 then .error .ENOTSUP
  else collected.map fun result =>
    let frames_to_skip := (flags &&& 0xff).toNat
    let result := if result.length ≤ frames_to_skip then [] else result.drop frames_to_skip
    (frameBytes result).take (min result.length size)

variable (frames : List (BitVec 64)) (size : ℕ) (flags : BitVec 64)

/-- What a call must do: if it succeeds, it copies the frames behind the skipped ones as far as the
buffer goes, and it succeeds for a user stack without build ids. -/
def StackRight : Prop :=
  let skip := (flags &&& 0xff).toNat
  (∀ written, getStack (.ok frames) size flags = .ok written →
    written = (frameBytes (frames.drop skip)).take (min (8 * (frames.length - skip)) size)) ∧
  (flags &&& 0x100 ≠ 0 → flags &&& 0x800 = 0 → (getStack (.ok frames) size flags).isOk = true)

lemma length_frameBytes : (frameBytes frames).length = 8 * frames.length := by
  induction frames with
  | nil => rfl
  | cons frame frames ih =>
    unfold frameBytes at ih ⊢
    rw [flatMap_cons, length_append, ih, Bytes.length_toLe, length_cons]
    omega

/-- A call does what it must do exactly if it is not for a user stack, or build ids are asked for
and there are no frames to copy or not more bytes of the buffer than frames. -/
theorem stackRight_iff : StackRight frames size flags ↔ flags &&& 0x100 = 0 ∨ flags &&& 0x800 ≠ 0 ∧
    (frames.length ≤ (flags &&& 0xff).toNat ∨ size ≤ frames.length - (flags &&& 0xff).toNat) := by
  unfold StackRight getStack
  dsimp only
  generalize (flags &&& 0xff).toNat = skip
  by_cases huser : flags &&& 0x100 = 0
  · rw [if_pos huser]
    exact iff_of_true ⟨fun _ h => (by cases h), fun h => absurd huser h⟩ (Or.inl huser)
  rw [if_neg huser, or_iff_right huser]
  by_cases hbuild : flags &&& 0x800 = 0
  · rw [if_pos hbuild]
    exact iff_of_false (fun h => by cases h.2 huser hbuild) (fun h => h.1 hbuild)
  rw [if_neg hbuild, and_iff_right hbuild, and_iff_left (fun _ h => absurd h hbuild)]
  simp only [Except.map, Except.ok.injEq, forall_eq']
  by_cases hskip : frames.length ≤ skip
  · simp [hskip]
  have hlen := length_frameBytes (frames.drop skip)
  rw [if_neg hskip, or_iff_right hskip]
  rw [length_drop] at hlen ⊢
  constructor
  · intro h
    have := congrArg length h
    rw [length_take, length_take, hlen] at this
    omega
  · intro h
    rw [min_eq_right h, min_eq_right (by omega)]

/-- Two frames and a buffer of 16 bytes, with the flag of build ids: two bytes are copied. -/
theorem not_stackRight : getStack (.ok [1, 2]) 16 0x900 = .ok [1, 0] ∧ ¬StackRight [1, 2] 16 0x900 ∧
    getStack (.ok [1, 2]) 16 0x100 = .error .ENOTSUP := by
  refine ⟨rfl, fun h => ?_, rfl⟩
  exact absurd (h.1 [1, 0] rfl) (by decide)

end Bpftime.Outputs
