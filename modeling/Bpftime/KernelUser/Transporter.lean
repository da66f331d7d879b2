import Bpftime.Basic
import Bpftime.KernelUser.Machine
import Bpftime.Lib.SharedMemory

/-!
# The program that transports records to a perf event array

`output_data_into_kernel` writes records to a user ring buffer, and a program in the kernel takes
the oldest one from it and outputs it to the perf event array of the kernel.
-/

namespace Bpftime.KernelUser

open BitVec (ofInt ofNat toInt_ofInt toNat toNat_add toNat_ofNat ult)
open List Bytes SharedMemory Function Nat
open Jit (EbpfInst)
open SharedMemory (Memory load store)

/-- `ZERO` -/
def zero (off : ℕ) : EbpfInst := stxMem 10 1 (BitVec.ofInt 16 (-off))

def saveContext : List EbpfInst :=
  [ -- r6 = r1
    mov64Reg 6 1,
    -- r1 = 0
    mov64Imm 1 0]

/-- `ZERO(0x8)`, `ZERO(0x10)` and so on to `ZERO(0x1c8)`. -/
def zeros : List EbpfInst := (List.range 57).map fun i => zero (8 * (i + 1))

/-- The call of `bpf_user_ringbuf_drain` and that of `bpf_perf_event_output`. -/
def drainAndOutput (user_ringbuf_fd perf_event_array_fd : BitVec 32) : List EbpfInst :=
  [ -- r3 = r10
    mov64Reg 3 10,
    -- r3 += -0x1c8
    alu64Imm 0x00 3 (BitVec.ofInt 32 (-0x1c8))] ++
  -- r1 = map_by_fd(user_ringbuf_fd)
  ldImm64 1 1 0 0 user_ringbuf_fd 0 ++
  -- r2 = code(callback)
  ldImm64 2 4 0 0 22 0 ++
  [ -- r4 = 0
    mov64Imm 4 0,
    -- call 0xd1 (bpf_user_ringbuf_drain)
    emitCall 0xd1,
    -- r0 <<= 0x20
    alu64Imm 0x60 0 0x20,
    -- r0 s>>= 0x20
    alu64Imm 0xc0 0 0x20,
    -- r1 = 1
    mov64Imm 1 1,
    -- if r1 s> r0 goto +0xd
    rawInsn 0x6d 1 0 0xd 0,
    -- r4 = r10
    mov64Reg 4 10,
    -- r4 += -0x1c0
    alu64Imm 0x00 4 (BitVec.ofInt 32 (-0x1c0)),
    -- r5 = *(u64 *)(r10 - 0x1c8)
    ldxMem 5 10 (BitVec.ofInt 16 (-0x1c8)),
    -- r1 = 0x1c1
    mov64Imm 1 0x1c1,
    -- if r1 > r5 goto +0x2
    rawInsn 0x2d 1 5 2 0,
    -- r5 = 0x1c0
    mov64Imm 5 0x1c0,
    -- *(u64 *)(r10 - 0x1c8) = r5
    stxMem 10 5 (BitVec.ofInt 16 (-0x1c8)),
    -- r1 = r6
    mov64Reg 1 6] ++
  -- r2 = map_by_fd(perf_event_array_fd)
  ldImm64 2 1 0 0 perf_event_array_fd 0 ++
  -- r3 = 0xffffffff
  ldImm64 3 0 0 0 0xffffffff 0 ++
  [ -- call 0x19 bpf_perf_event_output
    emitCall 0x19,
    -- r0 = 0
    mov64Imm 0 0,
    exitInsn]

def callbackInsns : List EbpfInst :=
  [ -- r7 = r2
    mov64Reg 7 2,
    -- r6 = r1
    mov64Reg 6 1,
    -- r8 = 0
    mov64Imm 8 0,
    -- r1 = r7
    mov64Reg 1 7,
    -- r2 = 8
    mov64Imm 2 8,
    -- r3 = r6
    mov64Reg 3 6,
    -- r4 = 0
    mov64Imm 4 0,
    -- r5 = 0
    mov64Imm 5 0,
    -- call 0xc9 bpf_dynptr_read
    emitCall 0xc9,
    -- if r8 s> r0 goto +0x8
    rawInsn 0x6d 8 0 8 0,
    -- r2 = *(u64 *)(r7 + 0x0)
    ldxMem 2 7 0,
    -- if r2 > 0x1c0 goto +0x6
    rawInsn 0x25 2 0 6 0x01c0,
    -- r7 += 0x8
    alu64Imm 0x00 7 8,
    -- r1 = r7
    mov64Reg 1 7,
    -- r3 = r6
    mov64Reg 3 6,
    -- r4 = 8
    mov64Imm 4 8,
    -- r5 = 0
    mov64Imm 5 0,
    -- call 0xc9
    emitCall 0xc9,
    -- r0 = 1
    mov64Imm 0 1,
    exitInsn]

/-- `create_transporting_kernel_ebpf_program`. -/
def createTransportingKernelEbpfProgram (user_ringbuf_fd perf_event_array_fd : BitVec 32) : List EbpfInst :=
  saveContext ++ zeros ++ drainAndOutput user_ringbuf_fd perf_event_array_fd ++ callbackInsns

/-- `output_data_into_kernel`: the record that it submits, if one can be reserved. -/
def outputDataIntoKernel (buf : List UInt8) : Except Errno (List UInt8) :=
  if 480 - 32 < buf.length then .error .E2BIG
  else .ok (Bytes.toLe 8 buf.length ++ buf)

/-- A call of `bpf_perf_event_output`: its context, map, flags and bytes. -/
structure Output where
  ctx : BitVec 64
  map : BitVec 64
  flags : BitVec 64
  bytes : List UInt8
deriving DecidableEq

/-- The memory of the stack, the records in the user ring buffer from the oldest on, and what was
output. -/
structure World where
  mem : Memory
  ring : List (List UInt8)
  outputs : List Output

structure Env where
  /-- The end of the frame. -/
  fp : BitVec 64
  hfp : 512 ≤ fp.toNat
  /-- The argument of the program. -/
  ctx : BitVec 64
  mapPtr : BitVec 32 → BitVec 64
  /-- The argument of the callback for a record. -/
  dynptr : BitVec 64
  /-- What is in the other registers when a function starts and after calls. -/
  scratch : ℕ → Regs
  /-- What `bpf_perf_event_output` returns. -/
  outputResult : BitVec 64

variable (env : Env)

/-- Some bytes are in the frame of the program. -/
def InFrame (a n : ℕ) : Prop := env.fp.toNat - 512 ≤ a ∧ a + n ≤ env.fp.toNat

instance (a n : ℕ) : Decidable (InFrame env a n) := inferInstanceAs (Decidable (_ ∧ _))

def loadFrame (w : World) (a : BitVec 64) : Option (BitVec 64) :=
  if InFrame env a.toNat 8 then some (BitVec.ofNat 64 (Bytes.ofLe (load w.mem a.toNat 8))) else none

def storeFrame (w : World) (a v : BitVec 64) : Option World :=
  if InFrame env a.toNat 8 then some { w with mem := store w.mem a.toNat (Bytes.toLe 8 v.toNat) } else none

/-- `bpf_dynptr_read` of a record. -/
def dynptrRead (sample : List UInt8) (regs : Regs) (w : World) : Option (BitVec 64 × World) :=
  let dst := (regs 1).toNat
  let len := ((regs 2).setWidth 32).toNat
  let offset := ((regs 4).setWidth 32).toNat
  if regs 3 ≠ env.dynptr ∨ ¬InFrame env dst len then none
  else if regs 5 ≠ 0 then some (BitVec.ofInt 64 (-Errno.EINVAL.code), w)
  else if sample.length < offset + len then some (BitVec.ofInt 64 (-Errno.E2BIG.code), w)
  else some (0, { w with mem := store w.mem dst ((sample.drop offset).take len) })

/-- `bpf_perf_event_output`. -/
def perfEventOutput (regs : Regs) (w : World) : Option (BitVec 64 × World) :=
  if InFrame env (regs 4).toNat (regs 5).toNat then
    some (env.outputResult, { w with outputs := w.outputs ++
      [⟨regs 1, regs 2, regs 3, load w.mem (regs 4).toNat (regs 5).toNat⟩] })
  else none

/-- `bpf_user_ringbuf_drain`: the callback is called for a record after the other, until it returns
other than zero, there are no more or the limit is reached. -/
def userRingbufDrain (callback : List UInt8 → World → Option (BitVec 64 × World)) :
    ℕ → ℕ → World → Option (ℕ × World)
  | 0, n, w => some (n, w)
  | limit + 1, n, w =>
    match w.ring with
    | [] => some (n, w)
    | sample :: ring =>
      (callback sample { w with ring }).bind fun p =>
        if p.1 = 0 then userRingbufDrain callback limit (n + 1) p.2 else some (n + 1, p.2)

def callbackHost (sample : List UInt8) : Host World where
  mapPtr := env.mapPtr
  load := loadFrame env
  store := storeFrame env
  call func regs w := if func = 0xc9 then dynptrRead env sample regs w else none
  scratch := env.scratch

/-- The registers of the callback for the second argument of the helper. -/
def callbackRegs (context : BitVec 64) : Regs :=
  update (update (env.scratch 0) 1 env.dynptr) 2 context

/-- `BPF_MAX_USER_RINGBUF_SAMPLES`. -/
def maxSamples : ℕ := 128 * 1024

def programCall (insns : List EbpfInst) (fuel : ℕ) (user_ringbuf_fd : BitVec 32) (func : BitVec 32)
    (regs : Regs) (w : World) : Option (BitVec 64 × World) :=
  if func = 0xd1 then
    if regs 1 = env.mapPtr user_ringbuf_fd ∧ regs 4 = 0 then
      (userRingbufDrain (fun sample w => exec insns (callbackHost env sample) fuel (regs 2).toNat
        (callbackRegs env (regs 3)) w) maxSamples 0 w).map fun p => (BitVec.ofNat 64 p.1, p.2)
    else none
  else if func = 0x19 then perfEventOutput env regs w
  else none

def programHost (insns : List EbpfInst) (fuel : ℕ) (user_ringbuf_fd : BitVec 32) : Host World where
  mapPtr := env.mapPtr
  load := loadFrame env
  store := storeFrame env
  call := programCall env insns fuel user_ringbuf_fd
  scratch := env.scratch

def programRegs : Regs := update (update (env.scratch 1) 1 env.ctx) 10 env.fp

def runTransporter (fuel : ℕ) (user_ringbuf_fd perf_event_array_fd : BitVec 32) (w : World) :
    Option (BitVec 64 × World) :=
  let insns := createTransportingKernelEbpfProgram user_ringbuf_fd perf_event_array_fd
  exec insns (programHost env insns fuel user_ringbuf_fd) fuel 0 (programRegs env) w

/-! ## The callback -/

variable {env} {user_ringbuf_fd perf_event_array_fd : BitVec 32} {w : World} {fuel : ℕ}

lemma toNat_fp_add (k : ℕ) (hk : k ≤ 512) : (env.fp + BitVec.ofInt 64 (-k)).toNat = env.fp.toNat - k := by
  have hfp := env.hfp
  have hneg : (ofInt 64 (-(k : ℤ))).toNat = (2^64 - k) % 2^64 := by
    rw [BitVec.toNat_ofInt]
    omega
  rw [toNat_add, hneg]
  omega

variable {n : ℕ}

variable {a : BitVec 64} {callback : List UInt8 → World → Option (BitVec 64 × World)}
  {ring : List (List UInt8)}

lemma loadFrame_eq (w : World) (ha : a.toNat = n) (hframe : InFrame env n 8) :
    loadFrame env w a = some (BitVec.ofNat 64 (ofLe (load w.mem n 8))) := by
  unfold loadFrame
  rw [ha, if_pos hframe]

lemma storeFrame_eq (w : World) (ha : a.toNat = n) (hframe : InFrame env n 8) (v : BitVec 64) :
    storeFrame env w a v = some { w with mem := store w.mem n (toLe 8 v.toNat) } := by
  unfold storeFrame
  rw [ha, if_pos hframe]

def received (env : Env) (sample : List UInt8) (mem : Memory) : Memory :=
  if sample.length < 8 then mem
  else
    let mem := store mem (env.fp.toNat - 0x1c8) (sample.take 8)
    let size := Bytes.ofLe (sample.take 8)
    if 0x1c0 < size ∨ sample.length < 8 + size then mem
    else store mem (env.fp.toNat - 0x1c0) ((sample.drop 8).take size)

lemma dynptrRead_eq (sample : List UInt8) {regs : Regs} {dst len offset : ℕ} (h1 : (regs 1).toNat = dst)
    (h2 : regs 2 = BitVec.ofNat 64 len) (hlen : len < 2^32) (h3 : regs 3 = env.dynptr)
    (h4 : regs 4 = BitVec.ofNat 64 offset) (hoffset : offset < 2^32) (h5 : regs 5 = 0)
    (hframe : InFrame env dst len) :
    dynptrRead env sample regs w = if sample.length <
    offset + len then some (BitVec.ofInt 64 (-Errno.E2BIG.code), w)
    else some (0, { w with mem := store w.mem dst ((sample.drop offset).take len) }) := by
  have hlow : ∀ n, n < 2^32 → ((ofNat 64 n).setWidth 32).toNat = n := by
    intro n hn
    rw [BitVec.toNat_setWidth, toNat_ofNat]
    omega
  unfold dynptrRead
  simp only [h1, h2, h3, h4, h5, hlow len hlen, hlow offset hoffset, hframe, ne_eq, not_true_eq_false,
    or_self, if_false]

section Callback

variable {insns : List EbpfInst} (hinsns : insns = createTransportingKernelEbpfProgram user_ringbuf_fd
  perf_event_array_fd) (host : Host World) (fuel : ℕ) (regs : Regs) (w : World)
include hinsns

variable {i : ℕ}

lemma getElem?_callback {inst : EbpfInst} (i : ℕ) (h : callbackInsns[i]? = some inst) :
    insns[86 + i]? = some inst := by
  have hlen : (saveContext ++ zeros ++ drainAndOutput user_ringbuf_fd perf_event_array_fd).length = 86 := by
    simp [saveContext, zeros, drainAndOutput, ldImm64]
  rw [hinsns, createTransportingKernelEbpfProgram, getElem?_append_right (by omega), hlen,
    Nat.add_sub_cancel_left, h]

lemma exec_callback_start :
    ∃ regs', exec insns host (fuel + 8) 86 regs w = exec insns host fuel 94 regs' w ∧ regs' 1 = regs 2 ∧
    regs' 2 = 8 ∧ regs' 3 = regs 1 ∧ regs' 4 = 0 ∧ regs' 5 = 0 ∧ regs' 6 = regs 1 ∧ regs' 7 =
    regs 2 ∧ regs' 8 = 0 := by
  -- The registers are those that the steps lead to.
  apply Exists.intro
  apply And.intro
  · refine (exec_mov64Reg (getElem?_callback hinsns 0 rfl)).trans ?_
    refine (exec_mov64Reg (getElem?_callback hinsns 1 rfl)).trans ?_
    refine (exec_mov64Imm (getElem?_callback hinsns 2 rfl)).trans ?_
    refine (exec_mov64Reg (getElem?_callback hinsns 3 rfl)).trans ?_
    refine (exec_mov64Imm (getElem?_callback hinsns 4 rfl)).trans ?_
    refine (exec_mov64Reg (getElem?_callback hinsns 5 rfl)).trans ?_
    refine (exec_mov64Imm (getElem?_callback hinsns 6 rfl)).trans ?_
    exact exec_mov64Imm (getElem?_callback hinsns 7 rfl)
  · exact ⟨rfl, rfl, rfl, rfl, rfl, rfl, rfl, rfl⟩

lemma exec_callback_second : ∃ regs', exec insns host (fuel + 5) 98 regs w =
    exec insns host fuel 103 regs' w ∧
    regs' 1 = regs 7 + 8 ∧ regs' 2 = regs 2 ∧ regs' 3 = regs 6 ∧ regs' 4 = 8 ∧ regs' 5 = 0 := by
  apply Exists.intro
  apply And.intro
  · refine (exec_addImm (getElem?_callback hinsns 12 rfl)).trans ?_
    refine (exec_mov64Reg (getElem?_callback hinsns 13 rfl)).trans ?_
    refine (exec_mov64Reg (getElem?_callback hinsns 14 rfl)).trans ?_
    refine (exec_mov64Imm (getElem?_callback hinsns 15 rfl)).trans ?_
    exact exec_mov64Imm (getElem?_callback hinsns 16 rfl)
  · exact ⟨rfl, rfl, rfl, rfl, rfl⟩

lemma exec_callback_end : exec insns host (fuel + 2) 104 regs w = some (1, w) := by
  refine (exec_mov64Imm (getElem?_callback hinsns 18 rfl)).trans ?_
  exact exec_exit (getElem?_callback hinsns 19 rfl)

lemma exec_callback_call {sample : List UInt8} {result : BitVec 64} {w' : World}
    (hcall : callbackInsns[i]? = some (emitCall 0xc9))
    (hread : dynptrRead env sample regs w = some (result, w')) :
    exec insns (callbackHost env sample) (fuel + 1) (86 + i) regs w =
    exec insns (callbackHost env sample) fuel (86 + i + 1) (afterCall (env.scratch fuel) regs result) w' :=
  exec_call (getElem?_callback hinsns i hcall) hread

lemma exec_callback (sample : List UInt8) : exec insns (callbackHost env sample) (fuel + 20) 86
    (callbackRegs env (env.fp + BitVec.ofInt 64 (-0x1c8))) w =
    some (1, { w with mem := received env sample w.mem }) := by
  have hfp := env.hfp
  have haddr : (env.fp + ofInt 64 (-0x1c8)).toNat = env.fp.toNat - 0x1c8 := toNat_fp_add 0x1c8 (by omega)
  obtain ⟨regs, hstart, h1, h2, h3, h4, h5, h6, h7, h8⟩ := exec_callback_start hinsns
    (callbackHost env sample) (fuel + 12) (callbackRegs env (env.fp + ofInt 64 (-0x1c8))) w
  have hdst : regs 1 = env.fp + ofInt 64 (-0x1c8) := h1
  have hread := dynptrRead_eq (w := w) sample (congrArg toNat hdst |>.trans haddr)
    (show regs 2 = ofNat 64 8 from h2) (by omega) h3 (show regs 4 = ofNat 64 0 from h4)
    (by omega) h5 ⟨by omega, by omega⟩
  rw [hstart]
  unfold received
  by_cases hshort : sample.length < 8
  · -- There is no size to be read, so the error is returned and nothing else is done.
    rw [if_pos hshort]
    rw [if_pos (show sample.length < 0 + 8 by omega)] at hread
    refine (exec_callback_call hinsns _ _ _ (i := 8) rfl hread).trans ?_
    refine (exec_taken (getElem?_callback hinsns 9 rfl) (by decide) ?_ rfl).trans ?_
    · rw [taken_jsgtReg]
      show (ofInt 64 (-Errno.E2BIG.code)).slt (regs 8) = true
      rw [h8]
      decide
    · exact exec_callback_end hinsns _ _ _ _
  · rw [if_neg hshort]
    rw [if_neg (show ¬sample.length < 0 + 8 by omega), drop_zero] at hread
    refine (exec_callback_call hinsns _ _ _ (i := 8) rfl hread).trans ?_
    refine (exec_not_taken (getElem?_callback hinsns 9 rfl) (by decide) ?_).trans ?_
    · rw [taken_jsgtReg]
      show (0 : BitVec 64).slt (regs 8) = false
      rw [h8]
      decide
    -- The size is read back from the frame.
    have hlen : (sample.take 8).length = 8 := by rw [length_take]; omega
    have hsize : ofLe (sample.take 8) < 2^64 := by
      have := ofLe_lt (sample.take 8)
      rw [hlen] at this
      exact this
    generalize hmem : store w.mem (env.fp.toNat - 0x1c8) (sample.take 8) = mem
    have hload : (callbackHost env sample).load { w with mem }
        (afterCall (env.scratch (fuel + 11)) regs 0 7 + (0 : BitVec 16).signExtend 64) =
          some (ofNat 64 (ofLe (sample.take 8))) := by
      have hctx : afterCall (env.scratch (fuel + 11)) regs 0 7 = env.fp + ofInt 64 (-0x1c8) := h7
      have hzero : afterCall (env.scratch (fuel + 11)) regs 0 7 + (0 : BitVec 16).signExtend 64 =
          env.fp + ofInt 64 (-0x1c8) := by
        rw [hctx, show (0 : BitVec 16).signExtend 64 = 0#64 by decide, BitVec.add_zero]
      have hback : load mem (env.fp.toNat - 0x1c8) 8 = sample.take 8 := by
        rw [← hmem, load_store_of_length hlen]
      unfold callbackHost loadFrame
      dsimp only
      rw [hzero, haddr, if_pos ⟨by omega, by omega⟩, hback]
    refine (exec_ldxMem (getElem?_callback hinsns 10 rfl) hload).trans ?_
    dsimp only
    generalize ofLe (sample.take 8) = size at hsize
    by_cases hbig : 0x1c0 < size
    · rw [if_pos (.inl hbig)]
      refine (exec_taken (getElem?_callback hinsns 11 rfl) (by decide) ?_ rfl).trans ?_
      · rw [taken_jgtImm]
        show ult 0x1c0 (ofNat 64 size) = true
        rw [ult, toNat_ofNat, mod_eq_of_lt hsize]
        simpa using hbig
      · exact exec_callback_end hinsns _ _ _ _
    · refine (exec_not_taken (getElem?_callback hinsns 11 rfl) (by decide) ?_).trans ?_
      · rw [taken_jgtImm]
        show ult 0x1c0 (ofNat 64 size) = false
        rw [ult, toNat_ofNat, mod_eq_of_lt hsize]
        simpa using hbig
      -- The payload goes behind the size.
      obtain ⟨regs1, hsecond, h11, h21, h31, h41, h51⟩ := exec_callback_second hinsns
        (callbackHost env sample) (fuel + 3) (update (afterCall (env.scratch (fuel + 11)) regs 0) 2
          (ofNat 64 size)) { w with mem }
      have hbuf : (regs1 1).toNat = env.fp.toNat - 0x1c0 := by
        have heq : regs1 1 = env.fp + ofInt 64 (-0x1c8) + 8 := h11.trans (congrArg (· + 8) h7)
        have hlt := env.fp.isLt
        rw [heq, toNat_add, haddr]
        show (env.fp.toNat - 0x1c8 + 8) % 2^64 = env.fp.toNat - 0x1c0
        omega
      have hread1 := dynptrRead_eq (w := { w with mem }) sample hbuf
        (show regs1 2 = ofNat 64 size from h21) (by omega) (h31.trans h6)
        (show regs1 4 = ofNat 64 8 from h41) (by omega) h51 ⟨by omega, by omega⟩
      refine hsecond.trans ?_
      by_cases hcut : sample.length < 8 + size
      · rw [if_pos (.inr hcut)]
        rw [if_pos hcut] at hread1
        refine (exec_callback_call hinsns _ _ _ (i := 17) rfl hread1).trans ?_
        exact exec_callback_end hinsns _ _ _ _
      · rw [if_neg (not_or.mpr ⟨hbig, hcut⟩)]
        rw [if_neg hcut] at hread1
        refine (exec_callback_call hinsns _ _ _ (i := 17) rfl hread1).trans ?_
        exact exec_callback_end hinsns _ _ _ _

end Callback

/-! ## The program around it -/

lemma userRingbufDrain_nil (limit n : ℕ) (hring : w.ring = []) :
    userRingbufDrain callback limit n w = some (n, w) := by
  cases limit with
  | zero => rfl
  | succ limit =>
    unfold userRingbufDrain
    rw [hring]

lemma userRingbufDrain_cons (limit n : ℕ) (hlimit : limit ≠ 0) {sample : List UInt8} {w' : World}
    (hring : w.ring = sample :: ring) (hcallback : callback sample { w with ring } = some (1, w')) :
    userRingbufDrain callback limit n w = some (n + 1, w') := by
  obtain ⟨limit, rfl⟩ := exists_eq_succ_of_ne_zero hlimit
  unfold userRingbufDrain
  rw [hring]
  dsimp only
  rw [hcallback, Option.bind_some]
  exact if_neg (by decide : ¬(1 : BitVec 64) = 0)

lemma signExtend_ofInt (k : ℕ) (hk : k ≤ 512) :
    (BitVec.ofInt 16 (-k)).signExtend 64 = BitVec.ofInt 64 (-k) := by
  refine BitVec.eq_of_toInt_eq ?_
  rw [BitVec.toInt_signExtend_of_le (by omega), toInt_ofInt, toInt_ofInt,
    Int.bmod_eq_of_le (by omega) (by omega), Int.bmod_eq_of_le (by omega) (by omega)]

section

variable (insns : List EbpfInst) (fuel : ℕ) (fd : BitVec 32)

lemma programHost_load : (programHost env insns fuel fd).load = loadFrame env := by dsimp only [programHost]

lemma programHost_store : (programHost env insns fuel fd).store = storeFrame env := by
  dsimp only [programHost]

lemma programHost_output {regs : Regs} {a : ℕ}
    (h4 : (regs 4).toNat = a) (h5 : (regs 5).toNat = n) (hframe : InFrame env a n) :
    (programHost env insns fuel fd).call 0x19 regs w = some (env.outputResult, { w with
    outputs := w.outputs ++ [⟨regs 1, regs 2, regs 3, load w.mem a n⟩] }) := by
  dsimp only [programHost]
  unfold programCall perfEventOutput
  rw [if_neg (by decide), if_pos rfl, h4, h5, if_pos hframe]

lemma programHost_drain {regs : Regs} (h1 : regs 1 = env.mapPtr fd) (h4 : regs 4 = 0) :
    (programHost env insns fuel fd).call 0xd1 regs w =
    (userRingbufDrain (fun sample w => exec insns (callbackHost env sample) fuel (regs 2).toNat
    (callbackRegs env (regs 3)) w) maxSamples 0 w).map fun p => (BitVec.ofNat 64 p.1, p.2) := by
  dsimp only [programHost]
  unfold programCall
  rw [if_pos rfl, if_pos ⟨h1, h4⟩]

end

section Program

variable {insns : List EbpfInst} (hinsns : insns = createTransportingKernelEbpfProgram user_ringbuf_fd
  perf_event_array_fd) (host : Host World) (fuel : ℕ) (regs : Regs) (w : World)
include hinsns

variable {i : ℕ}

lemma getElem?_main {inst : EbpfInst} (i : ℕ)
    (h : (drainAndOutput user_ringbuf_fd perf_event_array_fd)[i]? = some inst) :
    insns[59 + i]? = some inst := by
  obtain ⟨hi, -⟩ := List.getElem?_eq_some_iff.mp h
  have hlen : (saveContext ++ zeros).length = 59 := by simp [saveContext, zeros]
  rw [hinsns, createTransportingKernelEbpfProgram, getElem?_append_left
    (by rw [length_append, hlen]; omega), getElem?_append_right (by omega), hlen,
    Nat.add_sub_cancel_left, h]

lemma getElem?_zeros (hi : i < 57) : insns[2 + i]? = some (zero (8 * (i + 1))) := by
  have hlen : (saveContext ++ zeros).length = 59 := by simp [saveContext, zeros]
  rw [hinsns, createTransportingKernelEbpfProgram, append_assoc _ _ callbackInsns,
    getElem?_append_left (by omega), getElem?_append_right (by simp [saveContext])]
  simp [saveContext, zeros, hi]

variable {fd : BitVec 32} {fuel' : ℕ} {insns' : List EbpfInst}

lemma exec_zeros (hfp : regs 10 = env.fp) {n : ℕ} (hn : n ≤ 57) :
    ∃ mem, exec insns (programHost env insns' fuel' fd) (fuel + n) (59 - n) regs w =
    exec insns (programHost env insns' fuel' fd) fuel 59 regs { w with mem } := by
  induction n generalizing w with
  | zero => exact ⟨w.mem, rfl⟩
  | succ n ih =>
    have hpos := env.hfp
    have hat : 59 - (n + 1) = 2 + (56 - n) := by omega
    have hnext : 2 + (56 - n) + 1 = 59 - n := by omega
    have haddr : (regs 10 + (ofInt 16 (-(8 * (56 - n + 1) : ℕ))).signExtend 64).toNat =
        env.fp.toNat - 8 * (56 - n + 1) := by
          rw [hfp, signExtend_ofInt _ (by omega), toNat_fp_add _ (by omega)]
    have hstore : (programHost env insns' fuel' fd).store w
        (regs 10 + (ofInt 16 (-(8 * (56 - n + 1) : ℕ))).signExtend 64) (regs 1) =
          some { w with mem := store w.mem (env.fp.toNat - 8 * (56 - n + 1)) (toLe 8 (regs 1).toNat) } := by
      rw [programHost_store]
      exact storeFrame_eq w haddr ⟨by omega, by omega⟩ (regs 1)
    obtain ⟨mem, hmem⟩ := ih _ (by omega)
    refine ⟨mem, ?_⟩
    rw [hat]
    refine (exec_stxMem (getElem?_zeros hinsns (by omega)) hstore).trans ?_
    rw [hnext]
    exact hmem

lemma exec_drain_arguments : ∃ regs', exec insns host (fuel + 5) 59 regs w =
    exec insns host fuel 66 regs' w ∧
    regs' 1 = host.mapPtr user_ringbuf_fd ∧ regs' 2 = 86 ∧
    regs' 3 = regs 10 + BitVec.ofInt 64 (-0x1c8) ∧ regs' 4 = 0 ∧ regs' 6 = regs 6 ∧ regs' 10 = regs 10 := by
  apply Exists.intro
  apply And.intro
  · refine (exec_mov64Reg (getElem?_main hinsns 0 rfl)).trans ?_
    refine (exec_addImm (getElem?_main hinsns 1 rfl)).trans ?_
    refine (exec_ldImm64 (getElem?_main hinsns 2 rfl)
      (getElem?_main hinsns 3 rfl) (by simp [Jit.Isa.kind, Jit.Isa.cls, Jit.opLddw]) rfl).trans ?_
    refine (exec_ldImm64 (getElem?_main hinsns 4 rfl) (getElem?_main hinsns 5 rfl) (by decide) rfl).trans ?_
    exact exec_mov64Imm (getElem?_main hinsns 6 rfl)
  · exact ⟨rfl, rfl, rfl, rfl, rfl, rfl⟩

lemma exec_program_end : exec insns host (fuel + 2) 84 regs w = some (0, w) := by
  refine (exec_mov64Imm (getElem?_main hinsns 25 rfl)).trans ?_
  exact exec_exit (getElem?_main hinsns 26 rfl)

lemma exec_output_start {size : BitVec 64}
    (hload : host.load w (regs 10 + (BitVec.ofInt 16 (-0x1c8)).signExtend 64) = some size) :
    ∃ regs', exec insns host (fuel + 4) 71 regs w = exec insns host fuel 75 regs' w ∧ regs' 1 = 0x1c1 ∧
    regs' 4 = regs 10 + BitVec.ofInt 64 (-0x1c0) ∧ regs' 5 = size ∧ regs' 6 = regs 6 ∧ regs' 10 =
    regs 10 := by
  obtain ⟨regs1, hregs1, h4, h6, h10⟩ : ∃ regs1,
      exec insns host (fuel + 4) 71 regs w = exec insns host (fuel + 2) 73 regs1 w ∧
      regs1 4 = regs 10 + ofInt 64 (-0x1c0) ∧ regs1 6 = regs 6 ∧ regs1 10 = regs 10 := by
    apply Exists.intro
    apply And.intro
    · refine (exec_mov64Reg (getElem?_main hinsns 12 rfl)).trans ?_
      exact exec_addImm (getElem?_main hinsns 13 rfl)
    · exact ⟨rfl, rfl, rfl⟩
  rw [← h10] at hload
  rw [← h4, ← h6, ← h10, hregs1]
  apply Exists.intro
  apply And.intro
  · refine (exec_ldxMem (getElem?_main hinsns 14 rfl) hload).trans ?_
    exact exec_mov64Imm (getElem?_main hinsns 15 rfl)
  · exact ⟨rfl, rfl, rfl, rfl, rfl⟩

lemma exec_output_clamp {w' : World}
    (hstore : host.store w (regs 10 + (BitVec.ofInt 16 (-0x1c8)).signExtend 64) 0x1c0 = some w') :
    ∃ regs', exec insns host (fuel + 2) 76 regs w = exec insns host fuel 78 regs' w' ∧ regs' 4 =
    regs 4 ∧ regs' 5 = 0x1c0 ∧ regs' 6 = regs 6 := by
  obtain ⟨regs1, hregs1, h4, h5, h6, h10⟩ : ∃ regs1,
      exec insns host (fuel + 2) 76 regs w = exec insns host (fuel + 1) 77 regs1 w ∧
      regs1 4 = regs 4 ∧ regs1 5 = 0x1c0 ∧ regs1 6 = regs 6 ∧ regs1 10 = regs 10 := by
    apply Exists.intro
    apply And.intro
    · exact exec_mov64Imm (getElem?_main hinsns 17 rfl)
    · exact ⟨rfl, rfl, rfl, rfl⟩
  rw [← h10, ← h5] at hstore
  refine ⟨regs1, hregs1.trans ?_, h4, h5, h6⟩
  exact exec_stxMem (getElem?_main hinsns 18 rfl) hstore

lemma exec_output_arguments :
    ∃ regs', exec insns host (fuel + 3) 78 regs w = exec insns host fuel 83 regs' w ∧ regs' 1 = regs 6 ∧
    regs' 2 = host.mapPtr perf_event_array_fd ∧ regs' 3 = 0xffffffff ∧ regs' 4 = regs 4 ∧ regs' 5 =
    regs 5 := by
  apply Exists.intro
  apply And.intro
  · refine (exec_mov64Reg (getElem?_main hinsns 19 rfl)).trans ?_
    refine (exec_ldImm64 (getElem?_main hinsns 20 rfl) (getElem?_main hinsns 21 rfl)
      (by simp [Jit.Isa.kind, Jit.Isa.cls, Jit.opLddw]) rfl).trans ?_
    exact exec_ldImm64 (getElem?_main hinsns 22 rfl) (getElem?_main hinsns 23 rfl) (by decide) rfl
  · exact ⟨rfl, rfl, rfl, rfl, rfl⟩

lemma exec_output_call {a n : ℕ} (h4 : (regs 4).toNat = a) (h5 : (regs 5).toNat = n)
    (hframe : InFrame env a n) :
    exec insns (programHost env insns' fuel' fd) (fuel + 6) 78 regs w = some (0, { w with
    outputs := w.outputs ++ [⟨regs 6, env.mapPtr perf_event_array_fd, 0xffffffff, load w.mem a n⟩] }) := by
  obtain ⟨regs1, hregs1, h1, h2, h3, h41, h51⟩ := exec_output_arguments hinsns
    (programHost env insns' fuel' fd) (fuel + 3) regs w
  rw [← h41] at h4
  rw [← h51] at h5
  refine hregs1.trans ((exec_call (getElem?_main hinsns 24 rfl)
    (programHost_output insns' fuel' fd h4 h5 hframe)).trans ?_)
  rw [h1, h2, h3]
  exact exec_program_end hinsns _ _ _ _

lemma exec_output (hfp : regs 10 = env.fp) :
    ∃ mem, exec insns (programHost env insns' fuel' fd) (fuel + 13) 71 regs w = some (0, { w with
    mem
    outputs := w.outputs ++ [⟨regs 6, env.mapPtr perf_event_array_fd, 0xffffffff,
    load w.mem (env.fp.toNat - 0x1c0)
          (min (ofLe (load w.mem (env.fp.toNat - 0x1c8) 8)) 0x1c0)⟩] }) := by
  have hpos := env.hfp
  have hsize : ofLe (load w.mem (env.fp.toNat - 0x1c8) 8) < 2^64 := by
    have := ofLe_lt (load w.mem (env.fp.toNat - 0x1c8) 8)
    rw [length_load] at this
    exact this
  have hbuf : (regs 10 + ofInt 64 (-0x1c0)).toNat = env.fp.toNat - 0x1c0 := by
    rw [hfp]
    exact toNat_fp_add 0x1c0 (by omega)
  have hat : (regs 10 + (ofInt 16 (-0x1c8)).signExtend 64).toNat = env.fp.toNat - 0x1c8 := by
    rw [hfp, show (ofInt 16 (-0x1c8)).signExtend 64 = ofInt 64 (-(0x1c8 : ℕ)) by decide]
    exact toNat_fp_add 0x1c8 (by omega)
  obtain ⟨regs1, hregs1, h1, h4, h5, h6, h10⟩ : ∃ regs1,
      exec insns (programHost env insns' fuel' fd) (fuel + 13) 71 regs w =
        exec insns (programHost env insns' fuel' fd) (fuel + 9) 75 regs1 w ∧
      regs1 1 = 0x1c1 ∧ regs1 4 = regs 10 + ofInt 64 (-0x1c0) ∧
      regs1 5 = ofNat 64 (ofLe (load w.mem (env.fp.toNat - 0x1c8) 8)) ∧
      regs1 6 = regs 6 ∧ regs1 10 = regs 10 := by
    have hload : (programHost env insns' fuel' fd).load w (regs 10 + (ofInt 16 (-0x1c8)).signExtend 64) =
          some (ofNat 64 (ofLe (load w.mem (env.fp.toNat - 0x1c8) 8))) := by
      rw [programHost_load]
      exact loadFrame_eq w hat ⟨by omega, by omega⟩
    exact exec_output_start hinsns _ (fuel + 9) regs w hload
  rw [hregs1]
  generalize ofLe (load w.mem (env.fp.toNat - 0x1c8) 8) = size at hsize h5
  have hsize' : (regs1 5).toNat = size := by rw [h5, toNat_ofNat, mod_eq_of_lt hsize]
  by_cases hfits : size ≤ 0x1c0
  · refine ⟨w.mem, (exec_taken (getElem?_main hinsns 16 rfl) (by decide) ?_ rfl).trans ?_⟩
    · rw [taken_jgtReg]
      show (regs1 5).ult (regs1 1) = true
      rw [h1, ult, hsize']
      exact decide_eq_true (show size < 0x1c1 by omega)
    · rw [min_eq_left hfits, ← h6]
      exact exec_output_call hinsns _ _ _ (h4 ▸ hbuf) hsize' ⟨by omega, by omega⟩
  · -- The size is set to that of the buffer, in the register and in the frame.
    have hstore : (programHost env insns' fuel' fd).store w (regs1 10 + (ofInt 16 (-0x1c8)).signExtend 64) 0x1c0 =
          some { w with mem := store w.mem (env.fp.toNat - 0x1c8) (toLe 8 0x1c0) } := by
      rw [programHost_store, h10]
      exact storeFrame_eq w hat ⟨by omega, by omega⟩ 0x1c0
    refine ⟨store w.mem (env.fp.toNat - 0x1c8) (toLe 8 0x1c0),
      (exec_not_taken (getElem?_main hinsns 16 rfl) (by decide) ?_).trans ?_⟩
    · rw [taken_jgtReg]
      show (regs1 5).ult (regs1 1) = false
      rw [h1, ult, hsize']
      exact decide_eq_false (show ¬size < 0x1c1 by omega)
    · obtain ⟨regs2, hregs2, h42, h52, h62⟩ := exec_output_clamp hinsns _ (fuel + 6) regs1 w hstore
      refine hregs2.trans ?_
      have hapart : load (store w.mem (env.fp.toNat - 0x1c8) (toLe 8 0x1c0)) (env.fp.toNat - 0x1c0)
          0x1c0 = load w.mem (env.fp.toNat - 0x1c0) 0x1c0 := by
        refine load_store_of_apart (.inr ?_)
        rw [length_toLe]
        omega
      have hclamp : (regs2 5).toNat = 0x1c0 := by
        rw [h52]
        decide
      have hbuf2 : (regs2 4).toNat = env.fp.toNat - 0x1c0 := by rw [h42, h4, hbuf]
      generalize store w.mem (env.fp.toNat - 0x1c8) (toLe 8 0x1c0) = mem at hapart
      rw [min_eq_right (by omega), ← hapart, ← h6, ← h62]
      exact exec_output_call hinsns _ _ _ hbuf2 hclamp ⟨by omega, by omega⟩

lemma exec_program_start :
    ∃ regs', exec insns host (fuel + 2) 0 regs w = exec insns host fuel 2 regs' w ∧ regs' 6 =
    regs 1 ∧ regs' 10 = regs 10 := by
  apply Exists.intro
  apply And.intro
  · have hget : ∀ {i : ℕ} {inst : EbpfInst}, saveContext[i]? = some inst → insns[i]? = some inst := by
      intro i inst h
      obtain ⟨hi, -⟩ := List.getElem?_eq_some_iff.mp h
      rw [hinsns, createTransportingKernelEbpfProgram, List.append_assoc, List.append_assoc,
        getElem?_append_left hi, h]
    refine (exec_mov64Reg (hget (i := 0) rfl)).trans ?_
    exact exec_mov64Imm (hget (i := 1) rfl)
  · exact ⟨rfl, rfl⟩

lemma exec_before_drain (env : Env) (insns' : List EbpfInst) (fuel' : ℕ) : ∃ regs' mem,
    exec insns (programHost env insns' fuel' user_ringbuf_fd) (fuel + 64) 0 (programRegs env) w =
    exec insns (programHost env insns' fuel' user_ringbuf_fd) fuel 66 regs' { w with mem } ∧
    regs' 1 = env.mapPtr user_ringbuf_fd ∧ regs' 2 = 86 ∧
    regs' 3 = env.fp + BitVec.ofInt 64 (-0x1c8) ∧ regs' 4 = 0 ∧ regs' 6 = env.ctx ∧ regs' 10 = env.fp := by
  generalize hhost : programHost env insns' fuel' user_ringbuf_fd = host
  obtain ⟨regs1, h₁, h61, h101⟩ := exec_program_start hinsns host (fuel + 62) (programRegs env) w
  have hfp : regs1 10 = env.fp := h101
  obtain ⟨mem, hmem⟩ : ∃ mem,
      exec insns host (fuel + 62) 2 regs1 w = exec insns host (fuel + 5) 59 regs1 { w with mem } := by
    rw [← hhost]
    exact exec_zeros hinsns (fuel + 5) regs1 w hfp (n := 57) le_rfl
  obtain ⟨regs2, h₂, h1, h2, h3, h4, h6, h10⟩ := exec_drain_arguments hinsns host fuel regs1 { w with mem }
  rw [← hhost] at h1
  exact ⟨regs2, mem, h₁.trans (hmem.trans h₂), h1, h2, hfp ▸ h3, h4, h6.trans h61, h10.trans hfp⟩

lemma exec_after_drain : ∃ regs', exec insns host (fuel + 3) 67 regs w = exec insns host fuel 70 regs' w ∧
    regs' 0 = (regs 0 <<< 32).sshiftRight 32 ∧ regs' 1 = 1 ∧ regs' 6 = regs 6 ∧ regs' 10 = regs 10 := by
  apply Exists.intro
  apply And.intro
  · refine (exec_lshImm (getElem?_main hinsns 8 rfl)).trans ?_
    refine (exec_arshImm (getElem?_main hinsns 9 rfl)).trans ?_
    exact exec_mov64Imm (getElem?_main hinsns 10 rfl)
  · exact ⟨rfl, rfl, rfl, rfl⟩

lemma exec_drained_none (h0 : regs 0 = 0) : exec insns host (fuel + 6) 67 regs w = some (0, w) := by
  obtain ⟨regs1, hregs1, h01, h11, -, -⟩ := exec_after_drain hinsns host (fuel + 3) regs w
  refine hregs1.trans ?_
  refine (exec_taken (getElem?_main hinsns 11 rfl) (by decide) ?_ rfl).trans ?_
  · rw [taken_jsgtReg]
    show (regs1 0).slt (regs1 1) = true
    rw [h01, h11, h0]
    decide
  · exact exec_program_end hinsns _ _ _ _

lemma exec_drained_one (h0 : regs 0 = 1) :
    ∃ regs', exec insns host (fuel + 4) 67 regs w = exec insns host fuel 71 regs' w ∧
    regs' 6 = regs 6 ∧ regs' 10 = regs 10 := by
  obtain ⟨regs1, hregs1, h01, h11, h6, h10⟩ := exec_after_drain hinsns host (fuel + 1) regs w
  refine ⟨regs1, hregs1.trans ?_, h6, h10⟩
  refine exec_not_taken (getElem?_main hinsns 11 rfl) (by decide) ?_
  rw [taken_jsgtReg]
  show (regs1 0).slt (regs1 1) = false
  rw [h01, h11, h0]
  decide

end Program

lemma runTransporter_cons (env : Env) (fuel : ℕ) (user_ringbuf_fd perf_event_array_fd : BitVec 32)
    (w : World) {sample : List UInt8} (hring : w.ring = sample :: ring) :
    ∃ mem1 mem2, runTransporter env (fuel + 82) user_ringbuf_fd perf_event_array_fd w =
    some (0, ⟨mem2, ring, w.outputs ++ [⟨env.ctx, env.mapPtr perf_event_array_fd, 0xffffffff,
    load (received env sample mem1) (env.fp.toNat - 0x1c0)
    (min (ofLe (load (received env sample mem1) (env.fp.toNat - 0x1c8) 8)) 0x1c0)⟩]⟩) := by
  unfold runTransporter
  generalize hinsns : createTransportingKernelEbpfProgram user_ringbuf_fd perf_event_array_fd = insns
  obtain ⟨regs, mem1, hbefore, h1, h2, h3, h4, h6, h10⟩ :=
    exec_before_drain hinsns.symm (fuel + 18) w env insns (fuel + 82)
  -- The callback stops the helper at the first record.
  have hcall : (programHost env insns (fuel + 82) user_ringbuf_fd).call 0xd1 regs { w with mem := mem1 } =
      some (1, ⟨received env sample mem1, ring, w.outputs⟩) := by
    have hdrain : userRingbufDrain (fun sample w => exec insns (callbackHost env sample) (fuel + 82)
        (regs 2).toNat (callbackRegs env (regs 3)) w) maxSamples 0 { w with mem := mem1 } =
          some (1, ⟨received env sample mem1, ring, w.outputs⟩) := by
      refine userRingbufDrain_cons maxSamples 0 (by decide) hring ?_
      rw [h2, h3]
      exact exec_callback hinsns.symm (fuel + 62) ⟨mem1, ring, w.outputs⟩ sample
    rw [programHost_drain insns (fuel + 82) user_ringbuf_fd h1 h4, hdrain]
    rfl
  obtain ⟨regs1, hregs1, h61, h101⟩ := exec_drained_one hinsns.symm
    (programHost env insns (fuel + 82) user_ringbuf_fd) (fuel + 13)
    (afterCall (env.scratch (fuel + 17)) regs 1) ⟨received env sample mem1, ring, w.outputs⟩ rfl
  obtain ⟨mem2, hmem2⟩ := exec_output hinsns.symm fuel regs1 ⟨received env sample mem1, ring, w.outputs⟩
    (h101.trans h10)
  refine ⟨mem1, mem2, ?_⟩
  rw [show regs1 6 = env.ctx from h61.trans h6] at hmem2
  exact hbefore.trans ((exec_call (getElem?_main hinsns.symm (i := 7) rfl) hcall).trans (hregs1.trans hmem2))

lemma runTransporter_nil (env : Env) (fuel : ℕ) (user_ringbuf_fd perf_event_array_fd : BitVec 32)
    (w : World) (hring : w.ring = []) : ∃ mem,
    runTransporter env (fuel + 82) user_ringbuf_fd perf_event_array_fd w =
    some (0, { w with mem }) := by
  unfold runTransporter
  generalize hinsns : createTransportingKernelEbpfProgram user_ringbuf_fd perf_event_array_fd = insns
  obtain ⟨regs, mem, hbefore, h1, -, -, h4, -, -⟩ :=
    exec_before_drain hinsns.symm (fuel + 18) w env insns (fuel + 82)
  have hcall : (programHost env insns (fuel + 82) user_ringbuf_fd).call 0xd1 regs { w with mem } =
      some (0, { w with mem }) := by
    rw [programHost_drain insns (fuel + 82) user_ringbuf_fd h1 h4,
      userRingbufDrain_nil (w := { w with mem }) maxSamples 0 hring]
    rfl
  refine ⟨mem, hbefore.trans ((exec_call (getElem?_main hinsns.symm (i := 7) rfl) hcall).trans ?_)⟩
  exact exec_drained_none hinsns.symm _ _ _ _ rfl

lemma received_record (env : Env) {buf : List UInt8} (hbuf : buf.length ≤ 448) (mem : Memory) :
    ofLe (load (received env (toLe 8 buf.length ++ buf) mem) (env.fp.toNat - 0x1c8) 8) = buf.length ∧
    load (received env (toLe 8 buf.length ++ buf) mem) (env.fp.toNat - 0x1c0) buf.length = buf := by
  have hfp := env.hfp
  have hlen : (toLe 8 buf.length).length = 8 := length_toLe 8 buf.length
  have hsize : ofLe (toLe 8 buf.length) = buf.length := by rw [ofLe_toLe, mod_eq_of_lt (by omega)]
  have hreceived : received env (toLe 8 buf.length ++ buf) mem =
      store (store mem (env.fp.toNat - 0x1c8) (toLe 8 buf.length)) (env.fp.toNat - 0x1c0) buf := by
    have htake : (toLe 8 buf.length ++ buf).take 8 = toLe 8 buf.length := by
      rw [← hlen, take_left']
      rfl
    have hdrop : (toLe 8 buf.length ++ buf).drop 8 = buf := by
      rw [← hlen, drop_left']
      rfl
    unfold received
    rw [length_append, hlen, if_neg (by omega)]
    rw [htake, hdrop, hsize, if_neg (by omega), take_length]
  rw [hreceived]
  constructor
  · rw [load_store_of_apart (.inl (by omega)), load_store_of_length hlen, hsize]
  · exact load_store_self

/-- A run takes exactly the oldest record of the ring buffer and outputs it once. The bytes are
those given to `output_data_into_kernel`, which takes at most 448, and at most 448 of them whatever
the record is. An access outside the frame of 512 bytes would leave the run undefined. -/
theorem transporter_outputs_oldest (env : Env) (fuel : ℕ) (user_ringbuf_fd perf_event_array_fd : BitVec 32)
    (w : World) : (∀ buf, buf.length ≤ 448 → ∃ record, outputDataIntoKernel buf = .ok record ∧
      ∀ rest, w.ring = record :: rest → ∃ mem,
        runTransporter env (fuel + 82) user_ringbuf_fd perf_event_array_fd w = some (0, ⟨mem, rest,
          w.outputs ++ [⟨env.ctx, env.mapPtr perf_event_array_fd, 0xffffffff, buf⟩]⟩)) ∧
    (∀ buf, 448 < buf.length → outputDataIntoKernel buf = .error .E2BIG) ∧
    (∀ record rest, w.ring = record :: rest → ∃ mem bytes, bytes.length ≤ 448 ∧
      runTransporter env (fuel + 82) user_ringbuf_fd perf_event_array_fd w = some (0, ⟨mem, rest,
        w.outputs ++ [⟨env.ctx, env.mapPtr perf_event_array_fd, 0xffffffff, bytes⟩]⟩)) ∧ (w.ring = [] → ∃ mem,
      runTransporter env (fuel + 82) user_ringbuf_fd perf_event_array_fd w = some (0, { w with mem })) := by
  refine ⟨?_, ?_, ?_, ?_⟩
  · intro buf hbuf
    refine ⟨toLe 8 buf.length ++ buf, if_neg (by omega), ?_⟩
    intro rest hring
    obtain ⟨mem1, mem2, hrun⟩ := runTransporter_cons env fuel user_ringbuf_fd perf_event_array_fd w hring
    obtain ⟨hsize, hload⟩ := received_record env hbuf mem1
    rw [hsize, min_eq_left hbuf, hload] at hrun
    exact ⟨mem2, hrun⟩
  · intro buf hbuf
    exact if_pos (by omega)
  · intro record rest hring
    obtain ⟨mem1, mem2, hrun⟩ := runTransporter_cons env fuel user_ringbuf_fd perf_event_array_fd w hring
    refine ⟨mem2, _, ?_, hrun⟩
    rw [length_load]
    exact min_le_right _ _
  · exact runTransporter_nil env fuel user_ringbuf_fd perf_event_array_fd w

/-- A frame at the end of the address space, and records of three bytes and of none. -/
theorem transporter_outputs_three_bytes : outputDataIntoKernel [1, 2, 3] = .ok
    [3, 0, 0, 0, 0, 0, 0, 0, 1, 2, 3] ∧
    ∃ mem, runTransporter ⟨-16, by decide, 7, fun fd => fd.setWidth 64, 9, fun _ _ => 0, 0⟩ 82 5 6
      ⟨fun _ => 0, [[3, 0, 0, 0, 0, 0, 0, 0, 1, 2, 3], [0, 0, 0, 0, 0, 0, 0, 0]], []⟩ =
        some (0, ⟨mem, [[0, 0, 0, 0, 0, 0, 0, 0]], [⟨7, 6, 0xffffffff, [1, 2, 3]⟩]⟩) := by
  obtain ⟨hfits, -⟩ := transporter_outputs_oldest
    ⟨-16, by decide, 7, fun fd => fd.setWidth 64, 9, fun _ _ => 0, 0⟩ 0 5 6
    ⟨fun _ => 0, [[3, 0, 0, 0, 0, 0, 0, 0, 1, 2, 3], [0, 0, 0, 0, 0, 0, 0, 0]], []⟩
  obtain ⟨record, hrecord, hrun⟩ := hfits [1, 2, 3] (by decide)
  obtain rfl : [3, 0, 0, 0, 0, 0, 0, 0, 1, 2, 3] = record := Except.ok.inj hrecord
  exact ⟨hrecord, hrun _ rfl⟩

end Bpftime.KernelUser
