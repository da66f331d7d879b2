import Bpftime.Jit.Isa

/-!
# Programs in the kernel

The kernel runs a program instruction by instruction, with the meaning that the instruction set
gives to arithmetic and jumps (`Jit.Isa`).
-/

namespace Bpftime.KernelUser

open Jit (EbpfInst)
open Jit.Isa Function Option

abbrev Regs := BitVec 4 → BitVec 64

/-- What is around a program, with a state `σ`. -/
structure Host (σ : Type) where
  /-- The address of the map behind a descriptor. -/
  mapPtr : BitVec 32 → BitVec 64
  load : σ → BitVec 64 → Option (BitVec 64)
  store : σ → BitVec 64 → BitVec 64 → Option σ
  /-- A call of a helper, with its result. -/
  call : BitVec 32 → Regs → σ → Option (BitVec 64 × σ)
  /-- What calls leave in the registers of their arguments. -/
  scratch : ℕ → Regs

def afterCall (scratch regs : Regs) (result : BitVec 64) : Regs := fun r =>
  if r = 0 then result else if r ≤ 5 then scratch r else regs r

variable {σ : Type}

/-- The value of an instruction of two slots: a number, the address of a map or that of a function,
which is the number of its first instruction. -/
def wideValue (host : Host σ) (pc : ℕ) (inst next : EbpfInst) : Option (BitVec 64) :=
  match inst.src with
  | 0 => some (next.imm ++ inst.imm)
  | 1 => some (host.mapPtr inst.imm)
  | 4 => some (BitVec.ofInt 64 (pc + 1 + inst.imm.toInt))
  | _ => none

def address (base : BitVec 64) (inst : EbpfInst) : BitVec 64 := base + inst.offset.signExtend 64

def exec (insns : List EbpfInst) (host : Host σ) : ℕ → ℕ → Regs → σ → Option (BitVec 64 × σ)
  | 0, _, _, _ => none
  | fuel + 1, pc, regs, s =>
    match insns[pc]? with
    | none => none
    | some inst =>
      match kind inst with
      | .plain =>
        if IsAlu inst then
          exec insns host fuel (pc + 1) (update regs inst.dst (alu inst (regs inst.dst) (regs inst.src))) s
        else if inst.opcode = 0x79 then
          (host.load s (address (regs inst.src) inst)).bind fun v =>
            exec insns host fuel (pc + 1) (update regs inst.dst v) s
        else if inst.opcode = 0x7b then
          (host.store s (address (regs inst.dst) inst) (regs inst.src)).bind fun s =>
            exec insns host fuel (pc + 1) regs s
        else none
      | .wide =>
        insns[pc + 1]?.bind fun next => (wideValue host pc inst next).bind fun v =>
          exec insns host fuel (pc + 2) (update regs inst.dst v) s
      | .cond =>
        if taken inst (regs inst.dst) (regs inst.src) then
          exec insns host fuel (pc + 1 + inst.offset.toInt).toNat regs s
        else exec insns host fuel (pc + 1) regs s
      | .call =>
        (host.call inst.imm regs s).bind fun p =>
          exec insns host fuel (pc + 1) (afterCall (host.scratch fuel) regs p.1) p.2
      | .exit => some (regs 0, s)
      | _ => none

/-- `BPF_MOV64_REG` -/
def mov64Reg (dst src : BitVec 4) : EbpfInst := ⟨0xbf, dst, src, 0, 0⟩

/-- `BPF_MOV64_IMM` -/
def mov64Imm (dst : BitVec 4) (imm : BitVec 32) : EbpfInst := ⟨0xb7, dst, 0, 0, imm⟩

/-- `BPF_ALU64_IMM` -/
def alu64Imm (op : BitVec 8) (dst : BitVec 4) (imm : BitVec 32) : EbpfInst := ⟨0x07 ||| op, dst, 0, 0, imm⟩

/-- `BPF_STX_MEM(BPF_DW, …)` -/
def stxMem (dst src : BitVec 4) (off : BitVec 16) : EbpfInst := ⟨0x7b, dst, src, off, 0⟩

/-- `BPF_LDX_MEM(BPF_DW, …)` -/
def ldxMem (dst src : BitVec 4) (off : BitVec 16) : EbpfInst := ⟨0x79, dst, src, off, 0⟩

/-- `BPF_RAW_INSN` -/
def rawInsn (code : BitVec 8) (dst src : BitVec 4) (off : BitVec 16) (imm : BitVec 32) : EbpfInst :=
  ⟨code, dst, src, off, imm⟩

/-- `BPF_LD_IMM64_RAW_FULL` -/
def ldImm64 (dst src : BitVec 4) (off1 off2 : BitVec 16) (imm1 imm2 : BitVec 32) : List EbpfInst :=
  [⟨0x18, dst, src, off1, imm1⟩, ⟨0, 0, 0, off2, imm2⟩]

/-- `BPF_EMIT_CALL` -/
def emitCall (func : BitVec 32) : EbpfInst := ⟨0x85, 0, 0, 0, func⟩

/-- `BPF_EXIT_INSN` -/
def exitInsn : EbpfInst := ⟨0x95, 0, 0, 0, 0⟩

variable {insns : List EbpfInst} {host : Host σ} {fuel pc : ℕ} {regs : Regs} {s : σ} {dst src : BitVec 4}
  {off : BitVec 16} {imm : BitVec 32}

variable {inst : EbpfInst} {v : BitVec 64}

lemma alu_eq_aluOp (hcls : cls inst = 7) (hcode : code inst ≠ 0xd) (d v : BitVec 64) :
    alu inst d v = aluOp (code inst) inst.offset d (source inst v) := by
  have hwidth : width inst = 64 := if_pos hcls
  unfold alu
  rw [if_neg hcode]
  generalize width inst = w at hwidth
  subst hwidth
  simp

lemma exec_alu (hget : insns[pc]? = some inst) (hcls : cls inst = 7) (hcode : code inst ≠ 0xd)
    (halu : aluOp (code inst) inst.offset (regs inst.dst) (source inst (regs inst.src)) = v) :
    exec insns host (fuel + 1) pc regs s = exec insns host fuel (pc + 1) (update regs inst.dst v) s := by
  have hkind : kind inst = .plain := by
    have hop : inst.opcode ≠ Jit.opLddw := by
      rintro hop
      simp [cls, hop, Jit.opLddw] at hcls
    simp [kind, hcls, hop]
  have hop : IsAlu inst := Or.inr hcls
  rw [exec, hget]
  dsimp only
  rw [hkind]
  dsimp only
  rw [if_pos hop, alu_eq_aluOp hcls hcode, halu]

lemma exec_mov64Reg (hget : insns[pc]? = some (mov64Reg dst src)) : exec insns host
    (fuel + 1) pc regs s = exec insns host fuel (pc + 1) (update regs dst (regs src)) s := by
  apply exec_alu hget <;> simp [cls, code, mov64Reg, aluOp, source, fromReg]

lemma exec_mov64Imm (hget : insns[pc]? = some (mov64Imm dst imm)) : exec insns host (fuel + 1) pc regs s =
    exec insns host fuel (pc + 1) (update regs dst (imm.signExtend 64)) s := by
  apply exec_alu hget <;> simp [cls, code, mov64Imm, aluOp, source, fromReg]

lemma exec_addImm (hget : insns[pc]? = some (alu64Imm 0x00 dst imm)) : exec insns host (fuel + 1) pc regs s =
    exec insns host fuel (pc + 1) (update regs dst (regs dst + imm.signExtend 64)) s := by
  apply exec_alu hget <;> simp [cls, code, alu64Imm, aluOp, source, fromReg]

lemma exec_lshImm (hget : insns[pc]? = some (alu64Imm 0x60 dst imm)) :
    exec insns host (fuel + 1) pc regs s = exec insns host fuel (pc + 1)
    (update regs dst (regs dst <<< ((imm.signExtend 64).toNat % 64))) s := by
  apply exec_alu hget <;> simp [cls, code, alu64Imm, aluOp, source, fromReg]

lemma exec_arshImm (hget : insns[pc]? = some (alu64Imm 0xc0 dst imm)) :
    exec insns host (fuel + 1) pc regs s = exec insns host fuel (pc + 1)
    (update regs dst ((regs dst).sshiftRight ((imm.signExtend 64).toNat % 64))) s := by
  apply exec_alu hget <;> simp [cls, code, alu64Imm, aluOp, source, fromReg]

lemma exec_access (hget : insns[pc]? = some inst) (hkind : kind inst = .plain) (hop : ¬IsAlu inst) :
    exec insns host (fuel + 1) pc regs s = if inst.opcode = 0x79 then
    (host.load s (address (regs inst.src) inst)).bind fun v =>
    exec insns host fuel (pc + 1) (update regs inst.dst v) s
    else if inst.opcode = 0x7b then
    (host.store s (address (regs inst.dst) inst) (regs inst.src)).bind fun s =>
    exec insns host fuel (pc + 1) regs s
    else none := by
  rw [exec, hget]
  dsimp only
  rw [hkind]
  dsimp only
  rw [if_neg hop]

lemma exec_stxMem {s' : σ} (hget : insns[pc]? = some (stxMem dst src off))
    (hstore : host.store s (regs dst + off.signExtend 64) (regs src) = some s') :
    exec insns host (fuel + 1) pc regs s = exec insns host fuel (pc + 1) regs s' := by
  rw [exec_access hget (by simp [kind, cls, stxMem, Jit.opLddw]) (by simp [IsAlu, cls, stxMem])]
  change (host.store s (regs dst + off.signExtend 64) (regs src)).bind _ = _
  rw [hstore, bind_some]

lemma exec_ldxMem (hget : insns[pc]? = some (ldxMem dst src off))
    (hload : host.load s (regs src + off.signExtend 64) = some v) :
    exec insns host (fuel + 1) pc regs s = exec insns host fuel (pc + 1) (update regs dst v) s := by
  rw [exec_access hget (by simp [kind, cls, ldxMem, Jit.opLddw]) (by simp [IsAlu, cls, ldxMem])]
  change (host.load s (regs src + off.signExtend 64)).bind _ = _
  rw [hload, bind_some]
  rfl

lemma exec_ldImm64 {next : EbpfInst} (hget : insns[pc]? = some inst)
    (hnext : insns[pc + 1]? = some next) (hkind : kind inst = .wide)
    (hvalue : wideValue host pc inst next = some v) :
    exec insns host (fuel + 1) pc regs s = exec insns host fuel (pc + 2) (update regs inst.dst v) s := by
  rw [exec, hget]
  dsimp only
  rw [hkind]
  dsimp only
  rw [hnext, bind_some, hvalue, bind_some]

lemma taken_eq_compare (hcls : cls inst = 5) (d v : BitVec 64) :
    taken inst d v = Jit.Isa.compare (code inst) d (source inst v) := by
  have hwidth : jmpWidth inst = 64 := if_neg (by omega)
  unfold taken
  generalize jmpWidth inst = w at hwidth
  subst hwidth
  simp

lemma taken_jsgtReg (d v : BitVec 64) : taken (rawInsn 0x6d dst src off imm) d v = v.slt d := by
  rw [taken_eq_compare (by simp [cls, rawInsn])]
  simp [code, rawInsn, Jit.Isa.compare, source, fromReg]

lemma taken_jgtReg (d v : BitVec 64) : taken (rawInsn 0x2d dst src off imm) d v = v.ult d := by
  rw [taken_eq_compare (by simp [cls, rawInsn])]
  simp [code, rawInsn, Jit.Isa.compare, source, fromReg]

lemma taken_jgtImm (d v : BitVec 64) : taken (rawInsn 0x25 dst src off imm) d v =
    (imm.signExtend 64).ult d := by
  rw [taken_eq_compare (by simp [cls, rawInsn])]
  simp [code, rawInsn, Jit.Isa.compare, source, fromReg]

lemma exec_taken {target : ℕ} (hget : insns[pc]? = some inst) (hkind : kind inst = .cond)
    (htaken : taken inst (regs inst.dst) (regs inst.src) = true)
    (htarget : (pc + 1 + inst.offset.toInt).toNat = target) :
    exec insns host (fuel + 1) pc regs s = exec insns host fuel target regs s := by
  rw [exec, hget]
  dsimp only
  rw [hkind]
  dsimp only
  rw [if_pos htaken, htarget]

lemma exec_not_taken (hget : insns[pc]? = some inst) (hkind : kind inst = .cond)
    (htaken : taken inst (regs inst.dst) (regs inst.src) = false) :
    exec insns host (fuel + 1) pc regs s = exec insns host fuel (pc + 1) regs s := by
  rw [exec, hget]
  dsimp only
  rw [hkind]
  dsimp only
  rw [if_neg (by simp [htaken])]

lemma exec_call {func : BitVec 32} {result : BitVec 64} {s' : σ}
    (hget : insns[pc]? = some (emitCall func)) (hcall : host.call func regs s = some (result, s')) :
    exec insns host (fuel + 1) pc regs s =
    exec insns host fuel (pc + 1) (afterCall (host.scratch fuel) regs result) s' := by
  have hkind : kind (emitCall func) = .call := by simp [kind, cls, code, emitCall]
  rw [exec, hget]
  dsimp only
  rw [hkind]
  dsimp only
  rw [show (emitCall func).imm = func from rfl, hcall, bind_some]

lemma exec_exit (hget : insns[pc]? = some exitInsn) :
    exec insns host (fuel + 1) pc regs s = some (regs 0, s) := by
  rw [exec, hget]
  dsimp only
  rw [show kind exitInsn = .exit by decide]

end Bpftime.KernelUser
