import Bpftime.Ir.Builder
import Bpftime.Jit.Inst

/-!
# The code that the compiler emits for one instruction

The functions of `compiler_utils.cpp` and the cases of the switch in `generateModule`.
-/

namespace Bpftime.Jit

open Ir

inductive Label where
  | setup
  /-- `bb_inst_<pc>` -/
  | inst (pc : ℕ)
  | exit
  | localRet
deriving DecidableEq

inductive Callee where
  /-- The function with the symbol `ext_func_sym(idx)`. -/
  | helper (idx : BitVec 32)
  /-- `LDDW_HELPER_MAP_VAL` -/
  | mapVal
deriving DecidableEq

/-- The errors that `generateModule` returns. -/
inductive CompileError where
  | noInstructions
  | noBlock (pc : ℕ)
  | illegalReg (pc : ℕ)
  | invalidMovsx (offset : BitVec 16) (pc : ℕ)
  | endianSize (imm : BitVec 32)
  | lddwLast (pc : ℕ)
  | lddwNext (pc : ℕ)
  | noMapVal (pc : ℕ)
  | noMapValHelper (src : ℕ) (pc : ℕ)
  | noVarAddr (pc : ℕ)
  | noCodeAddr (pc : ℕ)
  | illegalPosition (pc dst : ℕ)
  | extFuncNotFound (idx : BitVec 32)
  | unsupportedAtomic (imm : BitVec 32)
  | unsupportedOpcode (opcode : BitVec 8) (pc : ℕ)
  | invalidModule
deriving DecidableEq

/-- `ext_func_sym` -/
def extFuncSym (idx : BitVec 32) : String :=
  let digits := toString idx.toNat
  "_bpf_helper_ext_" ++ String.ofList (List.replicate (4 - digits.length) '0') ++ digits

def CompileError.message : CompileError → String
  | .noInstructions => "No instructions provided"
  | .noBlock pc => "pc=" ++ toString pc ++ " was marked block begin, but no BasicBlock* found"
  | .illegalReg pc => "Illegal src reg/dst reg at pc " ++ toString pc
  | .invalidMovsx offset pc => "Invalid offset " ++ toString offset.toInt ++ " for movsx at pc " ++ toString pc
  | .endianSize imm => "Unexpected endian size: " ++ toString imm.toInt
  | .lddwLast pc =>
    "Loaded LDDW at pc=" ++ toString pc ++ " which requires an extra pseudo instruction, but it's the last instruction"
  | .lddwNext pc =>
    "Loaded LDDW at pc=" ++ toString pc ++
      " which requires an extra pseudo instruction, but the next instruction is not a legal one"
  | .noMapVal pc => "map_val is not provided, unable to compile at pc " ++ toString pc
  | .noMapValHelper src pc =>
    if src = 2 then
      "Using lddw helper 2, which requires map_val to be defined at pc " ++ toString pc
    else "Using lddw helper 6 at pc " ++ toString pc
  | .noVarAddr pc => "var_addr is not provided, unable to compile at pc " ++ toString pc
  | .noCodeAddr pc => "code_addr is not provided, unable to compile at pc " ++ toString pc
  | .illegalPosition pc dst =>
    "Instruction at pc=" ++ toString pc ++ " is going to jump to an illegal position " ++ toString dst
  | .extFuncNotFound idx => "Ext func not found: " ++ extFuncSym idx
  | .unsupportedAtomic imm => "Unsupported atomic operation: " ++ toString imm.toInt
  | .unsupportedOpcode opcode pc =>
    "Unsupported or illegal opcode: " ++ toString opcode.toNat ++ " at pc " ++ toString pc
  | .invalidModule => "Invalid module generated"

inductive Failure where
  | error (e : CompileError)
  /-- A failed assertion, or the use of a null pointer where assertions are compiled out. -/
  | crash
  /-- A vector indexed outside its bounds. -/
  | outOfBounds
  /-- A loop that does not end. -/
  | diverges
deriving DecidableEq

section Except

variable {α β : Type} {x : Except Failure α}

lemma map_eq_ok_iff {f : α → β} {b : β} : x.map f = .ok b ↔ ∃ a, x = .ok a ∧ f a = b := by
  cases x <;> simp [Except.map]

lemma bind_eq_ok_iff {f : α → Except Failure β} {b : β} : x >>= f = .ok b ↔
    ∃ a, x = .ok a ∧ f a = .ok b := by
  cases x <;> simp [Bind.bind, Except.bind]

end Except

/-- What `generateModule` reads besides the instructions. -/
structure Config where
  /-- The helpers whose symbols are in `extFuncNames`. -/
  extFuncs : List (BitVec 32)
  /-- `LDDW_HELPER_MAP_VAL` is in `lddwHelpers`. -/
  mapValHelper : Bool
  patch_map_val_at_compile_time : Bool
  main_func_with_arguments : Bool
  map_by_fd : Option (BitVec 32 → BitVec 64)
  map_by_idx : Option (BitVec 32 → BitVec 64)
  map_val : Option (BitVec 64 → BitVec 64)
  var_addr : Option (BitVec 32 → BitVec 64)
  code_addr : Option (BitVec 32 → BitVec 64)

/-- `EBPF_STACK_SIZE` -/
def ebpfStackSize : ℕ := 512
/-- `STACK_SIZE` -/
def stackSize : ℕ := (ebpfStackSize + 7) / 8
/-- `CALL_STACK_SIZE` -/
def callStackSize : ℕ := 64
/-- `MAX_LOCAL_FUNC_DEPTH` -/
def maxLocalFuncDepth : ℕ := 32

abbrev JitValue := Value Label
abbrev JitEmit := Emit Label Callee

/-- `regs[i]` -/
def regs (i : ℕ) : JitValue := ⟨.ptr, .const (.cell i 0)⟩

/-- `callStack` -/
def callStack : JitValue := ⟨.ptr, .const (.cell 11 0)⟩

/-- `callItemCnt` -/
def callItemCnt : JitValue := ⟨.ptr, .const (.cell 12 0)⟩

/-- `stackBegin` -/
def stackBegin : JitValue := ⟨.ptr, .frame 0⟩

def arrayLength (array : ℕ) : ℕ := if array = 11 then callStackSize * 5 else 1

def dataStackLength : ℕ := stackSize * maxLocalFuncDepth + 10

/-! ## Arithmetic -/

namespace EbpfInst

variable (inst : EbpfInst)

/-- `emitLoadALUSource` -/
def emitLoadALUSource : JitEmit JitValue :=
  if inst.isAlu64 then
    if inst.isReg then createLoad .i64 (regs inst.src.toNat)
    else pure (getInt64 (inst.imm.signExtend 64))
  else
    if inst.isReg then do
      let v ← createLoad .i64 (regs inst.src.toNat)
      createCast .trunc v .i32
    else pure (getInt32 inst.imm)

/-- `emitLoadALUDest` -/
def emitLoadALUDest (dstAlways64 : Bool) : JitEmit JitValue :=
  if inst.isAlu64 || dstAlways64 then createLoad .i64 (regs inst.dst.toNat)
  else createLoad .i32 (regs inst.dst.toNat)

/-- `emitStoreALUResult` -/
def emitStoreALUResult (result : JitValue) : JitEmit Unit :=
  if inst.isAlu64 then createStore result (regs inst.dst.toNat)
  else do
    let v ← createCast .zext result .i64
    createStore v (regs inst.dst.toNat)

/-- `emitALUWithDstAndSrc` -/
def emitALUWithDstAndSrc (func : JitValue → JitValue → JitEmit JitValue) : JitEmit Unit := do
  let dst_val ← inst.emitLoadALUDest false
  let src_val ← inst.emitLoadALUSource
  let result ← func dst_val src_val
  inst.emitStoreALUResult result

/-- The constant `x` of the instruction's width. -/
def getInt (x : ℤ) : JitValue := if inst.isAlu64 then getInt64 (BitVec.ofInt 64 x) else getInt32
    (BitVec.ofInt 32 x)

def getIntMin : JitValue := if inst.isAlu64 then getInt64 (BitVec.intMin 64) else getInt32 (BitVec.intMin 32)

/-- The divisor of a signed division: of a 64-bit one, the low 32 bits extended by their sign. -/
def emitSDivisor (src_val : JitValue) : JitEmit JitValue :=
  if inst.isAlu64 then do
    let low ← createCast .trunc src_val .i32
    createCast .sext low .i64
  else pure src_val

/-- The signed division, with its overflow answered by the smallest number. -/
def emitSDiv (dst_val src_val : JitValue) : JitEmit JitValue := do
  let isMin ← createICmp .eq dst_val inst.getIntMin
  let isMinusOne ← createICmp .eq src_val (inst.getInt (-1))
  let overflow_cond ← createBinOp .and isMin isMinusOne
  let quotient ← createBinOp .sdiv dst_val src_val
  createSelect overflow_cond inst.getIntMin quotient

def emitQuotient (dst_val src_val : JitValue) : JitEmit JitValue :=
  if inst.offset = 1 then do
    let src_val ← inst.emitSDivisor src_val
    inst.emitSDiv dst_val src_val
  else createBinOp .udiv dst_val src_val

/-- The case of `EBPF_OP_DIV_IMM`: the quotient, or 0 for a zero divisor. -/
def emitDiv (dst_val src_val : JitValue) : JitEmit JitValue := do
  let src_is_zero ← createICmp .eq src_val (inst.getInt 0)
  let result ← inst.emitQuotient dst_val src_val
  createSelect src_is_zero (inst.getInt 0) result

def emitSDividend (dst_val : JitValue) : JitEmit JitValue :=
  if inst.isAlu64 then createCast .sext dst_val .i64 else pure dst_val

def emitRemainder (dst_val src_val : JitValue) : JitEmit JitValue :=
  if inst.offset = 1 then do
    let dst_val ← inst.emitSDividend dst_val
    let src_val ← inst.emitSDivisor src_val
    createBinOp .srem dst_val src_val
  else createBinOp .urem dst_val src_val

/-- The case of `EBPF_OP_MOD_IMM`: the remainder, or the dividend for a zero divisor. -/
def emitMod (dst_val src_val : JitValue) : JitEmit JitValue := do
  let src_is_zero ← createICmp .eq src_val (inst.getInt 0)
  let result ← inst.emitRemainder dst_val src_val
  createSelect src_is_zero dst_val result

def emitShift (op : BinOp) (dst_val src_val : JitValue) : JitEmit JitValue := do
  let amount ← createBinOp .urem src_val (if inst.isAlu64 then getInt64 64 else getInt32 32)
  createBinOp op dst_val amount

/-- The function that each arithmetic case passes to `emitALUWithDstAndSrc`. -/
def emitAluOp (op : AluOp) (dst_val src_val : JitValue) : JitEmit JitValue :=
  match op with
  | .add => createBinOp .add dst_val src_val
  | .sub => createBinOp .sub dst_val src_val
  | .mul => createBinOp .mul dst_val src_val
  | .div => inst.emitDiv dst_val src_val
  | .or => createBinOp .or dst_val src_val
  | .and => createBinOp .and dst_val src_val
  | .lsh => inst.emitShift .shl dst_val src_val
  | .rsh => inst.emitShift .lshr dst_val src_val
  | .mod => inst.emitMod dst_val src_val
  | .xor => createBinOp .xor dst_val src_val
  | .arsh => inst.emitShift .ashr dst_val src_val

/-- The case of `EBPF_OP_NEG`. -/
def emitNeg : JitEmit Unit := do
  let dst_val ← inst.emitLoadALUDest false
  let result ← createBinOp .sub (inst.getInt 0) dst_val
  inst.emitStoreALUResult result

def movsxTy : Option Ty :=
  if inst.offset = 8 then some .i8
  else if inst.offset = 16 then some .i16
  else if inst.offset = 32 then some .i32
  else none

def emitMovsx (ty : Ty) (src_val : JitValue) : JitEmit JitValue := do
  let low ← createCast .trunc src_val ty
  let extended_result ← createCast .sext low ty
  createCast .sext extended_result (if inst.isAlu64 then .i64 else .i32)

/-- The case of `EBPF_OP_MOV_IMM`. -/
def emitMov (pc : ℕ) : Except Failure (JitEmit Unit) :=
  if inst.offset ≠ 0 then
    match inst.movsxTy with
    | none => .error (.error (.invalidMovsx inst.offset pc))
    | some ty => .ok do
      let src_val ← inst.emitLoadALUSource
      let result ← inst.emitMovsx ty src_val
      inst.emitStoreALUResult result
  else .ok do
    let src_val ← inst.emitLoadALUSource
    inst.emitStoreALUResult src_val

def emitByte (dst_val : JitValue) (shift : ℕ) : JitEmit JitValue := do
  let v ← createBinOp .lshr dst_val (getInt64 (BitVec.ofNat 64 shift))
  createBinOp .and v (getInt64 0xff)

def emitBytes (dst_val : JitValue) : List ℕ → JitEmit (List JitValue)
  | [] => pure []
  | shift :: shifts => do
    let byte ← emitByte dst_val shift
    let bytes ← emitBytes dst_val shifts
    pure (byte :: bytes)

/-- The bytes merged behind the value `last`. -/
def emitMerge (last : JitValue) : List JitValue → JitEmit JitValue
  | [] => pure last
  | val :: vals => do
    let shifted ← createBinOp .shl last (getInt64 8)
    let merged ← createBinOp .or shifted val
    emitMerge merged vals

def emitReverse (dst_val : JitValue) (size : ℕ) : JitEmit JitValue := do
  let bytes ← emitBytes dst_val ((List.range (size / 8)).map (8 * ·))
  match bytes with
  | [] => pure dst_val
  | val :: vals => emitMerge val vals

/-- `need_reverse` of `emitALUEndianConversion` -/
def needReverse : Bool := inst.isAlu64 || inst.isReg

def emitConversion (dst_val : JitValue) : JitEmit JitValue :=
  if inst.needReverse then emitReverse dst_val inst.imm.toNat
  else if inst.imm = 16 then createCast .trunc dst_val .i16
  else if inst.imm = 32 then createCast .trunc dst_val .i32
  else pure dst_val

/-- `emitALUEndianConversion` -/
def emitALUEndianConversion : Except Failure (JitValue → JitEmit JitValue) :=
  if inst.imm ≠ 16 ∧ inst.imm ≠ 32 ∧ inst.imm ≠ 64 then .error (.error (.endianSize inst.imm))
  else .ok inst.emitConversion

/-- The case of `EBPF_OP_LE`. -/
def emitEndian : Except Failure (JitEmit Unit) := do
  let convert ← inst.emitALUEndianConversion
  return do
    let dst_val ← inst.emitLoadALUDest true
    let result ← convert dst_val
    inst.emitStoreALUResult result

/-- The address of a register's value plus `offset`. -/
def emitAddr (reg : ℕ) : JitEmit JitValue := do
  let base ← createLoad .ptr (regs reg)
  createGEP 1 base (getInt64 (inst.offset.signExtend 64))

/-- `emitStoreLoadingSrc` -/
def emitStoreLoadingSrc : JitEmit JitValue :=
  if inst.opcode &&& 0x07 = clsStx then createLoad .i64 (regs inst.src.toNat)
  else pure (getInt64 (inst.imm.signExtend 64))

/-- `emitStore`, with `emitStoreWritingResult` -/
def emitStore (destTy : Ty) : JitEmit Unit := do
  let src ← inst.emitStoreLoadingSrc
  let result ← createCast .trunc src destTy
  let addr ← inst.emitAddr inst.dst.toNat
  createStore result addr

/-- `emitLoadX`, with `emitLDXLoadingAddr` and `emitLDXStoringResult` -/
def emitLoadX (srcTy : Ty) : JitEmit Unit := do
  let addr ← inst.emitAddr inst.src.toNat
  let result ← createLoad srcTy addr
  let v ← createCast .zext result .i64
  createStore v (regs inst.dst.toNat)

def emitConst (x : BitVec 64) : JitEmit Unit := createStore (getInt64 x) (regs inst.dst.toNat)

/-- The address of a map's value plus `imm`, looked up now or by the emitted code. -/
def emitMapVal (cfg : Config) (pc : ℕ) (mapPtr : BitVec 64) (imm : BitVec 32) :
    Except Failure (JitEmit Unit) :=
  if cfg.patch_map_val_at_compile_time then
    match cfg.map_val with
    | none => .error (.error (.noMapVal pc))
    | some map_val => .ok (inst.emitConst (map_val mapPtr + imm.signExtend 64))
  else if cfg.mapValHelper then .ok do
    let retMapVal ← createCall .mapVal [getInt64 mapPtr]
    let finalRet ← createBinOp .add retMapVal (getInt64 (imm.signExtend 64))
    createStore finalRet (regs inst.dst.toNat)
  else .error (.error (.noMapValHelper inst.src.toNat pc))

def mapRef (lookup : Option (BitVec 32 → BitVec 64)) : BitVec 64 :=
  match lookup with
  | some f => f inst.imm
  | none => inst.imm.signExtend 64

def emitLddwBySrc (cfg : Config) (pc : ℕ) (nextinst : EbpfInst) : Except Failure (JitEmit Unit) :=
  match inst.src.toNat with
  | 0 => .ok (inst.emitConst (nextinst.imm ++ inst.imm))
  | 1 => .ok (inst.emitConst (inst.mapRef cfg.map_by_fd))
  | 2 => inst.emitMapVal cfg pc (inst.mapRef cfg.map_by_fd) nextinst.imm
  | 3 =>
    match cfg.var_addr with
    | none => .error (.error (.noVarAddr pc))
    | some var_addr => .ok (inst.emitConst (var_addr inst.imm))
  | 4 =>
    match cfg.code_addr with
    | none => .error (.error (.noCodeAddr pc))
    | some code_addr => .ok (inst.emitConst (code_addr inst.imm))
  | 5 => .ok (inst.emitConst (inst.mapRef cfg.map_by_idx))
  | 6 => inst.emitMapVal cfg pc (inst.mapRef cfg.map_by_idx) nextinst.imm
  -- No other source register is an error, and none emits code.
  | _ => .ok (pure ())

def isLddwSlot : Bool := inst.opcode == 0 && inst.dst == 0 && inst.src == 0 && inst.offset == 0

/-- The case of `EBPF_OP_LDDW`, with the instruction that follows. -/
def emitLddw (cfg : Config) (pc : ℕ) (nextinst : Option EbpfInst) : Except Failure (JitEmit Unit) :=
  match nextinst with
  | none => .error (.error (.lddwLast pc))
  | some nextinst =>
    if nextinst.isLddwSlot then inst.emitLddwBySrc cfg pc nextinst
    else .error (.error (.lddwNext pc))

/-- `EBPF_ATOMIC_OP_FETCH` is set. -/
def isFetch : Bool := inst.imm &&& 0x01 == 0x01

def emitAtomicOperand (is64 : Bool) : JitEmit JitValue :=
  if is64 then createLoad .i64 (regs inst.src.toNat)
  else do
    let src ← createLoad .i64 (regs inst.src.toNat)
    createCast .trunc src .i32

/-- `emitAtomicBinOp` -/
def emitAtomicBinOp (op : RmwOp) (is64 is_fetch : Bool) : JitEmit Unit := do
  let addr ← inst.emitAddr inst.dst.toNat
  let v ← inst.emitAtomicOperand is64
  let oldValue ← createAtomicRMW op addr v 32
  if is_fetch then createStore oldValue (regs inst.src.toNat) else pure ()

/-- The case of `EBPF_ATOMIC_OP_CMPXCHG`. -/
def emitCmpXchg (is64 : Bool) : JitEmit Unit := do
  let ty := if is64 then .i64 else .i32
  let vPtr ← inst.emitAddr inst.dst.toNat
  let beforeVal ← createLoad ty vPtr
  let expected ← createLoad ty (regs 0)
  let new ← createLoad ty (regs inst.src.toNat)
  let _ ← createAtomicCmpXchg vPtr expected new none
  let v ← createCast .zext beforeVal .i64
  createStore v (regs 0)

/-- The case of `EBPF_ATOMIC_OPCODE_32`. -/
def emitAtomic : Except Failure (JitEmit Unit) :=
  let is64 := inst.opcode == atomicOpcode64
  if inst.imm = 0x00 ∨ inst.imm = 0x01 then .ok (inst.emitAtomicBinOp .add is64 inst.isFetch)
  else if inst.imm = 0x50 ∨ inst.imm = 0x51 then .ok (inst.emitAtomicBinOp .and is64 inst.isFetch)
  else if inst.imm = 0x40 ∨ inst.imm = 0x41 then .ok (inst.emitAtomicBinOp .or is64 inst.isFetch)
  else if inst.imm = 0xa0 ∨ inst.imm = 0xa1 then .ok (inst.emitAtomicBinOp .xor is64 inst.isFetch)
  else if inst.imm = 0xe1 then .ok (inst.emitAtomicBinOp .xchg is64 false)
  else if inst.imm = 0xf1 then .ok (inst.emitCmpXchg is64)
  else .error (.error (.unsupportedAtomic inst.imm))

def isJmp32 : Bool := inst.opcode &&& 0x07 == clsJmp32

/-- The source operand of `emitJmpLoadSrcAndDstAndZero`. -/
def emitJmpLoadSrc : JitEmit JitValue :=
  if inst.isJmp32 then
    if inst.isReg then createLoad .i32 (regs inst.src.toNat) else pure (getInt32 inst.imm)
  else
    if inst.isReg then createLoad .i64 (regs inst.src.toNat)
    else pure (getInt64 (inst.imm.signExtend 64))

/-- The destination operand of `emitJmpLoadSrcAndDstAndZero`. -/
def emitJmpLoadDst : JitEmit JitValue :=
  if inst.isJmp32 then createLoad .i32 (regs inst.dst.toNat)
  else createLoad .i64 (regs inst.dst.toNat)

/-- The zero of `emitJmpLoadSrcAndDstAndZero`. -/
def jmpZero : JitValue := if inst.isJmp32 then getInt32 0 else getInt64 0

/-- The number `dstBlkId` of `loadJmpDstBlock`, a 16-bit number. -/
def jmpDstBlkId (pc : ℕ) (useOffset : Bool) : ℕ :=
  (BitVec.ofNat 16 (pc + 1) + if useOffset then inst.offset else inst.imm.setWidth 16).toNat

/-- `loadJmpDstBlock`, and `loadCallDstBlock` without the offset -/
def loadJmpDstBlock (instBlocks : ℕ → Bool) (pc : ℕ) (useOffset : Bool) : Except Failure Label :=
  let dstBlkId := inst.jmpDstBlkId pc useOffset
  if instBlocks dstBlkId then .ok (.inst dstBlkId)
  else .error (.error (.illegalPosition pc dstBlkId))

/-- `loadJmpNextBlock` -/
def loadJmpNextBlock (instBlocks : ℕ → Bool) (pc : ℕ) : Except Failure Label :=
  let nextBlkId := (pc + 1) % 2^16
  if instBlocks nextBlkId then .ok (.inst nextBlkId)
  else .error (.error (.illegalPosition pc nextBlkId))

/-- `localJmpDstAndNextBlk` -/
def localJmpDstAndNextBlk (instBlocks : ℕ → Bool) (pc : ℕ) : Except Failure (Label × Label) := do
  let dst ← inst.loadJmpDstBlock instBlocks pc true
  let next ← loadJmpNextBlock instBlocks pc
  return (dst, next)

/-- `emitCondJmpWithDstAndSrc` -/
def emitCondJmpWithDstAndSrc (instBlocks : ℕ → Bool) (pc : ℕ)
    (func : JitValue → JitValue → JitEmit JitValue) :
    Except Failure (JitEmit (Option (Term Label))) := do
  let (dstBlk, nextBlk) ← inst.localJmpDstAndNextBlk instBlocks pc
  return do
    let src ← inst.emitJmpLoadSrc
    let dst ← inst.emitJmpLoadDst
    let cond ← func dst src
    pure (some (.condBr cond.operand dstBlk nextBlk))

/-- The case of `EBPF_OP_JSET_IMM`. -/
def emitJset (instBlocks : ℕ → Bool) (pc : ℕ) : Except Failure (JitEmit (Option (Term Label))) := do
  let (dstBlk, nextBlk) ← inst.localJmpDstAndNextBlk instBlocks pc
  return do
    let src ← inst.emitJmpLoadSrc
    let dst ← inst.emitJmpLoadDst
    let both ← createBinOp .and dst src
    let cond ← createICmp .ne both inst.jmpZero
    pure (some (.condBr cond.operand dstBlk nextBlk))

/-- `emitExtFuncCall`. -/
def emitExtFuncCall (cfg : Config) : Except Failure (JitEmit (Option (Term Label))) :=
  if inst.imm ∈ cfg.extFuncs then .ok do
    let a1 ← createLoad .i64 (regs 1)
    let a2 ← createLoad .i64 (regs 2)
    let a3 ← createLoad .i64 (regs 3)
    let a4 ← createLoad .i64 (regs 4)
    let a5 ← createLoad .i64 (regs 5)
    let callInst ← createCall (.helper inst.imm) [a1, a2, a3, a4, a5]
    createStore callInst (regs 0)
    pure (if inst.imm = 12 then some (.br .exit) else none)
  else .error (.error (.extFuncNotFound inst.imm))

/-- The slot of the call stack at a distance below the position `pos`. -/
def emitCallSlot (pos : JitValue) (below : ℕ) : JitEmit JitValue := do
  let i ← createBinOp .sub pos (getInt64 (BitVec.ofNat 64 below))
  createGEP 8 callStack i

def savedRegs : List ℕ := [6, 7, 8, 9]

def emitSaveRegs (nextPos : JitValue) : List ℕ → JitEmit Unit
  | [] => pure ()
  | i :: is => do
    let v ← createLoad .i64 (regs i)
    let slot ← emitCallSlot nextPos (i - 4)
    createStore v slot
    emitSaveRegs nextPos is

def emitRestoreRegs (count : JitValue) : List ℕ → JitEmit Unit
  | [] => pure ()
  | i :: is => do
    let slot ← emitCallSlot count (i - 4)
    let v ← createLoad .i64 slot
    createStore v (regs i)
    emitRestoreRegs count is

/-- The push of the return address and the callee-saved registers, and the move of the data stack.
-/
def emitPushFrame (retBlk : Label) : JitEmit Unit := do
  let count ← createLoad .i64 callItemCnt
  let nextPos ← createBinOp .add count (getInt64 5)
  createStore nextPos callItemCnt
  let slot ← emitCallSlot nextPos 1
  createStore ⟨.ptr, .label retBlk⟩ slot
  emitSaveRegs nextPos savedRegs
  let r10 ← createLoad .i64 (regs 10)
  let moved ← createBinOp .sub r10 (getInt64 (BitVec.ofNat 64 stackSize))
  createStore moved (regs 10)

def emitLocalCall (instBlocks localFuncRetBlks : ℕ → Bool) (pc : ℕ) :
    Except Failure (JitEmit (Option (Term Label))) :=
  if localFuncRetBlks (pc + 1) then do
    let dstBlk ← inst.loadJmpDstBlock instBlocks pc false
    return do
      emitPushFrame (.inst (pc + 1))
      pure (some (.br dstBlk))
  else .error .crash

/-- The case of `EBPF_OP_EXIT`. -/
def emitExit : JitEmit (Option (Term Label)) := do
  let count ← createLoad .i64 callItemCnt
  let cond ← createICmp .eq count (getInt64 0)
  pure (some (.condBr cond.operand .exit .localRet))

/-- The block `localFuncReturnBlock`, with the blocks that a local function may return to. -/
def emitLocalRet (dests : List Label) : JitEmit (Option (Term Label)) := do
  let count ← createLoad .i64 callItemCnt
  let slot ← emitCallSlot count 1
  let targetAddr ← createLoad .ptr slot
  emitRestoreRegs count savedRegs
  let rest ← createBinOp .sub count (getInt64 5)
  createStore rest callItemCnt
  let r10 ← createLoad .i64 (regs 10)
  let moved ← createBinOp .add r10 (getInt64 (BitVec.ofNat 64 stackSize))
  createStore moved (regs 10)
  pure (some (.indirectBr targetAddr.operand dests))

def straight (e : JitEmit Unit) : JitEmit (Option (Term Label)) := do
  e
  pure none

/-- The cases of the switch, for the instruction at `pc`, which `nextinst` follows. -/
def emitCase (cfg : Config) (instBlocks localFuncRetBlks : ℕ → Bool) (pc : ℕ)
    (nextinst : Option EbpfInst) : Case → Except Failure (JitEmit (Option (Term Label)))
  | .alu op => .ok (straight (inst.emitALUWithDstAndSrc (inst.emitAluOp op)))
  | .neg => .ok (straight inst.emitNeg)
  | .mov => (inst.emitMov pc).map straight
  | .endian => inst.emitEndian.map straight
  | .store ty => .ok (straight (inst.emitStore ty))
  | .loadX ty => .ok (straight (inst.emitLoadX ty))
  | .lddw => (inst.emitLddw cfg pc nextinst).map straight
  | .ja => do
    let dst ← inst.loadJmpDstBlock instBlocks pc true
    return pure (some (.br dst))
  | .jaImm => do
    let dst ← inst.loadJmpDstBlock instBlocks pc false
    return pure (some (.br dst))
  | .call =>
    if inst.src = 1 then inst.emitLocalCall instBlocks localFuncRetBlks pc
    else inst.emitExtFuncCall cfg
  | .exit => .ok emitExit
  | .jcc pred => inst.emitCondJmpWithDstAndSrc instBlocks pc (createICmp pred)
  | .jset => inst.emitJset instBlocks pc
  | .atomic => inst.emitAtomic.map straight

def emit (cfg : Config) (instBlocks localFuncRetBlks : ℕ → Bool) (pc : ℕ)
    (nextinst : Option EbpfInst) : Except Failure (JitEmit (Option (Term Label))) :=
  if inst.dst.toNat > 10 ∨ inst.src.toNat > 10 then .error (.error (.illegalReg pc))
  else
    match inst.case with
    | some c => inst.emitCase cfg instBlocks localFuncRetBlks pc nextinst c
    | none => .error (.error (.unsupportedOpcode inst.opcode pc))

lemma emit_eq_ok_iff {inst : EbpfInst} {cfg : Config} {instBlocks localFuncRetBlks : ℕ → Bool}
    {pc : ℕ} {nextinst : Option EbpfInst} {e : JitEmit (Option (Term Label))} :
    inst.emit cfg instBlocks localFuncRetBlks pc nextinst = .ok e ↔
    (inst.dst.toNat ≤ 10 ∧ inst.src.toNat ≤ 10) ∧ ∃ c, inst.case = some c ∧
    inst.emitCase cfg instBlocks localFuncRetBlks pc nextinst c = .ok e := by
  rw [emit]
  by_cases hreg : inst.dst.toNat > 10 ∨ inst.src.toNat > 10
  · rw [if_pos hreg]
    exact iff_of_false (by simp) (by omega)
  · rw [if_neg hreg, and_iff_right (by omega)]
    cases inst.case <;> simp

end EbpfInst

end Bpftime.Jit
