import Bpftime.Jit.Compiler
import Bpftime.Lib.Runs

/-!
# The life of a virtual machine

The class `llvmbpf_vm` of `vm.cpp` with the parts of `llvm_bpf_jit_context` that it calls.
-/

namespace Bpftime.Vm

open Jit Runs

/-! ## The machine -/

structure Engine (O I F : Type) where
  /-- `generateModule` and `addIRModule`, with the message of an error. -/
  addModule : List EbpfInst → Except String I
  /-- `addObjectFile` -/
  addObjectFile : O → Except String I
  /-- The symbol `bpf_main`. -/
  lookup : I → Option F
  /-- `generateModule` checks that there are instructions. -/
  addModule_nil : addModule [] = .error CompileError.noInstructions.message

/-- The fields of `llvmbpf_vm` that its calls read, with the instance in `jit_ctx`. -/
structure LlvmbpfVm (I F : Type) where
  instructions : List EbpfInst
  jit : Option I
  jitted_function : Option F
  error_msg : String

def instOfBytes (b : List UInt8) : EbpfInst where
  opcode := (b.getD 0 0).toBitVec
  dst := (b.getD 1 0).toBitVec.setWidth 4
  src := ((b.getD 1 0).toBitVec >>> 4).setWidth 4
  offset := (b.getD 3 0).toBitVec ++ (b.getD 2 0).toBitVec
  imm := (b.getD 7 0).toBitVec ++ (b.getD 6 0).toBitVec ++ (b.getD 5 0).toBitVec ++ (b.getD 4 0).toBitVec

/-- The first `n` records of the code. -/
def readInsts : ℕ → List UInt8 → List EbpfInst
  | 0, _ => []
  | n + 1, code => instOfBytes (code.take 8) :: readInsts n (code.drop 8)

def instsOf (code : List UInt8) : List EbpfInst := readInsts (code.length / 8) code

namespace LlvmbpfVm

variable {O I F : Type} (engine : Engine O I F)

def new : LlvmbpfVm I F := ⟨[], none, none, ""⟩

/-- `load_code` -/
def loadCode (vm : LlvmbpfVm I F) (code : List UInt8) : Bool × LlvmbpfVm I F :=
  if code.length % 8 ≠ 0 then
    (false, { vm with error_msg := "Code len must be a multiple of 8" })
  else (true, { vm with instructions := instsOf code })

/-- `unload_code` -/
def unloadCode (vm : LlvmbpfVm I F) : LlvmbpfVm I F := { vm with instructions := [] }

/-- `get_entry_address`, with the message of the exception. -/
def getEntryAddress (vm : LlvmbpfVm I F) : Except String F :=
  match vm.jit with
  | none => .error "Not compiled yet"
  | some jit =>
    match engine.lookup jit with
    | none => .error "Unable to link symbol `bpf_main`"
    | some func => .ok func

/-- `compile` -/
def compile (vm : LlvmbpfVm I F) : Option F × LlvmbpfVm I F :=
  match vm.jitted_function with
  | some func => (some func, { vm with error_msg := "Already compiled" })
  | none =>
    match engine.addModule vm.instructions with
    | .error msg => (none, { vm with error_msg := msg })
    | .ok jit =>
      -- `do_jit_compile` keeps the new instance, also if the symbol is then not found.
      let vm := { vm with jit := some jit }
      match vm.getEntryAddress engine with
      | .error msg => (none, { vm with error_msg := msg, jitted_function := none })
      | .ok func => (some func, { vm with jitted_function := some func })

/-- `exec`, with the function that it calls, or `none` if it returns -1. -/
def exec (vm : LlvmbpfVm I F) : Option F × LlvmbpfVm I F :=
  match vm.jitted_function with
  | some func => (some func, vm)
  | none =>
    match vm.compile engine with
    | (none, vm) => (none, vm)
    | (some func, vm) => (some func, { vm with jitted_function := some func })

/-- `load_aot_object` -/
def loadAotObject (vm : LlvmbpfVm I F) (object : O) : Option F × LlvmbpfVm I F :=
  match vm.jitted_function with
  | some _ => (none, { vm with error_msg := "Already compiled" })
  | none =>
    match vm.jit with
    | some _ => (none, { vm with error_msg := "Unable to load aot object: already compiled" })
    | none =>
      match engine.addObjectFile object with
      | .error msg => (none, { vm with error_msg := msg })
      | .ok jit =>
        let vm := { vm with jit := some jit }
        match vm.getEntryAddress engine with
        | .error msg => (none, { vm with error_msg := msg })
        | .ok func => (some func, { vm with jitted_function := some func })

end LlvmbpfVm

inductive Call (O : Type) where
  | loadCode (code : List UInt8)
  | unloadCode
  | compile
  | loadAotObject (object : O)
  | exec

inductive Reply (F : Type) where
  | loaded (ok : Bool)
  | unloaded
  | compiled (func : Option F)
  | loadedObject (func : Option F)
  | ran (func : Option F)

variable {O I F : Type} (engine : Engine O I F)

def step (vm : LlvmbpfVm I F) : Call O → Reply F × LlvmbpfVm I F
  | .loadCode code => ((vm.loadCode code).map .loaded id)
  | .unloadCode => (.unloaded, vm.unloadCode)
  | .compile => ((vm.compile engine).map .compiled id)
  | .loadAotObject object => ((vm.loadAotObject engine object).map .loadedObject id)
  | .exec => ((vm.exec engine).map .ran id)

inductive Source (O : Type) where
  | code (insts : List EbpfInst)
  | object (object : O)

/-- The program that a source gives, if it can be compiled and linked. -/
def Engine.program : Source O → Option F
  | .code insts => (engine.addModule insts).toOption.bind engine.lookup
  | .object object => (engine.addObjectFile object).toOption.bind engine.lookup

/-- The most recent successful load that has not been unloaded, after one more call. -/
def lastLoad (last : Option (Source O)) : Call O → Reply F → Option (Source O)
  | .loadCode code, .loaded true => some (.code (instsOf code))
  | .loadAotObject object, .loadedObject (some _) => some (.object object)
  | .unloadCode, _ => none
  | _, _ => last

/-- A call of `exec` or `compile` that succeeds has the program of the most recent load. -/
def Agrees (last : Option (Source O)) : Reply F → Prop
  | .ran (some func) => ∃ source, last = some source ∧ engine.program source = some func
  | .compiled (some func) => ∃ source, last = some source ∧ engine.program source = some func
  | _ => True

/-- Every call of a run from `vm` answers by what was loaded last. -/
def Follows : Option (Source O) → LlvmbpfVm I F → List (Call O) → Prop
  | _, _, [] => True
  | last, vm, call :: calls =>
    Agrees engine last (step engine vm call).1 ∧
      Follows (lastLoad last call (step engine vm call).1) (step engine vm call).2 calls

/-- Code is loaded and unloaded only while no function is cached. -/
def Uncached (vm : LlvmbpfVm I F) : Call O → Prop
  | .loadCode code => code.length % 8 = 0 → vm.jitted_function = none
  | .unloadCode => vm.jitted_function = none
  | _ => True

variable {engine} {vm : LlvmbpfVm I F}

/-- The function that `compile` and `exec` come to: the cached one, or that of the instructions. -/
def LlvmbpfVm.current (engine : Engine O I F) (vm : LlvmbpfVm I F) : Option F :=
  match vm.jitted_function with
  | some func => some func
  | none => engine.program (.code vm.instructions)

section

variable (engine : Engine O I F) (vm : LlvmbpfVm I F)

lemma compile_spec : (vm.compile engine).1 = vm.current engine ∧
    (vm.compile engine).2.jitted_function = vm.current engine ∧
    (vm.compile engine).2.instructions = vm.instructions := by
  unfold LlvmbpfVm.compile LlvmbpfVm.current Engine.program
  cases hfunc : vm.jitted_function with
  | some func => simp
  | none =>
    cases hadd : engine.addModule vm.instructions with
    | error msg => simp [hadd, Except.toOption]
    | ok jit =>
      unfold LlvmbpfVm.getEntryAddress
      cases hlookup : engine.lookup jit with
      | none | some _ => simp [hadd, hlookup, Except.toOption]

lemma exec_spec : (vm.exec engine).1 = vm.current engine ∧ (vm.exec engine).2.jitted_function =
    vm.current engine ∧
    (vm.exec engine).2.instructions = vm.instructions := by
  obtain ⟨hres, hcache, hinsts⟩ := compile_spec engine vm
  unfold LlvmbpfVm.exec
  cases hfunc : vm.jitted_function with
  | some func => simp [LlvmbpfVm.current, hfunc]
  | none =>
    -- What `compile` returns has been cached by it already.
    generalize vm.compile engine = r at hres hcache hinsts
    obtain ⟨func, vm'⟩ := r
    cases func with
    | none => exact ⟨hres, hcache, hinsts⟩
    | some func => exact ⟨hres, hres, hinsts⟩

lemma loadAotObject_spec (object : O) : (vm.loadAotObject engine object).2.instructions =
    vm.instructions ∧ match (vm.loadAotObject engine object).1 with
    | none => (vm.loadAotObject engine object).2.jitted_function = vm.jitted_function
    | some func => engine.program (.object object) = some func ∧
        (vm.loadAotObject engine object).2.jitted_function = some func := by
  unfold LlvmbpfVm.loadAotObject Engine.program
  cases hfunc : vm.jitted_function with
  | some func => simp
  | none =>
    cases hjit : vm.jit with
    | some jit => simp
    | none =>
      cases hadd : engine.addObjectFile object with
      | error msg => simp
      | ok jit =>
        unfold LlvmbpfVm.getEntryAddress
        cases hlookup : engine.lookup jit with
        | none => simp [hlookup]
        | some func => simp [hadd, hlookup, Except.toOption]

end

/-! ## Runs -/

/-- A cached function is that of the most recent load, and otherwise the instructions are. -/
structure Current (engine : Engine O I F) (last : Option (Source O)) (vm : LlvmbpfVm I F) : Prop where
  cached : ∀ func, vm.jitted_function = some func →
    ∃ source, last = some source ∧ engine.program source = some func
  uncached : vm.jitted_function = none →
    (last = none ∧ vm.instructions = []) ∨ last = some (.code vm.instructions)

variable {last : Option (Source O)}

lemma Current.program_eq (h : Current engine last vm) {func : F} (hfunc : vm.current engine = some func) :
    ∃ source, last = some source ∧ engine.program source = some func := by
  unfold LlvmbpfVm.current at hfunc
  cases hcached : vm.jitted_function with
  | some func' =>
    simp only [hcached] at hfunc
    cases hfunc
    exact h.cached _ hcached
  | none =>
    simp only [hcached] at hfunc
    rcases h.uncached hcached with ⟨-, hnil⟩ | hlast
    · -- Without instructions nothing is compiled.
      rw [hnil] at hfunc
      simp [Engine.program, engine.addModule_nil, Except.toOption] at hfunc
    · exact ⟨_, hlast, hfunc⟩

lemma Current.of_compiled (h : Current engine last vm) {vm' : LlvmbpfVm I F}
    (hcache : vm'.jitted_function = vm.current engine)
    (hinsts : vm'.instructions = vm.instructions) : Current engine last vm' where
  cached func hfunc := h.program_eq (hcache ▸ hfunc)
  uncached hnone := by
    rw [hinsts]
    refine h.uncached ?_
    unfold LlvmbpfVm.current at hcache
    cases hcached : vm.jitted_function with
    | none => rfl
    | some func => simp [hnone, hcached] at hcache

lemma agrees_of_current {r : Option F}
    (h : ∀ func, r = some func → ∃ source, last = some source ∧ engine.program source = some func) :
    Agrees engine last (.ran r) ∧ Agrees engine last (.compiled r) := by
  cases r with
  | none => exact ⟨trivial, trivial⟩
  | some func => exact ⟨h func rfl, h func rfl⟩

lemma Current.call (h : Current engine last vm) {call : Call O} (hcall : Uncached vm call) :
    Agrees engine last (step engine vm call).1 ∧
    Current engine (lastLoad last call (step engine vm call).1) (step engine vm call).2 := by
  cases call with
  | loadCode code =>
    by_cases hlen : code.length % 8 = 0
    · have hnone : vm.jitted_function = none := hcall hlen
      have hstep : step engine vm (.loadCode code) =
          (.loaded true, { vm with instructions := instsOf code }) := by
            simp [Vm.step, LlvmbpfVm.loadCode, hlen]
      rw [hstep]
      refine ⟨trivial, fun func hfunc => ?_, fun _ => .inr rfl⟩
      exact absurd (hnone.symm.trans hfunc) (by simp)
    · have hstep : step engine vm (.loadCode code) =
          (.loaded false, { vm with error_msg := "Code len must be a multiple of 8" }) := by
        simp [Vm.step, LlvmbpfVm.loadCode, hlen]
      rw [hstep]
      exact ⟨trivial, h.cached, h.uncached⟩
  | unloadCode =>
    have hnone : vm.jitted_function = none := hcall
    refine ⟨trivial, fun func hfunc => ?_, fun _ => .inl ⟨rfl, rfl⟩⟩
    exact absurd (hnone.symm.trans hfunc) (by simp)
  | compile =>
    obtain ⟨hres, hcache, hinsts⟩ := compile_spec engine vm
    refine ⟨(agrees_of_current fun func hfunc => h.program_eq ?_).2, h.of_compiled hcache hinsts⟩
    rw [← hres]
    exact hfunc
  | exec =>
    obtain ⟨hres, hcache, hinsts⟩ := exec_spec engine vm
    refine ⟨(agrees_of_current fun func hfunc => h.program_eq ?_).1, h.of_compiled hcache hinsts⟩
    rw [← hres]
    exact hfunc
  | loadAotObject object =>
    obtain ⟨hinsts, hspec⟩ := loadAotObject_spec engine vm object
    have hstep : step engine vm (.loadAotObject object) =
        (.loadedObject (vm.loadAotObject engine object).1, (vm.loadAotObject engine object).2) := rfl
    rw [hstep]
    generalize vm.loadAotObject engine object = r at hinsts hspec ⊢
    obtain ⟨func, vm'⟩ := r
    refine ⟨trivial, ?_⟩
    cases func with
    | none =>
      -- Nothing has changed but the message, and perhaps the instance.
      change vm'.instructions = vm.instructions at hinsts
      change vm'.jitted_function = vm.jitted_function at hspec
      exact ⟨fun func hfunc => h.cached func (hspec ▸ hfunc),
        fun hnone => by rw [hinsts]; exact h.uncached (hspec ▸ hnone)⟩
    | some func =>
      obtain ⟨hprogram, hcache⟩ := hspec
      change vm'.jitted_function = some func at hcache
      refine ⟨fun func' hfunc => ⟨_, rfl, ?_⟩, fun hnone => ?_⟩
      · rw [hprogram, ← hcache, hfunc]
      · exact absurd (hnone.symm.trans hcache) (by simp)

lemma Current.follows {calls : List (Call O)} (h : Current engine last vm)
    (hcalls : Along (fun vm call => some (step engine vm call)) Uncached vm calls) :
    Follows engine last vm calls := by
  induction calls generalizing last vm with
  | nil => trivial
  | cons call calls ih =>
    obtain ⟨hcall, hrest⟩ := hcalls
    obtain ⟨hagrees, hnext⟩ := h.call hcall
    exact ⟨hagrees, ih hnext (hrest _ _ rfl)⟩

/-- In every run of a new machine that loads and unloads code only while no function is cached, a
call of `exec` or `compile` that succeeds has the program of the most recent successful load, and
none succeeds after `unload_code` without a later load. -/
theorem follows_of_uncached (engine : Engine O I F) (calls : List (Call O))
    (hcalls : Along (fun vm call => some (step engine vm call)) Uncached LlvmbpfVm.new calls) :
    Follows engine none LlvmbpfVm.new calls := by
  have hnew : Current engine none LlvmbpfVm.new := ⟨by simp [LlvmbpfVm.new], fun _ => .inl ⟨rfl, rfl⟩⟩
  exact hnew.follows hcalls

/-- The compiler in its plain environment, with object files that are emitted functions. -/
def hostEngine : Engine Module Module Module where
  addModule insts :=
    match generateModule bareConfig insts with
    | .ok m => .ok m
    | .error (.error e) => .error e.message
    | .error _ => .error ""
  addObjectFile := .ok
  lookup := some
  addModule_nil := rfl

/-- `mov r0, imm` and `exit` -/
def returnCode (imm : UInt8) : List UInt8 := [0xb7, 0, 0, 0, imm, 0, 0, 0, 0x95, 0, 0, 0, 0, 0, 0, 0]

/-- A run that loads code once. -/
theorem follows_once : Follows hostEngine none LlvmbpfVm.new
    [.loadCode (returnCode 1), .exec, .compile, .exec] :=
  follows_of_uncached _ _ ⟨fun _ => rfl, fun _ _ _ => ⟨trivial, fun _ _ _ => ⟨trivial, fun _ _ _ =>
    ⟨trivial, fun _ _ _ => trivial⟩⟩⟩⟩

/-- The value that a function returns, if it does within 20 chunks. -/
def returns (m : Module) : Option Ir.Val := returnedValue (m.run bareLinkage 20 zeroState).2

def Reply.value : Reply Module → Option Ir.Val
  | .ran (some func) => returns func
  | _ => none

lemma Agrees.value_eq {last : Option (Source Module)} {r : Reply Module}
    (h : Agrees hostEngine last r) {v : Ir.Val} (hv : r.value = some v) :
    (last.bind hostEngine.program).bind returns = some v := by
  unfold Reply.value at hv
  split at hv
  · obtain ⟨source, rfl, hprogram⟩ := h
    rw [Option.bind_some, hprogram]
    exact hv
  · cases hv

/-- The second of two programs is not run once the first one has been, and a program is still run
after it was unloaded. -/
theorem not_follows_second : ¬ Follows hostEngine none LlvmbpfVm.new
      [.loadCode (returnCode 1), .exec, .loadCode (returnCode 2), .exec] ∧
    ¬ Follows hostEngine none LlvmbpfVm.new [.loadCode (returnCode 1), .exec, .unloadCode, .exec] := by
  constructor
  all_goals
    rintro ⟨-, -, -, hagrees, -⟩
    exact absurd (hagrees.value_eq (v := .i64 1) (by decide +kernel)) (by decide +kernel)

end Bpftime.Vm
