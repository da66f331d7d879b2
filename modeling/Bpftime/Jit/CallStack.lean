import Bpftime.Jit.ControlFlow

/-!
# The call stack

What the code of a local call and of the return from it do to the call stack, and which calls are
active at each point of a run.
-/

namespace Bpftime.Jit

open BitVec (ofNat ofNat_add toNat toNat_ofNat)
open Ir Traces Option List EbpfInst State Chunk
open Jit.Module

variable {k : Linkage} {env : List Val} {s : State}

/-! ## Code for the call stack -/

lemma setLocal_locals (s : State) (a i : ℕ) (x : BitVec 64) (b j : ℕ) :
    (s.setLocal a i x).locals b j = if b = a ∧ j = i then x else s.locals b j := by
  by_cases hb : b = a
  · subst hb
    simp [setLocal, Function.update_apply]
  · simp [setLocal, hb]

variable {x pos : BitVec 64} {p v : JitValue}

lemma yields_callSlot {pos : JitValue} (hpos : pos.Holds k.host env .i64 (.i64 x)) (below : ℕ) :
    Yields k.host env s (emitCallSlot pos below) .ptr (some (.cell 11 (x - BitVec.ofNat 64 below))) := by
  refine (yields_binOp .sub hpos (.int64 _)).bind fun i vals hi => ?_
  have hgep := yields_gep (s := s) (F := Callee) 8
    (show callStack.Holds k.host (env ++ vals) .ptr (.cell 11 0) from .const _ _) hi
  simpa [Val.gep] using hgep

def InCallStack (x : BitVec 64) : Prop := x.toNat < callStackSize * 5

variable {y : Val} {ty : Ty} {is : List ℕ}

section

variable (hv : v.Holds k.host env ty y) (hp : p.Holds k.host env .ptr (.cell 11 x))
include hv hp

lemma leaves_storeSlot {z : BitVec 64} (hy : y.intoCell (s.locals 11 x.toNat) = some z)
    (hx : InCallStack x) :
    Leaves k.host env s (createStore v p) (some (s.setLocal 11 x.toNat z)) := by
  have hstore := leaves_store (s := s) hv hp
  have hlt : x.toNat < k.host.length 11 := hx
  rwa [store, if_pos hlt, hy] at hstore

lemma leaves_storeSlot_none (hx : ¬ InCallStack x) : Leaves k.host env s (createStore v p) none := by
  have hstore := leaves_store (s := s) hv hp
  have hlt : ¬ x.toNat < k.host.length 11 := hx
  rwa [store, if_neg hlt] at hstore

end

lemma yields_loadSlot (ty : Ty) (hp : p.Holds k.host env .ptr (.cell 11 x)) (hx : InCallStack x) :
    Yields k.host env s (createLoad ty p) ty (ty.ofCell (s.locals 11 x.toNat)) := by
  have hload : Yields k.host env s (createLoad ty p) ty _ := yields_load hp
  have hlt : x.toNat < k.host.length 11 := hx
  rwa [load, if_pos hlt] at hload

def saveRegs (pos : BitVec 64) : List ℕ → State → State
  | [], s => s
  | i :: is, s => saveRegs pos is (s.setLocal 11 (pos - BitVec.ofNat 64 (i - 4)).toNat (reg s i))

lemma leaves_saveRegs (hv : v.Holds k.host env .i64 (.i64 pos))
    (his : ∀ i ∈ is, InCallStack (pos - BitVec.ofNat 64 (i - 4))) :
    Leaves k.host env s (emitSaveRegs v is) (some (saveRegs pos is s)) := by
  induction is generalizing env s with
  | nil => exact leaves_pure ()
  | cons i is ih =>
    refine (yields_reg64 i).leaves fun r vals hr => ?_
    refine (yields_callSlot (hv.mono vals) (i - 4)).leaves fun p vals' hp => ?_
    refine (leaves_storeSlot (hr.mono vals') hp rfl (his i (by simp))).bind fun _ vals'' => ?_
    exact ih (((hv.mono _).mono _).mono _) fun j hj => his j (by simp [hj])

/-- The state with registers restored from below a position of the call stack. -/
def restoreRegs (pos : BitVec 64) : List ℕ → State → State
  | [], s => s
  | i :: is, s => restoreRegs pos is (s.setLocal i 0 (s.locals 11 (pos - BitVec.ofNat 64 (i - 4)).toNat))

lemma leaves_restoreRegs (hv : v.Holds k.host env .i64 (.i64 pos))
    (his : ∀ i ∈ is, InCallStack (pos - BitVec.ofNat 64 (i - 4))) :
    Leaves k.host env s (emitRestoreRegs v is) (some (restoreRegs pos is s)) := by
  induction is generalizing env s with
  | nil => exact leaves_pure ()
  | cons i is ih =>
    refine (yields_callSlot hv (i - 4)).leaves fun p vals hp => ?_
    refine (yields_loadSlot .i64 hp (his i (by simp))).leaves fun r vals' hr => ?_
    refine (leaves_storeReg hr i).bind fun _ vals'' => ?_
    exact ih (((hv.mono _).mono _).mono _) fun j hj => his j (by simp [hj])

def pushFrame (addr : BitVec 64) (s : State) : State :=
  let pos := reg s 12 + 5
  let s' := saveRegs pos savedRegs ((s.setLocal 12 0 pos).setLocal 11 (pos - 1).toNat addr)
  s'.setLocal 10 0 (reg s' 10 - 64)

def popFrame (s : State) : State :=
  let s' := (restoreRegs (reg s 12) savedRegs s).setLocal 12 0 (reg s 12 - 5)
  s'.setLocal 10 0 (reg s' 10 + 64)

lemma inCallStack_sub {d : ℕ} (hd : d < callStackSize)
    (hpos : pos = BitVec.ofNat 64 (5 * d) + 5) {j : ℕ} (hj : 1 ≤ j) (hj' : j ≤ 5) :
    (pos - BitVec.ofNat 64 j).toNat = 5 * d + 5 - j ∧ InCallStack (pos - BitVec.ofNat 64 j) := by
  rw [callStackSize] at hd
  have hsub : (pos - ofNat 64 j).toNat = 5 * d + 5 - j := by
    have hfive : (5 : BitVec 64).toNat = 5 := rfl
    subst hpos
    simp only [hfive, BitVec.toNat_sub, BitVec.toNat_add, toNat_ofNat]
    omega
  refine ⟨hsub, ?_⟩
  rw [InCallStack, hsub, callStackSize]
  omega

lemma inCallStack_savedRegs {d : ℕ} (hd : d < callStackSize) (hpos : pos = BitVec.ofNat 64 (5 * d) + 5) :
    ∀ i ∈ savedRegs, InCallStack (pos - BitVec.ofNat 64 (i - 4)) := by
  intro i hi
  have hrange : 6 ≤ i ∧ i ≤ 9 := by
    simp only [savedRegs, mem_cons, not_mem_nil, or_false] at hi
    omega
  exact (inCallStack_sub hd hpos (by omega) (by omega)).2

lemma leaves_pushFrame {d : ℕ} (hd : d < callStackSize) (hcnt : reg s 12 = BitVec.ofNat 64 (5 * d))
    (l : Label) :
    Leaves k.host env s (emitPushFrame l) (some (pushFrame (k.blockAddr l) s)) := by
  have hpos : reg s 12 + 5 = ofNat 64 (5 * d) + 5 := by rw [hcnt]
  have hlabel : ∀ env, Value.Holds k.host env ⟨.ptr, .label l⟩ .ptr (.ptr (k.blockAddr l)) :=
    fun _ => ⟨rfl, fun _ => rfl⟩
  refine (yields_reg64 12).leaves fun cnt vals hcntv => ?_
  refine (yields_binOp .add hcntv (.int64 5)).leaves fun pos vals1 hposv => ?_
  refine (leaves_storeReg hposv 12).bind fun _ vals2 => ?_
  refine (yields_callSlot (hposv.mono _) 1).leaves fun p vals3 hp => ?_
  refine (leaves_storeSlot (hlabel _) hp rfl (inCallStack_sub hd hpos le_rfl (by norm_num)).2).bind fun _ vals4 => ?_
  refine (leaves_saveRegs (((hposv.mono _).mono _).mono _) (inCallStack_savedRegs hd hpos)).bind fun _ vals5 => ?_
  refine (yields_reg64 10).leaves fun r10 vals6 hr10 => ?_
  exact (yields_binOp .sub hr10 (.int64 _)).leaves fun v _ hv => leaves_storeReg hv 10

lemma leaves_pushFrame_none (hcnt : reg s 12 = BitVec.ofNat 64 (5 * callStackSize))
    (l : Label) : Leaves k.host env s (emitPushFrame l) none := by
  have hlabel : ∀ env, Value.Holds k.host env ⟨.ptr, .label l⟩ .ptr (.ptr (k.blockAddr l)) :=
    fun _ => ⟨rfl, fun _ => rfl⟩
  refine (yields_reg64 12).leaves fun cnt vals hcntv => ?_
  refine (yields_binOp .add hcntv (.int64 5)).leaves fun pos vals1 hposv => ?_
  refine (leaves_storeReg hposv 12).bind fun _ vals2 => ?_
  refine (yields_callSlot (hposv.mono _) 1).leaves fun p vals3 hp => ?_
  refine Leaves.bind_none (leaves_storeSlot_none (hlabel _) hp ?_)
  rw [hcnt, InCallStack]
  decide

lemma ends_localRet {d : ℕ} (hd : d < callStackSize)
    (hcnt : reg s 12 = BitVec.ofNat 64 (5 * d) + 5) {dests : List Label} {l : Label}
    (hl : dests.find? (fun l => k.blockAddr l = s.locals 11 (5 * d + 4)) = some l) :
    Ends k.host env s (emitLocalRet dests) (some (.goto l)) (popFrame s) := by
  have htop := inCallStack_sub hd hcnt le_rfl (by norm_num)
  refine (yields_reg64 12).ends fun cnt vals hcntv => ?_
  refine (yields_callSlot hcntv 1).ends fun p vals1 hp => ?_
  refine (yields_loadSlot .ptr hp htop.2).ends fun addr vals2 haddr => ?_
  refine (leaves_restoreRegs ((hcntv.mono _).mono _) (inCallStack_savedRegs hd hcnt)).ends fun _ vals3 => ?_
  refine (yields_binOp .sub (((hcntv.mono _).mono _).mono _) (.int64 5)).ends fun n vals4 hn => ?_
  refine (leaves_storeReg hn 12).ends fun _ vals5 => ?_
  refine (yields_reg64 10).ends fun r10 vals6 hr10 => ?_
  refine (yields_binOp .add hr10 (.int64 _)).ends fun v vals7 hv => ?_
  refine (leaves_storeReg hv 10).ends fun _ vals8 => ?_
  refine ends_indirectBr ((((((haddr.mono _).mono _).mono _).mono _).mono _).mono _) ?_
  rw [htop.1]
  exact hl

structure Call where
  /-- The position of the call. -/
  pc : ℕ
  /-- The state just before the call. -/
  before : State
  /-- An instruction executed since the call writes `r10`. -/
  moved : Bool

variable {cfg : Config} {insts : List EbpfInst} {blockBegin : ℕ → Bool} {blocks : ℕ → Block}
variable {m : Module} {inst : EbpfInst} {pc : ℕ} {rest : Block} {t : Status Label Callee}

/-- The instruction that the next step of a run executes, with its position and the state before. -/
def executing (insts : List EbpfInst) : Status Label Callee → Option (ℕ × EbpfInst × State)
  | .running (c :: _) s => c.tag.bind fun pc => insts[pc]?.map fun inst => (pc, inst, s)
  | _ => none

def callsAfter (pc : ℕ) (inst : EbpfInst) (s : State) (calls : List Call) : List Call :=
  if inst.isLocalCall then ⟨pc, s, false⟩ :: calls
  else if Isa.kind inst = .exit then calls.tail
  else if 10 ∈ inst.dests then calls.map fun f => { f with moved := true }
  else calls

def callsNext (insts : List EbpfInst) (t : Status Label Callee) (calls : List Call) : List Call :=
  match executing insts t with
  | none => calls
  | some (pc, inst, s) => callsAfter pc inst s calls

/-- The active calls after `n` steps of a run. -/
def Module.calls (m : Module) (k : Linkage) (insts : List EbpfInst) (s : State) : ℕ → List Call
  | 0 => []
  | n + 1 => callsNext insts (m.run k n s).2 (m.calls k insts s n)

lemma run_succ (m : Module) (k : Linkage) (n : ℕ) (s : State) :
    (m.run k (n + 1) s).2 = m.next k (m.run k n s).2 := by
  rw [Module.run, Status.run, trace_add]
  rfl

lemma executing_of_visiting_eq_nil (h : t.visiting = []) : executing insts t = none := by
  cases t with
  | running rest s =>
    cases rest with
    | nil => rfl
    | cons c rest =>
      have htag : c.tag = none := by
        cases htag : c.tag with
        | none => rfl
        | some pc => simp [Status.visiting, htag] at h
      simp [executing, htag]
  | _ => rfl

lemma visiting_of_executing {x : ℕ × EbpfInst × State} (h : executing insts t = some x) :
    t.visiting ≠ [] := by
  intro hnil
  rw [executing_of_visiting_eq_nil hnil] at h
  cases h

/-- The next step executes an instruction that writes `r10`. -/
def WritesR10 (insts : List EbpfInst) (t : Status Label Callee) : Prop :=
  ∃ x, executing insts t = some x ∧ 10 ∈ x.2.1.dests

instance (insts : List EbpfInst) (t : Status Label Callee) : Decidable (WritesR10 insts t) :=
  decidable_of_iff ((executing insts t).any (fun x => decide (10 ∈ x.2.1.dests)) = true) <| by
    simp [WritesR10, Option.any_eq_true]

/-! ## What the call stack holds -/

variable {calls : List Call}

/-- The frame of a call with `d` calls below it. -/
structure HoldsCall (k : Linkage) (s : State) (d : ℕ) (f : Call) : Prop where
  ret : s.locals 11 (5 * d + 4) = k.blockAddr (.inst (f.pc + 1))
  saved : ∀ i ∈ savedRegs, s.locals 11 (5 * d + 5 - (i - 4)) = reg f.before i

def HoldsCalls (insts : List EbpfInst) (blockBegin : ℕ → Bool) (k : Linkage) (s : State) :
    BitVec 64 → List Call → Prop
  | _, [] => True
  | x, f :: fs =>
    (IsStart insts (f.pc + 1) ∧ localFuncRetBlks insts blockBegin (f.pc + 1) = true) ∧
    HoldsCall k s fs.length f ∧ (f.moved = false → reg f.before 10 = x + 64) ∧
    HoldsCalls insts blockBegin k s (x + 64) fs

structure CallStack (insts : List EbpfInst) (blockBegin : ℕ → Bool) (k : Linkage) (s : State)
    (calls : List Call) : Prop where
  count : reg s 12 = BitVec.ofNat 64 (5 * calls.length)
  depth : calls.length ≤ callStackSize
  frames : HoldsCalls insts blockBegin k s (reg s 10) calls

lemma HoldsCalls.congr {s' : State} (h : HoldsCalls insts blockBegin k s x calls)
    (hsame : ∀ j < 5 * calls.length, s'.locals 11 j = s.locals 11 j) :
    HoldsCalls insts blockBegin k s' x calls := by
  induction calls generalizing x with
  | nil => trivial
  | cons f fs ih =>
    obtain ⟨hret, hcall, hr10, hfs⟩ := h
    rw [length_cons] at hsame
    refine ⟨hret, ⟨?_, fun i hi => ?_⟩, hr10, ih hfs fun j hj => hsame j (by omega)⟩
    · rw [hsame _ (by omega)]
      exact hcall.ret
    · have hrange : 6 ≤ i ∧ i ≤ 9 := by
        simp only [savedRegs, mem_cons, not_mem_nil, or_false] at hi
        omega
      rw [hsame _ (by omega)]
      exact hcall.saved i hi

lemma HoldsCalls.moved (h : HoldsCalls insts blockBegin k s x calls) (y : BitVec 64) :
    HoldsCalls insts blockBegin k s y (calls.map fun f => { f with moved := true }) := by
  induction calls generalizing x y with
  | nil => trivial
  | cons f fs ih =>
    obtain ⟨hret, hcall, -, hfs⟩ := h
    refine ⟨hret, ⟨?_, ?_⟩, by simp, ih hfs _⟩
    · rw [length_map]
      exact hcall.ret
    · rw [length_map]
      exact hcall.saved

namespace CallStack

lemma keep {s' : State} (h : CallStack insts blockBegin k s calls)
    (h11 : s'.locals 11 = s.locals 11) (h12 : s'.locals 12 = s.locals 12)
    (hlocal : inst.isLocalCall = false) (hexit : Isa.kind inst ≠ .exit)
    (h10 : 10 ∉ inst.dests → s'.locals 10 = s.locals 10) :
    CallStack insts blockBegin k s' (callsAfter pc inst s calls) := by
  have hframes : HoldsCalls insts blockBegin k s' (reg s 10) calls := h.frames.congr fun j _ => by rw [h11]
  have hcount : reg s' 12 = ofNat 64 (5 * calls.length) := by
    rw [reg, h12]
    exact h.count
  rw [callsAfter, hlocal, if_neg (by simp), if_neg hexit]
  split_ifs with hmem
  · exact ⟨by simpa using hcount, by simpa using h.depth, hframes.moved _⟩
  · refine ⟨hcount, h.depth, ?_⟩
    rwa [show reg s' 10 = reg s 10 by rw [reg, h10 hmem]; rfl]

end CallStack

section Frames

variable {d : ℕ} (hd : d < callStackSize)

include hd in
lemma pushFrame_locals (hcnt : reg s 12 = BitVec.ofNat 64 (5 * d)) (addr : BitVec 64) (b j : ℕ) :
    (pushFrame addr s).locals b j = if b = 10 ∧ j = 0 then reg s 10 - 64
    else if b = 12 ∧ j = 0 then reg s 12 + 5
    else if b = 11 ∧ j = 5 * d + 4 then addr
    else if b = 11 ∧ j = 5 * d + 3 then reg s 6
    else if b = 11 ∧ j = 5 * d + 2 then reg s 7
    else if b = 11 ∧ j = 5 * d + 1 then reg s 8
    else if b = 11 ∧ j = 5 * d then reg s 9
    else s.locals b j := by
  have hpos : reg s 12 + 5 = ofNat 64 (5 * d) + 5 := by rw [hcnt]
  have hslot : ∀ i, 1 ≤ i → i ≤ 5 → (reg s 12 + 5 - ofNat 64 i).toNat = 5 * d + 5 - i := fun i h1 h5 =>
    (inCallStack_sub hd hpos h1 h5).1
  have h1 : (reg s 12 + 5 - 1).toNat = 5 * d + 4 := hslot 1 (by norm_num) (by norm_num)
  have h2 := hslot 2 (by norm_num) (by norm_num)
  have h3 := hslot 3 (by norm_num) (by norm_num)
  have h4 := hslot 4 (by norm_num) (by norm_num)
  have h5 := hslot 5 (by norm_num) (by norm_num)
  simp only [pushFrame, savedRegs, saveRegs, Nat.reduceSub, h1, h2, h3, h4, h5]
  simp only [reg, setLocal_locals]
  grind

include hd in
lemma popFrame_locals (hcnt : reg s 12 = BitVec.ofNat 64 (5 * d) + 5) (b j : ℕ) :
    (popFrame s).locals b j = if b = 10 ∧ j = 0 then reg s 10 + 64
    else if b = 12 ∧ j = 0 then reg s 12 - 5
    else if b = 9 ∧ j = 0 then s.locals 11 (5 * d)
    else if b = 8 ∧ j = 0 then s.locals 11 (5 * d + 1)
    else if b = 7 ∧ j = 0 then s.locals 11 (5 * d + 2)
    else if b = 6 ∧ j = 0 then s.locals 11 (5 * d + 3)
    else s.locals b j := by
  have hslot : ∀ i, 1 ≤ i → i ≤ 5 → (reg s 12 - ofNat 64 i).toNat = 5 * d + 5 - i := fun i h1 h5 =>
    (inCallStack_sub hd hcnt h1 h5).1
  have h2 := hslot 2 (by norm_num) (by norm_num)
  have h3 := hslot 3 (by norm_num) (by norm_num)
  have h4 := hslot 4 (by norm_num) (by norm_num)
  have h5 := hslot 5 (by norm_num) (by norm_num)
  simp only [popFrame, savedRegs, restoreRegs, Nat.reduceSub, h2, h3, h4, h5]
  simp only [reg, setLocal_locals]
  grind

end Frames

namespace CallStack

variable (h : CallStack insts blockBegin k s calls)

include h in
lemma push (hd : calls.length < callStackSize)
    (hret : IsStart insts (pc + 1) ∧ localFuncRetBlks insts blockBegin (pc + 1) = true) :
    CallStack insts blockBegin k (pushFrame (k.blockAddr (.inst (pc + 1))) s) (⟨pc, s, false⟩ :: calls) := by
  have hlocals := pushFrame_locals hd h.count (k.blockAddr (.inst (pc + 1)))
  have h10 : reg (pushFrame (k.blockAddr (.inst (pc + 1))) s) 10 + 64 = reg s 10 := by
    rw [reg, hlocals, if_pos ⟨rfl, rfl⟩]
    exact BitVec.sub_add_cancel _ _
  refine ⟨?_, hd, hret, ⟨?_, fun i hi => ?_⟩, fun _ => h10.symm, ?_⟩
  · rw [reg, hlocals, h.count]
    simp [mul_add, ofNat_add]
  · rw [hlocals]
    simp
  · -- One element for each register that is saved.
    simp only [savedRegs, List.mem_cons, List.not_mem_nil, or_false] at hi
    rw [hlocals]
    rcases hi with rfl | rfl | rfl | rfl <;> simp
  · rw [h10]
    refine h.frames.congr fun j hj => ?_
    rw [hlocals]
    simp only [true_and, show ¬ (11 = 10) by norm_num, show ¬ (11 = 12) by norm_num, false_and, if_false]
    rw [if_neg (by omega), if_neg (by omega), if_neg (by omega), if_neg (by omega), if_neg (by omega)]

end CallStack

lemma CallStack.pop {f : Call} (h : CallStack insts blockBegin k s (f :: calls)) :
    CallStack insts blockBegin k (popFrame s) calls ∧
    (∀ i ∈ savedRegs, reg (popFrame s) i = reg f.before i) ∧
    reg (popFrame s) 0 = reg s 0 ∧ reg (popFrame s) 10 = reg s 10 + 64 := by
  obtain ⟨-, hcall, -, hframes⟩ := h.frames
  have hd : calls.length < callStackSize := h.depth
  have hcnt : reg s 12 = ofNat 64 (5 * calls.length) + 5 := by
    rw [h.count, length_cons, mul_add, ofNat_add]
    rfl
  have hlocals := popFrame_locals hd hcnt
  have h10 : reg (popFrame s) 10 = reg s 10 + 64 := by
    rw [reg, hlocals]
    simp
  refine ⟨⟨?_, hd.le, ?_⟩, fun i hi => ?_, ?_, h10⟩
  · rw [reg, hlocals, hcnt, if_neg (by omega), if_pos ⟨rfl, rfl⟩]
    exact BitVec.add_sub_cancel _ _
  · rw [h10]
    refine hframes.congr fun j _ => ?_
    rw [hlocals]
    simp
  · have hsaved := hcall.saved i hi
    simp only [savedRegs, List.mem_cons, List.not_mem_nil, or_false] at hi
    rw [reg, hlocals, ← hsaved]
    rcases hi with rfl | rfl | rfl | rfl <;> simp
  · rw [reg, hlocals]
    simp [reg]

/-! ## Where a step leads -/

lemma goto_of_emit {ib rb : ℕ → Bool} {next : Option EbpfInst}
    {e : JitEmit (Option (Term Label))} (hemit : inst.emit cfg ib rb pc next = .ok e)
    (hexit : Isa.kind inst ≠ .exit) {term : Term Label} (hterm : e.result = some term)
    {h : Host Label Callee} {n : Next Label} (hn : term.exec h env = some n) :
    n = .goto .exit ∨ ∃ j, n = .goto (.inst j) ∧ ib j = true := by
  have hplain := straight_of_emit hemit
  obtain ⟨-, c, hcase, hemit⟩ := emit_eq_ok_iff.mp hemit
  rw [kind_of_case hcase] at hexit hplain
  have hbr : ∀ {useOffset : Bool} {l : Label}, inst.loadJmpDstBlock ib pc useOffset = .ok l →
      ∃ j, l = .inst j ∧ ib j = true := fun hl => by
    obtain ⟨hmark, rfl⟩ := loadJmpDstBlock_eq_ok_iff.mp hl
    exact ⟨_, rfl, hmark⟩
  -- Both destinations of a comparison are blocks of instructions.
  have hcond : ∀ {l l' : Label} {o : Operand Label},
      inst.localJmpDstAndNextBlk ib pc = .ok (l, l') → (Term.condBr o l l').exec h env = some n →
      ∃ j, n = .goto (.inst j) ∧ ib j = true := fun hl hn => by
    obtain ⟨l1, hdst, hl⟩ := bind_eq_ok_iff.mp hl
    obtain ⟨l2, hnext, heq⟩ := bind_eq_ok_iff.mp hl
    cases heq
    obtain ⟨j, rfl, hj⟩ := hbr hdst
    obtain ⟨hmark, rfl⟩ := loadJmpNextBlock_eq_ok_iff.mp hnext
    rw [Term.exec] at hn
    split at hn
    · cases hn
      split_ifs
      · exact ⟨_, rfl, hj⟩
      · exact ⟨_, rfl, hmark⟩
    · cases hn
  cases c with
  | ja | jaImm =>
    obtain ⟨l, hl, he⟩ := bind_eq_ok_iff.mp hemit
    cases he
    cases hterm
    cases hn
    obtain ⟨j, rfl, hj⟩ := hbr hl
    exact .inr ⟨j, rfl, hj⟩
  | jcc _ | jset =>
    obtain ⟨⟨l, l'⟩, hl, he⟩ := bind_eq_ok_iff.mp hemit
    cases he
    cases hterm
    exact .inr (hcond hl hn)
  | call =>
    by_cases hsrc : inst.src = 1
    · rw [emitCase, if_pos hsrc, emitLocalCall] at hemit
      split_ifs at hemit
      obtain ⟨l, hl, he⟩ := bind_eq_ok_iff.mp hemit
      cases he
      cases hterm
      cases hn
      obtain ⟨j, rfl, hj⟩ := hbr hl
      exact .inr ⟨j, rfl, hj⟩
    · rw [emitCase, if_neg hsrc, emitExtFuncCall] at hemit
      split_ifs at hemit
      · cases hemit
        cases hterm
        cases hn
        exact .inl rfl
      · cases hemit
        cases hterm
  | exit => exact absurd rfl hexit
  | lddw => simp [(hplain (.inr rfl)).1] at hterm
  | _ => simp [(hplain (.inl rfl)).1] at hterm

namespace Compiled

section

variable (hm : Compiled cfg insts m blockBegin blocks)
include hm

lemma passes_marked {j : ℕ} (hj : blockBegin j = true) (k : Linkage) (s : State) : ∃ pc rest,
    m.Passes k (.running (m.blocks (.inst j)) s) (.running rest s) ∧
    At cfg insts blockBegin blocks pc rest := by
  induction hd : insts.length - j using Nat.strong_induction_on generalizing j with
  | _ d ih =>
    by_cases hstart : IsStart insts j
    · exact ⟨j, _, .refl _, hm.at_block hj hstart⟩
    · -- The block is empty but for its link.
      have hempty := hm.empty j fun h => hstart h.1
      obtain ⟨j', hnext⟩ := hm.exists_nextBlock hj (by rw [hempty]; rfl)
      have hblock : m.blocks (.inst j) = [branchTo j'] := by
        rw [hm.blocks_inst, hempty, hnext]
        rfl
      have hlt := hm.lt_length hj
      obtain ⟨hlt', hle, hj', -⟩ := nextBlock_eq_some_iff.mp hnext
      obtain ⟨pc, rest, hpasses, hat⟩ := ih (insts.length - j') (by omega) hj' rfl
      refine ⟨pc, rest, ?_, hat⟩
      rw [hblock]
      exact Silent.head rfl hpasses

lemma next_of_plain (hat : At cfg insts blockBegin blocks pc rest) (hinst : insts[pc]? = some inst)
    (hlocal : inst.isLocalCall = false) (hexit : Isa.kind inst ≠ .exit) :
    m.next k (.running rest s) = .stuck ∨ ∃ s', (∀ array ∉ inst.dests, s'.locals array = s.locals array) ∧
    (m.next k (.running rest s) = .running (m.blocks .exit) s' ∨ ∃ pc' rest',
    m.Passes k (m.next k (.running rest s)) (.running rest' s') ∧ At cfg insts blockBegin blocks pc' rest') := by
  obtain ⟨inst', e, rest', hinst', hemit, rfl, hfall⟩ := hm.at_head hat
  rw [hinst, some.injEq] at hinst'
  subst hinst'
  have hnext : m.next k (.running (chunkOf (some pc) e :: rest') s) =
      exec k.host m.blocks (chunkOf (some pc) e) rest' s := rfl
  rw [hnext, exec]
  cases hcode : execCode k.host [] s (chunkOf (some pc) e).code with
  | none => exact .inl rfl
  | some r =>
    obtain ⟨env, s'⟩ := r
    have hkeep : ∀ array ∉ inst.dests, s'.locals array = s.locals array := fun array harray =>
      (uses_of_emit hemit hlocal).code_locals hcode harray
    cases hres : (chunkOf (some pc) e).term with
    | none =>
      obtain ⟨rest'', hpasses, hat'⟩ := hfall hres k s'
      exact .inr ⟨s', hkeep, .inr ⟨_, rest'', hpasses, hat'⟩⟩
    | some term =>
      simp only
      cases hn : term.exec k.host env with
      | none => exact .inl rfl
      | some n =>
        rcases goto_of_emit hemit hexit hres hn with rfl | ⟨j, rfl, hj⟩
        · exact .inr ⟨s', hkeep, .inl rfl⟩
        · rw [instBlocks, Bool.and_eq_true] at hj
          obtain ⟨pc', rest'', hpasses, hat'⟩ := hm.passes_marked hj.2 k s'
          exact .inr ⟨s', hkeep, .inr ⟨pc', rest'', hpasses, hat'⟩⟩

section

variable (hat : At cfg insts blockBegin blocks pc rest) (hinst : insts[pc]? = some inst)
include hat hinst

lemma exists_localCall (hlocal : inst.isLocalCall = true) :
    (IsStart insts (pc + 1) ∧ localFuncRetBlks insts blockBegin (pc + 1) = true) ∧
    ∃ rest', rest = chunkOf (some pc) (do
        emitPushFrame (.inst (pc + 1))
        pure (some (.br (.inst (inst.jmpDstBlkId pc false))))) :: rest' ∧
      blockBegin (inst.jmpDstBlkId pc false) = true := by
  obtain ⟨inst', e, rest', hinst', hemit, rfl, -⟩ := hm.at_head hat
  rw [hinst, some.injEq] at hinst'
  subst hinst'
  obtain ⟨hcase, hsrc⟩ := isLocalCall_iff.mp hlocal
  have hstart : IsStart insts (pc + 1) := by
    have hnext := hat.1.next hinst
    rwa [EbpfInst.next, hcase, if_neg (by simp)] at hnext
  obtain ⟨-, c, hcase', hemit⟩ := emit_eq_ok_iff.mp hemit
  rw [hcase, some.injEq] at hcase'
  subst hcase'
  rw [emitCase, if_pos hsrc, emitLocalCall] at hemit
  split_ifs at hemit with hret
  obtain ⟨l, hl, he⟩ := bind_eq_ok_iff.mp hemit
  obtain ⟨hmark, rfl⟩ := loadJmpDstBlock_eq_ok_iff.mp hl
  cases he
  rw [instBlocks, Bool.and_eq_true] at hmark
  exact ⟨⟨hstart, hret⟩, rest', rfl, hmark.2⟩

lemma next_of_localCall (hlocal : inst.isLocalCall = true) {d : ℕ} (hd : d < callStackSize)
    (hcnt : reg s 12 = BitVec.ofNat 64 (5 * d)) :
    m.next k (.running rest s) = .running (m.blocks (.inst (inst.jmpDstBlkId pc false)))
    (pushFrame (k.blockAddr (.inst (pc + 1))) s) := by
  obtain ⟨-, rest', rfl, -⟩ := hm.exists_localCall hat hinst hlocal
  have hpush : Leaves k.host [] s (emitPushFrame (.inst (pc + 1))) _ := leaves_pushFrame hd hcnt _
  have hends := hpush.ends fun _ _ => ends_br (Label.inst (inst.jmpDstBlkId pc false))
  exact hends.chunk_exec (some pc) m.blocks rest'

lemma next_of_localCall_full (hlocal : inst.isLocalCall = true)
    (hcnt : reg s 12 = BitVec.ofNat 64 (5 * callStackSize)) :
    m.next k (.running rest s) = .stuck := by
  obtain ⟨-, rest', rfl, -⟩ := hm.exists_localCall hat hinst hlocal
  have hpush : Leaves k.host [] s (emitPushFrame (.inst (pc + 1))) none := leaves_pushFrame_none hcnt _
  have hnone := leaves_nil_iff.mp (hpush.bind_none
    (f := fun _ => pure (some (Term.br (Label.inst (inst.jmpDstBlkId pc false))))))
  simp only [Module.next, Status.next, Chunk.exec]
  rw [chunkOf, map_eq_none_iff.mp hnone]

lemma next_of_exit (hexit : Isa.kind inst = .exit) :
    m.next k (.running rest s) = .running (m.blocks (if reg s 12 == 0 then .exit else .localRet)) s := by
  obtain ⟨inst', e, rest', hinst', hemit, rfl, -⟩ := hm.at_head hat
  rw [hinst, some.injEq] at hinst'
  subst hinst'
  obtain ⟨-, c, hcase, hemitCase⟩ := emit_eq_ok_iff.mp hemit
  rw [kind_of_case hcase] at hexit
  obtain rfl : c = .exit := by cases c <;> simp_all [Case.kind]
  cases hemitCase
  exact (ends_exit (k := k) s).chunk_exec (some pc) m.blocks rest'

end

lemma find_retDests {p : ℕ} (hp : localFuncRetBlks insts blockBegin p = true) :
    (retDests insts blockBegin).find? (fun l => k.blockAddr l = k.blockAddr (.inst p)) = some (.inst p) := by
  have hlen := hm.length_lt
  have hlt : p < insts.length := by
    simp only [localFuncRetBlks, instBlocks, Bool.and_eq_true, decide_eq_true_eq] at hp
    exact hp.1.1.1
  have hmem : Label.inst p ∈ retDests insts blockBegin := by simp [retDests, hlt, hp]
  cases hfind : (retDests insts blockBegin).find? fun l => k.blockAddr l = k.blockAddr (.inst p) with
  | none =>
    have hnone := find?_eq_none.mp hfind _ hmem
    simp at hnone
  | some l =>
    -- No other block of an instruction has the address.
    have haddr : k.blockAddr l = k.blockAddr (.inst p) := by simpa using find?_some hfind
    have hl := mem_of_find?_eq_some hfind
    simp only [retDests, List.mem_map, List.mem_filter, List.mem_range] at hl
    obtain ⟨q, ⟨hq, -⟩, rfl⟩ := hl
    rw [k.blockAddr_inj q p (by omega) (by omega) haddr]

lemma passes_return {f : Call} (hstack : CallStack insts blockBegin k s (f :: calls)) :
    reg s 12 ≠ 0 ∧ m.Passes k (.running (m.blocks .localRet) s)
    (.running (m.blocks (.inst (f.pc + 1))) (popFrame s)) := by
  obtain ⟨⟨-, hret⟩, hcall, -, -⟩ := hstack.frames
  have hd : calls.length < callStackSize := hstack.depth
  have hcnt : reg s 12 = ofNat 64 (5 * calls.length) + 5 := by
    rw [hstack.count, length_cons, mul_add, ofNat_add]
    rfl
  have hends : Ends k.host [] s (emitLocalRet (retDests insts blockBegin)) _ _ :=
    ends_localRet hd hcnt (show (retDests insts blockBegin).find? _ = _ by
      rw [hcall.ret]
      exact hm.find_retDests hret)
  constructor
  · rw [hstack.count]
    intro h
    have hnat : (ofNat 64 (5 * (calls.length + 1))).toNat = 0 := congrArg toNat h
    rw [callStackSize] at hd
    rw [toNat_ofNat] at hnat
    omega
  · rw [hm.blocks_eq]
    refine Silent.head rfl ?_
    change m.Passes k (exec k.host m.blocks (chunkOf none (emitLocalRet (retDests insts blockBegin))) [] s) _
    rw [chunkOf, hends.chunk_exec, ← hm.blocks_eq]
    exact .refl _

end

end Compiled

/-! ## Runs -/

/-- The frame pointer of a function with `d` active calls below it, if only calls and returns have
moved it. -/
def frameTop (k : Linkage) (d : ℕ) : BitVec 64 :=
  k.stackBegin + BitVec.ofNat 64 (8 * (stackSize * maxLocalFuncDepth)) - BitVec.ofNat 64 (64 * d)

/-- A run is on its way to an instruction with the frames of the active calls on its call stack, or
it is about to return or has met something undefined. -/
inductive Standing (cfg : Config) (insts : List EbpfInst) (m : Module) (blockBegin : ℕ → Bool)
    (blocks : ℕ → Block) (k : Linkage) (clean : Prop) : Status Label Callee → List Call → Prop
  | comes {pc : ℕ} {rest : Block} {s : State} {t : Status Label Callee} {calls : List Call} :
    m.Passes k t (.running rest s) → At cfg insts blockBegin blocks pc rest →
    CallStack insts blockBegin k s calls → (clean → reg s 10 = frameTop k calls.length) →
    Standing cfg insts m blockBegin blocks k clean t calls
  | returns {v : Val} {s : State} {t : Status Label Callee} {calls : List Call} :
    m.Passes k t (.returned v s) → Standing cfg insts m blockBegin blocks k clean t calls
  | stuck {calls : List Call} : Standing cfg insts m blockBegin blocks k clean .stuck calls

lemma frameTop_succ (k : Linkage) (d : ℕ) : frameTop k (d + 1) = frameTop k d - 64 := by
  have hsplit : ofNat 64 (64 * (d + 1)) = ofNat 64 (64 * d) + 64 := by
    rw [mul_add, ofNat_add]
    rfl
  rw [frameTop, frameTop, hsplit]
  generalize k.stackBegin + ofNat 64 (8 * (stackSize * maxLocalFuncDepth)) = x
  bv_omega

lemma length_callsAfter (hlocal : inst.isLocalCall = false) (hexit : Isa.kind inst ≠ .exit) :
    (callsAfter pc inst s calls).length = calls.length := by
  rw [callsAfter, hlocal, if_neg (by simp), if_neg hexit]
  split_ifs <;> simp

lemma callsAfter_of_localCall (hlocal : inst.isLocalCall = true) :
    callsAfter pc inst s calls = ⟨pc, s, false⟩ :: calls := by rw [callsAfter, if_pos hlocal]

lemma callsAfter_of_exit (hexit : Isa.kind inst = .exit) : callsAfter pc inst s calls = calls.tail := by
  have hlocal : ¬ inst.isLocalCall = true := by
    intro hlocal
    rw [kind_of_case (isLocalCall_iff.mp hlocal).1] at hexit
    cases hexit
  rw [callsAfter, if_neg hlocal, if_pos hexit]

namespace Compiled

variable {clean : Prop}

section

variable (hm : Compiled cfg insts m blockBegin blocks)
include hm

lemma standing_exec (hat : At cfg insts blockBegin blocks pc rest) (hinst : insts[pc]? = some inst)
    (hstack : CallStack insts blockBegin k s calls) (hclean : clean → reg s 10 = frameTop k calls.length) :
    Standing cfg insts m blockBegin blocks k (clean ∧ 10 ∉ inst.dests)
    (m.next k (.running rest s)) (callsAfter pc inst s calls) := by
  by_cases hlocal : inst.isLocalCall = true
  · rw [callsAfter_of_localCall hlocal]
    obtain ⟨hret, -, -, hmark⟩ := hm.exists_localCall hat hinst hlocal
    rcases hstack.depth.lt_or_eq with hd | hd
    · rw [hm.next_of_localCall hat hinst hlocal hd hstack.count]
      obtain ⟨pc', rest', hpasses, hat'⟩ := hm.passes_marked hmark k (pushFrame (k.blockAddr (.inst (pc + 1))) s)
      refine .comes hpasses hat' (hstack.push hd hret) fun h => ?_
      rw [reg, pushFrame_locals hd hstack.count, length_cons, frameTop_succ, ← hclean h.1]
      rfl
    · rw [hm.next_of_localCall_full hat hinst hlocal (by rw [hstack.count, hd])]
      exact .stuck
  · by_cases hexit : Isa.kind inst = .exit
    · rw [callsAfter_of_exit hexit, hm.next_of_exit hat hinst hexit]
      cases calls with
      | nil =>
        have hcnt : reg s 12 = 0 := hstack.count
        rw [hcnt]
        exact .returns hm.passes_exit
      | cons f calls =>
        obtain ⟨hne, hpasses⟩ := hm.passes_return hstack
        obtain ⟨⟨hstart, hret⟩, -⟩ := hstack.frames
        obtain ⟨hstack', -, -, h10⟩ := hstack.pop
        have hmark : blockBegin (f.pc + 1) = true := by
          simp only [localFuncRetBlks, instBlocks, Bool.and_eq_true] at hret
          exact hret.1.1.2
        rw [if_neg (by simpa using hne)]
        refine .comes hpasses (hm.at_block hmark hstart) hstack' fun h => ?_
        rw [h10, hclean h.1, length_cons, frameTop_succ, BitVec.sub_add_cancel]
        rfl
    · have hlocal : inst.isLocalCall = false := by simpa using hlocal
      rcases hm.next_of_plain (k := k) (s := s) hat hinst hlocal hexit with
        hnext | ⟨s', hkeep, hnext | ⟨pc', rest', hpasses, hat'⟩⟩
      · rw [hnext]
        exact .stuck
      · rw [hnext]
        exact .returns hm.passes_exit
      · obtain ⟨inst', e, -, hinst', hemit, -⟩ := hm.at_head hat
        rw [hinst, some.injEq] at hinst'
        subst hinst'
        refine .comes hpasses hat' (hstack.keep (hkeep 11 (notMem_dests hemit (by norm_num)))
          (hkeep 12 (notMem_dests hemit (by norm_num))) hlocal hexit (hkeep 10)) fun h => ?_
        rw [length_callsAfter hlocal hexit, ← hclean h.1, reg, hkeep 10 h.2]
        rfl

lemma executing_of_at (hat : At cfg insts blockBegin blocks pc rest) :
    ∃ inst, insts[pc]? = some inst ∧ executing insts (.running rest s) = some (pc, inst, s) := by
  obtain ⟨inst, e, rest', hinst, -, rfl, -⟩ := hm.at_head hat
  exact ⟨inst, hinst, by simp [executing, chunkOf, hinst]⟩

lemma standing_next (h : Standing cfg insts m blockBegin blocks k clean t calls) :
    Standing cfg insts m blockBegin blocks k (clean ∧ ¬ WritesR10 insts t) (m.next k t)
    (callsNext insts t calls) := by
  cases h with
  | @comes pc rest s _ _ hpasses hat hstack hclean =>
    rcases hpasses.eq_or_head with rfl | ⟨hsilent, hpasses⟩
    · obtain ⟨inst, hinst, hexec⟩ := hm.executing_of_at (s := s) hat
      have hstanding := hm.standing_exec hat hinst hstack hclean
      rw [callsNext, hexec]
      simpa [WritesR10, hexec] using hstanding
    · rw [callsNext, executing_of_visiting_eq_nil hsilent]
      exact .comes hpasses hat hstack fun h => hclean h.1
  | returns hpasses =>
    rcases hpasses.eq_or_head with rfl | ⟨-, hpasses⟩
    · exact .returns (.refl _)
    · exact .returns hpasses
  | stuck => exact .stuck

end

end Compiled

lemma Standing.mono {clean clean' : Prop}
    (h : Standing cfg insts m blockBegin blocks k clean t calls) (himp : clean' → clean) :
    Standing cfg insts m blockBegin blocks k clean' t calls := by
  cases h with
  | comes hpasses hat hstack hclean => exact .comes hpasses hat hstack fun h => hclean (himp h)
  | returns hpasses => exact .returns hpasses
  | stuck => exact .stuck

/-- No instruction writes `r10` in the first `n` steps of a run. -/
def KeepsR10 (insts : List EbpfInst) (m : Module) (k : Linkage) (s : State) (n : ℕ) : Prop :=
  ∀ i < n, ¬ WritesR10 insts (m.run k i s).2

instance (insts : List EbpfInst) (m : Module) (k : Linkage) (s : State) (n : ℕ) :
    Decidable (KeepsR10 insts m k s n) :=
  inferInstanceAs (Decidable (∀ i < n, ¬ WritesR10 insts (m.run k i s).2))

lemma Compiled.standing_run (hm : Compiled cfg insts m blockBegin blocks) (k : Linkage) (s : State)
    (n : ℕ) : Standing cfg insts m blockBegin blocks k (KeepsR10 insts m k s n)
    (m.run k n s).2 (m.calls k insts s n) := by
  induction n with
  | zero =>
    obtain ⟨rest, hpasses, hat⟩ := hm.follows_start k s
    have hinitial : reg (Isa.initial cfg k s) 12 = 0 ∧ reg (Isa.initial cfg k s) 10 = frameTop k 0 := by
      rw [Isa.initial, frameTop]
      split_ifs <;> simp
    exact .comes hpasses hat ⟨hinitial.1, Nat.zero_le _, trivial⟩ fun _ => hinitial.2
  | succ n ih =>
    rw [run_succ]
    refine (hm.standing_next ih).mono fun h => ⟨fun i hi => h i (by omega), h n (by omega)⟩

lemma Standing.at_of_executing {clean : Prop} (h : Standing cfg insts m blockBegin blocks k clean t calls)
    (hm : Compiled cfg insts m blockBegin blocks) (hexec : executing insts t = some (pc, inst, s)) :
    ∃ rest, t = .running rest s ∧ insts[pc]? = some inst ∧
    At cfg insts blockBegin blocks pc rest ∧ CallStack insts blockBegin k s calls ∧
    (clean → reg s 10 = frameTop k calls.length) := by
  have hvisits := visiting_of_executing hexec
  cases h with
  | @comes pc' rest s' _ _ hpasses hat hstack hclean =>
    obtain rfl := hpasses.eq_of_ne_nil hvisits
    obtain ⟨inst', hinst', hexec'⟩ := hm.executing_of_at (s := s') hat
    rw [hexec', some.injEq, Prod.mk.injEq, Prod.mk.injEq] at hexec
    obtain ⟨rfl, rfl, rfl⟩ := hexec
    exact ⟨rest, rfl, hinst', hat, hstack, hclean⟩
  | returns hpasses =>
    obtain rfl := hpasses.eq_of_ne_nil hvisits
    cases hexec
  | stuck => cases hexec

lemma moved_of_keepsR10 {n : ℕ} (hkeeps : KeepsR10 insts m k s n) :
    ∀ f ∈ m.calls k insts s n, f.moved = false := by
  induction n with
  | zero => simp [calls]
  | succ n ih =>
    have ih := ih fun i hi => hkeeps i (by omega)
    have hwrites := hkeeps n (by omega)
    rw [calls, callsNext]
    cases hexec : executing insts (m.run k n s).2 with
    | none => exact ih
    | some x =>
      have hdests : 10 ∉ x.2.1.dests := fun h => hwrites ⟨x, hexec, h⟩
      simp only [callsAfter, if_neg hdests]
      split_ifs
      · simpa using ih
      · exact fun f hf => ih f (mem_of_mem_tail hf)
      · exact ih

end Bpftime.Jit
