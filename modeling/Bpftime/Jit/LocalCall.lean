import Bpftime.Jit.CallStack

/-!
# Local calls

Three properties of local calls in the emitted function.
-/

namespace Bpftime.Jit

open Ir Traces Option List BitVec Prod

variable {cfg : Config} {insts : List EbpfInst} {blockBegin : ℕ → Bool} {blocks : ℕ → Block}
variable {m : Module} {k : Linkage} {s : State} {n : ℕ}

/-! ## Calls and returns -/

/-- Every local call of the program leads to a start of an instruction in the program. -/
def LocalCallsOk (insts : List EbpfInst) : Prop :=
  ∀ pc inst, IsStart insts pc → insts[pc]? = some inst → inst.isLocalCall = true →
    InRange insts (inst.target pc false) ∧ IsStart insts (inst.target pc false).toNat

instance (insts : List EbpfInst) : Decidable (LocalCallsOk insts) :=
  decidable_of_iff (∀ pc < insts.length, IsStart insts pc → ∀ inst ∈ insts[pc]?, inst.isLocalCall = true →
        InRange insts (inst.target pc false) ∧ IsStart insts (inst.target pc false).toNat) <| by
    constructor
    · intro h pc inst hpc hinst hlocal
      exact h pc (List.getElem?_eq_some_iff.mp hinst).1 hpc inst hinst hlocal
    · intro h pc _ hpc inst hinst hlocal
      exact h pc inst hpc hinst hlocal

/-- The registers that have their values from before a call when the callee returns. -/
def Call.restored (f : Call) : List ℕ := if f.moved then [6, 7, 8, 9] else [6, 7, 8, 9, 10]

/-- A run comes to the instruction at `pc`, and visits none on the way. -/
def Module.Reaches (m : Module) (k : Linkage) (t : Status Label Callee) (pc : ℕ) (s : State) : Prop :=
  ∃ c rest, m.Passes k t (.running (c :: rest) s) ∧ c.tag = some pc

/-- What the next step does if it executes a local call or an exit. -/
structure CallsAndReturns (insts : List EbpfInst) (m : Module) (k : Linkage)
    (restored : Call → List ℕ) (t : Status Label Callee) (calls : List Call) : Prop where
  /-- A call leads to its target. -/
  call : ∀ pc inst s, executing insts t = some (pc, inst, s) → inst.isLocalCall = true →
    calls.length < maxLocalFuncDepth → ∃ s', m.Reaches k (m.next k t) (inst.target pc false).toNat s'
  /-- An exit without an active call returns `r0`. -/
  exit : ∀ pc inst s, executing insts t = some (pc, inst, s) → Isa.kind inst = .exit →
    calls = [] → m.Passes k (m.next k t) (.returned (.i64 (reg s 0)) s)
  /-- An exit of a callee leads behind the call, and restores registers. -/
  ret : ∀ pc inst s f fs, executing insts t = some (pc, inst, s) → Isa.kind inst = .exit →
    calls = f :: fs → ∃ s', m.Reaches k (m.next k t) (f.pc + 1) s' ∧ reg s' 0 = reg s 0 ∧
      ∀ i ∈ restored f, reg s' i = reg f.before i

variable {t : Status Label Callee}

lemma Compiled.reaches_block (hm : Compiled cfg insts m blockBegin blocks) {p : ℕ}
    (hmark : blockBegin p = true) (hstart : IsStart insts p)
    (hpasses : m.Passes k t (.running (m.blocks (.inst p)) s)) : m.Reaches k t p s := by
  obtain ⟨inst, e, rest, -, -, hrest, -⟩ := hm.at_head (hm.at_block hmark hstart)
  rw [hrest] at hpasses
  exact ⟨_, _, hpasses, rfl⟩

/-- In every run of an accepted program, a local call leads to its target, an exit of a callee leads
behind the call that it matches, with `r0` of the callee and the callee-saved registers of the
caller, and an exit without an active call returns `r0`. The frame pointer is that of the caller if
no instruction has written it since the call. -/
theorem localCalls_return (hgen : generateModule cfg insts = .ok m) (hok : LocalCallsOk insts)
    (k : Linkage) (s : State) (n : ℕ) :
    CallsAndReturns insts m k Call.restored (m.run k n s).2 (m.calls k insts s n) := by
  obtain ⟨blockBegin, blocks, hm⟩ := exists_compiled hgen
  have hstanding := hm.standing_run k s n
  generalize (m.run k n s).2 = t at hstanding ⊢
  generalize m.calls k insts s n = calls at hstanding ⊢
  constructor
  · intro pc inst s hexec hlocal hdepth
    obtain ⟨rest, rfl, hinst, hat, hstack, -⟩ := hstanding.at_of_executing hm hexec
    have hd : calls.length < callStackSize := hdepth.trans (by decide)
    obtain ⟨hrange, hstart⟩ := hok pc inst hat.1 hinst hlocal
    obtain ⟨-, -, -, hmark⟩ := hm.exists_localCall hat hinst hlocal
    rw [hm.next_of_localCall hat hinst hlocal hd hstack.count]
    rw [hm.jmpDstBlkId_of_inRange hrange] at hmark ⊢
    exact ⟨_, hm.reaches_block hmark hstart (.refl _)⟩
  · intro pc inst s hexec hexit hnil
    subst hnil
    obtain ⟨rest, rfl, hinst, hat, hstack, -⟩ := hstanding.at_of_executing hm hexec
    have hcnt : reg s 12 = 0 := hstack.count
    rw [hm.next_of_exit hat hinst hexit, hcnt]
    exact hm.passes_exit
  · intro pc inst s f fs hexec hexit hcons
    subst hcons
    obtain ⟨rest, rfl, hinst, hat, hstack, -⟩ := hstanding.at_of_executing hm hexec
    obtain ⟨hne, hpasses⟩ := hm.passes_return hstack
    obtain ⟨⟨hstart, hret⟩, -, hr10, -⟩ := hstack.frames
    obtain ⟨-, hsaved, h0, h10⟩ := hstack.pop
    have hmark : blockBegin (f.pc + 1) = true := by
      simp only [localFuncRetBlks, instBlocks, Bool.and_eq_true] at hret
      exact hret.1.1.2
    rw [hm.next_of_exit hat hinst hexit, if_neg (by simpa using hne)]
    refine ⟨_, hm.reaches_block hmark hstart hpasses, h0, fun i hi => ?_⟩
    rw [Call.restored] at hi
    split_ifs at hi with hmoved
    · exact hsaved i hi
    · -- The last register is the frame pointer, and the others are saved.
      rcases mem_append.mp (show i ∈ EbpfInst.savedRegs ++ [10] from hi) with hi | hi
      · exact hsaved i hi
      · rw [mem_singleton.mp hi, h10, hr10 (by simpa using hmoved)]

/-- A program whose local function adds 8 to `r10`. -/
def moveFrame : List EbpfInst := [⟨0xb7, 0, 0, 0, 0⟩, ⟨0x85, 0, 1, 0, 1⟩, exitInst,
    ⟨0x07, 10, 0, 0, 8⟩, exitInst]

/-- The program is accepted, and its function returns. -/
theorem localCalls_return_moveFrame :
    generateModule bareConfig moveFrame = .ok (bareModule moveFrame) ∧ LocalCallsOk moveFrame ∧
    ∀ s n, CallsAndReturns moveFrame (bareModule moveFrame) bareLinkage Call.restored
      ((bareModule moveFrame).run bareLinkage n s).2 ((bareModule moveFrame).calls bareLinkage moveFrame s n) := by
  have hgen := generateModule_eq_bareModule moveFrame (by decide +kernel)
  have hok : LocalCallsOk moveFrame := by decide +kernel
  exact ⟨hgen, hok, localCalls_return hgen hok bareLinkage⟩

/-- The value of a register where a run stands. -/
def regOf (t : Status Label Callee) (i : ℕ) : BitVec 64 :=
  match t with
  | .running _ s => reg s i
  | .returned _ s => reg s i
  | .stuck => 0

variable {pc d : ℕ}

lemma Module.Reaches.regOf_eq {t' : Status Label Callee} {s' : State}
    (h : m.Reaches k t pc s') (hpasses : m.Passes k t t') (hvisits : t'.visiting ≠ []) (i : ℕ) :
    regOf t' i = reg s' i := by
  obtain ⟨c, rest, hreach, htag⟩ := h
  have hne : (Status.running (c :: rest) s' : Status Label Callee).visiting ≠ [] := by
    simp [Status.visiting, htag]
  rw [← hreach.unique hpasses hne hvisits]
  rfl

/-- If a local function writes `r10`, the caller does not get its frame pointer back: that of the
program differs by 8. -/
theorem not_callsAndReturns_moveFrame :
    generateModule bareConfig moveFrame = .ok (bareModule moveFrame) ∧ LocalCallsOk moveFrame ∧
    ¬ CallsAndReturns moveFrame (bareModule moveFrame) bareLinkage (fun _ => [6, 7, 8, 9, 10])
      ((bareModule moveFrame).run bareLinkage 5 zeroState).2
      ((bareModule moveFrame).calls bareLinkage moveFrame zeroState 5) := by
  refine ⟨generateModule_eq_bareModule _ (by decide +kernel), by decide +kernel, fun h => ?_⟩
  have hinst : (executing moveFrame ((bareModule moveFrame).run bareLinkage 5 zeroState).2).map
      (·.2.1) = some exitInst := by decide +kernel
  have hcalls : ((bareModule moveFrame).calls bareLinkage moveFrame zeroState 5).map
      (fun f => (f.pc, reg f.before 10)) = [(1, 0x104000)] := by decide +kernel
  have hsilent : ((bareModule moveFrame).run bareLinkage 6 zeroState).2.visiting = [] := by decide +kernel
  have hback : ((bareModule moveFrame).run bareLinkage 7 zeroState).2.visiting = [2] ∧
      regOf ((bareModule moveFrame).run bareLinkage 7 zeroState).2 10 = 0x104008 := by decide +kernel
  obtain ⟨⟨pc, inst, s⟩, hexec, rfl⟩ := map_eq_some_iff.mp hinst
  obtain ⟨f, fs, hcons, hf, -⟩ := map_eq_cons_iff.mp hcalls
  obtain ⟨s', hreach, -, hregs⟩ := h.ret pc _ s f fs hexec (by decide +kernel) hcons
  -- The run passes through the block for returns to the instruction behind the call.
  rw [← run_succ] at hreach
  have hpasses : (bareModule moveFrame).Passes bareLinkage ((bareModule moveFrame).run bareLinkage 6 zeroState).2
      ((bareModule moveFrame).run bareLinkage 7 zeroState).2 := by
    refine Silent.head hsilent ?_
    rw [← run_succ]
    exact .refl _
  have hreg := hreach.regOf_eq hpasses (by rw [hback.1]; simp) 10
  rw [hback.2, hregs 10 (by simp), show reg f.before 10 = 0x104000 from congrArg snd hf] at hreg
  cases hreg

/-- Where the frame pointer is in the data stack, in bytes from its begin. -/
def Linkage.frameOffset (k : Linkage) (s : State) : ℕ := (reg s 10 - k.stackBegin).toNat

def Linkage.stackArea (k : Linkage) (s : State) : Finset ℕ :=
  Finset.Ico (k.frameOffset s - ebpfStackSize) (k.frameOffset s)

/-- The stack area of the running function is inside the data stack, and apart from those of its
callers. -/
structure FramesSeparate (k : Linkage) (s : State) (calls : List Call) : Prop where
  inside : ebpfStackSize ≤ k.frameOffset s ∧ k.frameOffset s ≤ 8 * dataStackLength
  disjoint : ∀ f ∈ calls, Disjoint (k.stackArea s) (k.stackArea f.before)

lemma frameOffset_eq (hd : d ≤ callStackSize) (h : reg s 10 = frameTop k d) :
    k.frameOffset s = 16384 - 64 * d := by
  have hsub : reg s 10 - k.stackBegin = BitVec.ofNat 64 (16384 - 64 * d) := by
    rw [h, frameTop, show 8 * (stackSize * maxLocalFuncDepth) = 16384 from rfl]
    rw [callStackSize] at hd
    generalize k.stackBegin = x
    apply eq_of_toNat_eq
    simp only [toNat_sub, toNat_add, toNat_ofNat]
    have := x.isLt
    omega
  rw [Linkage.frameOffset, hsub, toNat_ofNat]
  exact Nat.mod_eq_of_lt (by omega)

/-- While no instruction writes `r10`, the stack area of the running function is apart from those of
its callers exactly if it has none: a call moves the frame pointer by 64 bytes, and the area has
512. -/
theorem framesSeparate_iff (hgen : generateModule cfg insts = .ok m) (k : Linkage) (s : State)
    (n : ℕ) (hkeeps : KeepsR10 insts m k s n) {pc : ℕ} {inst : EbpfInst} {s' : State}
    (hexec : executing insts (m.run k n s).2 = some (pc, inst, s'))
    (hdepth : (m.calls k insts s n).length < maxLocalFuncDepth) :
    FramesSeparate k s' (m.calls k insts s n) ↔ m.calls k insts s n = [] := by
  obtain ⟨blockBegin, blocks, hm⟩ := exists_compiled hgen
  obtain ⟨rest, -, -, -, hstack, hr10⟩ := (hm.standing_run k s n).at_of_executing hm hexec
  have hmoved := moved_of_keepsR10 hkeeps
  have hr10 := hr10 hkeeps
  generalize m.calls k insts s n = calls at hdepth hstack hmoved hr10 ⊢
  rw [maxLocalFuncDepth] at hdepth
  have hoffset := frameOffset_eq hstack.depth hr10
  constructor
  · intro hsep
    cases calls with
    | nil => rfl
    | cons f fs =>
      -- The frame pointer of the caller is 64 bytes above, so the last byte is in both areas.
      obtain ⟨-, -, hf10, -⟩ := hstack.frames
      have hbefore : reg f.before 10 = frameTop k fs.length := by
        rw [hf10 (hmoved f (by simp)), hr10, length_cons, frameTop_succ, BitVec.sub_add_cancel]
      have hoffset' := frameOffset_eq (k := k) (by
        have := hstack.depth
        rw [length_cons] at this
        omega) hbefore
      rw [length_cons] at hoffset hdepth
      have hdisj := hsep.disjoint f (by simp)
      rw [Finset.disjoint_left] at hdisj
      refine absurd ?_ (hdisj (a := k.frameOffset s' - 1) ?_)
      · rw [Linkage.stackArea, Finset.mem_Ico, hoffset, hoffset', ebpfStackSize]
        omega
      · rw [Linkage.stackArea, Finset.mem_Ico, hoffset, ebpfStackSize]
        omega
  · rintro rfl
    refine ⟨?_, by simp⟩
    rw [hoffset]
    decide

/-- A program that stores 1 in its own stack area, calls a function that stores 2 in the topmost 8
bytes of its own, and returns what its first store has left. -/
def overlapping : List EbpfInst :=
  [⟨0x7a, 10, 0, -72, 1⟩, ⟨0x85, 0, 1, 0, 2⟩, ⟨0x79, 0, 10, -72, 0⟩, exitInst, ⟨0x7a, 10, 0, -8, 2⟩,
    exitInst]

/-- In the function that is called there is a caller. -/
theorem framesSeparate_overlapping : ∃ s',
    executing overlapping ((bareModule overlapping).run bareLinkage 4 zeroState).2 =
      some (4, ⟨0x7a, 10, 0, -8, 2⟩, s') ∧
    (FramesSeparate bareLinkage s' ((bareModule overlapping).calls bareLinkage overlapping zeroState 4) ↔
      (bareModule overlapping).calls bareLinkage overlapping zeroState 4 = []) := by
  have hgen := generateModule_eq_bareModule overlapping (by decide +kernel)
  have hinst : (executing overlapping ((bareModule overlapping).run bareLinkage 4 zeroState).2).map
      (fun x => (x.1, x.2.1)) = some (4, ⟨0x7a, 10, 0, -8, 2⟩) := by decide +kernel
  have hkeeps : KeepsR10 overlapping (bareModule overlapping) bareLinkage zeroState 4 := by decide +kernel
  obtain ⟨⟨pc, inst, s'⟩, hexec, heq⟩ := map_eq_some_iff.mp hinst
  cases heq
  exact ⟨s', hexec, framesSeparate_iff hgen bareLinkage zeroState 4 hkeeps hexec (by decide +kernel)⟩

/-- In the function that is called the areas overlap, and the store there changes what the caller
stored: the program returns 2. -/
theorem not_framesSeparate_overlapping : generateModule bareConfig overlapping = .ok
    (bareModule overlapping) ∧
    (∃ s', executing overlapping ((bareModule overlapping).run bareLinkage 4 zeroState).2 =
        some (4, ⟨0x7a, 10, 0, -8, 2⟩, s') ∧
      ¬ FramesSeparate bareLinkage s' ((bareModule overlapping).calls bareLinkage overlapping zeroState 4)) ∧
    returnedValue ((bareModule overlapping).run bareLinkage 10 zeroState).2 = some (.i64 2) := by
  have hinst : (executing overlapping ((bareModule overlapping).run bareLinkage 4 zeroState).2).map
      (fun x => (x.1, x.2.1, bareLinkage.frameOffset x.2.2)) =
        some (4, ⟨0x7a, 10, 0, -8, 2⟩, 16320) := by decide +kernel
  have hcalls : ((bareModule overlapping).calls bareLinkage overlapping zeroState 4).map
      (fun f => bareLinkage.frameOffset f.before) = [16384] := by decide +kernel
  obtain ⟨⟨pc, inst, s'⟩, hexec, heq⟩ := map_eq_some_iff.mp hinst
  simp only [mk.injEq] at heq
  obtain ⟨rfl, rfl, hoffset⟩ := heq
  obtain ⟨f, fs, hcons, hf, -⟩ := map_eq_cons_iff.mp hcalls
  refine ⟨generateModule_eq_bareModule _ (by decide +kernel), ⟨s', hexec, fun hsep => ?_⟩, by decide +kernel⟩
  have hdisj := hsep.disjoint f (by rw [hcons]; simp)
  rw [Linkage.stackArea, Linkage.stackArea, hoffset, hf] at hdisj
  exact absurd hdisj (by decide +kernel)

/-! ## Depth of calls -/

/-- The elements of the call stack that the next step of a run accesses. -/
def callStackAccesses (k : Linkage) : Status Label Callee → List ℕ
  | .running (c :: _) s => ((execTouched k.host [] s c.code).filter (·.1 = 11)).map (·.2)
  | _ => []

lemma mem_callStackAccesses {c : Chunk Label Callee} {rest : Block} {j : ℕ} :
    j ∈ callStackAccesses k (.running (c :: rest) s) ↔ (11, j) ∈ execTouched k.host [] s c.code := by
  simp [callStackAccesses]

lemma accesses_lt_of_next_ne (hnext : m.next k t ≠ .stuck) :
    ∀ j ∈ callStackAccesses k t, j < callStackSize * 5 := by
  intro j hj
  cases t with
  | running rest s =>
    cases rest with
    | nil => cases hj
    | cons c rest =>
      cases hcode : execCode k.host [] s c.code with
      | none =>
        refine absurd ?_ hnext
        simp only [Module.next, Status.next, Chunk.exec, hcode]
      | some r => exact execTouched_lt hcode _ (mem_callStackAccesses.mp hj)
  | _ => cases hj

lemma eq_stuck_of_passes (h : m.Passes k .stuck t) : t = .stuck := by
  obtain ⟨n, hn⟩ := h
  induction n with
  | zero => exact (congrArg snd hn).symm
  | succ n ih => exact ih hn

lemma Compiled.accesses_lt (hm : Compiled cfg insts m blockBegin blocks) {rest : Block}
    {inst : EbpfInst} {calls : List Call} (hat : At cfg insts blockBegin blocks pc rest)
    (hinst : insts[pc]? = some inst) (hstack : CallStack insts blockBegin k s calls)
    (hdepth : inst.isLocalCall = true → calls.length < callStackSize) :
    ∀ j ∈ callStackAccesses k (.running rest s), j < callStackSize * 5 := by
  by_cases hlocal : inst.isLocalCall = true
  · refine accesses_lt_of_next_ne (m := m) ?_
    rw [hm.next_of_localCall hat hinst hlocal (hdepth hlocal) hstack.count]
    simp
  · -- The code of the others does not use the call stack.
    obtain ⟨inst', e, rest', hinst', hemit, rfl, -⟩ := hm.at_head hat
    rw [hinst, some.injEq] at hinst'
    subst hinst'
    intro j hj
    have huses := uses_of_emit hemit (by simpa using hlocal)
    rcases huses.code_touched (11, j) (mem_callStackAccesses.mp hj) with hne | hmem
    · exact absurd rfl hne
    · exact absurd hmem (notMem_dests hemit (by norm_num))

/-- In every run of an accepted program that nests at most 64 local calls, all accesses to the call
stack are inside it, and the frame pointer stays inside the data stack if no instruction writes
it. -/
theorem callStack_inBounds (hgen : generateModule cfg insts = .ok m) (k : Linkage) (s : State)
    (n : ℕ) (hdepth : ∀ i ≤ n, ∀ pc inst s', executing insts (m.run k i s).2 = some (pc, inst, s') →
      inst.isLocalCall = true → (m.calls k insts s i).length < callStackSize) :
    (∀ j ∈ callStackAccesses k (m.run k n s).2, j < callStackSize * 5) ∧
    (KeepsR10 insts m k s n → ∀ pc inst s', executing insts (m.run k n s).2 = some (pc, inst, s') →
      k.frameOffset s' ≤ 8 * dataStackLength) := by
  obtain ⟨blockBegin, blocks, hm⟩ := exists_compiled hgen
  have hstanding := hm.standing_run k s n
  constructor
  · have hdepth := hdepth n le_rfl
    generalize (m.run k n s).2 = t at hstanding hdepth ⊢
    cases hstanding with
    | @comes pc rest s' _ _ hpasses hat hstack _ =>
      rcases hpasses.eq_or_head with rfl | ⟨-, hpasses⟩
      · obtain ⟨inst, hinst, hexec⟩ := hm.executing_of_at (s := s') hat
        exact hm.accesses_lt hat hinst hstack (hdepth pc inst s' hexec)
      · refine accesses_lt_of_next_ne (m := m) fun hstuck => ?_
        rw [hstuck] at hpasses
        cases eq_stuck_of_passes hpasses
    | returns hpasses =>
      rcases hpasses.eq_or_head with rfl | ⟨-, hpasses⟩
      · simp [callStackAccesses]
      · refine accesses_lt_of_next_ne (m := m) fun hstuck => ?_
        rw [hstuck] at hpasses
        cases eq_stuck_of_passes hpasses
    | stuck => simp [callStackAccesses]
  · intro hkeeps pc inst s' hexec
    obtain ⟨rest, -, -, -, hstack, hr10⟩ := hstanding.at_of_executing hm hexec
    rw [frameOffset_eq hstack.depth (hr10 hkeeps), dataStackLength, stackSize, ebpfStackSize,
      maxLocalFuncDepth]
    omega

/-- The return of the function that is called stays in bounds. -/
theorem callStack_inBounds_overlapping : generateModule bareConfig overlapping = .ok
    (bareModule overlapping) ∧
    ∀ j ∈ callStackAccesses bareLinkage ((bareModule overlapping).run bareLinkage 5 zeroState).2,
      j < callStackSize * 5 := by
  have hgen := generateModule_eq_bareModule overlapping (by decide +kernel)
  have hlen : ∀ i ≤ 5, ((bareModule overlapping).calls bareLinkage overlapping
      zeroState i).length < callStackSize := by decide +kernel
  exact ⟨hgen, (callStack_inBounds hgen bareLinkage zeroState 5 fun i hi _ _ _ _ _ => hlen i hi).1⟩

/-- A local function that calls itself without end. -/
def runaway : List EbpfInst := [⟨0x05, 0, 0, 0, 0⟩, ⟨0x85, 0, 1, 0, -1⟩, exitInst]

/-- A program that sets `r10` to zero. -/
def dropFrame : List EbpfInst := [⟨0xb7, 10, 0, 0, 0⟩, exitInst]

lemma runaway_depth (hd : d ≤ callStackSize) : ∃ s',
    executing runaway ((bareModule runaway).run bareLinkage (3 + d) zeroState).2 =
    some (1, ⟨0x85, 0, 1, 0, -1⟩, s') ∧
    ((bareModule runaway).calls bareLinkage runaway zeroState (3 + d)).length = d := by
  have hgen := generateModule_eq_bareModule runaway (by decide +kernel)
  obtain ⟨blockBegin, blocks, hm⟩ := exists_compiled hgen
  induction d with
  | zero =>
    have hinst : (executing runaway ((bareModule runaway).run bareLinkage 3 zeroState).2).map
        (fun x => (x.1, x.2.1)) = some (1, ⟨0x85, 0, 1, 0, -1⟩) := by decide +kernel
    obtain ⟨⟨pc, inst, s'⟩, hexec, heq⟩ := map_eq_some_iff.mp hinst
    cases heq
    exact ⟨s', hexec, by decide +kernel⟩
  | succ d ih =>
    obtain ⟨s', hexec, hlen⟩ := ih (by omega)
    obtain ⟨rest, hrun, hinst, hat, hstack, -⟩ :=
      (hm.standing_run bareLinkage zeroState (3 + d)).at_of_executing hm hexec
    obtain ⟨-, -, -, hmark⟩ := hm.exists_localCall hat hinst (by decide +kernel)
    have hnext := hm.next_of_localCall (k := bareLinkage) hat hinst (by decide +kernel)
      (by rw [hlen]; omega) hstack.count
    rw [show EbpfInst.jmpDstBlkId ⟨0x85, 0, 1, 0, -1⟩ 1 false = 1 by decide +kernel] at hnext hmark
    obtain ⟨inst', hinst', hexec'⟩ := hm.executing_of_at
      (s := pushFrame (bareLinkage.blockAddr (.inst 2)) s') (hm.at_block hmark hat.1)
    rw [hinst, some.injEq] at hinst'
    subst hinst'
    refine ⟨pushFrame (bareLinkage.blockAddr (.inst 2)) s', ?_, ?_⟩
    · rw [← add_assoc, run_succ, hrun, hnext]
      exact hexec'
    · rw [← add_assoc, Module.calls, callsNext, hexec]
      simp only
      rw [callsAfter_of_localCall (by decide +kernel), length_cons, hlen]

lemma mem_execTouched_pushFrame (l : Label) (term : Option (Term Label)) :
    (11, (reg s 12 + 5 - 1).toNat) ∈ execTouched k.host [] s (Emit.code (do
      EbpfInst.emitPushFrame l
      pure term)) := by
  -- The counter is loaded, moved and stored; then comes the return address.
  have hload : s.load k.host .i64 4 (.cell 12 0#64) = some (.i64 (reg s 12)) :=
    load_reg .i64 4 12
  have hstore : ∀ x, s.store k.host 4 (.i64 x) (.cell 12 0#64) = some (s.setLocal 12 0 x) :=
    fun x => store_reg 4 12 x
  change _ ∈ execTouched k.host [] s
    (.load .i64 4 (.const (.cell 12 0)) :: .bin .add (.tmp 0) (.const (.i64 5)) ::
      .store 4 (.tmp 1) (.const (.cell 12 0)) :: .bin .sub (.tmp 1) (.const (.i64 1)) ::
      .gep 8 (.const (.cell 11 0)) (.tmp 3) :: .store 8 (.label l) (.tmp 4) :: _)
  simp [execTouched, Instr.touched, Instr.exec, Operand.eval, hload, hstore, BinOp.apply,
    BinOp.eval, Val.gep]

/-- A function that calls itself without end accesses the call stack outside its bounds at the 65th
call, and an instruction that writes `r10` moves it out of the data stack. -/
theorem not_callStack_inBounds : (generateModule bareConfig runaway = .ok (bareModule runaway) ∧
      ∃ j ∈ callStackAccesses bareLinkage ((bareModule runaway).run bareLinkage 67 zeroState).2,
        ¬ j < callStackSize * 5) ∧ generateModule bareConfig dropFrame = .ok (bareModule dropFrame) ∧
      ∃ pc inst s', executing dropFrame ((bareModule dropFrame).run bareLinkage 3 zeroState).2 =
        some (pc, inst, s') ∧ ¬ bareLinkage.frameOffset s' ≤ 8 * dataStackLength := by
  refine ⟨⟨generateModule_eq_bareModule _ (by decide +kernel), ?_⟩,
    generateModule_eq_bareModule _ (by decide +kernel), ?_⟩
  · obtain ⟨blockBegin, blocks, hm⟩ := exists_compiled (generateModule_eq_bareModule runaway (by decide +kernel))
    obtain ⟨s', hexec, hlen⟩ := runaway_depth (d := 64) (by decide)
    obtain ⟨rest, hrun, hinst, hat, hstack, -⟩ :=
      (hm.standing_run bareLinkage zeroState (3 + 64)).at_of_executing hm hexec
    obtain ⟨-, rest', rfl, -⟩ := hm.exists_localCall hat hinst (by decide +kernel)
    have hcnt : reg s' 12 = 320 := by
      rw [hstack.count, hlen]
      rfl
    have hindex : (320 + 5 - 1 : BitVec 64).toNat = 324 := by decide
    refine ⟨324, ?_, by decide⟩
    rw [hrun, mem_callStackAccesses]
    have hmem := mem_execTouched_pushFrame (k := bareLinkage) (s := s') (.inst (1 + 1))
      (some (.br (.inst (EbpfInst.jmpDstBlkId ⟨0x85, 0, 1, 0, -1⟩ 1 false))))
    rw [hcnt, hindex] at hmem
    exact hmem
  · have hoffset : (executing dropFrame ((bareModule dropFrame).run bareLinkage 3 zeroState).2).map
        (fun x => bareLinkage.frameOffset x.2.2) = some (2^64 - 0x100000) := by decide +kernel
    obtain ⟨⟨pc, inst, s'⟩, hexec, heq⟩ := map_eq_some_iff.mp hoffset
    refine ⟨pc, inst, s', hexec, ?_⟩
    rw [show bareLinkage.frameOffset s' = _ from heq]
    decide

end Bpftime.Jit
