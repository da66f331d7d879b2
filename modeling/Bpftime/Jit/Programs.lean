import Bpftime.Jit.Atomic
import Bpftime.Jit.ControlFlow

/-!
# Whole programs

The compiled function of a program without local calls does what the instruction set says of the
whole program: arithmetic, atomic operations, loads, stores, constants, jumps, calls of helpers and
the exit.
-/

namespace Bpftime.Jit

open Ir EbpfInst Isa

namespace Isa

def accessTy (inst : EbpfInst) : Ty :=
  match inst.opcode.toNat / 8 % 4 with
  | 0 => .i32
  | 1 => .i16
  | 2 => .i8
  | _ => .i64

/-- The address of a load or store, from the register that has its base. -/
def accessAddr (inst : EbpfInst) (base : BitVec 4) (s : State) : BitVec 64 :=
  reg s base.toNat + inst.offset.signExtend 64

def access (inst : EbpfInst) (s : State) : State :=
  let ty := accessTy inst
  if cls inst = 1 then
    s.setLocal inst.dst.toNat 0
      ((BitVec.ofNat ty.bits (s.mem.read (accessAddr inst inst.src s) ty.bytes)).setWidth 64)
  else
    let x := if cls inst = 3 then reg s inst.src.toNat else inst.imm.signExtend 64
    { s with mem := s.mem.write (accessAddr inst inst.dst s) ty.bytes (x.setWidth ty.bits).toNat }

def plain (inst : EbpfInst) (s : State) : State :=
  if IsAlu inst then s.setLocal inst.dst.toNat 0 (alu inst (reg s inst.dst.toNat) (reg s inst.src.toNat))
  else if IsAtomic inst then atomic inst s
  else access inst s

variable (cfg : Config) (k : Linkage) (insts : List EbpfInst)

/-- A step of the machine of the instruction set. -/
def Status.advance : Status → Status
  | .fetch pc s =>
    match insts[pc]? with
    | none => .stuck
    | some inst =>
      match kind inst, insts[pc + 1]? with
      | .plain, _ => .fetch (pc + 1) (plain inst s)
      | .wide, some next => .fetch (pc + 2) (s.setLocal inst.dst.toNat 0 (next.imm ++ inst.imm))
      | _, _ => execInst cfg k insts pc inst s
  | st => st

end Isa

/-- The states in which the code of a plain instruction is right. -/
def PlainOk (inst : EbpfInst) (s : State) : Prop :=
  if IsAlu inst then AluOk inst (reg s inst.dst.toNat) (reg s inst.src.toNat)
  else if IsAtomic inst then (atomicAddr inst s).toNat % (atomicWidth inst / 8) = 0 ∧ AtomicOk inst s
  else
    let base := if cls inst = 1 then inst.src else inst.dst
    (accessAddr inst base s).toNat % (accessTy inst).abiAlign = 0

/-- The instruction that the machine is at is executed where its code is right. -/
def StepOk (insts : List EbpfInst) : Isa.Status → Prop
  | .fetch pc s => ∀ inst ∈ insts[pc]?, kind inst = .plain → PlainOk inst s
  | _ => True

instance (inst : EbpfInst) (s : State) : Decidable (PlainOk inst s) := by
  unfold PlainOk AtomicOk
  infer_instance

instance (insts : List EbpfInst) : ∀ st, Decidable (StepOk insts st)
  | .fetch _ _ => inferInstanceAs (Decidable (∀ _ ∈ _, _ → _))
  | .returned _ _ | .stuck => inferInstanceAs (Decidable True)

/-- What the opcodes of a case have in common. -/
def Case.Fits (o : BitVec 8) : Case → Bool
  | .alu _ | .neg | .mov | .endian => o.toNat % 8 = 4 ∨ o.toNat % 8 = 7
  | .atomic => o = 0xc3 ∨ o = 0xdb
  | .loadX ty => o.toNat % 8 = 1 ∧ o ≠ 0xc3 ∧ o ≠ 0xdb ∧ accessTy ⟨o, 0, 0, 0, 0⟩ = ty
  | .store ty => (o.toNat % 8 = 2 ∨ o.toNat % 8 = 3) ∧ (o &&& 0x07 = clsStx ↔ o.toNat % 8 = 3) ∧
    o ≠ 0xc3 ∧ o ≠ 0xdb ∧ accessTy ⟨o, 0, 0, 0, 0⟩ = ty
  | _ => true

variable {cfg : Config} {k : Linkage} {insts : List EbpfInst} {m : Module} {blockBegin : ℕ → Bool}
  {blocks : ℕ → Block} {inst : EbpfInst} {pc : ℕ} {s : State} {env : List Val}
  {e : JitEmit (Option (Term Label))}

lemma fits_of_case {c : Case} (hc : inst.case = some c) : c.Fits inst.opcode = true := by
  have htable : ∀ o : BitVec 8, ∀ e ∈ switchTable.find? fun e => o ∈ e.2, e.1.Fits o = true := by
    decide +kernel
  obtain ⟨e, he, rfl⟩ := Option.map_eq_some_iff.mp hc
  exact htable inst.opcode e he

lemma accessTy_cases (inst : EbpfInst) :
    accessTy inst = .i8 ∨ accessTy inst = .i16 ∨ accessTy inst = .i32 ∨ accessTy inst = .i64 := by
  unfold accessTy
  split <;> simp

lemma leaves_loadX (hcls : cls inst = 1) (ha : (accessAddr inst inst.src s).toNat % (accessTy inst).abiAlign = 0) :
    Leaves k.host env s (inst.emitLoadX (accessTy inst)) (some (access inst s)) := by
  refine (yields_addr inst inst.src.toNat).leaves fun p vals hp => ?_
  have hload : Yields k.host _ s (createLoad (accessTy inst) p) _ _ := yields_load hp
  rw [State.load, if_pos (by exact ha)] at hload
  rw [access, if_pos hcls]
  rcases accessTy_cases inst with hty | hty | hty | hty <;> rw [hty] at hload ⊢ <;> refine hload.leaves fun v _ hv => ?_
  iterate 3 · exact (yields_cast .zext hv (by decide)).leaves fun w _ hw => leaves_storeReg hw _
  · rw [show ∀ x : BitVec Ty.i64.bits, x.setWidth 64 = x from fun x => BitVec.setWidth_eq x]
    exact (yields_cast_self .zext hv).leaves fun w _ hw => leaves_storeReg hw _

lemma leaves_emitStore (hcls : cls inst = 2 ∨ cls inst = 3)
    (hstx : inst.opcode &&& 0x07 = clsStx ↔ cls inst = 3)
    (ha : (accessAddr inst inst.dst s).toNat % (accessTy inst).abiAlign = 0) :
    Leaves k.host env s (inst.emitStore (accessTy inst)) (some (access inst s)) := by
  have hsrc : Yields k.host env s inst.emitStoreLoadingSrc .i64
      (some (.i64 (if cls inst = 3 then reg s inst.src.toNat else inst.imm.signExtend 64))) := by
    unfold emitStoreLoadingSrc
    simp only [hstx]
    split_ifs
    · exact yields_reg64 _
    · exact yields_pure (.int64 _)
  refine hsrc.leaves fun src vals hsrc => ?_
  rw [access, if_neg (by omega)]
  generalize (if cls inst = 3 then reg s inst.src.toNat else inst.imm.signExtend 64) = x at hsrc ⊢
  -- The value of the type, which is then stored at the address.
  have hstore : ∀ {env v y}, Value.Holds k.host env v (accessTy inst) y →
      y.toBytes = some ((accessTy inst).bytes, (x.setWidth (accessTy inst).bits).toNat) →
      Leaves k.host env s (inst.emitAddr inst.dst.toNat >>= createStore v) (some { s with
        mem := s.mem.write (accessAddr inst inst.dst s) (accessTy inst).bytes
          (x.setWidth (accessTy inst).bits).toNat }) := by
    intro env v y hv hbytes
    refine (yields_addr inst inst.dst.toNat).leaves fun p vals' hp => ?_
    have hleaves := leaves_store (s := s) (hv.mono vals') hp
    rwa [State.store, if_pos (by exact ha), hbytes] at hleaves
  rcases accessTy_cases inst with hty | hty | hty | hty <;> rw [hty] at hstore ⊢
  iterate 3 · exact (yields_cast .trunc hsrc (by decide)).leaves fun v _ hv => hstore hv rfl
  · refine (yields_cast_self .trunc hsrc).leaves fun v _ hv => hstore hv ?_
    rw [show ∀ x : BitVec 64, x.setWidth Ty.i64.bits = x from fun x => BitVec.setWidth_eq x]
    rfl

lemma dataEffect_of_leaves {s' : State} (hemit : emitAt cfg insts blockBegin pc inst = .ok e)
    (hkind : kind inst = .plain ∨ kind inst = .wide) (h : Leaves k.host [] s e (some s')) :
    dataEffect cfg k insts pc inst s = some s' := by
  obtain ⟨-, hsame⟩ := straight_of_emit hemit hkind
  simp only [dataEffect, hsame]
  exact leaves_nil_iff.mp h

lemma dataEffect_plain (hemit : emitAt cfg insts blockBegin pc inst = .ok e) (hkind : kind inst = .plain)
    (hok : PlainOk inst s) : dataEffect cfg k insts pc inst s = some (plain inst s) := by
  refine dataEffect_of_leaves hemit (.inl hkind) ?_
  unfold PlainOk at hok
  unfold plain
  by_cases halu : IsAlu inst
  · rw [if_pos halu] at hok ⊢
    exact (leaves_emit halu hemit).mpr hok
  rw [if_neg halu] at hok ⊢
  obtain ⟨-, c, hcase, hemit⟩ := emit_eq_ok_iff.mp hemit
  have hfits := fits_of_case hcase
  rw [kind_of_case hcase] at hkind
  cases c with
  | alu | neg | mov | endian => exact absurd (of_decide_eq_true hfits) halu
  | atomic =>
    have hatomic : IsAtomic inst := of_decide_eq_true hfits
    rw [if_pos hatomic] at hok ⊢
    obtain ⟨e', he', rfl⟩ := map_eq_ok_iff.mp hemit
    exact leaves_straight ((leaves_emitAtomic_iff hatomic he' hok.1).mpr hok.2)
  | loadX ty =>
    obtain ⟨hcls, h32, h64, rfl⟩ := of_decide_eq_true hfits
    have hno : ¬ IsAtomic inst := not_or.mpr ⟨h32, h64⟩
    rw [if_neg hno] at hok ⊢
    cases hemit
    rw [if_pos (by exact hcls)] at hok
    exact leaves_straight (leaves_loadX hcls hok)
  | store ty =>
    obtain ⟨hcls, hstx, h32, h64, rfl⟩ := of_decide_eq_true hfits
    have hno : ¬ IsAtomic inst := not_or.mpr ⟨h32, h64⟩
    rw [if_neg hno] at hok ⊢
    cases hemit
    have hcls : cls inst = 2 ∨ cls inst = 3 := hcls
    rw [if_neg (by omega)] at hok
    exact leaves_straight (leaves_emitStore hcls hstx hok)
  | _ => simp [Case.kind] at hkind

lemma dataEffect_wide (hemit : emitAt cfg insts blockBegin pc inst = .ok e) (hkind : kind inst = .wide)
    (hsrc : inst.src = 0) : ∃ next, insts[pc + 1]? = some next ∧
    dataEffect cfg k insts pc inst s = some (s.setLocal inst.dst.toNat 0 (next.imm ++ inst.imm)) := by
  have heffect := fun s' (h : Leaves k.host [] s e (some s')) => dataEffect_of_leaves hemit (.inr hkind) h
  obtain ⟨-, c, hcase, hemit⟩ := emit_eq_ok_iff.mp hemit
  rw [kind_of_case hcase] at hkind
  obtain rfl : c = .lddw := by cases c <;> simp_all [Case.kind]
  obtain ⟨e', he', rfl⟩ := map_eq_ok_iff.mp hemit
  unfold emitLddw at he'
  cases hnext : insts[pc + 1]? with
  | none => simp [hnext] at he'
  | some next =>
    simp only [hnext, emitLddwBySrc, hsrc] at he'
    split_ifs at he'
    cases he'
    exact ⟨next, rfl, heffect _ (leaves_straight (leaves_storeReg (.int64 _) _))⟩

variable (hm : Compiled cfg insts m blockBegin blocks)
    (hwide : ∀ inst ∈ insts, kind inst = .wide → inst.src = 0)
  {st : Isa.Status} {t : Ir.Status Label Callee} (h : Follows cfg insts m blockBegin blocks k st t)

include hm hwide h

lemma advance_eq (hok : StepOk insts st) : st.advance cfg k insts = st.next cfg k insts := by
  cases st with
  | fetch pc s =>
    obtain ⟨rest, -, hat⟩ := h
    obtain ⟨inst, e, rest', hinst, hemit, -, -⟩ := hm.at_head hat
    simp only [Isa.Status.advance, Isa.Status.next, hinst, execInst]
    cases hkind : kind inst with
    | plain =>
      rw [dataEffect_plain hemit hkind (hok inst hinst hkind)]
      rfl
    | wide =>
      have hsrc := hwide inst (List.mem_of_getElem? hinst) hkind
      obtain ⟨next, hnext, heffect⟩ := dataEffect_wide (k := k) (s := s) hemit hkind hsrc
      rw [hnext, heffect]
      rfl
    | _ => rfl
  | returned | stuck => rfl

lemma reaches (hlocal : ∀ inst ∈ insts, inst.isLocalCall = false) (hjumps : JumpsOk insts) {n : ℕ}
    (hcnt : ∀ pc s, st = .fetch pc s → reg s 12 = 0)
    (hok : ∀ j < n, StepOk insts ((·.advance cfg k insts)^[j] st)) :
    ∃ n', Follows cfg insts m blockBegin blocks k ((·.advance cfg k insts)^[n] st)
    (Traces.trace (m.next k) Status.visiting n' t).2 := by
  induction n generalizing st t with
  | zero => exact ⟨0, h⟩
  | succ n ih =>
    have hstep := advance_eq hm hwide h (hok 0 (by omega))
    obtain ⟨t', ⟨a, ha⟩, -, hnext⟩ := hm.simulates hjumps hlocal k st t ⟨h, hcnt⟩
    rw [← hstep] at hnext
    obtain ⟨b, hb⟩ := ih hnext.1 hnext.2 fun j hj => hok (j + 1) (by omega)
    refine ⟨a + (b + 1), ?_⟩
    rw [Traces.trace_add, ha, Traces.trace]
    exact hb

omit hm hwide h

/-- A program without local calls, whose jumps lead to starts of instructions and whose wide
constants are numbers, does in its compiled function what it does by the instruction set, step by
step and in the same states, as long as each plain instruction is executed where its code is right.
So if it exits, the function returns its result. -/
theorem program_correct (hgen : generateModule cfg insts = .ok m)
    (hlocal : ∀ inst ∈ insts, inst.isLocalCall = false)
    (hjumps : JumpsOk insts) (hwide : ∀ inst ∈ insts, kind inst = .wide → inst.src = 0)
    (k : Linkage) (s : State)
    (n : ℕ) (hok : ∀ j < n, StepOk insts ((·.advance cfg k insts)^[j] (.fetch 0 (initial cfg k s)))) :
    ∃ n', Agrees ((·.advance cfg k insts)^[n] (.fetch 0 (initial cfg k s))) (m.run k n' s).2 := by
  obtain ⟨blockBegin, blocks, hm⟩ := exists_compiled hgen
  have hcnt : ∀ pc s', Isa.Status.fetch 0 (initial cfg k s) = .fetch pc s' → reg s' 12 = 0 := by
    rintro pc s' ⟨⟩
    rw [initial]
    split_ifs <;> simp
  obtain ⟨n', hfollows⟩ := reaches hm hwide (hm.follows_start k s) hlocal hjumps hcnt hok
  obtain ⟨t', ⟨j, hj⟩, hagrees⟩ := hfollows.exists_agrees hm
  refine ⟨n' + j, ?_⟩
  have hrun : (m.run k (n' + j) s).2 = t' := by
    simp only [Module.run, Ir.Status.run, Traces.trace_add]
    exact congrArg Prod.snd hj
  rw [hrun]
  exact hagrees

/-- A number is stored below the frame pointer, loaded again and returned. -/
def throughMemory : List EbpfInst := [⟨0x7a, 10, 0, -8, -3⟩, ⟨0x79, 0, 10, -8, 0⟩,
    ⟨0x07, 0, 0, 0, 10⟩, exitInst]

theorem program_correct_throughMemory : ∃ m n' s', generateModule bareConfig throughMemory = .ok m ∧
    (m.run bareLinkage n' zeroState).2 = .returned (.i64 7) s' := by
  obtain ⟨m, hm⟩ := exists_of_isOk (show (generateModule bareConfig throughMemory).isOk = true by decide +kernel)
  have hok : ∀ j < 4, StepOk throughMemory ((·.advance bareConfig bareLinkage throughMemory)^[j]
      (.fetch 0 (initial bareConfig bareLinkage zeroState))) := by
    decide +kernel
  obtain ⟨n', hagrees⟩ := program_correct hm (by decide +kernel) (by decide +kernel) (by decide +kernel)
    bareLinkage zeroState 4 hok
  exact ⟨m, n', _, hm, hagrees⟩

end Bpftime.Jit
