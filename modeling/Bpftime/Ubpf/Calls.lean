import Bpftime.Ubpf.Model
import Bpftime.Lib.Runs

/-!
# Helper calls in the ubpf machine

`register_external_function` gives each registration the next slot of ubpf's table, and notes the
slot in `helper_id_map`.
-/

namespace Bpftime.Ubpf

open Option BitVec UbpfVm Function List
open Jit (EbpfInst opCall opLddw)
open Runs (run Along)

variable {α : Type}

/-- The arguments of `register_external_function`, but for the name. -/
structure Registration (α : Type) where
  index : BitVec 64
  fn : Option α

namespace UbpfVm

variable (vm : UbpfVm α)

def dispatch (index : BitVec 64) : Option α := (vm.helper_id_map.lookup index).bind fun id =>
  vm.slot (id.setWidth 32)

structure Created : Prop where
  helper_id_map : vm.helper_id_map = ∅
  next_helper_id : vm.next_helper_id = 1
  ext_funcs : ∀ i, vm.ext_funcs i = none

end UbpfVm

/-- The machine, and what was last registered with success under each index. -/
structure Registry (α : Type) where
  vm : UbpfVm α
  latest : BitVec 64 → Option α

def Registry.step (s : Registry α) (r : Registration α) : Option (ℤ × Registry α) :=
  let p := s.vm.registerExternalFunction r.index r.fn
  some (p.1, { vm := p.2, latest := if p.1 = 0 then update s.latest r.index r.fn else s.latest })

/-- The machine dispatches every index to what was last registered with success. -/
def Registry.Agrees (s : Registry α) : Prop := ∀ index, s.vm.dispatch index = s.latest index

def Registry.Fits (s : Registry α) (r : Registration α) : Prop :=
  if (s.vm.next_helper_id.setWidth 32).toNat < maxExtFuncs then
    ∀ index, index ≠ r.index → ∀ id, s.vm.helper_id_map.lookup index = some id →
      id.setWidth 32 = s.vm.next_helper_id.setWidth 32 → s.vm.slot (s.vm.next_helper_id.setWidth 32) = r.fn
  else s.vm.dispatch r.index = none

/-! ## One registration -/

section Register

variable {vm : UbpfVm α} {idx : BitVec 32} {index : BitVec 64} {fn : Option α}

lemma helper_id_map_ubpfRegister : (vm.ubpfRegister idx fn).2.helper_id_map = vm.helper_id_map := by
  unfold ubpfRegister
  split_ifs <;> rfl

lemma slot_ubpfRegister (j : BitVec 32) : (vm.ubpfRegister idx fn).2.slot j =
    if j = idx ∧ j.toNat < maxExtFuncs then fn else vm.slot j := by
  unfold ubpfRegister slot
  by_cases hj : j = idx
  · subst hj
    split_ifs <;> simp_all
  · have hne : j.toNat ≠ idx.toNat := fun heq => hj (eq_of_toNat_eq heq)
    split_ifs <;> simp_all

lemma ubpfRegister_eq_zero : (vm.ubpfRegister idx fn).1 = 0 ↔ idx.toNat < maxExtFuncs := by
  unfold ubpfRegister
  split_ifs with hlt
  · exact iff_of_true rfl hlt
  · exact iff_of_false (by simp) hlt

lemma lookup_registered (i : BitVec 64) : (vm.registerExternalFunction index fn).2.helper_id_map.lookup i =
    if i = index then some vm.next_helper_id else vm.helper_id_map.lookup i := by
  unfold registerExternalFunction
  rw [helper_id_map_ubpfRegister]
  split_ifs with hi
  · rw [hi, AList.lookup_insert]
  · exact AList.lookup_insert_ne hi

lemma slot_registered (j : BitVec 32) : (vm.registerExternalFunction index fn).2.slot j =
    if j = vm.next_helper_id.setWidth 32 ∧ j.toNat < maxExtFuncs then fn else vm.slot j :=
      slot_ubpfRegister j

lemma registered_eq_zero : (vm.registerExternalFunction index fn).1 = 0 ↔
    (vm.next_helper_id.setWidth 32).toNat < maxExtFuncs := ubpfRegister_eq_zero

end Register

variable {s' s : Registry α} {r : Registration α} {reply : ℤ}

lemma agrees_step (hagree : s.Agrees) (hstep : s.step r = some (reply, s')) : s'.Agrees ↔ s.Fits r := by
  cases hstep
  unfold Registry.Agrees Registry.Fits dispatch
  simp only [lookup_registered, slot_registered, registered_eq_zero]
  by_cases hlt : (s.vm.next_helper_id.setWidth 32).toNat < maxExtFuncs
  · -- The slot holds the function now, under whatever index it is noted.
    rw [if_pos hlt, if_pos hlt]
    constructor
    · intro h index hne id hid hslot
      have hafter := h index
      rw [if_neg hne, hid, bind_some, if_pos ⟨hslot, hslot ▸ hlt⟩,
        update_of_ne hne, ← hagree index, dispatch, hid, bind_some,
        hslot] at hafter
      exact hafter.symm
    · intro h index
      by_cases hne : index = r.index
      · rw [if_pos hne, hne, update_self, bind_some, if_pos ⟨rfl, hlt⟩]
      · rw [if_neg hne, update_of_ne hne, ← hagree index, dispatch]
        cases hid : s.vm.helper_id_map.lookup index with
        | none => rfl
        | some id =>
          rw [bind_some, bind_some]
          split_ifs with hslot
          · rw [hslot.1, h index hne id hid hslot.1]
          · rfl
  · -- No slot changes, and the index is noted with a slot that is not one of the table.
    rw [if_neg hlt, if_neg hlt]
    have hnone : s.vm.slot (s.vm.next_helper_id.setWidth 32) = none := dif_neg hlt
    have hsame : ∀ idx : BitVec 32, ¬ (idx = s.vm.next_helper_id.setWidth 32 ∧ idx.toNat < maxExtFuncs) :=
      fun idx hidx => hlt (hidx.1 ▸ hidx.2)
    simp only [hsame, if_false]
    constructor
    · intro h
      have hafter := h r.index
      rw [if_pos rfl, bind_some, hnone, ← hagree r.index] at hafter
      exact hafter.symm
    · intro h index
      rw [← hagree index]
      split_ifs with hne
      · rw [hne, bind_some, hnone]
        exact h.symm
      · rfl

section Calls

variable {vm : UbpfVm α} {pc : ℕ} {inst inst' : EbpfInst}

lemma slot_patchCall (h : vm.patchCall pc inst = .ok inst') :
    vm.slot inst'.imm = vm.dispatch (inst.imm.signExtend 64) ∧ inst'.src = inst.src := by
  unfold patchCall at h
  unfold dispatch
  split at h
  · next id hid =>
    cases h
    rw [hid]
    exact ⟨rfl, rfl⟩
  · split_ifs at h

lemma patchCall_eq_self_iff : vm.patchCall pc inst = .ok inst ↔
    (vm.helper_id_map.lookup (inst.imm.signExtend 64)).map (·.setWidth 32) = some inst.imm := by
  unfold patchCall
  cases vm.helper_id_map.lookup (inst.imm.signExtend 64) with
  | none =>
    dsimp only
    split_ifs <;> simp
  | some id =>
    constructor
    · intro h
      exact congrArg some (congrArg EbpfInst.imm (Except.ok.inj h))
    · intro h
      rw [map_some, some.injEq] at h
      dsimp only
      rw [h]

lemma slot_of_checkInst {insts : List EbpfInst} (hop : inst.opcode = opCall) (hsrc : inst.src = 0)
    (h : vm.checkInst insts pc inst = .ok ()) : ∃ f, vm.slot inst.imm = some f := by
  have hkind : kindOf inst.opcode = some .call := by
    rw [hop]
    decide
  unfold checkInst at h
  rw [hkind] at h
  obtain ⟨u, hcall, -⟩ := bind_eq_ok.mp h
  unfold checkCall at hcall
  have hsrc' : inst.src.toNat = 0 := by rw [hsrc]; rfl
  simp only [hsrc'] at hcall
  split_ifs at hcall with himm hnone
  exact ne_none_iff_exists'.mp hnone

lemma dispatch_loaded {insns loaded : List EbpfInst} {trailing : ℕ}
    (hload : vm.loadCode insns trailing = .ok loaded) {k : ℕ} (hstart : isStart insns k = true)
    (hget : insns[k]? = some inst) (hget' : loaded[k]? = some inst') (hop : inst.opcode = opCall)
    (hsrc : inst.src = 0) : ∃ f, vm.slot inst'.imm = some f ∧ vm.dispatch (inst.imm.signExtend 64) =
    some f := by
  obtain ⟨hcheck, out, -, hout, hpatched⟩ := loadCode_eq_ok hload hstart hget hget'
  cases hpatched with
  | lddw _ _ _ hlddw => exact absurd (hop ▸ hlddw) (by decide)
  | same hcall => exact absurd hop hcall
  | call inst'' _ hpatch hout' =>
    cases hout.symm.trans hout'
    obtain ⟨hslot, hsrc'⟩ := slot_patchCall hpatch
    obtain ⟨f, hf⟩ := slot_of_checkInst (opcode_patchCall hpatch ▸ hop) (hsrc'.trans hsrc) hcheck
    exact ⟨f, hf, hslot ▸ hf⟩

end Calls

/-- The registrations from `vm` on are right, and so is the program that is then loaded. -/
structure CallsRight (vm : UbpfVm α) (regs : List (Registration α)) (insns : List EbpfInst)
    (trailing : ℕ) : Prop where
  /-- After each registration, every index reaches what was last registered with success. -/
  dispatched : ∀ pre, pre <+: regs → ∀ rs s,
    run Registry.step ⟨vm, fun _ => none⟩ pre = some (rs, s) → s.Agrees
  /-- A registration that fails changes no index. -/
  failed : ∀ pre r, pre ++ [r] <+: regs → ∀ rs s reply s',
    run Registry.step ⟨vm, fun _ => none⟩ pre = some (rs, s) → s.step r = some (reply, s') →
      reply ≠ 0 → ∀ index, s'.vm.dispatch index = s.vm.dispatch index
  /-- A program is loaded only if each helper that it calls is registered, and the call is then one
  of that function. -/
  helpers : ∀ rs s, run Registry.step ⟨vm, fun _ => none⟩ regs = some (rs, s) →
    ∀ loaded, s.vm.loadCode insns trailing = .ok loaded → ∀ k inst inst',
      isStart insns k = true → insns[k]? = some inst → loaded[k]? = some inst' →
        inst.opcode = opCall → inst.src = 0 →
          ∃ f, s.vm.slot inst'.imm = some f ∧ s.latest (inst.imm.signExtend 64) = some f
  /-- A call inside the program stays as it is. -/
  locals : ∀ rs s, run Registry.step ⟨vm, fun _ => none⟩ regs = some (rs, s) → ∀ k inst,
    isStart insns k = true → insns[k]? = some inst → inst.opcode = opCall → inst.src = 1 →
      s.vm.patchCall k inst = .ok inst

/-- The distance of each call inside the program is, as the number of a helper, noted with the slot
of the same number. -/
def LocalCallsFit (s : Registry α) (insns : List EbpfInst) : Prop :=
  ∀ k inst, isStart insns k = true → insns[k]? = some inst → inst.opcode = opCall → inst.src = 1 →
    (s.vm.helper_id_map.lookup (inst.imm.signExtend 64)).map (·.setWidth 32) = some inst.imm

lemma agrees_created {vm : UbpfVm α} (h : vm.Created) : Registry.Agrees ⟨vm, fun _ => none⟩ := by
  intro index
  rw [dispatch, h.helper_id_map]
  rfl

lemma dispatch_of_failed (hagree : s.Agrees)
    (hagree' : s'.Agrees) (hstep : s.step r = some (reply, s')) (hfail : reply ≠ 0)
    (index : BitVec 64) : s'.vm.dispatch index = s.vm.dispatch index := by
  have hlatest : s'.latest = s.latest := by
    cases hstep
    exact if_neg hfail
  rw [hagree index, hagree' index, hlatest]

/-- Calls reach the function registered last with success exactly when each registration fits, and
the calls inside the program are not changed by their rewriting. -/
theorem callsRight_iff {vm : UbpfVm α} (hvm : vm.Created) (regs : List (Registration α))
    (insns : List EbpfInst) (trailing : ℕ) :
    CallsRight vm regs insns trailing ↔ Along Registry.step Registry.Fits ⟨vm, fun _ => none⟩ regs ∧
        ∀ rs s, run Registry.step ⟨vm, fun _ => none⟩ regs = some (rs, s) → LocalCallsFit s insns := by
  have hprefixes : (∀ pre, pre <+: regs → ∀ rs s,
      run Registry.step ⟨vm, fun _ => none⟩ pre = some (rs, s) → s.Agrees) ↔
        Along Registry.step Registry.Fits ⟨vm, fun _ => none⟩ regs := Runs.forall_prefix_iff_along
    (fun s r => ⟨_, _, rfl⟩) (fun s r reply s' => agrees_step) (agrees_created hvm)
  constructor
  · intro h
    refine ⟨hprefixes.mp h.dispatched, fun rs s hrun k inst hstart hget hop hsrc => ?_⟩
    exact patchCall_eq_self_iff.mp (h.locals rs s hrun k inst hstart hget hop hsrc)
  · rintro ⟨hfits, hlocals⟩
    have hagree := hprefixes.mpr hfits
    refine ⟨hagree, ?_, ?_, ?_⟩
    · intro pre r hpre rs s reply s' hrun hstep hfail
      have hpre' : pre <+: regs := (prefix_append pre [r]).trans hpre
      have hrun' : run Registry.step ⟨vm, fun _ => none⟩ (pre ++ [r]) = some (rs ++ [reply], s') := by
        rw [Runs.run_append hrun]
        simp [run, hstep]
      exact dispatch_of_failed (hagree pre hpre' rs s hrun) (hagree _ hpre _ s' hrun') hstep hfail
    · intro rs s hrun loaded hload k inst inst' hstart hget hget' hop hsrc
      obtain ⟨f, hslot, hf⟩ := dispatch_loaded hload hstart hget hget' hop hsrc
      exact ⟨f, hslot, hagree regs prefix_rfl rs s hrun _ ▸ hf⟩
    · intro rs s hrun k inst hstart hget hop hsrc
      exact patchCall_eq_self_iff.mpr (hlocals rs s hrun k inst hstart hget hop hsrc)

lemma along_fits {regs : List (Registration α)}
    (hids : ∀ index id, s.vm.helper_id_map.lookup index = some id → id < s.vm.next_helper_id)
    (hroom : s.vm.next_helper_id.toNat + regs.length ≤ maxExtFuncs) :
    Along Registry.step Registry.Fits s regs := by
  induction regs generalizing s with
  | nil => trivial
  | cons r regs ih =>
    have hmax : maxExtFuncs = 64 := rfl
    rw [length_cons] at hroom
    refine ⟨?_, fun reply s' hstep => ?_⟩
    · unfold Registry.Fits
      rw [if_pos (by rw [toNat_setWidth]; omega)]
      intro index hne id hid hslot
      -- Numbers that small are told apart by their low halves.
      have hlt : id.toNat < s.vm.next_helper_id.toNat := hids index id hid
      have heq := congrArg BitVec.toNat hslot
      rw [toNat_setWidth, toNat_setWidth] at heq
      omega
    · cases hstep
      have hnext : (s.vm.registerExternalFunction r.index r.fn).2.next_helper_id =
          s.vm.next_helper_id + 1 := by
        unfold registerExternalFunction ubpfRegister
        dsimp only
        split_ifs <;> rfl
      have hnext' : (s.vm.next_helper_id + 1).toNat = s.vm.next_helper_id.toNat + 1 := by
        rw [toNat_add]
        exact Nat.mod_eq_of_lt (by simp; omega)
      refine ih (fun index id hid => ?_) ?_
      · dsimp only at hid ⊢
        rw [lookup_registered] at hid
        rw [hnext, lt_def, hnext']
        split_ifs at hid with hindex
        · cases hid
          omega
        · have hlt : id.toNat < s.vm.next_helper_id.toNat := hids index id hid
          omega
      · dsimp only
        rw [hnext, hnext']
        omega

/-- A machine that was just created. -/
def createdVm : UbpfVm ℕ where
  helper_id_map := ∅
  next_helper_id := 1
  map_by_fd := none
  map_by_idx := none
  map_val := none
  var_addr := none
  code_addr := none
  ext_funcs _ := none

lemma createdVm_created : createdVm.Created := ⟨rfl, rfl, fun _ => rfl⟩

def callAndExit (src : BitVec 4) (imm : BitVec 32) : List EbpfInst :=
  [{ opcode := opCall, dst := 0, src, offset := 0, imm },
    { opcode := 0x95, dst := 0, src := 0, offset := 0, imm := 0 }]

/-- Two registrations of one index, and a call of it. -/
theorem callsRight_registered_twice : CallsRight createdVm [⟨7, some 10⟩, ⟨7, some 11⟩]
    (callAndExit 0 7) 0 := by
  refine (callsRight_iff createdVm_created _ _ _).mpr ⟨along_fits ?_ (by decide), ?_⟩
  · intro index id hid
    cases hid
  · intro rs s hrun k inst hstart hget hop hsrc
    match k with
    | 0 =>
      cases hget
      cases hsrc
    | 1 =>
      cases hget
      cases hop
    | k + 2 => cases hget

/-- The registrations of the functions 1 to 63 under their own numbers, which fill the table. -/
def fillTable : List (Registration ℕ) := (List.range 63).map fun i => ⟨BitVec.ofNat 64 (i + 1), some (i + 1)⟩

/-- With the table full, registering helper 1 again fails, and a program that calls it can no longer
be loaded. After a single registration under the number 2, a call over a distance of 2 becomes one
over a distance of 1. -/
theorem calls_wrong_after_failed_registration :
    ((run Registry.step ⟨createdVm, fun _ => none⟩ fillTable).map fun p =>
        (p.2.vm.dispatch 1, (p.2.vm.loadCode (callAndExit 0 1) 0).isOk)) = some (some 1, true) ∧
      ((run Registry.step ⟨createdVm, fun _ => none⟩ (fillTable ++ [⟨1, some 64⟩])).map fun p =>
        (p.1.getLast?, p.2.latest 1, p.2.vm.dispatch 1, p.2.vm.loadCode (callAndExit 0 1) 0)) =
          some (some (-1), some 1, none, .error (.ubpf (.callImmediate 0))) ∧
      ((run Registry.step ⟨createdVm, fun _ => none⟩ [⟨2, some 9⟩]).map fun p =>
        p.2.vm.patchCode (callAndExit 1 2) 0) = some (.ok (callAndExit 1 1)) := by
  refine ⟨by decide +kernel, by decide +kernel, by decide +kernel⟩

end Bpftime.Ubpf
