import Bpftime.Ir.Rules
import Bpftime.Jit.Compiler

/-!
# Registers of the emitted function

Loads and stores of the registers, which are local arrays of one element, as rules for emitted code.
-/

namespace Bpftime.Jit

open Ir

variable {k : Linkage} {env : List Val} {s : State}

lemma arrayLength_pos (array : ℕ) : 0 < arrayLength array := by
  rw [arrayLength]
  split_ifs
  · decide
  · norm_num

lemma regs_holds (i : ℕ) : (regs i).Holds k.host env .ptr (.cell i 0) := .const _ _

lemma zero_lt_length (i : ℕ) : (0 : BitVec 64).toNat < k.host.length i := arrayLength_pos i

lemma load_reg (ty : Ty) (align i : ℕ) : s.load k.host ty align (.cell i 0) = ty.ofCell (reg s i) := by
  rw [State.load, if_pos (zero_lt_length i)]
  rfl

lemma store_reg (align i : ℕ) (x : BitVec 64) :
    s.store k.host align (.i64 x) (.cell i 0) = some (s.setLocal i 0 x) := by
  rw [State.store, if_pos (zero_lt_length i)]
  rfl

lemma store_reg_ptr (align i : ℕ) (x : BitVec 64) :
    s.store k.host align (.ptr x) (.cell i 0) = some (s.setLocal i 0 x) := by
  rw [State.store, if_pos (zero_lt_length i)]
  rfl

lemma store_reg_i32 (align i : ℕ) (x : BitVec 32) : s.store k.host align (.i32 x) (.cell i 0) =
    some (s.setLocal i 0 (reg s i >>> 32 <<< 32 ||| x.setWidth 64)) := by
  rw [State.store, if_pos (zero_lt_length i)]
  rfl

@[simp]
lemma reg_setLocal (s : State) (i j : ℕ) (x : BitVec 64) :
    reg (s.setLocal i 0 x) j = if j = i then x else reg s j := by
  by_cases h : j = i
  · subst h
    simp [reg, State.setLocal]
  · simp [reg, State.setLocal, h]

lemma setLocal_locals_of_ne (s : State) {a b : ℕ} (i : ℕ) (x : BitVec 64) (h : b ≠ a) :
    (s.setLocal a i x).locals b = s.locals b := by simp [State.setLocal, h]

variable {x : BitVec 64} {v : JitValue}

lemma setLocal_inj {i : ℕ} {y : BitVec 64} (h : s.setLocal i 0 x = s.setLocal i 0 y) : x = y := by
  simpa using congrArg (reg · i) h

lemma yields_loadReg (ty : Ty) (i : ℕ) : Yields k.host env s (createLoad ty (regs i)) ty
    (ty.ofCell (reg s i)) := by
  rw [← load_reg (k := k) ty ty.abiAlign]
  exact yields_load (regs_holds i)

lemma yields_reg64 (i : ℕ) : Yields k.host env s (createLoad .i64 (regs i)) .i64 (some (.i64 (reg s i))) :=
  yields_loadReg .i64 i

lemma yields_reg32 (i : ℕ) :
    Yields k.host env s (createLoad .i32 (regs i)) .i32 (some (.i32 ((reg s i).setWidth 32))) :=
    yields_loadReg .i32 i

lemma yields_regPtr (i : ℕ) : Yields k.host env s (createLoad .ptr (regs i)) .ptr (some (.ptr (reg s i))) :=
  yields_loadReg .ptr i

lemma leaves_storeReg (hv : v.Holds k.host env .i64 (.i64 x))
    (i : ℕ) : Leaves k.host env s (createStore v (regs i)) (some (s.setLocal i 0 x)) := by
  have hstore := leaves_store (s := s) hv (regs_holds i)
  rwa [store_reg] at hstore

lemma leaves_storePtr (hv : v.Holds k.host env .ptr (.ptr x))
    (i : ℕ) : Leaves k.host env s (createStore v (regs i)) (some (s.setLocal i 0 x)) := by
  have hstore := leaves_store (s := s) hv (regs_holds i)
  rwa [store_reg_ptr] at hstore

lemma leaves_storeReg32 {x : BitVec 32} (hv : v.Holds k.host env .i32 (.i32 x))
    (i : ℕ) : Leaves k.host env s (createStore v (regs i))
    (some (s.setLocal i 0 (reg s i >>> 32 <<< 32 ||| x.setWidth 64))) := by
  have hstore := leaves_store (s := s) hv (regs_holds i)
  rwa [store_reg_i32] at hstore

lemma yields_addr (inst : EbpfInst) (i : ℕ) : Yields k.host env s (inst.emitAddr i) .ptr
    (some (.ptr (reg s i + inst.offset.signExtend 64))) := by
  refine (yields_regPtr i).bind fun base vals hbase => ?_
  have hgep := yields_gep (F := Callee) (s := s) 1 hbase (.int64 (inst.offset.signExtend 64))
  -- The elements are bytes.
  simpa [Val.gep] using hgep

end Bpftime.Jit
