import Bpftime.Cuda.Serving

/-!
# Calls come to an end

The device threads and the watcher do not block each other for good.
-/

namespace Bpftime.Cuda

open SharedMemory List Option Sys Runs
open Runs (run Along)

namespace DevPc

variable {pc : DevPc} {c c' : Call}

end DevPc

namespace Sys

variable {ι W : Type} [DecidableEq ι] {env : Env W} {s : Sys ι W} {t : ι} {todo : ι → List Call}

/-! ## The thread with the lock -/

omit [DecidableEq ι] in
@[simp] lemma hostStep_threads (env : Env W) (s : Sys ι W) : (s.hostStep env).threads = s.threads := by
  unfold hostStep
  split
  case h_1 => split_ifs <;> rfl
  all_goals rfl

omit [DecidableEq ι] in
/-- The thread and the watcher alone can finish the call of the thread and free the lock. -/
def Finishes (env : Env W) (t : ι) (c : Call) (s : Sys ι W) : Prop :=
  ∃ ops rs s', Along (step env) (Sound env) s ops ∧ run (step env) s ops = some (rs, s') ∧
    s'.holder = none ∧ (∀ t', t' ≠ t → s'.threads t' = s.threads t') ∧
    ∃ x, (s'.threads t).results = (s.threads t).results ++ [(c, x)]

lemma Finishes.of_hostStep {c : Call} (h : Finishes env t c (s.hostStep env)) : Finishes env t c s := by
  obtain ⟨ops, rs, s', halong, hrun, hholder, hothers, x, hx⟩ := h
  have hstep : step env s .host = some ((), s.hostStep env) := rfl
  rw [hostStep_threads] at hothers hx
  refine ⟨.host :: ops, () :: rs, s', ⟨trivial, ?_⟩, ?_, hholder, hothers, x, hx⟩
  · rintro r s1 ⟨⟩
    exact halong
  · rw [Runs.run_cons hstep, hrun]
    rfl

section Finish

variable {c : Call}

variable {req_id : ℕ}

section

variable (hpc : (s.threads t).pc = .waitFlag2 c)
include hpc

end

end Finish

lemma Inv.of_run {s' : Sys ι W} {ops : List (Op ι)} {rs : List Unit} (h : Inv env todo s)
    (halong : Along (step env) (Sound env) s ops) (hrun : run (step env) s ops = some (rs, s')) :
    Inv env todo s' := by
  have hkeep : ∀ s op, Inv env todo s → Sound env s op →
      ∃ r s', step env s op = some (r, s') ∧ Inv env todo s' := fun s op h => h.of_step op
  obtain ⟨rs', s1, hrun', hinv⟩ := Runs.run_invariant hkeep h halong
  cases hrun.symm.trans hrun'
  exact hinv

end Sys

end Bpftime.Cuda
