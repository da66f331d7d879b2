import Bpftime.Cuda.Serving

/-!
# Who uses the shared memory

Whatever the threads store and whenever, the lock and the flags leave the members of `CommSharedMem`
to one party.
-/

namespace Bpftime.Cuda.Sys

open Function

variable {ι W : Type}

/-- What the flags and the watcher are like while the thread with the lock is somewhere. -/
def Turn (k : Comm) (host : HostPc) : DevPc → Prop
  | .idle | .storing .. => False
  | .waitFlag2 _ =>
    match host with
    | .poll => k.flag1 ≠ k.flag2
    | .clearFlag1 => k.flag2 = false
    | _ => k.flag1 = false ∧ k.flag2 = false
  | .clearFlag2 _ => k.flag1 = false ∧ k.flag2 = true ∧ host = .poll
  | _ => k.flag1 = false ∧ k.flag2 = false ∧ host = .poll

/-- The lock is with the thread that is inside, and the flags say whose turn it is. -/
structure Exclusive (s : Sys ι W) : Prop where
  occupied : s.occupy_flag = s.holder.isSome
  free : s.holder = none → s.comm.flag1 = false ∧ s.comm.flag2 = false ∧ s.host = .poll
  turn : ∀ t, s.holder = some t → Turn s.comm s.host (s.threads t).pc
  outside : ∀ t, s.holder ≠ some t → (s.threads t).pc.inside = false

variable {s : Sys ι W}

lemma Exclusive.hostStep (env : Env W) (h : Exclusive s) : Exclusive (s.hostStep env) := by
  by_cases hidle : s.host = .poll ∧ s.comm.flag1 = false
  · rw [hostStep_eq_self hidle.1 hidle.2]
    exact h
  -- The watcher goes on only while the thread with the lock waits.
  have hkeep : ∀ k host (w : W) log,
      (∀ t c, s.holder = some t → (s.threads t).pc = .waitFlag2 c → Turn k host (.waitFlag2 c)) →
      Exclusive { s with comm := k, host := host, world := w, log := log } := by
    intro k host w log hwait
    refine ⟨h.occupied, fun hnone => absurd ⟨(h.free hnone).2.2, (h.free hnone).1⟩ hidle,
      fun t ht => ?_, h.outside⟩
    have hturn := h.turn t ht
    cases hpc : (s.threads t).pc <;> rw [hpc] at hturn
    case waitFlag2 c => simpa [hpc] using hwait t c ht hpc
    all_goals simp_all [Turn]
  unfold Sys.hostStep
  split
  · have hflag : s.comm.flag1 = true := by simp_all
    rw [if_pos hflag]
    refine hkeep _ _ _ _ fun t c ht hpc => ?_
    have hturn := h.turn t ht
    simp_all [Turn]
  all_goals
    refine hkeep _ _ _ _ fun t c ht hpc => ?_
    have hturn := h.turn t ht
    simp_all [Turn]

variable [DecidableEq ι] {t : ι} {th : Thread}

lemma Exclusive.of_inside (h : Exclusive s) {s' : Sys ι W} (ht : ∀ t' ≠ t, s.holder ≠ some t')
    (hthreads : s'.threads = update s.threads t th) (hholder : s'.holder = some t)
    (hocc : s'.occupy_flag = true)
    (hturn : Turn s'.comm s'.host th.pc) : Exclusive s' := by
  refine ⟨by simp [hholder, hocc], by simp [hholder], fun t' ht' => ?_, fun t' ht' => ?_⟩
  · obtain rfl : t = t' := by simpa [hholder] using ht'
    rwa [hthreads, update_self]
  · have hne : t' ≠ t := fun heq => ht' (heq ▸ hholder)
    rw [hthreads, update_of_ne hne]
    exact h.outside t' (ht t' hne)

lemma Exclusive.of_outside (h : Exclusive s) (ht : s.holder ≠ some t) (m : SharedMemory.Memory)
    (hth : th.pc.inside = false) : Exclusive { s with req := m, threads := update s.threads t th } := by
  refine ⟨h.occupied, h.free, fun t' ht' => ?_, fun t' ht' => ?_⟩
  · have hne : t' ≠ t := fun heq => ht (heq ▸ ht')
    simpa [hne] using h.turn t' ht'
  · by_cases heq : t' = t
    · simpa [heq] using hth
    · simpa [heq] using h.outside t' ht'

lemma Exclusive.devStep (h : Exclusive s) (t : ι) : Exclusive (s.devStep t) := by
  by_cases hh : s.holder = some t
  · have ht : ∀ t' ≠ t, s.holder ≠ some t' := by simp_all [eq_comm]
    have hocc : s.occupy_flag = true := by simp [h.occupied, hh]
    have hturn := h.turn t hh
    cases hpc : (s.threads t).pc <;> rw [hpc] at hturn <;> simp only [Sys.devStep, hpc]
    case idle | storing => exact hturn.elim
    case waitFlag2 c =>
      split_ifs with hflag
      · refine h.of_inside ht rfl hh hocc ?_
        simp only [Turn, goto] at hturn ⊢
        cases hhost : s.host <;> simp_all
      · exact h
    case unlock c my_resp =>
      refine ⟨rfl, fun _ => hturn, by simp, fun t' _ => ?_⟩
      by_cases heq : t' = t
      · simp [heq, DevPc.inside]
      · simpa [heq] using h.outside t' (ht t' heq)
    all_goals
      refine h.of_inside ht rfl hh hocc ?_
      simp_all [Turn, goto]
  · have hout := h.outside t hh
    cases hpc : (s.threads t).pc <;> rw [hpc] at hout <;> simp only [Sys.devStep, hpc]
    case idle =>
      cases (s.threads t).todo with
      | nil => exact h
      | cons c todo => exact h.of_outside hh s.req rfl
    case storing c left =>
      cases left with
      | cons st left => exact h.of_outside hh _ rfl
      | nil =>
        dsimp only
        split_ifs with hocc
        · exact h
        · have hnone : s.holder = none := by simpa [h.occupied] using hocc
          exact h.of_inside (by simp [hnone]) rfl rfl rfl (h.free hnone)
    all_goals cases hout

/-- In every interleaving, whatever the threads ask for, at most one thread is between the lock and
the unlock, and the watcher is away from its poll only while that thread waits for it: no two of
them use the members of `CommSharedMem` at once. -/
theorem comm_exclusive (env : Env W) (todo : ι → List Call) (world : W) (ops : List (Op ι)) :
    ∃ rs s, Runs.run (step env) (init todo world) ops = some (rs, s) ∧
      (∀ t t', (s.threads t).pc.inside = true → (s.threads t').pc.inside = true → t = t') ∧
      (s.host ≠ .poll → ∃ t c, (s.threads t).pc = .waitFlag2 c) := by
  have hstep : ∀ s (op : Op ι), Exclusive s → True → ∃ r s', step env s op = some (r, s') ∧
      Exclusive s' := by
    rintro s (t | -) h -
    · exact ⟨(), _, rfl, h.devStep t⟩
    · exact ⟨(), _, rfl, h.hostStep env⟩
  have hinit : Exclusive (init todo world) :=
    ⟨rfl, fun _ => ⟨rfl, rfl, rfl⟩, by simp [init], fun _ _ => rfl⟩
  obtain ⟨rs, s, hrun, h⟩ := Runs.run_invariant hstep hinit
    (Runs.along_of_forall_mem fun op (_ : op ∈ ops) _ => trivial)
  refine ⟨rs, s, hrun, fun t t' ht ht' => ?_, fun hhost => ?_⟩
  · have hholder : ∀ {t}, (s.threads t).pc.inside = true → s.holder = some t := by
      intro t ht
      by_contra hne
      simp [h.outside t hne] at ht
    exact Option.some.inj ((hholder ht).symm.trans (hholder ht'))
  · cases hh : s.holder with
    | none => exact absurd (h.free hh).2.2 hhost
    | some t =>
      have hturn := h.turn t hh
      cases hpc : (s.threads t).pc <;> simp_all [Turn]
      exact ⟨t, _, hpc⟩

end Bpftime.Cuda.Sys
