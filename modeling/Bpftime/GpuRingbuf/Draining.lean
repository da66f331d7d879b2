import Bpftime.GpuRingbuf.Delivery

/-!
# Which rings are drained

`drain_data` visits the rings in order and returns at the first one whose thread is in the middle of
a write.
-/

namespace Bpftime.GpuRingbuf

open SharedMemory Option Function
open Bytes (toLe ofLe)
open Runs (run Along)

namespace Sys

variable {n : ℕ} {c : Config} {s : Sys n} {i j : Fin n} {todo : Fin n → List (List UInt8)}

def hostRun (c : Config) (k : ℕ) (s : Sys n) : Sys n := (hostStep c)^[k] s

/-- The host, when it runs alone, gives the next record of a thread to the callback. -/
def Drained (c : Config) (s : Sys n) (i : Fin n) : Prop :=
  ∃ k data, (s.threads i).stored[(s.receivedFrom i).length]? = some data ∧
    (s.hostRun c k).receivedFrom i = s.receivedFrom i ++ [data]

lemma hostStep_threads (c : Config) (s : Sys n) : (s.hostStep c).threads = s.threads := by
  unfold hostStep
  split <;> (try split_ifs) <;> rfl

/-- The host, when it runs alone, leaves a ring and comes to the next one. -/
def Leaves (c : Config) (i : Fin n) (new : ℕ) (s : Sys n) : Prop :=
  ∃ k, (s.hostRun c k).host = .loop (i + 1) ∧ (s.hostRun c k).threads = s.threads ∧
    (∀ j, j ≠ i → (s.hostRun c k).receivedFrom j = s.receivedFrom j) ∧
    ((s.hostRun c k).receivedFrom i).length = (s.receivedFrom i).length + new

section Leave

variable {new : ℕ}

lemma Leaves.of_hostStep (hreceived : (s.hostStep c).received = s.received)
    (h : Leaves c i new (s.hostStep c)) : Leaves c i new s := by
  obtain ⟨k, hhost, hthreads, hothers, hnew⟩ := h
  have hfrom : ∀ j, (s.hostStep c).receivedFrom j = s.receivedFrom j := fun j => by
    unfold receivedFrom
    rw [hreceived]
  refine ⟨k + 1, hhost, hthreads.trans (hostStep_threads c s), fun j hj => ?_, ?_⟩
  · rw [← hfrom j]
    exact hothers j hj
  · rw [← hfrom i]
    exact hnew

lemma leaves_callback {a left : ℕ} {bytes : List UInt8}
    (hhost : s.host = .ring i (.callback a left bytes)) : Leaves c i 1 s := by
  induction left generalizing s a bytes with
  | zero =>
    refine ⟨1, ?_, hostStep_threads c s, fun j hj => ?_, ?_⟩
    · simp [hostRun, hostStep, hhost]
    · simp [hostRun, hostStep, hhost, receivedFrom, Ne.symm hj]
    · simp [hostRun, hostStep, hhost, receivedFrom]
  | succ left ih =>
    have hstep : s.hostStep c = { s with host := .ring i (.callback (a + 1) left (bytes ++ [s.mem a])) } := by
      simp [hostStep, hhost]
    exact Leaves.of_hostStep (by rw [hstep]) (ih (by rw [hstep]))

lemma leaves_loadSize {buffer_start : ℕ} (hhost : s.host = .ring i (.loadSize buffer_start)) :
    Leaves c i 1 s := by
  have hstep : s.hostStep c = { s with
      host := .ring i (.callback (buffer_start + 8) (ofLe (load s.mem buffer_start 8)) []) } := by
    simp [hostStep, hhost]
  exact Leaves.of_hostStep (by rw [hstep]) (leaves_callback (by rw [hstep]))

lemma leaves_addHead {real_head : ℕ} (hhost : s.host = .ring i (.addHead real_head)) : Leaves c i 1 s := by
  have hstep : s.hostStep c = { s with
      mem := store s.mem (c.header i) (toLe 8 (loadHead c s.mem i + 1))
      host := .ring i (.loadSize (c.slot i real_head)) } := by simp [hostStep, hhost]
  exact Leaves.of_hostStep (by rw [hstep]) (leaves_loadSize (by rw [hstep]))

lemma leaves_loadRealHead (hhost : s.host = .ring i .loadRealHead) : Leaves c i 1 s := by
  have hstep : s.hostStep c = { s with
      host := .ring i (.addHead (loadHead c s.mem i % c.max_entries)) } := by simp [hostStep, hhost]
  exact Leaves.of_hostStep (by rw [hstep]) (leaves_addHead (by rw [hstep]))

lemma leaves_loadTail (hhost : s.host = .ring i (.loadTail (loadHead c s.mem i))) :
    Leaves c i (if loadHead c s.mem i = loadTail c s.mem i then 0 else 1) s := by
  split_ifs with heq
  · refine ⟨1, ?_, hostStep_threads c s, fun j hj => ?_, ?_⟩ <;> simp [hostRun, hostStep, hhost, heq, receivedFrom]
  · have hstep : s.hostStep c = { s with host := .ring i .loadRealHead } := by simp [hostStep, hhost, heq]
    exact Leaves.of_hostStep (by rw [hstep]) (leaves_loadRealHead (by rw [hstep]))

lemma leaves_checkDirty (hhost : s.host = .ring i .checkDirty) (hdirty : loadDirty c s.mem i = 0) :
    Leaves c i (if loadHead c s.mem i = loadTail c s.mem i then 0 else 1) s := by
  have hstep : s.hostStep c = { s with host := .ring i .loadHead } := by simp [hostStep, hhost, hdirty]
  have hstep' : (s.hostStep c).hostStep c = { s with host := .ring i (.loadTail (loadHead c s.mem i)) } := by
    rw [hstep]
    rfl
  refine Leaves.of_hostStep (by rw [hstep]) (Leaves.of_hostStep (by rw [hstep', hstep]) ?_)
  rw [hstep']
  exact leaves_loadTail rfl

end Leave

lemma Inv.hostRun (hc : c.Sane) (h : Inv c todo s) (k : ℕ) : Inv c todo (s.hostRun c k) := by
  induction k with
  | zero => exact h
  | succ k ih =>
    unfold Sys.hostRun at ih ⊢
    rw [iterate_succ_apply']
    exact ih.hostStep hc

lemma hostRun_add (k k' : ℕ) : s.hostRun c (k + k') = (s.hostRun c k).hostRun c k' := by
  unfold hostRun
  rw [Nat.add_comm, iterate_add_apply]

lemma Inv.loadDirty_eq_zero (h : Inv c todo s) (hclean : (s.threads i).pc.dirty = false) :
    loadDirty c s.mem i = 0 := by
  have hdirty := (h.ring i).dirty
  rw [hclean] at hdirty
  exact hdirty

lemma Inv.reaches (hc : c.Sane) (h : Inv c todo s) (hidle : s.host = .idle) {m : ℕ} (hm : m ≤ n)
    (hclean : ∀ j : Fin n, j < m → (s.threads j).pc.dirty = false) :
    ∃ k, (s.hostRun c k).host = .loop m ∧ (s.hostRun c k).threads = s.threads ∧
    ∀ j : Fin n, m ≤ j → (s.hostRun c k).receivedFrom j = s.receivedFrom j := by
  induction m with
  | zero =>
    refine ⟨1, ?_, hostStep_threads c s, fun j _ => ?_⟩
    · simp [Sys.hostRun, Sys.hostStep, hidle]
    · simp [Sys.hostRun, Sys.hostStep, hidle, receivedFrom]
  | succ m ih =>
    obtain ⟨k, hhost, hthreads, hreceived⟩ := ih (by omega) fun j hj => hclean j (by omega)
    have hinv := h.hostRun hc k
    have hring : (s.hostRun c k).host = .ring ⟨m, hm⟩ .checkDirty := by
      rw [hhost, HostPc.loop, dif_pos (show m < n from hm)]
    have hdirty := hinv.loadDirty_eq_zero (i := ⟨m, hm⟩) (by
      rw [hthreads]
      exact hclean ⟨m, hm⟩ (Nat.lt_succ_self m))
    obtain ⟨k', hhost', hthreads', hothers, -⟩ := leaves_checkDirty hring hdirty
    refine ⟨k + k', ?_, ?_, fun j hj => ?_⟩
    · rw [hostRun_add]
      exact hhost'
    · rw [hostRun_add]
      exact hthreads'.trans hthreads
    · rw [hostRun_add, hothers j (by rintro rfl; exact Nat.not_succ_le_self m hj)]
      exact hreceived j (by omega)

lemma eq_append_of_prefix {l l' stored : List (List UInt8)} {data : List UInt8} (hl : l <+: stored)
    (hl' : l' <+: stored) (hlen : l'.length = l.length + 1)
    (hdata : stored[l.length]? = some data) : l' = l ++ [data] := by
  rw [List.prefix_iff_eq_take.mp hl', hlen, List.take_add_one, ← List.prefix_iff_eq_take.mp hl, hdata]
  rfl

lemma Inv.drained (hc : c.Sane) (h : Inv c todo s) (hidle : s.host = .idle)
    (hclean : ∀ j ≤ i, (s.threads j).pc.dirty = false)
    (hnext : s.receivedFrom i ≠ (s.threads i).stored) : Drained c s i := by
  have hlt : (s.receivedFrom i).length < (s.threads i).stored.length :=
    lt_of_le_of_ne (h.ring i).delivered.length_le fun heq => hnext ((h.ring i).delivered.eq_of_length heq)
  obtain ⟨k, hhost, hthreads, hreceived⟩ := h.reaches hc hidle (m := i) (le_of_lt i.isLt)
    fun j hj => hclean j (le_of_lt hj)
  have hinv := h.hostRun hc k
  have hring : (s.hostRun c k).host = .ring i .checkDirty := by rw [hhost, HostPc.loop, dif_pos i.isLt]
  have hclean' : ((s.hostRun c k).threads i).pc.dirty = false := by
    rw [hthreads]
    exact hclean i le_rfl
  obtain ⟨k', -, hthreads', -, hnew⟩ := leaves_checkDirty hring (hinv.loadDirty_eq_zero hclean')
  -- The ring is not empty.
  have hne : loadHead c (s.hostRun c k).mem i ≠ loadTail c (s.hostRun c k).mem i := by
    have hhead := (hinv.ring i).head
    have htail := (hinv.ring i).tail
    have hwrites : ((s.hostRun c k).threads i).pc.writes = false := by
      cases hpc : ((s.hostRun c k).threads i).pc <;> simp [hpc, DevPc.dirty, DevPc.writes] at hclean' ⊢
    rw [hring, stageOf_ring, hreceived i le_rfl] at hhead
    rw [hwrites, hthreads] at htail
    simp only [any_some, Stage.reads, Bool.false_eq_true, if_false] at hhead htail
    intro heq
    have : (ringOf c (s.hostRun c k).mem i).head = (ringOf c (s.hostRun c k).mem i).tail := heq
    omega
  rw [if_neg hne, hreceived i le_rfl] at hnew
  refine ⟨k + k', (s.threads i).stored[(s.receivedFrom i).length], List.getElem?_eq_getElem hlt, ?_⟩
  have hinv' := h.hostRun hc (k + k')
  have hprefix := (hinv'.ring i).delivered
  rw [hostRun_add] at hprefix ⊢
  rw [hthreads', hthreads] at hprefix
  exact eq_append_of_prefix (h.ring i).delivered hprefix hnew (List.getElem?_eq_getElem hlt)

/-! ## A ring behind one that is being written -/

def Before (j : Fin n) : HostPc n → Prop
  | .idle => True
  | .ring i st => i < j ∨ i = j ∧ st = .checkDirty

lemma before_loop {k : ℕ} (hk : k ≤ j) : Before j (.loop k) := by
  unfold HostPc.loop
  split_ifs with hlt
  · rcases Nat.lt_or_eq_of_le hk with hlt' | rfl
    · exact Or.inl hlt'
    · exact Or.inr ⟨rfl, rfl⟩
  · trivial

lemma Before.hostStep (h : Before j s.host) (hdirty : loadDirty c s.mem j ≠ 0) (hij : j < i) :
    Before j (s.hostStep c).host ∧ loadDirty c (s.hostStep c).mem j ≠ 0 ∧
    (s.hostStep c).receivedFrom i = s.receivedFrom i := by
  unfold Sys.hostStep
  cases hhost : s.host with
  | idle => exact ⟨before_loop (Nat.zero_le _), hdirty, rfl⟩
  | ring l st =>
    rw [hhost] at h
    rcases h with hlt | ⟨rfl, rfl⟩
    · cases st with
      | checkDirty =>
        dsimp only
        split_ifs
        · exact ⟨trivial, hdirty, rfl⟩
        · exact ⟨Or.inl hlt, hdirty, rfl⟩
      | loadTail head =>
        dsimp only
        split_ifs
        · exact ⟨Or.inl hlt, hdirty, rfl⟩
        · exact ⟨before_loop hlt, hdirty, rfl⟩
      | addHead real_head =>
        -- The head is that of another ring.
        have hother := ringOf_store_header_of_ne (c := c) (m := s.mem) (o := 0) (i := l)
          (show 0 + (toLe 8 (loadHead c s.mem l + 1)).length ≤ 24 by simp) j hlt.ne'
        rw [Nat.add_zero] at hother
        have hsame : loadDirty c (store s.mem (c.header l) (toLe 8 (loadHead c s.mem l + 1))) j =
            loadDirty c s.mem j := congrArg Ring.dirty hother
        exact ⟨Or.inl hlt, by rw [hsame]; exact hdirty, rfl⟩
      | callback a left bytes =>
        cases left with
        | succ left => exact ⟨Or.inl hlt, hdirty, rfl⟩
        | zero =>
          refine ⟨before_loop hlt, hdirty, ?_⟩
          simp [receivedFrom, (hlt.trans hij).ne]
      | loadHead | loadRealHead | loadSize _ => exact ⟨Or.inl hlt, hdirty, rfl⟩
    · dsimp only
      rw [if_pos hdirty]
      exact ⟨trivial, hdirty, rfl⟩

lemma receivedFrom_hostRun (hidle : s.host = .idle) (hdirty : loadDirty c s.mem j ≠ 0) (hij : j < i)
    (k : ℕ) : (s.hostRun c k).receivedFrom i = s.receivedFrom i := by
  have hkeep : Before j (s.hostRun c k).host ∧ loadDirty c (s.hostRun c k).mem j ≠ 0 ∧
      (s.hostRun c k).receivedFrom i = s.receivedFrom i := by
    induction k with
    | zero => exact ⟨by rw [show (s.hostRun c 0).host = .idle from hidle]; trivial, hdirty, rfl⟩
    | succ k ih =>
      obtain ⟨hbefore, hdirty', hreceived⟩ := ih
      unfold hostRun at hbefore hdirty' hreceived ⊢
      rw [iterate_succ_apply']
      obtain ⟨h1, h2, h3⟩ := hbefore.hostStep hdirty' hij
      exact ⟨h1, h2, h3.trans hreceived⟩
  exact hkeep.2.2

lemma Inv.drained_iff (hc : c.Sane) (h : Inv c todo s) (hidle : s.host = .idle)
    (hclean : (s.threads i).pc.dirty = false) (hnext : s.receivedFrom i ≠ (s.threads i).stored) :
    Drained c s i ↔ ∀ j < i, (s.threads j).pc.dirty = false := by
  constructor
  · rintro ⟨k, data, -, hk⟩ j hj
    by_contra hdirty
    rw [Bool.not_eq_false] at hdirty
    have hdirty' := (h.ring j).dirty
    rw [hdirty] at hdirty'
    have hone : loadDirty c s.mem j = 1 := hdirty'
    rw [receivedFrom_hostRun hidle (by rw [hone]; decide) hj] at hk
    simp at hk
  · intro hbefore
    refine h.drained hc hidle (fun j hj => ?_) hnext
    rcases lt_or_eq_of_le hj with hlt | rfl
    · exact hbefore j hlt
    · exact hclean

/-- As long as the steps are as they should be, the host receives from each thread the records that
the thread stored, in their order, once each and as they were given, and no slot of a record to be
received is overwritten. Of a thread that is not writing, the next record is drained exactly if no
thread in front of it is in the middle of a write. -/
theorem received_right (hc : c.Sane) (todo : Fin n → List (List UInt8)) (ops : List (Op n))
    (hops : Along (step c) (Sound c) (init todo) ops) :
    ∃ rs s, run (step c) (init todo) ops = some (rs, s) ∧ Right c todo s ∧
      (s.host = .idle → ∀ i, (s.threads i).pc.dirty = false → s.receivedFrom i ≠ (s.threads i).stored →
        (Drained c s i ↔ ∀ j < i, (s.threads j).pc.dirty = false)) := by
  have hkeep : ∀ s op, Inv c todo s → Sound c s op →
      ∃ r s', step c s op = some (r, s') ∧ Inv c todo s' := fun s op h => h.of_step hc op
  obtain ⟨rs, s, hrun, hinv⟩ := Runs.run_invariant hkeep (inv_init c todo) hops
  exact ⟨rs, s, hrun, hinv.right, fun hidle i => hinv.drained_iff hc hidle⟩

/-- Two threads put a record each, and the host drains both. -/
def twoRecords : List (Op 2) := List.replicate 8 (.dev 0) ++ List.replicate 9
    (.dev 1) ++ List.replicate 18 .host

theorem received_right_two_records :
    Config.Sane ⟨8, 1⟩ ∧ Along (step ⟨8, 1⟩) (Sound ⟨8, 1⟩) (init ![[[7]], [[5, 6]]]) twoRecords ∧
      ∃ rs s, run (step ⟨8, 1⟩) (init ![[[7]], [[5, 6]]]) twoRecords = some (rs, s) ∧
        Right ⟨8, 1⟩ ![[[7]], [[5, 6]]] s ∧ s.received = [(0, [7]), (1, [5, 6])] := by
  have hc : Config.Sane ⟨8, 1⟩ := ⟨by decide, by decide, by decide⟩
  have halong : Along (step ⟨8, 1⟩) (Sound ⟨8, 1⟩) (init ![[[7]], [[5, 6]]]) twoRecords := by decide +kernel
  obtain ⟨rs, s, hrun, hright, -⟩ := received_right hc _ twoRecords halong
  have hreceived : (run (step ⟨8, 1⟩) (init ![[[7]], [[5, 6]]]) twoRecords).map
      (fun p => p.2.received) = some [(0, [7]), (1, [5, 6])] := by decide +kernel
  rw [hrun] at hreceived
  exact ⟨hc, halong, rs, s, hrun, hright, some.inj hreceived⟩

def halfWritten : List (Op 2) := List.replicate 8 (.dev 1) ++ List.replicate 4 (.dev 0)

/-- The host looks at `dirty`, then the thread sets it and moves the tail, and the host goes on. -/
def tooEarly : List (Op 1) := List.replicate 3 .host ++ List.replicate 5 (.dev 0) ++ List.replicate 5 .host

def tooLong : List (Op 1) := List.replicate 26 (.dev 0) ++ List.replicate 19 .host

/-- A record that is longer than a slot, and one behind it. -/
def longRecords : List (List UInt8) := [[1, 2, 3, 4, 5, 6, 7, 8, 9, 10, 11], [9]]

lemma not_right_of_lists {c : Config} {records : List (List UInt8)} {ops : List (Op 1)}
    {received stored : List (List UInt8)} (hlists : (run (step c) (init fun _ => records) ops).map (fun p =>
      (p.2.receivedFrom 0, (p.2.threads 0).stored)) = some (received, stored)) (hne : ¬received <+: stored) :
    ∃ rs s, run (step c) (init fun _ => records) ops = some (rs, s) ∧ s.receivedFrom 0 = received ∧
      (s.threads 0).stored = stored ∧ ¬ Right c (fun _ => records) s := by
  obtain ⟨⟨rs, s⟩, hrun, heq⟩ := map_eq_some_iff.mp hlists
  obtain ⟨rfl, rfl⟩ := Prod.mk.inj heq
  exact ⟨rs, s, hrun, rfl, rfl, fun hright => hne (hright.received 0)⟩

/-- The record of a thread is not drained while a thread in front of it writes; a record is received
that is still being written; and a record that is too long for its slot is received with the bytes
of the next one. -/
theorem not_received_right :
    (∃ rs s, run (step ⟨8, 1⟩) (init fun _ => [[7]]) halfWritten = some (rs, s) ∧ s.host = .idle ∧
      (s.threads 1).pc.dirty = false ∧ (s.threads 1).stored = [[7]] ∧ ∀ k, (s.hostRun ⟨8, 1⟩ k).receivedFrom 1 = []) ∧
    (∃ rs s, run (step ⟨8, 1⟩) (init fun _ => [[7]]) tooEarly = some (rs, s) ∧
      s.receivedFrom 0 = [[]] ∧ (s.threads 0).stored = [] ∧ ¬ Right ⟨8, 1⟩ (fun _ => [[7]]) s) ∧
    ∃ rs s, run (step ⟨8, 2⟩) (init fun _ => longRecords) tooLong = some (rs, s) ∧
      s.receivedFrom 0 = [[1, 2, 3, 4, 5, 6, 7, 8, 1, 0, 0]] ∧ (s.threads 0).stored = longRecords ∧
      ¬ Right ⟨8, 2⟩ (fun _ => longRecords) s := by
  refine ⟨?_, not_right_of_lists (by decide +kernel) (by decide),
    not_right_of_lists (by decide +kernel) (by decide)⟩
  have hlists : (run (step ⟨8, 1⟩) (init fun _ => [[7]]) halfWritten).map (fun p =>
      ((p.2.threads 1).stored, p.2.receivedFrom 1)) = some ([[7]], []) := by decide +kernel
  have hflags : (run (step ⟨8, 1⟩) (init fun _ => [[7]]) halfWritten).map (fun p =>
      (p.2.host, (p.2.threads 1).pc.dirty, loadDirty ⟨8, 1⟩ p.2.mem 0)) = some (.idle, false, 1) := by
    decide +kernel
  obtain ⟨⟨rs, s⟩, hrun, heq⟩ := map_eq_some_iff.mp hlists
  rw [hrun, map_some, some_inj] at hflags
  simp only [Prod.mk.injEq] at heq hflags
  obtain ⟨hstored, hreceived⟩ := heq
  obtain ⟨hidle, hclean, hdirty⟩ := hflags
  refine ⟨rs, s, hrun, hidle, hclean, hstored, fun k => ?_⟩
  have hdirty' : loadDirty ⟨8, 1⟩ s.mem (0 : Fin 2) ≠ 0 := by
    rw [show ((0 : Fin 2) : ℕ) = 0 from rfl, hdirty]
    decide
  rw [receivedFrom_hostRun hidle hdirty' (by decide), hreceived]

end Sys

end Bpftime.GpuRingbuf
