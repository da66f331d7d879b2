import Mathlib.Tactic

/-!
# `bpftime_epoll_wait`

The call looks at the files of an epoll instance in rounds.
-/

namespace Bpftime.Epoll

open List Finset

/-- What happens in each round: the milliseconds since the start, which files have data when they
are looked at, and whether `sigtimedwait` gets a signal. -/
structure Polls where
  elapsed : ℕ → ℕ
  hasData : ℕ → ℕ → Bool
  signal : ℕ → Bool

/-- A call in progress: what it returned if it did, the files reported, the signal mask and all
masks so far. -/
structure Wait where
  ret : Option ℤ
  reported : List ℕ
  mask : Finset ℕ
  masks : List (Finset ℕ)

/-- `sigprocmask`, to a mask. -/
def Wait.setMask (w : Wait) (mask : Finset ℕ) : Wait := { w with mask, masks := w.masks ++ [mask] }

def Wait.finish (w : Wait) (orig : Finset ℕ) (ret : ℤ) : Wait := { w.setMask orig with ret := some ret }

/-- `SIGINT` and `SIGTERM`. -/
def toBlock : Finset ℕ := {2, 15}

def scan (hasData : ℕ → Bool) (max_evt : ℤ) (reported files : List ℕ) : List ℕ :=
  files.foldl (fun reported i => if hasData i ∧
    reported.length < max_evt then reported ++ [i] else reported) reported

variable (p : Polls) (files : ℕ) (max_evt timeout : ℤ) (orig : Finset ℕ)

def loop : ℕ → ℕ → Wait → Wait
  | 0, _, w => w
  | fuel + 1, k, w =>
    if max_evt ≤ w.reported.length then w.finish orig w.reported.length
    -- This return leaves the signals blocked.
    else if timeout = 0 then { w with ret := some 0 }
    else if 0 < timeout ∧ timeout < p.elapsed k then w.finish orig w.reported.length
    else
      let w := { w with reported := scan (p.hasData k) max_evt w.reported (List.range files) }
      if w.reported ≠ [] then loop fuel (k + 1) w
      else
        let w := w.setMask (w.mask \ toBlock)
        -- `EINTR`.
        if p.signal k then w.finish orig (-1) else loop fuel (k + 1) (w.setMask (w.mask ∪ toBlock))

def started : Wait := ⟨none, [], orig ∪ toBlock, [orig ∪ toBlock]⟩

/-- `bpftime_epoll_wait`, up to a number of rounds. -/
def epollWait (is_epoll : Bool) (fuel : ℕ) : Wait :=
  if timeout < -1 ∨ is_epoll = false then ⟨some (-1), [], orig, []⟩
  else loop p files max_evt timeout orig fuel 0 (started orig)

/-- What the call must do: no mask unblocks what the caller blocked, and the last one is that of the
caller. -/
def MaskRight (w : Wait) : Prop := (∀ m ∈ w.masks, orig ⊆ m) ∧ (w.ret.isSome = true → w.mask = orig)

variable {p files max_evt timeout orig} {w : Wait} {k n : ℕ}

lemma subset_append {ms : List (Finset ℕ)} {m : Finset ℕ} (hms : ∀ m ∈ ms, orig ⊆ m) (hm : orig ⊆ m) :
    ∀ m' ∈ ms ++ [m], orig ⊆ m' := forall_mem_append.mpr ⟨hms, forall_mem_singleton.mpr hm⟩

lemma subset_started : ∀ m ∈ (started orig).masks, orig ⊆ m := forall_mem_singleton.mpr subset_union_left

lemma maskRight_finish (hw : ∀ m ∈ w.masks, orig ⊆ m) (ret : ℤ) : MaskRight orig (w.finish orig ret) :=
  ⟨subset_append hw (Subset.refl orig), fun _ => rfl⟩

lemma maskRight_loop (htimeout : timeout ≠ 0) (hdisj : Disjoint orig toBlock) (fuel k : ℕ)
    (hret : w.ret = none) (hmask : w.mask = orig ∪ toBlock) (hw : ∀ m ∈ w.masks, orig ⊆ m) :
    MaskRight orig (loop p files max_evt timeout orig fuel k w) := by
  induction fuel generalizing k w with
  | zero => exact ⟨hw, fun h => by rw [loop, hret] at h; cases h⟩
  | succ fuel ih =>
    -- Unblocking the two signals gives the mask of the caller, as it has neither.
    have hunblock : (orig ∪ toBlock) \ toBlock = orig := by
      rw [union_sdiff_right, sdiff_eq_self_of_disjoint hdisj]
    have hhad := subset_append hw (Subset.refl orig)
    rw [loop]
    dsimp only [Wait.setMask]
    rw [if_neg htimeout, hmask, hunblock]
    split_ifs
    · exact maskRight_finish hw _
    · exact maskRight_finish hw _
    · exact ih (k + 1) hret rfl hw
    · exact maskRight_finish hhad _
    · exact ih (k + 1) hret rfl (subset_append hhad subset_union_left)

lemma maskRight_started (p : Polls) (fuel : ℕ)
    (h : max_evt ≤ 0 ∨ timeout = 0 ∧ toBlock ⊆ orig ∨ timeout ≠ 0 ∧ Disjoint orig toBlock) :
    MaskRight orig (loop p files max_evt timeout orig fuel 0 (started orig)) := by
  cases fuel with
  | zero => exact ⟨subset_started, fun h => by cases h⟩
  | succ fuel =>
    rcases h with hmax | ⟨htimeout, hblocked⟩ | ⟨htimeout, hdisj⟩
    · rw [loop, if_pos (show max_evt ≤ (started orig).reported.length from hmax)]
      exact maskRight_finish subset_started _
    · rw [loop, if_pos htimeout]
      split_ifs
      · exact maskRight_finish subset_started _
      · -- The call returns with both signals blocked, as they were.
        exact ⟨subset_started, fun _ => union_eq_left.mpr hblocked⟩
    · exact maskRight_loop htimeout hdisj (fuel + 1) 0 rfl rfl subset_started

lemma signals_of_maskRight (hmax : ¬max_evt ≤ 0)
    (h : ∀ p fuel, MaskRight orig (loop p files max_evt timeout orig fuel 0 (started orig))) :
    timeout = 0 ∧ toBlock ⊆ orig ∨ timeout ≠ 0 ∧ Disjoint orig toBlock := by
  -- A round without data in which a signal comes shows the mask while the signals are not blocked.
  have hfirst := h ⟨fun _ => 0, fun _ _ => false, fun _ => true⟩ 1
  have hscan : scan (fun _ => false) max_evt [] (range files) = [] := by simp [scan]
  rw [loop, if_neg (show ¬max_evt ≤ (started orig).reported.length from hmax)] at hfirst
  by_cases htimeout : timeout = 0
  · rw [if_pos htimeout] at hfirst
    have hmask : orig ∪ toBlock = orig := hfirst.2 rfl
    exact .inl ⟨htimeout, union_eq_left.mp hmask⟩
  · rw [if_neg htimeout, if_neg (fun h => absurd (h.1.trans h.2) (lt_irrefl 0))] at hfirst
    simp only [started, hscan, ne_eq, not_true_eq_false, if_false, if_true] at hfirst
    have hsub := hfirst.1 ((orig ∪ toBlock) \ toBlock) (by simp [Wait.finish, Wait.setMask])
    rw [union_sdiff_right] at hsub
    exact .inr ⟨htimeout, disjoint_of_subset_left hsub sdiff_disjoint⟩

/-- Every run keeps the signals of the caller blocked and gives the mask back exactly if the loop is
not entered, the timeout is zero and both signals were blocked, or it is not and neither was. -/
theorem maskRight_iff (files : ℕ) (max_evt timeout : ℤ) (orig : Finset ℕ) (is_epoll : Bool) :
    (∀ p fuel, MaskRight orig (epollWait p files max_evt timeout orig is_epoll fuel)) ↔
      timeout < -1 ∨ is_epoll = false ∨ max_evt ≤ 0 ∨ timeout = 0 ∧ toBlock ⊆ orig ∨
        timeout ≠ 0 ∧ Disjoint orig toBlock := by
  unfold epollWait
  by_cases hguard : timeout < -1 ∨ is_epoll = false
  · refine iff_of_true (fun p fuel => ?_) (by tauto)
    rw [if_pos hguard]
    exact ⟨fun m hm => absurd hm not_mem_nil, fun _ => rfl⟩
  simp only [if_neg hguard]
  rw [← or_assoc, or_iff_right hguard]
  constructor
  · intro h
    by_cases hmax : max_evt ≤ 0
    · exact .inl hmax
    · exact .inr (signals_of_maskRight hmax h)
  · intro h p fuel
    exact maskRight_started p fuel h

/-- With a timeout of zero the two signals stay blocked. -/
theorem not_maskRight : ¬MaskRight ∅ (epollWait ⟨fun _ => 0, fun _ _ => false, fun _ =>
  false⟩ 0 1 0 ∅ true 1) := by
  intro h
  exact absurd (h.2 rfl) (by decide)

/-- The files that have data in a round. -/
def ready (p : Polls) (files k : ℕ) : List ℕ := (List.range files).filter (p.hasData k)

/-- What the call must do: it reports files that had data, each once, it returns after the first
round if a file has data then, and it returns zero when the timeout has passed if none ever has and
there is no signal. -/
structure ReportRight (p : Polls) (files : ℕ) (max_evt timeout : ℤ) (orig : Finset ℕ) : Prop where
  once : ∀ fuel, (epollWait p files max_evt timeout orig true fuel).reported.Nodup
  data : ∀ fuel, ∀ i ∈ (epollWait p files max_evt timeout orig true fuel).reported, ∃ k, i ∈ ready p files k
  prompt : ready p files 0 ≠ [] → ∃ n > 0, (epollWait p files max_evt timeout orig true 2).ret = some n
  elapsed : (∀ k, ready p files k = [] ∧ p.signal k = false) → ∀ k, 0 ≤ timeout → timeout <
    p.elapsed k → (epollWait p files max_evt timeout orig true (k + 1)).ret = some 0

/-- What is asked of a run: in every round no file has data or as many as can be reported, none has
at a timeout of zero, and the first round is in time. -/
structure Steady (p : Polls) (files : ℕ) (max_evt timeout : ℤ) : Prop where
  all : ∀ k, ready p files k = [] ∨ max_evt ≤ (ready p files k).length
  zero : timeout = 0 → ready p files 0 = []
  first : 0 < timeout → p.elapsed 0 ≤ timeout

lemma scan_eq (hasData : ℕ → Bool) (n : ℕ) (reported is : List ℕ) :
    scan hasData n reported is = reported ++ (is.filter hasData).take (n - reported.length) := by
  induction is generalizing reported with
  | nil => simp [scan]
  | cons i is ih =>
    unfold scan at ih ⊢
    rw [List.foldl_cons, ih, List.filter_cons]
    by_cases hi : hasData i = true
    · by_cases hlen : reported.length < n
      · obtain ⟨m, hm⟩ : ∃ m, n - reported.length = m + 1 := ⟨n - reported.length - 1, by omega⟩
        have hm' : n - (reported ++ [i]).length = m := by
          rw [length_append, length_singleton]
          omega
        rw [if_pos ⟨hi, by exact_mod_cast hlen⟩, if_pos hi, hm, hm', take_succ_cons, append_assoc]
        rfl
      · rw [if_neg (fun h => hlen (by exact_mod_cast h.2)), if_pos hi, show n - reported.length = 0 by omega]
        rfl
    · rw [if_neg (fun h => hi h.1), if_neg hi]

lemma scan_range (p : Polls) (n k : ℕ) : scan (p.hasData k) n [] (range files) =
    (ready p files k).take n := by
  rw [scan_eq, nil_append]
  rfl

lemma loop_full (h : max_evt ≤ w.reported.length) (fuel k : ℕ) :
    loop p files max_evt timeout orig (fuel + 1) k w = w.finish orig w.reported.length := by
      rw [loop, if_pos h]

lemma length_take_ready (hsteady : Steady p files n timeout)
    (hsome : (ready p files k).take n ≠ []) : ((ready p files k).take n).length = n := by
  rw [length_take, min_eq_left]
  rcases hsteady.all k with hempty | hfull
  · exact absurd (by rw [hempty, take_nil]) hsome
  · exact_mod_cast hfull

lemma loop_reported (hsteady : Steady p files n timeout) (orig : Finset ℕ) (fuel k : ℕ)
    (hw : w.reported = []) : ∃ j, (loop p files n timeout orig fuel k w).reported <+: ready p files j := by
  induction fuel generalizing k w with
  | zero => exact ⟨0, by rw [loop, hw]; exact nil_prefix⟩
  | succ fuel ih =>
    rw [loop]
    dsimp only [Wait.finish, Wait.setMask]
    rw [hw, scan_range]
    split_ifs with hmax htimeout hpassed hsome hsignal
    · exact ⟨0, nil_prefix⟩
    · exact ⟨0, nil_prefix⟩
    · exact ⟨0, nil_prefix⟩
    · -- The report is full, so that the next round ends the call.
      refine ⟨k, ?_⟩
      cases fuel with
      | zero => exact take_prefix n _
      | succ fuel =>
        rw [loop_full (by dsimp only; rw [length_take_ready hsteady hsome])]
        exact take_prefix n _
    · exact ⟨k, take_prefix n _⟩
    · exact ih (k + 1) (not_not.mp hsome)

lemma loop_round (hk : ready p files k = [] ∧ p.signal k = false) (fuel : ℕ)
    (hw : w.reported = []) : (loop p files n timeout orig (fuel + 1) k w).ret = some 0 ∨
    ¬(0 ≤ timeout ∧ timeout < p.elapsed k) ∧ ∃ w' : Wait, w'.reported = [] ∧
    loop p files n timeout orig (fuel + 1) k w = loop p files n timeout orig fuel (k + 1) w' := by
  rw [loop]
  dsimp only
  rw [hw, scan_range, hk.1, hk.2, take_nil]
  split_ifs with hmax htimeout hlate hne hsignal
  · exact .inl rfl
  · exact .inl rfl
  · exact .inl rfl
  · exact absurd rfl hne
  · exact absurd hsignal id
  · exact .inr ⟨by omega, _, by rfl, rfl⟩

lemma loop_idle (hidle : ∀ k, ready p files k = [] ∧ p.signal k = false) (fuel k : ℕ)
    (hw : w.reported = []) (hpassed : 0 ≤ timeout ∧ timeout < p.elapsed (k + fuel)) :
    (loop p files n timeout orig (fuel + 1) k w).ret = some 0 := by
  induction fuel generalizing k w with
  | zero => exact (loop_round (hidle k) 0 hw).resolve_right fun h => h.1 hpassed
  | succ fuel ih =>
    rcases loop_round (hidle k) (fuel + 1) hw with hret | ⟨-, w', hw', heq⟩
    · exact hret
    · rw [heq]
      exact ih (k + 1) hw' (by rwa [Nat.add_right_comm])

/-- In a run that is steady, the call does what it must do. -/
theorem reportRight_of_steady {p : Polls} {files : ℕ} {max_evt timeout : ℤ} (hmax : 1 ≤ max_evt)
    (htimeout : -1 ≤ timeout) (hsteady : Steady p files max_evt timeout) (orig : Finset ℕ) :
    ReportRight p files max_evt timeout orig := by
  obtain ⟨n, rfl⟩ := Int.eq_ofNat_of_zero_le (show 0 ≤ max_evt by omega)
  have hwait : ∀ fuel, epollWait p files n timeout orig true fuel =
      loop p files n timeout orig fuel 0 (started orig) := by
    intro fuel
    exact if_neg (by rintro (h | h); omega; cases h)
  refine ⟨fun fuel => ?_, fun fuel i hi => ?_, fun hready => ?_, fun hidle k hpos hpassed => ?_⟩
  · obtain ⟨j, hj⟩ := loop_reported hsteady orig fuel 0 (w := started orig) rfl
    rw [hwait]
    exact (nodup_range.filter _).sublist hj.sublist
  · rw [hwait] at hi
    obtain ⟨j, hj⟩ := loop_reported hsteady orig fuel 0 (w := started orig) rfl
    exact ⟨j, hj.subset hi⟩
  · have hsome : (ready p files 0).take n ≠ [] := by
      rw [ne_eq, take_eq_nil_iff]
      rintro (h | h)
      · omega
      · exact hready h
    have hfirst := hsteady.first
    refine ⟨n, by omega, ?_⟩
    rw [hwait, loop, if_neg (show ¬(n : ℤ) ≤ (started orig).reported.length from not_le.mpr hmax),
      if_neg (fun h => hready (hsteady.zero h)),
      if_neg (fun h => by have := hfirst h.1; omega)]
    dsimp only [started]
    rw [scan_range, if_pos hsome, loop_full (by dsimp only; rw [length_take_ready hsteady hsome])]
    exact congrArg (fun m : ℕ => some (m : ℤ)) (length_take_ready hsteady hsome)
  · rw [hwait]
    exact loop_idle hidle k 0 rfl ⟨hpos, by rwa [Nat.zero_add]⟩

/-- Two files that always have data, and two events at most. -/
theorem reportRight_both : ReportRight ⟨id, fun _ _ => true, fun _ => false⟩ 2 2 5 ∅ :=
  reportRight_of_steady (by decide) (by decide) ⟨fun _ =>
    .inr (le_refl (2 : ℤ)), by decide, fun _ => by decide⟩ ∅

/-- With room for two events the file is reported twice. -/
theorem not_reportRight_two : ¬ReportRight ⟨id, fun _ _ => true, fun _ => false⟩ 1 2 5 ∅ :=
  fun h => absurd (h.once 3) (by decide)

end Bpftime.Epoll
