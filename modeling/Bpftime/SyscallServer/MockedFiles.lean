import Bpftime.Lib.Runs
import Bpftime.SyscallServer.Model

/-!
# Reads of mocked files

A mocked file has its contents and a cursor, which is where the next read starts.
-/

namespace Bpftime.SyscallServer

open List Option
open Runs (run)

/-- A file whose positions are all an `int`, with the cursor at one of them. -/
def MockedFile.Small (file : MockedFile) : Prop :=
  file.buf.length < 2^31 ∧ ∃ k ≤ file.buf.length, file.cursor = .ofInt k

/-- The calls are mocked, and no mocked file is too long for its cursor. -/
structure Mocks (w : World) : Prop where
  enable_mock : w.enable_mock = true
  initializing_cuda : w.initializing_cuda = false
  enable_mock_after_initialized : w.enable_mock_after_initialized = true
  small : ∀ fd file, w.mocked_files.lookup fd = some file → file.Small

/-- The bytes that `handle_read` copies to the buffer of its caller. -/
def copied (w : World) (fd : ℤ) (count : ℕ) : List Char :=
  (((w.mocked_files.lookup fd).bind (·.read count)).map Prod.fst).getD []

/-- A read of a descriptor to a buffer, up to a count: what it returns and the bytes that it
copies. -/
def readStep (env : Env) (orig : Results) (w : World) (c : ℤ × ℕ × ℕ) : Option ((ℤ × List Char) × World) :=
  (handleRead env orig c.1 c.2.1 c.2.2 w).map fun p => ((p.1, copied w c.1 c.2.2), p.2)

/-- The bytes that the reads of a descriptor copied, one read after the other. -/
def gathered (fd : ℤ) : List (ℤ × ℕ × ℕ) → List (ℤ × List Char) → List Char
  | c :: cs, r :: rs => if c.1 = fd then r.2 ++ gathered fd cs rs else gathered fd cs rs
  | _, _ => []

lemma lookup_replace (s : AList fun _ : ℤ => MockedFile) (a a' : ℤ) (b : MockedFile) :
    (s.replace a' b).lookup a = if a = a' then (s.lookup a).map fun _ => b else s.lookup a := by
  have hentries : ∀ l : List (Sigma fun _ : ℤ => MockedFile), (l.kreplace a' b).dlookup a =
      if a = a' then (l.dlookup a).map fun _ => b else l.dlookup a := by
    intro l
    induction l with
    | nil => simp [kreplace]
    | cons e l ih =>
      obtain ⟨k, v⟩ := e
      by_cases hk : a' = k
      · subst hk
        rw [kreplace, lookmap_cons_some _ _ (dif_pos rfl)]
        by_cases ha : a = a'
        · subst ha
          simp
        · rw [if_neg ha]
          exact (dlookup_cons_ne l ⟨a', b⟩ ha).trans (dlookup_cons_ne l ⟨a', v⟩ ha).symm
      · rw [kreplace, lookmap_cons_none _ _ (dif_neg hk)]
        by_cases ha : a = k
        · subst ha
          simp [Ne.symm hk]
        · have hcons : ∀ l', dlookup a ((⟨k, v⟩ : Sigma fun _ : ℤ => MockedFile) :: l') = dlookup a l' :=
            fun l' => dlookup_cons_ne l' _ ha
          rw [hcons, hcons]
          exact ih
  exact hentries s.entries

/-- A read copies what follows the cursor, and moves it behind that. -/
lemma MockedFile.read_eq {contents : String} {k : ℕ} (hlen : contents.length < 2^31)
    (hk : k ≤ contents.length) (count : ℕ) : MockedFile.read ⟨.ofInt k, contents⟩ count =
    some ((contents.toList.drop k).take count,
      ⟨.ofInt ((k + min count (contents.length - k) : ℕ) : ℤ), contents⟩) := by
  have hcursor : ((Int32.ofInt k).toInt % 2^64).toNat = k := by
    rw [Int32.toInt_ofInt_of_le (by omega) (by omega)]
    omega
  have hsub : sub64 contents.length k = contents.length - k := sub64_of_le (by omega) hk
  have hleft : (contents.toList.drop k).length = contents.length - k := by
    rw [length_drop, String.length_toList]
  have htake : (contents.toList.drop k).take (min count (contents.length - k)) =
      (contents.toList.drop k).take count := by
    rw [← take_take, take_of_length_le hleft.le]
  unfold MockedFile.read
  simp only [hcursor, hsub]
  split_ifs with hzero hin
  · rw [← htake, hzero, Nat.add_zero, take_zero]
  · rw [htake]
    push_cast
    rfl
  · omega

variable (env : Env) (orig : Results) {w : World} {fd : ℤ} {contents : String} {k : ℕ}

/-- A read of a mocked file, which is the caller's first mocked call or not. -/
lemma readStep_mocked {file : MockedFile} (hmock : w.enable_mock = true)
    (hcuda : w.initializing_cuda = false) (hafter : w.enable_mock_after_initialized = true)
    (hfile : w.mocked_files.lookup fd = some file) (buf count : ℕ) :
    readStep env orig w (fd, buf, count) = (file.read count).map fun p => ((Int.ofNat p.1.length, p.1),
      { tryStartup env w with mocked_files := w.mocked_files.replace fd p.2 }) := by
  unfold readStep handleRead copied
  simp only [hmock, hcuda, hafter, Bool.not_true, Bool.or_self, Bool.false_eq_true, if_false,
    tryStartup, hfile,
    bind_some]
  cases file.read count <;> rfl

/-- A read of a small file succeeds, and leaves every file small. -/
lemma readStep_small {file : MockedFile} (hw : Mocks w) (hfile : w.mocked_files.lookup fd = some file)
    (hsmall : file.buf.length < 2^31) (hk : k ≤ file.buf.length) (hcursor : file.cursor = .ofInt k)
    (buf count : ℕ) :
    ∃ w', readStep env orig w (fd, buf, count) = some ((((min count (file.buf.length - k) : ℕ) : ℤ),
      (file.buf.toList.drop k).take count), w') ∧ Mocks w' ∧ w'.mocked_files = w.mocked_files.replace fd
        ⟨.ofInt ((k + min count (file.buf.length - k) : ℕ) : ℤ), file.buf⟩ := by
  obtain ⟨cursor, contents⟩ := file
  dsimp only at *
  subst hcursor
  rw [readStep_mocked env orig hw.1 hw.2 hw.3 hfile, MockedFile.read_eq hsmall hk]
  let file' : MockedFile := ⟨.ofInt ((k + min count (contents.length - k) : ℕ) : ℤ), contents⟩
  refine ⟨{ tryStartup env w with mocked_files := w.mocked_files.replace fd file' }, ?_,
    ⟨rfl, hw.2, hw.3, fun fd' file' hfile' => ?_⟩, rfl⟩
  · rw [map_some, length_take, length_drop, String.length_toList]
    rfl
  · rw [lookup_replace] at hfile'
    split_ifs at hfile' with hfd
    · obtain ⟨_, _, rfl⟩ := map_eq_some_iff.mp hfile'
      exact ⟨hsmall, _, (show k + min count (contents.length - k) ≤ contents.length by omega), rfl⟩
    · exact hw.small fd' file' hfile'

section

variable (hw : Mocks w) (hk : k ≤ contents.length)
  (hfile : w.mocked_files.lookup fd = some ⟨.ofInt k, contents⟩)
include hw hk hfile

lemma readStep_spec (c : ℤ × ℕ × ℕ) : ∃ r w', readStep env orig w c = some (r, w') ∧ Mocks w' ∧
    if c.1 = fd then r = (((min c.2.2 (contents.length - k) : ℕ) : ℤ), (contents.toList.drop k).take c.2.2) ∧
    w'.mocked_files.lookup fd =
      some ⟨.ofInt ((k + min c.2.2 (contents.length - k) : ℕ) : ℤ), contents⟩
    else w'.mocked_files.lookup fd = some ⟨.ofInt k, contents⟩ := by
  obtain ⟨fd', buf, count⟩ := c
  by_cases hfd : fd' = fd
  · subst hfd
    obtain ⟨w', hstep, hw', hfiles⟩ := readStep_small env orig hw hfile (hw.small fd' _ hfile).1 hk rfl buf count
    refine ⟨_, w', hstep, hw', ?_⟩
    rw [if_pos rfl, hfiles, lookup_replace, if_pos rfl, hfile]
    exact ⟨rfl, rfl⟩
  · simp only [if_neg hfd]
    cases hother : w.mocked_files.lookup fd' with
    | none =>
      unfold readStep handleRead
      simp only [hw.1, hw.2, hw.3, Bool.not_true, Bool.or_self, Bool.false_eq_true, if_false,
        tryStartup, hother]
      exact ⟨_, _, rfl, ⟨rfl, rfl, rfl, hw.small⟩, hfile⟩
    | some file =>
      -- The cursor of another file moves.
      obtain ⟨hlen, j, hj, hcursor⟩ := hw.small fd' file hother
      obtain ⟨w', hstep, hw', hfiles⟩ := readStep_small env orig hw hother hlen hj hcursor buf count
      refine ⟨_, w', hstep, hw', ?_⟩
      rw [hfiles, lookup_replace, if_neg (Ne.symm hfd), hfile]

lemma gathered_of_run (calls : List (ℤ × ℕ × ℕ)) :
    ∃ rs w', run (readStep env orig) w calls = some (rs, w') ∧ Mocks w' ∧
    gathered fd calls rs <+: contents.toList.drop k ∧
    w'.mocked_files.lookup fd =
      some ⟨.ofInt ((k + (gathered fd calls rs).length : ℕ) : ℤ), contents⟩ := by
  -- The cursor is behind the bytes that the reads of the file have gathered.
  induction calls generalizing w k with
  | nil => exact ⟨[], w, rfl, hw, nil_prefix, hfile⟩
  | cons c calls ih =>
    obtain ⟨r, w1, hstep, hw1, hread⟩ := readStep_spec env orig hw hk hfile c
    by_cases hfd : c.1 = fd
    · rw [if_pos hfd] at hread
      obtain ⟨hr, hfile1⟩ := hread
      obtain ⟨rs, w', hrun, hw', hprefix, hfile'⟩ := ih hw1 (by omega) hfile1
      have hlen : r.2.length = min c.2.2 (contents.length - k) := by
        rw [hr, length_take, length_drop, String.length_toList]
      refine ⟨r :: rs, w', by rw [Runs.run_cons hstep, hrun, map_some], hw', ?_, ?_⟩
      · rw [gathered, if_pos hfd]
        have hsplit := prefix_iff_eq_append.mp (show r.2 <+: contents.toList.drop k by rw [hr]; exact take_prefix _ _)
        rw [drop_drop, hlen] at hsplit
        rw [← hsplit]
        exact (prefix_append_right_inj _).mpr hprefix
      · rw [gathered, if_pos hfd, hfile', length_append, hlen, Nat.add_assoc]
    · rw [if_neg hfd] at hread
      obtain ⟨rs, w', hrun, hw', hprefix, hfile'⟩ := ih hw1 hk hread
      refine ⟨r :: rs, w', by rw [Runs.run_cons hstep, hrun, map_some], hw', ?_, ?_⟩
      · rw [gathered, if_neg hfd]
        exact hprefix
      · rw [gathered, if_neg hfd]
        exact hfile'

end

/-- After any reads, of this file and others, the bytes that those of the file gave are the start of
its contents. The next one gives what follows, as much as is asked for and left. -/
theorem reads_concatenate (env : Env) (orig : Results) {w : World} {fd : ℤ} {contents : String}
    (hw : Mocks w)
    (hfile : w.mocked_files.lookup fd = some ⟨0, contents⟩) (calls : List (ℤ × ℕ × ℕ)) :
    ∃ rs w', run (readStep env orig) w calls = some (rs, w') ∧
      gathered fd calls rs <+: contents.toList ∧ ∀ buf count, ∃ w'',
        let left := contents.toList.drop (gathered fd calls rs).length
        readStep env orig w' (fd, buf, count) =
        some ((((min count left.length : ℕ) : ℤ), left.take count), w'') := by
  obtain ⟨rs, w', hrun, hw', hgot, hfile'⟩ :=
    gathered_of_run env orig (k := 0) hw (Nat.zero_le _) hfile calls
  refine ⟨rs, w', hrun, hgot, fun buf count => ?_⟩
  rw [Nat.zero_add] at hfile'
  obtain ⟨r, w'', hstep, -, hread⟩ := readStep_spec env orig hw'
    (hgot.length_le.trans_eq String.length_toList) hfile' (fd, buf, count)
  rw [if_pos rfl] at hread
  refine ⟨w'', ?_⟩
  rw [hstep, hread.1]
  dsimp only
  rw [length_drop, String.length_toList]

/-- Two mocked files. -/
def twoFiles : World := { World.new false with mocked_files := (AList.singleton 5 ⟨0, "9"⟩).insert 4 ⟨0, "config:0"⟩ }

lemma small_twoFiles (fd : ℤ) (file : MockedFile)
    (h : twoFiles.mocked_files.lookup fd = some file) : file.Small := by
  have hmem := AList.mem_lookup_iff.mp h
  have hentries : twoFiles.mocked_files.entries = [⟨4, ⟨0, "config:0"⟩⟩, ⟨5, ⟨0, "9"⟩⟩] := rfl
  simp only [hentries, mem_cons, not_mem_nil, or_false, Sigma.mk.injEq, heq_eq_eq] at hmem
  rcases hmem with ⟨-, rfl⟩ | ⟨-, rfl⟩ <;> exact ⟨by decide, 0, Nat.zero_le _, rfl⟩

/-- Reads by three bytes, with one of another file in between. -/
theorem reads_config : ∃ rs w', run (readStep plainEnv fun _ _ => 0) twoFiles
      [(4, 0, 3), (5, 0, 8), (4, 0, 3)] = some (rs, w') ∧
    gathered 4 [(4, 0, 3), (5, 0, 8), (4, 0, 3)] rs <+: ['c', 'o', 'n', 'f', 'i', 'g', ':', '0'] := by
  have hfile : twoFiles.mocked_files.lookup 4 = some ⟨0, "config:0"⟩ := by decide
  obtain ⟨rs, w', hrun, hprefix, -⟩ := reads_concatenate plainEnv (fun _ _ => 0)
    ⟨rfl, rfl, rfl, small_twoFiles⟩ hfile [(4, 0, 3), (5, 0, 8), (4, 0, 3)]
  exact ⟨rs, w', hrun, hprefix⟩

/-- One mocked file. -/
def oneFile (contents : String) : World :=
  { World.new false with mocked_files := .singleton 4 ⟨0, contents⟩ }

/-- Once the cursor has wrapped, the read at the end of the file copies from behind it. -/
lemma wraps_of_length (hlen : contents.length = 2^31) : ∃ rs w', run (readStep env orig) (oneFile contents)
    [(4, 0, 2^31)] = some (rs, w') ∧ readStep env orig w' (4, 0, 1) = none := by
  have hfirst : MockedFile.read ⟨0, contents⟩ (2^31) =
      some (contents.toList.take (2^31), ⟨.ofInt (2^31), contents⟩) := by
    have hcursor : ((0 : Int32).toInt % 2^64).toNat = 0 := by decide
    simp only [MockedFile.read, hcursor, drop_zero, hlen, Nat.zero_add]
    rfl
  have hnext : MockedFile.read ⟨.ofInt (2^31), contents⟩ 1 = none := by
    have hcursor : ((Int32.ofInt (2^31)).toInt % 2^64).toNat = 2^64 - 2^31 := by decide
    simp only [MockedFile.read, hcursor, hlen]
    rfl
  have hfile : (oneFile contents).mocked_files.lookup 4 = some ⟨0, contents⟩ := rfl
  have hstep : readStep env orig (oneFile contents) (4, 0, 2^31) = _ :=
    readStep_mocked env orig rfl rfl rfl hfile 0 (2^31)
  rw [hfirst, map_some] at hstep
  refine ⟨_, _, (Runs.run_cons hstep).trans rfl, ?_⟩
  have hfile' : ((oneFile contents).mocked_files.replace 4 ⟨.ofInt (2^31), contents⟩).lookup 4 =
      some ⟨.ofInt (2^31), contents⟩ := by
    rw [lookup_replace, if_pos rfl, hfile]
    rfl
  refine (readStep_mocked env orig rfl rfl rfl hfile' 0 1).trans ?_
  rw [hnext, map_none]

theorem not_reads_concatenate : ∃ rs w', run (readStep plainEnv fun _ _ => 0)
      (oneFile (.ofList (replicate (2^31) 'a'))) [(4, 0, 2^31)] = some (rs, w') ∧
    readStep plainEnv (fun _ _ => 0) w' (4, 0, 1) = none :=
  wraps_of_length _ _ (String.length_ofList.trans length_replicate)

end Bpftime.SyscallServer
