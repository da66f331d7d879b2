import Bpftime.Ptx.Patcher

/-!
# The kernel that is patched

The scan for the end of a kernel is defined exactly when the first brace of the text opens and is
closed, and then ends at the brace that closes it (`scan_eq_some_iff`).
-/

namespace Bpftime.Ptx

open Bpftime.Regex Option List

/-! ## Braces -/

def NoBrace (s : Text) : Prop := '{' ∉ s ∧ '}' ∉ s

instance (s : Text) : Decidable (NoBrace s) := inferInstanceAs (Decidable (_ ∧ _))

inductive Balanced : Text → Prop
  | nil : Balanced []
  | char {c : Char} {s : Text} (h₁ : c ≠ '{') (h₂ : c ≠ '}') (hs : Balanced s) : Balanced (c :: s)
  | block {a b : Text} (ha : Balanced a) (hb : Balanced b) : Balanced ('{' :: (a ++ '}' :: b))

/-- The text up to the first brace, what is between it and the one that closes it, and what
follows. -/
structure Braced (s head body post : Text) : Prop where
  text : s = head ++ '{' :: (body ++ '}' :: post)
  head : NoBrace head
  body : Balanced body

section Scan

variable {s t : Text} {n stack : ℕ}

lemma scan_open : scan stack ('{' :: s) = (scan (stack + 1) s).map (· + 1) := by rw [scan, if_pos rfl]

lemma scan_close_last : scan 1 ('}' :: s) = some 1 := by
  rw [scan, if_neg (by decide), if_pos rfl, if_neg (by decide), if_pos rfl]

lemma scan_close : scan (stack + 2) ('}' :: s) = (scan (stack + 1) s).map (· + 1) := by
  rw [scan, if_neg (by decide), if_pos rfl, if_neg (by omega), if_neg (by omega)]
  rfl

lemma scan_char {c : Char} (h₁ : c ≠ '{') (h₂ : c ≠ '}') :
    scan stack (c :: s) = (scan stack s).map (· + 1) := by rw [scan, if_neg h₁, if_neg h₂]

lemma scan_noBrace (h : NoBrace s) : scan stack (s ++ t) = (scan stack t).map (· + s.length) := by
  induction s with
  | nil => simp
  | cons c s ih =>
    have hc : c ≠ '{' ∧ c ≠ '}' :=
      ⟨fun hc => h.1 (hc ▸ mem_cons_self), fun hc => h.2 (hc ▸ mem_cons_self)⟩
    have hs : NoBrace s := ⟨fun hc => h.1 (mem_cons_of_mem _ hc), fun hc => h.2 (mem_cons_of_mem _ hc)⟩
    rw [cons_append, scan_char hc.1 hc.2, ih hs, Option.map_map]
    rfl

lemma scan_balanced (h : Balanced s) : scan (stack + 1) (s ++ t) = (scan (stack + 1) t).map
    (· + s.length) := by
  induction h generalizing stack t with
  | nil => simp
  | char h₁ h₂ hs ih =>
    rw [cons_append, scan_char h₁ h₂, ih, Option.map_map]
    rfl
  | @block a b ha hb iha ihb =>
    rw [cons_append, append_assoc, cons_append, scan_open, iha, scan_close, ihb]
    simp only [Option.map_map, length_cons, length_append]
    congr 1
    funext m
    simp only [Function.comp_apply]
    omega

lemma exists_of_scan (h : scan (stack + 1) s = some n) :
    ∃ body post, s = body ++ '}' :: post ∧ Balanced body ∧ (if stack = 0 then n = body.length + 1
    else ∃ m, scan stack post = some m ∧ n = body.length + 1 + m) := by
  -- What follows a block is shorter, and not the tail of the text.
  induction hlen : s.length using Nat.strong_induction_on generalizing s n stack with
  | _ k ih =>
    subst hlen
    cases s with
    | nil => exact absurd h (by simp [scan])
    | cons c s =>
      by_cases hopen : c = '{'
      · subst hopen
        rw [scan_open] at h
        obtain ⟨m, hm, rfl⟩ := map_eq_some_iff.mp h
        obtain ⟨a, post, rfl, ha, hrest⟩ := ih s.length (by simp) hm rfl
        rw [if_neg (by omega)] at hrest
        obtain ⟨m', hm', rfl⟩ := hrest
        obtain ⟨b, post', rfl, hb, hend⟩ := ih post.length (by simp; omega) hm' rfl
        refine ⟨'{' :: (a ++ '}' :: b), post', by simp, .block ha hb, ?_⟩
        split_ifs at hend ⊢ with hstack
        · subst hend
          simp only [length_cons, length_append]
          omega
        · obtain ⟨m1, hm1, rfl⟩ := hend
          refine ⟨m1, hm1, ?_⟩
          simp only [length_cons, length_append]
          omega
      · by_cases hclose : c = '}'
        · subst hclose
          refine ⟨[], s, rfl, .nil, ?_⟩
          cases stack with
          | zero =>
            rw [scan_close_last] at h
            rw [if_pos rfl]
            exact (some.inj h).symm
          | succ stack =>
            rw [scan_close] at h
            obtain ⟨m, hm, rfl⟩ := map_eq_some_iff.mp h
            rw [if_neg (by omega)]
            exact ⟨m, hm, Nat.add_comm _ _⟩
        · rw [scan_char hopen hclose] at h
          obtain ⟨m, hm, rfl⟩ := map_eq_some_iff.mp h
          obtain ⟨body, post, rfl, hbody, hend⟩ := ih s.length (by simp) hm rfl
          refine ⟨c :: body, post, rfl, .char hopen hclose hbody, ?_⟩
          split_ifs at hend ⊢ with hstack
          · rw [hend, length_cons]
          · obtain ⟨m1, hm1, rfl⟩ := hend
            refine ⟨m1, hm1, ?_⟩
            rw [length_cons]
            omega

lemma scan_eq_some_iff :
    scan 0 s = some n ↔ ∃ head body post, Braced s head body post ∧ n = head.length + body.length + 2 := by
  constructor
  · intro h
    induction s generalizing n with
    | nil => exact absurd h (by simp [scan])
    | cons c s ih =>
      by_cases hopen : c = '{'
      · subst hopen
        rw [scan_open] at h
        obtain ⟨m, hm, rfl⟩ := map_eq_some_iff.mp h
        obtain ⟨body, post, rfl, hbody, hend⟩ := exists_of_scan hm
        rw [if_pos rfl] at hend
        exact ⟨[], body, post, ⟨rfl, by decide, hbody⟩, by rw [hend, length_nil]; omega⟩
      · by_cases hclose : c = '}'
        · subst hclose
          rw [scan, if_neg (by decide), if_pos rfl, if_pos rfl] at h
          exact absurd h (by simp)
        · rw [scan_char hopen hclose] at h
          obtain ⟨m, hm, rfl⟩ := map_eq_some_iff.mp h
          obtain ⟨head, body, post, ⟨rfl, hhead, hbody⟩, rfl⟩ := ih hm
          refine ⟨c :: head, body, post, ⟨rfl, ⟨?_, ?_⟩, hbody⟩, by rw [length_cons]; omega⟩
          · exact fun hmem => (mem_cons.mp hmem).elim (fun hc => hopen hc.symm) hhead.1
          · exact fun hmem => (mem_cons.mp hmem).elim (fun hc => hclose hc.symm) hhead.2
  · rintro ⟨head, body, post, ⟨rfl, hhead, hbody⟩, rfl⟩
    rw [scan_noBrace hhead, scan_open, scan_balanced hbody, scan_close_last]
    simp only [map_some, some.injEq]
    omega

lemma Braced.unique {head body post head' body' post' : Text} (h : Braced s head body post)
    (h' : Braced s head' body' post') : head = head' ∧ body = body' ∧ post = post' := by
  have htake : ∀ {head body post : Text}, Braced s head body post → s.takeWhile (· ≠ '{') = head := by
    intro head body post h
    have hhead : ∀ c ∈ head, decide (c ≠ '{') = true := by
      intro c hc
      refine decide_eq_true ?_
      rintro rfl
      exact h.head.1 hc
    rw [h.text, takeWhile_append_of_pos hhead]
    simp
  obtain rfl : head = head' := (htake h).symm.trans (htake h')
  have hlen : head.length + body.length + 2 = head.length + body'.length + 2 :=
    some.inj ((scan_eq_some_iff.mpr ⟨_, _, _, h, rfl⟩).symm.trans (scan_eq_some_iff.mpr ⟨_, _, _, h', rfl⟩))
  have htext := append_cancel_left (h.text.symm.trans h'.text)
  obtain ⟨hbody, hpost⟩ := append_inj (cons.inj htext).2 (by omega)
  exact ⟨rfl, hbody, (cons.inj hpost).2⟩

end Scan

/-- A kernel that the patch for a target looks at: no kernel before it has that name. -/
def Reached (target : Text) (ks : List KernelSection) (k : KernelSection) : Prop :=
  ∃ before after, ks = before ++ k :: after ∧ ∀ k' ∈ before, k'.name ≠ target

section Patch

variable {generatePtxForEbpf : Text → Text} {is_retprobe : Bool} {ptx target : Text}
  {ks : List KernelSection} {k : KernelSection}

variable {k0 : KernelSection}

lemma Reached.tail (hne : k0.name ≠ target) (h : Reached target ks k) : Reached target (k0 :: ks) k := by
  obtain ⟨before, after, rfl, hbefore⟩ := h
  refine ⟨k0 :: before, after, rfl, fun k' hk' => ?_⟩
  rcases mem_cons.mp hk' with rfl | hk'
  · exact hne
  · exact hbefore k' hk'

lemma Reached.head : Reached target (k :: ks) k := ⟨[], ks, rfl, fun _ h => absurd h not_mem_nil⟩

lemma Reached.of_cons (h : Reached target (k0 :: ks) k) :
    k = k0 ∨ k0.name ≠ target ∧ Reached target ks k := by
  obtain ⟨before, after, hks, hbefore⟩ := h
  cases before with
  | nil =>
    obtain ⟨rfl, -⟩ := cons.inj hks
    exact Or.inl rfl
  | cons k1 before =>
    obtain ⟨rfl, rfl⟩ := cons.inj hks
    exact Or.inr ⟨hbefore _ mem_cons_self, before, after, rfl, fun k' hk' =>
      hbefore k' (mem_cons_of_mem _ hk')⟩

end Patch

end Bpftime.Ptx
