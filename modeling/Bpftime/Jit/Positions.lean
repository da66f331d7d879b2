import Bpftime.Jit.Blocks

/-!
# Positions of a run

A run of an emitted function is at the start of an instruction when the chunks that follow are what
is left of a block from that instruction on (`At`).
-/

namespace Bpftime.Jit

open Ir Traces List

variable {cfg : Config} {insts : List EbpfInst} {blockBegin : ℕ → Bool} {blocks : ℕ → Block}
variable {m : Module}

namespace Straight

variable {pc stop : ℕ} {cs : Block}

section

variable (h : Straight cfg insts blockBegin pc cs stop)
include h

lemma ne_nil : cs ≠ [] := by
  cases h <;> simp

lemma not_isStart (hpc : IsStart insts pc) {q : ℕ}
    (hq : pc < q) (hstop : q < stop) (hmark : blockBegin q = true) : ¬ IsStart insts q := by
  induction h with
  | last hinst _ _ =>
    intro hstart
    have := hpc.next_le hinst hstart hq
    omega
  | cons hinst _ hnext _ ih =>
    intro hstart
    rcases (hpc.next_le hinst hstart hq).eq_or_lt with heq | hlt
    · rw [heq, hmark] at hnext
      cases hnext
    · exact ih (hpc.next hinst) hlt hstop hstart

lemma lt_stop : pc < stop := by
  induction h with
  | last _ _ _ => exact lt_next _ _
  | @cons pc _ inst _ _ _ _ _ _ ih => exact (lt_next inst pc).trans ih

end

end Straight

lemma isTerminated_append {pre cs : Block} (h : cs ≠ []) : isTerminated (pre ++ cs) = isTerminated cs := by
  rw [isTerminated, isTerminated, getLast?_append_of_ne_nil _ h]

lemma linkBlock_append {pre cs : Block} (h : cs ≠ []) (next : Option ℕ) :
    linkBlock (pre ++ cs) next = pre ++ linkBlock cs next := by
  rw [linkBlock, linkBlock, isTerminated_append h]
  split_ifs
  · rfl
  · rw [append_assoc]

lemma nextBlock_eq_some_iff {b j : ℕ} : nextBlock insts blockBegin b = some j ↔
    j < insts.length ∧ b ≤ j ∧ blockBegin j = true ∧ ∀ q, b ≤ q → q < j → blockBegin q = false := by
  rw [nextBlock, find?_range_eq_some]
  simp only [Bool.and_eq_true, decide_eq_true_eq, mem_range]
  constructor
  · rintro ⟨⟨hb, hmark⟩, hlt, hmin⟩
    refine ⟨hlt, hb, hmark, fun q hq hqj => ?_⟩
    simpa [hq] using hmin q hqj
  · rintro ⟨hlt, hb, hmark, hmin⟩
    refine ⟨⟨hb, hmark⟩, hlt, fun q hqj => ?_⟩
    by_cases hq : b ≤ q
    · simp [hmin q hq hqj]
    · simp [hq]

abbrev Module.next (m : Module) (k : Linkage) : Status Label Callee → Status Label Callee :=
  Status.next k.host m.blocks

/-- A run comes from one status to another, and visits no instruction on the way. -/
abbrev Module.Passes (m : Module) (k : Linkage) : Status Label Callee → Status Label Callee → Prop :=
  Silent (m.next k) Status.visiting

namespace Compiled

section

variable (hm : Compiled cfg insts m blockBegin blocks)
include hm

lemma blocks_inst (b : ℕ) : m.blocks (.inst b) = linkBlock (blocks b)
    (nextBlock insts blockBegin (b + 1)) := by
  rw [hm.blocks_eq]
  rfl

lemma exists_nextBlock {b : ℕ} (hb : blockBegin b = true) (hun : isTerminated (blocks b) = false) :
    ∃ j, nextBlock insts blockBegin (b + 1) = some j := by
  have hverified := hm.verified b (hm.lt_length hb) hb
  rw [hm.blocks_inst, verifyBlock, Bool.and_eq_true] at hverified
  cases hnext : nextBlock insts blockBegin (b + 1) with
  | some j => exact ⟨j, rfl⟩
  | none =>
    rw [hnext, linkBlock, hun] at hverified
    simp [hun] at hverified

lemma passes_links {j stop : ℕ} (hj : blockBegin j = true)
    (hstop : stop < insts.length → blockBegin stop = true)
    (hle : j ≤ stop) (hgap : ∀ q, j ≤ q → q < stop → blockBegin q = true → ¬ IsStart insts q) (k : Linkage)
    (s : State) : stop < insts.length ∧
    m.Passes k (.running (m.blocks (.inst j)) s) (.running (m.blocks (.inst stop)) s) := by
  induction hd : insts.length - j using Nat.strong_induction_on generalizing j with
  | _ d ih =>
    have hlt := hm.lt_length hj
    rcases hle.eq_or_lt with rfl | hjstop
    · exact ⟨hlt, .refl _⟩
    · -- The block at `j` is empty but for its link.
      have hempty := hm.empty j fun h => hgap j le_rfl hjstop hj h.1
      obtain ⟨j', hnext⟩ := hm.exists_nextBlock hj (by rw [hempty]; rfl)
      have hblock : m.blocks (.inst j) = [branchTo j'] := by
        rw [hm.blocks_inst, hempty, hnext]
        rfl
      obtain ⟨hlt', hle', hj', hmin⟩ := nextBlock_eq_some_iff.mp hnext
      have hle'' : j' ≤ stop := by
        by_contra hcon
        have := hmin stop hjstop (by omega)
        rw [hstop (by omega)] at this
        cases this
      obtain ⟨hstoplt, hpasses⟩ := ih (insts.length - j')
          (by omega) hj' hle'' (fun q hq => hgap q (by omega)) rfl
      refine ⟨hstoplt, ?_⟩
      rw [hblock]
      exact Silent.head rfl hpasses

end

end Compiled

/-- The chunks are what is left of a block from the start `pc` on. -/
def At (cfg : Config) (insts : List EbpfInst) (blockBegin : ℕ → Bool) (blocks : ℕ → Block) (pc : ℕ)
    (rest : Block) : Prop :=
  IsStart insts pc ∧ ∃ b pre cs stop, IsStart insts b ∧ blockBegin b = true ∧
    blocks b = pre ++ cs ∧ Straight cfg insts blockBegin b (pre ++ cs) stop ∧
    Straight cfg insts blockBegin pc cs stop ∧
    rest = linkBlock cs (nextBlock insts blockBegin (b + 1))

namespace Compiled

lemma at_block (hm : Compiled cfg insts m blockBegin blocks) {b : ℕ} (hb : blockBegin b = true)
    (hstart : IsStart insts b) : At cfg insts blockBegin blocks b (m.blocks (.inst b)) := by
  obtain ⟨stop, hcs⟩ := hm.straight b (hm.lt_length hb) hb hstart
  exact ⟨hstart, b, [], blocks b, stop, hstart, hb, rfl, hcs, hcs, hm.blocks_inst b⟩

lemma at_head (hm : Compiled cfg insts m blockBegin blocks) {pc : ℕ} {rest : Block}
    (hat : At cfg insts blockBegin blocks pc rest) :
    ∃ inst e rest', insts[pc]? = some inst ∧ emitAt cfg insts blockBegin pc inst = .ok e ∧
    rest = chunkOf (some pc) e :: rest' ∧
    (e.result = none → ∀ k s, ∃ rest'', m.Passes k (.running rest' s) (.running rest'' s) ∧
    At cfg insts blockBegin blocks (inst.next pc) rest'') := by
  obtain ⟨hpc, b, pre, cs, stop, hb, hmark, hblock, hstraight, hcs, rfl⟩ := hat
  cases hcs with
  | @cons _ _ inst e cs hinst hemit hnext hcs =>
    refine ⟨inst, e, linkBlock cs (nextBlock insts blockBegin (b + 1)), hinst, hemit, ?_, ?_⟩
    · change linkBlock ([chunkOf (some pc) e] ++ cs) _ = _
      exact linkBlock_append hcs.ne_nil _
    · intro _ k s
      refine ⟨_, .refl _, hpc.next hinst, b, pre ++ [chunkOf (some pc) e], cs, stop, hb, hmark, ?_,
        ?_, hcs, rfl⟩
      · rw [hblock, append_assoc]
        rfl
      · rwa [append_assoc]
  | @last _ inst e hinst hemit hnext =>
    by_cases hres : e.result = none
    · -- The last chunk of a block without a terminator is followed by the link.
      have hun : isTerminated [chunkOf (some pc) e] = false := by simp [isTerminated, chunkOf, hres]
      obtain ⟨j, hj⟩ := hm.exists_nextBlock hmark (by
        rw [hblock, isTerminated_append (by simp), hun])
      refine ⟨inst, e, [branchTo j], hinst, hemit, ?_, fun _ k s => ?_⟩
      · rw [linkBlock, hun, hj]
        rfl
      obtain ⟨hjlt, hle, hjmark, hmin⟩ := nextBlock_eq_some_iff.mp hj
      have hbstop := hstraight.lt_stop
      have hjle : j ≤ inst.next pc := by
        by_contra hcon
        have := hmin (inst.next pc) (by omega) (by omega)
        rw [hnext (by omega)] at this
        cases this
      obtain ⟨hlt, hpasses⟩ := hm.passes_links hjmark hnext hjle
        (fun q hq hlt hqmark => hstraight.not_isStart hb (by omega) hlt hqmark) k s
      exact ⟨_, Silent.head rfl hpasses, hm.at_block (hnext hlt) (hpc.next hinst)⟩
    · refine ⟨inst, e, [], hinst, hemit, ?_, fun h => absurd h hres⟩
      have hterm : isTerminated [chunkOf (some pc) e] = true := by
        simp [isTerminated, chunkOf, Option.isSome_iff_ne_none, hres]
      rw [linkBlock, hterm]
      rfl

end Compiled

end Bpftime.Jit
