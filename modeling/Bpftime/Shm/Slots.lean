import Bpftime.Shm.Creation

/-!
# Which slots an operation writes

The operations that put one handler into the table: `add_bpf_map`, `dup_bpf_map`, `add_bpf_prog`,
`add_bpf_link` and `set_handler` itself.
-/

namespace Bpftime.BpftimeShm

open Option

inductive SlotOp where
  | addBpfMap (fd : ℤ) (name : String) (attr : BpfMapAttr)
  | dupBpfMap (oldfd newfd : ℤ)
  | addBpfProg (fd : ℤ) (insns : List UInt64) (prog_name : String) (prog_type : Int32)
  | addBpfLink (fd prog_fd target_fd : ℤ)
  | setHandler (fd : ℤ) (h : Handler)

namespace SlotOp

variable (s : BpftimeShm)

def exec : SlotOp → Option (ShmReply × BpftimeShm)
  | .addBpfMap fd name attr => s.addBpfMap fd name attr
  | .dupBpfMap oldfd newfd => s.dupBpfMap oldfd newfd
  | .addBpfProg fd insns prog_name prog_type => s.addBpfProg fd insns prog_name prog_type
  | .addBpfLink fd prog_fd target_fd => s.addBpfLink fd prog_fd target_fd
  | .setHandler fd h => (s.setHandler fd h).map fun p => (.ret p.1, p.2)

/-- The descriptor whose slot the operation is about: what `open_fake_fd` returns in place of a
negative one. -/
def slot : SlotOp → ℤ
  | .addBpfMap fd _ _ => (s.orFakeFd fd).1
  | .dupBpfMap _ newfd => (s.orFakeFd newfd).1
  | .addBpfProg fd _ _ _ => (s.orFakeFd fd).1
  | .addBpfLink fd _ _ => (s.orFakeFd fd).1
  | .setHandler fd _ => fd

/-- The operation passes the checks that come before the table is indexed. -/
def Accepted : SlotOp → Prop
  | .dupBpfMap oldfd _ => ∃ m, s.getHandler oldfd = some (.map m)
  | .addBpfLink _ prog_fd _ => s.isProgFd prog_fd = true
  | .setHandler _ h => h ≠ .unused
  | _ => True

end SlotOp

variable {s s' : BpftimeShm} {fd : ℤ} {h : Handler}

/-- The call fills the slot and makes the slots unused whose handlers `cut` takes away. -/
def Fills (s : BpftimeShm) (fd : ℤ) (cut : Handler → Handler) (r : ShmReply) (s' : BpftimeShm) : Prop :=
  r = .ret fd ∧ ∃ h, h ≠ .unused ∧ ∀ i, s'.getHandler i = if i = fd then some h else (s.getHandler i).map cut

lemma Fills.congr {s0 : BpftimeShm} {cut : Handler → Handler} {r : ShmReply} (hs : s0.handlers = s.handlers)
    (h : s0.Fills fd cut r s') : s.Fills fd cut r s' := by
  obtain ⟨hr, h', hne, hget⟩ := h
  refine ⟨hr, h', hne, fun i => ?_⟩
  rw [hget, getHandler_congr hs]

end Bpftime.BpftimeShm
