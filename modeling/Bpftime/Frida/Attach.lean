import Bpftime.Basic
import Bpftime.Lib.Owners

/-!
# Attaching with Frida

`frida_attach_impl` owns an attach entry for each id, in `attaches`, and an internal entry for each
function that is hooked, in `internal_attaches`.
-/

namespace Bpftime.Frida

open Owners

/-- The three kinds of direct callbacks of a `callback_variant`. -/
inductive CallbackIndex where
  | uprobe
  | uretprobe
  | uprobeOverride
deriving DecidableEq

/-- `ATTACH_UPROBE`. -/
def attachUprobe : ℤ := 6

/-- `ATTACH_URETPROBE`. -/
def attachUretprobe : ℤ := 7

/-- `ATTACH_UPROBE_OVERRIDE`. -/
def attachUprobeOverride : ℤ := 1008

/-- `from_cb_idx_to_attach_type`. -/
def fromCbIdxToAttachType : CallbackIndex → ℤ
  | .uprobe => attachUprobe
  | .uretprobe => attachUretprobe
  | .uprobeOverride => attachUprobeOverride

/-- A `frida_attach_entry_callback`: a function of the registers, or one that runs a program. -/
inductive EntryCallback (κ : Type) where
  | direct (index : CallbackIndex) (cb : κ)
  | ebpf (cb : κ) (attach_type : ℤ)
deriving DecidableEq

/-- `get_type`. -/
def EntryCallback.getType {κ : Type} : EntryCallback κ → ℤ
  | .direct index _ => fromCbIdxToAttachType index
  | .ebpf _ attach_type => attach_type

/-- A `frida_attach_entry`. -/
structure AttachEntry (κ : Type) where
  self_id : ℤ
  callback : EntryCallback κ
  function : ℕ
  /-- The address of the internal entry of the function. -/
  internal_attach : ℕ
deriving DecidableEq

/-- A `frida_internal_attach_entry`, with the addresses of the attach entries on its function. -/
structure InternalAttachEntry where
  function : ℕ
  user_attaches : List ℕ
deriving DecidableEq

/-- A `frida_attach_impl`. -/
structure Impl (κ : Type) where
  next_id : ℤ
  attaches : AList fun _ : ℤ => Owned (AttachEntry κ)
  internal_attaches : AList fun _ : ℕ => Owned InternalAttachEntry

/-- How a call ends: with the id of a new attach, with another number, or with an exception. -/
inductive Reply where
  | attached (id : ℤ)
  | ret (n : ℤ)
  | threw
deriving DecidableEq

namespace Impl

variable {κ : Type}

/-- The object that is made by the constructor. -/
def new : Impl κ := ⟨1, ∅, ∅⟩

/-- `has_override`. -/
def hasOverride (s : Impl κ) (user_attaches : List ℕ) : Option Bool :=
  match user_attaches with
  | [] => some false
  | a :: as => do
    let (_, v) ← find s.attaches a
    if v.callback.getType = attachUprobeOverride then some true else s.hasOverride as

/-- Whether the constructor of an internal entry throws, where Frida's call that hooks the function
returns `err`. -/
def constructorThrows (basic_attach_type err : ℤ) : Bool :=
  (basic_attach_type = attachUprobe ∨ basic_attach_type = attachUretprobe ∨
    basic_attach_type = attachUprobeOverride) ∧ err < 0

/-- The end of `attach_at`, for the internal entry of the function. -/
def pushAttach (s : Impl κ) (func_addr : ℕ) (cb : EntryCallback κ) (inner : Owned InternalAttachEntry)
    (addr : ℕ) : Option (Reply × Impl κ) := do
  let (used_id, next_id) ← allocateId s.next_id
  let attaches := emplace s.attaches used_id ⟨addr, ⟨used_id, cb, func_addr, 0⟩⟩
  let inserted ← attaches.lookup used_id
  some (.attached used_id,
    { next_id
      attaches := attaches.insert used_id
        { inserted with val := { inserted.val with internal_attach := inner.addr } }
      internal_attaches := s.internal_attaches.insert func_addr
        { inner with val := { inner.val with
          user_attaches := inner.val.user_attaches ++ [inserted.addr] } } })

/-- `attach_at`. -/
def attachAt (s : Impl κ) (func_addr : ℕ) (cb : EntryCallback κ) (err : ℤ) (addr inner_addr : ℕ) :
    Option (Reply × Impl κ) :=
  if func_addr = 0 then some (.ret (-Errno.EINVAL.code), s)
  else
    match s.internal_attaches.lookup func_addr with
    | none =>
      if constructorThrows cb.getType err then some (.threw, s)
      else s.pushAttach func_addr cb ⟨inner_addr, ⟨func_addr, []⟩⟩ addr
    | some inner => do
      let has_override ← s.hasOverride inner.val.user_attaches
      if has_override then some (.ret (-Errno.EEXIST.code), s)
      else s.pushAttach func_addr cb inner addr

/-- `detach_by_id`. -/
def detachById (s : Impl κ) (id : ℤ) : Option (Reply × Impl κ) :=
  match s.attaches.lookup id with
  | none => some (.ret 0, s)
  | some ent => do
    let (key, p) ← find s.internal_attaches ent.val.internal_attach
    let user_attaches := p.user_attaches.filter (· ≠ ent.addr)
    -- The list is written through the pointer.
    let internal_attaches := s.internal_attaches.insert key
      ⟨ent.val.internal_attach, { p with user_attaches }⟩
    some (.ret 0, { s with
      attaches := s.attaches.erase id
      internal_attaches :=
        if user_attaches = [] ∧ p.function ≠ 0 then internal_attaches.erase p.function
        else internal_attaches })

/-- The loop of `detach_by_func_addr` over the attach entries. -/
def eraseEach (attaches : AList fun _ : ℤ => Owned (AttachEntry κ)) :
    List ℕ → Option (AList fun _ : ℤ => Owned (AttachEntry κ))
  | [] => some attaches
  | a :: as => do
    let (_, attach_entry) ← find attaches a
    eraseEach (attaches.erase attach_entry.self_id) as

/-- `detach_by_func_addr`. -/
def detachByFuncAddr (s : Impl κ) (func : ℕ) : Option (Reply × Impl κ) :=
  match s.internal_attaches.lookup func with
  | none => some (.ret (-Errno.ENOENT.code), s)
  | some inner => do
    let attaches ← eraseEach s.attaches inner.val.user_attaches
    some (.ret 0, { s with attaches, internal_attaches := s.internal_attaches.erase func })

inductive Op (κ : Type) where
  | attach (func_addr : ℕ) (cb : EntryCallback κ) (err : ℤ) (addr inner_addr : ℕ)
  | detachById (id : ℤ)
  | detachByFuncAddr (func : ℕ)
deriving DecidableEq

def step (s : Impl κ) : Op κ → Option (Reply × Impl κ)
  | .attach func_addr cb err addr inner_addr => s.attachAt func_addr cb err addr inner_addr
  | .detachById id => s.detachById id
  | .detachByFuncAddr func => s.detachByFuncAddr func

end Impl

end Bpftime.Frida
