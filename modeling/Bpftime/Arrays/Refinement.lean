import Bpftime.Arrays.Storage
import Bpftime.Lib.Runs

/-!
# Per-CPU arrays as tables of values

A per-CPU array whose storage can be addressed is a table with a value for each index and CPU. A
helper reads and writes one of them, a system call those of all CPUs.
-/

namespace Bpftime.Arrays

open Bytes Storage List PerCpuArrayMap

inductive Op (value_size ncpu : ℕ)
  | lookup (cpu : Fin ncpu) (key : Option ℕ)
  | update (cpu : Fin ncpu) (key : Option ℕ) (value : MapValue value_size) (flags : UInt64)
  | lookupUserspace (key : Option ℕ)
  | updateUserspace (key : Option ℕ) (values : MapValue (ncpu * value_size)) (flags : UInt64)
  | delete (key : Option ℕ)

inductive Reply
  | outcome (o : Outcome)
  | value (r : Except Errno (List UInt8))
deriving DecidableEq

variable {value_size ncpu max_entries : ℕ}

def PerCpuArrayMap.step (m : PerCpuArrayMap) : Op value_size ncpu → Option (Reply × PerCpuArrayMap)
  | .lookup cpu key => (m.elemLookup cpu key).map (.value ·, m)
  | .update cpu key value flags => (m.elemUpdate cpu key value.1 flags).map fun r => (.outcome r.1, r.2)
  | .lookupUserspace key => (m.elemLookupUserspace key).map (.value ·, m)
  | .updateUserspace key values flags => (m.elemUpdateUserspace key values.1 flags).map fun r => (.outcome r.1, r.2)
  | .delete key => some (.outcome (elemDelete key), m)

/-- The values in the order of their indices, and for an index in that of the CPUs. -/
abbrev Table := ℕ → List UInt8

namespace Table

variable (V : Table)

/-- The bytes of `n` values from a position on. -/
def slice (p n : ℕ) : List UInt8 := (range n).flatMap fun c => V (p + c)

/-- The bytes of `n` values are stored from a position on. -/
def splice (value_size p n : ℕ) (bs : List UInt8) : Table := fun q =>
  if p ≤ q ∧ q < p + n then (bs.drop ((q - p) * value_size)).take value_size else V q

def find (max_entries : ℕ) (key : Option ℕ) (read : ℕ → List UInt8) : Except Errno (List UInt8) :=
  match key with
  | none => .error .ENOENT
  | some key => if key < max_entries then .ok (read key) else .error .ENOENT

def put (max_entries : ℕ) (key : Option ℕ) (flags : UInt64) (write : ℕ → Table) : Reply × Table :=
  if !checkUpdateFlags flags then (.outcome (.error .EINVAL), V)
  else
    match key with
    | none => (.outcome (.error .ENOENT), V)
    | some key =>
      if key < max_entries then if flags = 1 then (.outcome (.error .EEXIST), V) else (.outcome .ok,
        write key)
      else (.outcome (.error .E2BIG), V)

def step (max_entries : ℕ) : Op value_size ncpu → Reply × Table
  | .lookup cpu key => (.value (find max_entries key fun key => V.slice (key * ncpu + cpu) 1), V)
  | .update cpu key value flags =>
    V.put max_entries key flags fun key => V.splice value_size (key * ncpu + cpu) 1 value.1
  | .lookupUserspace key => (.value (find max_entries key fun key => V.slice (key * ncpu) ncpu), V)
  | .updateUserspace key values flags =>
    V.put max_entries key flags fun key => V.splice value_size (key * ncpu) ncpu values.1
  | .delete _ => (.outcome (.error .EINVAL), V)

end Table

/-- The storage holds `size` values of a table. -/
structure Holds (value_size size : ℕ) (data : List UInt8) (V : Table) : Prop where
  length_eq : data.length = size * value_size
  read : ∀ q < size, readRange data (q * value_size) value_size = some (V q)

section Holds

variable {data bs : List UInt8} {V : Table} {size p n : ℕ} (h : Holds value_size size data V)
    (hp : p + n ≤ size)

include h hp

lemma Holds.read_slice : readRange data (p * value_size) (n * value_size) = some (V.slice p n) := by
  have hle := Nat.mul_le_mul_right value_size hp
  induction n with
  | zero =>
    rw [readRange, h.length_eq, if_pos (by simpa using hle)]
    simp [Table.slice]
  | succ n ih =>
    have hread := h.read (p + n) (by omega)
    have hinit := ih (by omega) (Nat.mul_le_mul_right value_size (by omega))
    rw [Nat.add_mul] at hread
    rw [Nat.succ_mul, Table.slice, range_succ, flatMap_append, flatMap_singleton]
    unfold readRange at *
    split_ifs at hread hinit with h1 h2
    rw [if_pos (by omega), take_add, drop_drop, ← Option.some.inj hread, Option.some.inj hinit]
    rfl

lemma Holds.write (hbs : bs.length = n * value_size) :
    ∃ data', writeRange data (p * value_size) bs = some data' ∧
    Holds value_size size data' (V.splice value_size p n bs) := by
  have hend := Nat.mul_le_mul_right value_size hp
  rw [Nat.add_mul] at hend
  obtain ⟨data', hdata'⟩ := writeRange_isSome data (p * value_size) bs (by rw [h.length_eq, hbs]; exact hend)
  refine ⟨data', hdata', (length_writeRange hdata').trans h.length_eq, fun q hq => ?_⟩
  have hnext : ∀ {a b}, a < b → a * value_size + value_size ≤ b * value_size := by
    intro a b hab
    rw [← Nat.succ_mul]
    exact Nat.mul_le_mul_right _ hab
  unfold Table.splice
  split_ifs with hin
  · obtain ⟨d, rfl⟩ := Nat.exists_eq_add_of_le hin.1
    have hd := hnext (show d < n by omega)
    rw [Nat.add_sub_cancel_left, Nat.add_mul, readRange_eq_some, length_writeRange hdata', h.length_eq]
    refine ⟨by omega, by rw [length_take, length_drop]; omega, fun t ht => ?_⟩
    rw [getElem?_writeRange hdata', if_pos (by omega), getElem?_take, if_pos ht, getElem?_drop]
    congr 1
    omega
  · rw [(agreeOff_writeRange hdata').readRange_eq, h.read q hq]
    rw [hbs]
    rcases Nat.lt_or_ge q p with hlt | hge
    · exact .inl (hnext hlt)
    · right
      rw [← Nat.add_mul]
      exact Nat.mul_le_mul_right _ (by omega)

end Holds

lemma find_refines {data : List UInt8} {off : ℕ → ℕ} {len : ℕ} {read : ℕ → List UInt8}
    (hread : ∀ key < max_entries, readRange data (off key) len = some (read key)) (key : Option ℕ) :
    (match key with
      | none => some (Except.error Errno.ENOENT)
      | some key => if max_entries ≤ key then some (.error .ENOENT) else (readRange data (off key) len).map .ok) =
      some (Table.find max_entries key read) := by
  cases key with
  | none => rfl
  | some key =>
    rcases Nat.lt_or_ge key max_entries with hkey | hkey
    · simp [Table.find, hkey, hkey.not_ge, hread key hkey]
    · simp [Table.find, hkey, hkey.not_gt]

/-- The map has a table in its storage. -/
def Shows (value_size max_entries ncpu : ℕ) (m : PerCpuArrayMap) (V : Table) : Prop :=
  ∃ data, m = ⟨data, ncpu, value_size, max_entries⟩ ∧ Holds value_size (max_entries * ncpu) data V

section Refines

variable {data bs : List UInt8} {V : Table} (hsize : max_entries * ncpu * value_size < 2^32)
  (h : Holds value_size (max_entries * ncpu) data V) {first n : ℕ}

lemma add_le_mul {key : ℕ} (hkey : key < max_entries) (hn : first + n ≤ ncpu) :
    key * ncpu + first + n ≤ max_entries * ncpu := by
  have := Nat.mul_le_mul_right ncpu hkey
  rw [Nat.succ_mul] at this
  omega

include hsize h

lemma read_refines (hfirst : first < ncpu) (hn : first + n ≤ ncpu) {key : ℕ} (hkey : key < max_entries) :
    readRange data (dataAt ⟨data, ncpu, value_size, max_entries⟩ key first) (n * value_size) =
      some (V.slice (key * ncpu + first) n) := by
  rw [← h.read_slice (add_le_mul hkey hn), ← dataAt_eq hsize (by omega) hkey hfirst]
  rfl

lemma store_refines (hfirst : first < ncpu) (hn : first + n ≤ ncpu) (hbs : bs.length = n * value_size)
    (key : Option ℕ) (flags : UInt64) :
    let r := V.put max_entries key flags fun key => V.splice value_size (key * ncpu + first) n bs
    ∃ m', (store ⟨data, ncpu, value_size, max_entries⟩ first key bs flags).map (fun r =>
    (Reply.outcome r.1, r.2)) =
      some (r.1, m') ∧ Shows value_size max_entries ncpu m' r.2 := by
  unfold store Table.put refusal
  by_cases hflags : checkUpdateFlags flags
  · cases key with
    | none => exact ⟨_, by simp [hflags], data, rfl, by simpa [hflags] using h⟩
    | some key =>
      by_cases hkey : key < max_entries
      · by_cases hone : flags = 1
        · subst hone
          exact ⟨_, by simp [hflags, hkey], data, rfl, by simpa [hflags, hkey] using h⟩
        · obtain ⟨data', hdata', hV⟩ := h.write (add_le_mul hkey hn) hbs
          rw [← dataAt_eq hsize (by omega) hkey hfirst] at hdata'
          have hwrite : writeRange data (dataAt ⟨data, ncpu, value_size,
              max_entries⟩ key first) bs = some data' :=
            hdata'
          refine ⟨_, by simp [hflags, hone, hkey.not_ge, hwrite, hkey], data', rfl, ?_⟩
          simpa [hflags, hone, hkey] using hV
      · exact ⟨_, by simp [hflags, hkey, Nat.le_of_not_lt hkey], data, rfl, by simpa [hflags, hkey] using h⟩
  · exact ⟨_, by simp [hflags], data, rfl, by simpa [hflags] using h⟩

lemma step_refines (hpos : 0 < max_entries) (hncpu : 0 < ncpu) (op : Op value_size ncpu) :
    ∃ m', step ⟨data, ncpu, value_size, max_entries⟩ op = some ((V.step max_entries op).1, m') ∧
      Shows value_size max_entries ncpu m' (V.step max_entries op).2 := by
  have hlen : ncpu * value_size % 2^32 = ncpu * value_size := by
    refine Nat.mod_eq_of_lt (lt_of_le_of_lt ?_ hsize)
    rw [mul_assoc]
    exact Nat.le_mul_of_pos_left _ hpos
  cases op with
  | lookup cpu key =>
    refine ⟨_, congrArg (Option.map _) (find_refines (fun key hkey => ?_) key), data, rfl, h⟩
    have hread := read_refines hsize h (n := 1) cpu.2 cpu.2 hkey
    rwa [one_mul] at hread
  | lookupUserspace key =>
    refine ⟨_, congrArg (Option.map _) (find_refines (fun key hkey => ?_) key), data, rfl, h⟩
    rw [userspaceLength, hlen]
    exact read_refines hsize h hncpu (Nat.zero_add ncpu).le hkey
  | update cpu key value flags => exact store_refines hsize h (n := 1) cpu.2 cpu.2 (by rw [value.2, one_mul]) key flags
  | updateUserspace key values flags =>
    have hstore := store_refines hsize h hncpu (Nat.zero_add ncpu).le values.2 key flags
    have htake : values.1.take (ncpu * value_size % 2^32) = values.1 :=
      take_of_length_le (by rw [hlen, values.2])
    simp only [step, elemUpdateUserspace, userspaceLength, htake]
    exact hstore
  | delete key => exact ⟨_, rfl, data, rfl, h⟩

end Refines

lemma holds_create (hsize : max_entries * ncpu * value_size < 2^32) :
    Holds value_size (max_entries * ncpu) (create value_size max_entries ncpu).data
      fun _ => replicate value_size 0 := by
  have hlength := (length_create value_size max_entries ncpu).trans (Nat.mod_eq_of_lt hsize)
  refine ⟨hlength, fun q hq => readRange_eq_some.mpr ?_⟩
  have hle := Nat.mul_le_mul_right value_size (Nat.succ_le_of_lt hq)
  rw [Nat.succ_mul] at hle
  refine ⟨by omega, length_replicate, fun i hi => ?_⟩
  rw [create, length_replicate] at hlength
  rw [create, getElem?_replicate, getElem?_replicate, if_pos hi, if_pos (by omega)]

/-- Every sequence of calls on a new per-CPU array whose storage is shorter than 2^32 bytes ends as
on a table of values, all of them zero at first: helpers of each CPU and system calls see what the
others have stored. -/
theorem perCpuArray_refines (hsize : max_entries * ncpu * value_size < 2^32)
    (hpos : 0 < max_entries) (hncpu : 0 < ncpu)
    (ops : List (Op value_size ncpu)) : ∃ m, Runs.run step (create value_size max_entries ncpu) ops =
      some ((Runs.answers (Table.step · max_entries) (fun _ => replicate value_size 0) ops).1, m) := by
  have hstep : ∀ m V (op : Op value_size ncpu), Shows value_size max_entries ncpu m V → True →
      ∃ m', m.step op = some ((V.step max_entries op).1, m') ∧
        Shows value_size max_entries ncpu m' (V.step max_entries op).2 := by
    rintro _ V op ⟨data, rfl, h⟩ -
    exact step_refines hsize h hpos hncpu op
  obtain ⟨m, hrun, -⟩ := Runs.run_refines hstep ⟨_, rfl, holds_create hsize⟩
    (Runs.along_of_forall_mem fun op (_ : op ∈ ops) _ => trivial)
  exact ⟨m, hrun⟩

/-- The helpers of two CPUs store a byte each, and a system call reads both. -/
def bothCpus : List (Op 1 2) :=
  [.update ⟨0, by decide⟩ (some 1) (oneByte 7) 0, .update ⟨1, by decide⟩ (some 1) (oneByte 8) 0,
    .lookupUserspace (some 1)]

theorem perCpuArray_refines_bothCpus : ∃ m, Runs.run step (create 1 2 2) bothCpus =
    some ([.outcome .ok, .outcome .ok, .value (.ok [7, 8])], m) :=
  perCpuArray_refines (by norm_num) (by norm_num) (by norm_num) bothCpus

end Bpftime.Arrays
