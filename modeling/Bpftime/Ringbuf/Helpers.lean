import Bpftime.Ringbuf.Steps

/-!
# The ring buffer helpers

A program reserves, submits and discards records through the helpers of
`runtime/src/bpf_helper.cpp`.
-/

namespace Bpftime.RingbufHelpers

open Bytes Option List Nat Ringbuf Function
open Runs (run Along along_of_forall_mem invariant_of_run)

/-- A 32-bit word read as an `int`. -/
def toInt (w : ℕ) : ℤ := if w < 2^31 then w else w - 2^32

/-- A ring and the address of its `data`. -/
structure Ring where
  rb : Ringbuf
  base : ℕ

/-- A pointer into a ring, by its offset from `data`. -/
structure Ptr where
  ring : ℕ
  off : ℕ
deriving DecidableEq

abbrev Rings := ℕ → Ring

def Rings.setRb (s : Rings) (i : ℕ) (rb : Ringbuf) : Rings := update s i { s i with rb := rb }

section Model

variable (page_size : ℕ) (ringOf : ℤ → Option ℕ)

/-- `bpftime_ringbuf_reserve`: a pointer, unless `fd` is no ring buffer map or the ring refuses. -/
def bpftimeRingbufReserve (s : Rings) (fd : ℤ) (size : ℕ) : Option (Option Ptr × Rings) :=
  match ringOf fd with
  | none => some (none, s)
  | some i =>
    ((s i).rb.reserve size fd).map fun
      | (.error _, rb) => (none, s.setRb i rb)
      | (.ok off, rb) => (some ⟨i, off⟩, s.setRb i rb)

/-- `bpftime_ringbuf_submit`. -/
def bpftimeRingbufSubmit (s : Rings) (fd : ℤ) (data : Ptr) (discard : Bool) : Option Rings :=
  match ringOf fd with
  | none => some s
  | some i => ((s i).rb.submit (sub64 ((s data.ring).base + data.off) (s i).base) discard).map (s.setRb i)

/-- The fd that a program passes as the upper half of a map pointer. -/
def fdOf (rb : UInt64) : ℤ := toInt (rb.toNat >>> 32)

/-- `bpf_ringbuf_reserve`. -/
def bpfRingbufReserve (s : Rings) (rb size : UInt64) : Option (Option Ptr × Rings) :=
  bpftimeRingbufReserve ringOf s (fdOf rb) size.toNat

/-- `ptr[-1]`, the `int` in front of a pointer. -/
def fdBefore (s : Rings) (p : Ptr) : Option ℤ :=
  (readRange (List.replicate (page_size - 8) 0 ++ (s p.ring).rb.data) (page_size - 8 + p.off - 4) 4).map fun bs =>
    toInt (ofLe bs)

/-- What `bpf_ringbuf_submit` and `bpf_ringbuf_discard` share. -/
def commit (s : Rings) (data : Ptr) (discard : Bool) : Option Rings :=
  (fdBefore page_size s data).bind fun fd => bpftimeRingbufSubmit ringOf s fd data discard

/-- `bpf_ringbuf_submit`. -/
def bpfRingbufSubmit (s : Rings) (data : Ptr) : Option Rings := commit page_size ringOf s data false

/-- `bpf_ringbuf_discard`. -/
def bpfRingbufDiscard (s : Rings) (data : Ptr) : Option Rings := commit page_size ringOf s data true

def store (s : Rings) (p : Ptr) (bs : List UInt8) : Option Rings :=
  (writeRange (s p.ring).rb.data p.off bs).map fun data => s.setRb p.ring { (s p.ring).rb with data := data }

/-- `bpf_ringbuf_output`. -/
def bpfRingbufOutput (s : Rings) (rb : UInt64) (data : List UInt8) : Option Rings :=
  (bpftimeRingbufReserve ringOf s (fdOf rb) data.length).bind fun
    | (none, s) => some s
    | (some buf, s) => (store s buf data).bind fun s => bpftimeRingbufSubmit ringOf s (fdOf rb) buf false

inductive Op where
  | reserve (rb size : UInt64)
  | output (rb : UInt64) (data : List UInt8)
  | submit (data : Ptr)
  | discard (data : Ptr)
  /-- A program, right or wrong, writes into a ring. -/
  | write (p : Ptr) (bs : List UInt8)
  /-- A consumer moves its position. -/
  | consume (i pos : ℕ)

def step (s : Rings) : Op → Option (Option Ptr × Rings)
  | .reserve rb size => bpfRingbufReserve ringOf s rb size
  | .output rb data => (bpfRingbufOutput ringOf s rb data).map (none, ·)
  | .submit data => (bpfRingbufSubmit page_size ringOf s data).map (none, ·)
  | .discard data => (bpfRingbufDiscard page_size ringOf s data).map (none, ·)
  | .write p bs => (store s p bs).map (none, ·)
  | .consume i pos => some (none, s.setRb i { (s i).rb with consumer_pos := pos })

/-- New rings, given the logarithms of their sizes and their addresses. -/
def init (exps bases : ℕ → ℕ) : Rings := fun i => ⟨Ringbuf.create page_size (2^exps i), bases i⟩

/-- The offset of the header that a payload belongs to: eight bytes before it, around the ring. -/
def headerOff (s : Rings) (p : Ptr) : ℕ := ((s p.ring).rb.max_ent + p.off - 8) % (s p.ring).rb.max_ent

def Kept (p : Ptr) (s s' : Rings) : Prop :=
  readRange (s' p.ring).rb.data (headerOff s p) 8 = readRange (s p.ring).rb.data (headerOff s p) 8

/-- A commit is right: the helper reads the fd of the map, and of all rings only the first word of
the record's header changes, where the busy bit is cleared, and the discard bit is set for a record
to be dropped. -/
def CommitRight (s : Rings) (fd : ℤ) (size : ℕ) (p : Ptr) (discard : Bool) : Prop :=
  fdBefore page_size s p = some fd ∧ ∃ data,
    commit page_size ringOf s p discard = some (s.setRb p.ring { (s p.ring).rb with data := data }) ∧
    AgreeOff (s p.ring).rb.data data (headerOff s p) 4 ∧
    (s p.ring).rb.readLen (headerOff s p) = some (size ||| bpfRingbufBusyBit) ∧
    Ringbuf.readLen { (s p.ring).rb with data := data } (headerOff s p) =
      some (if discard then size ||| bpfRingbufDiscardBit else size)

end Model

/-! ## The rings keep their shape -/

/-- What no call changes: the size and the place of each ring, and that its producer is at a
multiple of eight. -/
structure Shaped (page_size : ℕ) (exps bases : ℕ → ℕ) (s : Rings) : Prop where
  max_ent : ∀ i, (s i).rb.max_ent = 2^exps i
  length_data : ∀ i, (s i).rb.data.length = (Ringbuf.create page_size (2^exps i)).data.length
  base : ∀ i, (s i).base = bases i
  eight_dvd : ∀ i, 8 ∣ (s i).rb.producer_pos

section Shape

variable {page_size : ℕ} {ringOf : ℤ → Option ℕ} {exps bases : ℕ → ℕ} {s s' : Rings}

@[simp] lemma setRb_self (s : Rings) (i : ℕ) (rb : Ringbuf) :
    s.setRb i rb i = { s i with rb := rb } := update_self ..

variable {i : ℕ} {rb : Ringbuf} {data : Ptr} {discard : Bool}

lemma setRb_of_ne (s : Rings) {j : ℕ} (rb : Ringbuf) (h : j ≠ i) : s.setRb i rb j = s j := update_of_ne h ..

lemma shaped_init (page_size : ℕ) (exps bases : ℕ → ℕ) :
    Shaped page_size exps bases (init page_size exps bases) :=
  ⟨fun _ => rfl, fun _ => rfl, fun _ => rfl, fun _ => Nat.dvd_zero 8⟩

lemma Shaped.setRb (h : Shaped page_size exps bases s) (hmax : rb.max_ent = (s i).rb.max_ent)
    (hlen : rb.data.length = (s i).rb.data.length) (hdvd : 8 ∣ rb.producer_pos) :
    Shaped page_size exps bases (s.setRb i rb) := by
  -- Each field is one about the changed ring, or the old one.
  have hof (P : ℕ → Ring → Prop) (hold : ∀ j, P j (s j)) (hnew : P i { s i with rb := rb }) :
      ∀ j, P j (s.setRb i rb j) := by
    intro j
    by_cases hj : j = i
    · rw [hj, setRb_self]
      exact hnew
    · rw [setRb_of_ne s rb hj]
      exact hold j
  exact ⟨hof (fun j r => r.rb.max_ent = 2^exps j) h.max_ent (hmax.trans (h.max_ent i)),
    hof (fun j r => r.rb.data.length = _) h.length_data (hlen.trans (h.length_data i)),
    hof (fun j r => r.base = bases j) h.base (h.base i), hof (fun _ r => 8 ∣ r.rb.producer_pos) h.eight_dvd hdvd⟩

variable {fd : ℤ}

lemma reserve_cases {rb' : Ringbuf} {size : ℕ} {res : Except Errno ℕ}
    (h : rb.reserve size fd = some (res, rb')) :
    ((∃ err, res = .error err) ∧ rb' = rb) ∨ ∃ data data',
    size &&& (bpfRingbufBusyBit ||| bpfRingbufDiscardBit) = 0 ∧
    totalSize size ≤ rb.max_ent ∧ res = .ok (add64 rb.producer_pos bpfRingbufHdrSz &&& rb.mask) ∧
    writeRange rb.data (rb.producer_pos &&& rb.mask) (toLe 4 (size ||| bpfRingbufBusyBit)) = some data ∧
    writeRange data ((rb.producer_pos &&& rb.mask) + 4) (toLe 4 (fd % 2^32).toNat) = some data' ∧
    rb' = { rb with data := data', producer_pos := add64 rb.producer_pos (totalSize size) } := by
  unfold reserve at h
  dsimp only at h
  split_ifs at h with hbits htotal havail
  · cases h
    exact .inl ⟨⟨_, rfl⟩, rfl⟩
  · cases h
    exact .inl ⟨⟨_, rfl⟩, rfl⟩
  · cases h
    exact .inl ⟨⟨_, rfl⟩, rfl⟩
  · obtain ⟨data, hdata, h⟩ := bind_eq_some_iff.mp h
    obtain ⟨data', hdata', h⟩ := map_eq_some_iff.mp h
    cases h
    exact .inr ⟨data, data', not_not.mp hbits, not_lt.mp htotal, rfl, hdata, hdata', rfl⟩

section

variable (h : Shaped page_size exps bases s)
include h

lemma Shaped.reserve {size : ℕ} {p : Option Ptr}
    (hs : bpftimeRingbufReserve ringOf s fd size = some (p, s')) : Shaped page_size exps bases s' := by
  unfold bpftimeRingbufReserve at hs
  cases hring : ringOf fd with
  | none =>
    simp only [hring, some.injEq, Prod.mk.injEq] at hs
    rw [← hs.2]
    exact h
  | some i =>
    simp only [hring] at hs
    obtain ⟨⟨res, rb'⟩, hres, heq⟩ := map_eq_some_iff.mp hs
    have hs' : s' = s.setRb i rb' := by
      cases res with
      | error _ | ok _ => cases heq; rfl
    rw [hs']
    rcases reserve_cases hres with ⟨-, rfl⟩ | ⟨data, data', -, -, -, hdata, hdata', rfl⟩
    · exact h.setRb rfl rfl (h.eight_dvd i)
    · refine h.setRb rfl ((length_writeRange hdata').trans (length_writeRange hdata)) ?_
      have hpos := h.eight_dvd i
      dsimp only
      unfold add64 totalSize
      omega

lemma Shaped.submit
    (hs : bpftimeRingbufSubmit ringOf s fd data discard = some s') : Shaped page_size exps bases s' := by
  unfold bpftimeRingbufSubmit at hs
  cases hring : ringOf fd with
  | none =>
    simp only [hring, some.injEq] at hs
    rw [← hs]
    exact h
  | some i =>
    simp only [hring] at hs
    obtain ⟨rb', hrb', rfl⟩ := map_eq_some_iff.mp hs
    unfold submit at hrb'
    obtain ⟨len, -, hrb'⟩ := bind_eq_some_iff.mp hrb'
    obtain ⟨bytes, hbytes, rfl⟩ := map_eq_some_iff.mp hrb'
    exact h.setRb rfl (length_writeRange hbytes) (h.eight_dvd i)

lemma Shaped.store {p : Ptr} {bs : List UInt8} (hs : store s p bs = some s') :
    Shaped page_size exps bases s' := by
  unfold RingbufHelpers.store at hs
  obtain ⟨bytes, hbytes, rfl⟩ := map_eq_some_iff.mp hs
  exact h.setRb rfl (length_writeRange hbytes) (h.eight_dvd _)

lemma Shaped.commit (hs : commit page_size ringOf s data discard = some s') :
    Shaped page_size exps bases s' := by
  obtain ⟨fd, -, hs⟩ := bind_eq_some_iff.mp hs
  exact h.submit hs

lemma Shaped.step {op : Op} {p : Option Ptr}
    (hs : step page_size ringOf s op = some (p, s')) : Shaped page_size exps bases s' := by
  cases op with
  | reserve rb size => exact Shaped.reserve h hs
  | output rb data =>
    obtain ⟨_, hs, heq⟩ := map_eq_some_iff.mp hs
    cases heq
    obtain ⟨⟨buf, s₁⟩, hreserve, hs⟩ := bind_eq_some_iff.mp hs
    have h1 := Shaped.reserve h hreserve
    cases buf with
    | none =>
      cases hs
      exact h1
    | some buf =>
      obtain ⟨s₂, hstore, hs⟩ := bind_eq_some_iff.mp hs
      exact (h1.store hstore).submit hs
  | submit _ | discard _ =>
    obtain ⟨_, hs, heq⟩ := map_eq_some_iff.mp hs
    cases heq
    exact Shaped.commit h hs
  | write p bs =>
    obtain ⟨_, hs, heq⟩ := map_eq_some_iff.mp hs
    cases heq
    exact Shaped.store h hs
  | consume i pos =>
    cases hs
    exact h.setRb rfl rfl (h.eight_dvd i)

lemma Shaped.of_run {ops : List Op} {ps : List (Option Ptr)}
    (hs : run (RingbufHelpers.step page_size ringOf) s ops = some (ps, s')) :
    Shaped page_size exps bases s' := by
  have htriv : Along (RingbufHelpers.step page_size ringOf) (fun _ _ => True) s ops :=
    along_of_forall_mem fun _ _ _ => trivial
  exact invariant_of_run (fun _ _ _ _ hi _ hstep => Shaped.step hi hstep) h htriv hs

end

end Shape

/-! ## Commits -/

lemma toInt_ofLe_toLe {fd : ℤ} (h : -2^31 ≤ fd) (h' : fd < 2^31) :
    toInt (ofLe (toLe 4 (fd % 2^32).toNat)) = fd := by
  rw [ofLe_toLe]
  unfold toInt
  split_ifs <;> omega

lemma fdOf_bounds (rb : UInt64) : -2^31 ≤ fdOf rb ∧ fdOf rb < 2^31 := by
  have hlt := rb.toNat_lt
  have hhigh : rb.toNat >>> 32 < 2^32 := by
    rw [shiftRight_eq_div_pow]
    omega
  unfold fdOf toInt
  split_ifs <;> omega

section Commit

variable {page_size : ℕ} {ringOf : ℤ → Option ℕ} {exps bases : ℕ → ℕ} {s : Rings}

/-- A ring that a record was reserved in has all of its bytes, and room for a header. -/
structure Roomy (rb : Ringbuf) (e : ℕ) : Prop where
  e_le : e ≤ 30
  three_le : 3 ≤ e
  max_ent : rb.max_ent = 2^e
  length_data : rb.data.length = 2^e * 2

variable {size e pos : ℕ} {fd : ℤ} {p : Ptr} {rb : Ringbuf}

lemma reserve_ok {rb' : Ringbuf} {off : ℕ} (hpage : page_size * 2 < 2^31) (he : e < 32)
    (hmax : rb.max_ent = 2^e) (hlen : rb.data.length = (create page_size (2^e)).data.length)
    (hsize : size < 2^64) (hres : rb.reserve size fd = some (.ok off, rb')) :
    Roomy rb' e ∧ size < 2^30 ∧ off = (rb.producer_pos + 8) % 2^e ∧
    readRange rb'.data (rb.producer_pos % 2^e) 4 = some (toLe 4 (size ||| bpfRingbufBusyBit)) ∧
    readRange rb'.data (rb.producer_pos % 2^e + 4) 4 = some (toLe 4 (fd % 2^32).toNat) := by
  rcases reserve_cases hres with ⟨⟨err, herr⟩, -⟩ | ⟨data, data', hbits, htotal, hoff, hdata, hdata', rfl⟩
  · cases herr
  have hlen' := (length_writeRange hdata').trans (length_writeRange hdata)
  have hin := writeRange_bounds hdata
  rw [length_toLe, hlen] at hin
  -- The bytes of a ring of 2^31 bytes would not be there.
  have h30 : e ≤ 30 := by
    by_contra hbig
    have : e = 31 := by omega
    subst this
    simp only [create, length_replicate] at hin
    omega
  have hle : 2^e ≤ 2^30 := Nat.pow_le_pow_right (by norm_num) h30
  have htwo : rb.data.length = 2^e * 2 := by
    rw [hlen]
    simp only [create, length_replicate]
    omega
  rw [Sys.totalSize_eq hsize hbits, hmax] at htotal
  have hrec := add_eight_le_recLen size
  have h3 : 3 ≤ e := by
    by_contra hsmall
    have : 2^e ≤ 2^2 := Nat.pow_le_pow_right (by norm_num) (by omega)
    omega
  rw [and_mask h30 hmax] at hdata hdata' hoff
  rw [add64_mod h30] at hoff
  refine ⟨⟨h30, h3, hmax, hlen'.trans htwo⟩, by omega, Except.ok.inj hoff, ?_, ?_⟩
  · have hag := agreeOff_writeRange hdata'
    have hread := readRange_writeRange_self hdata
    rw [length_toLe] at hag hread
    rw [← hread]
    exact hag.readRange_eq (.inl le_rfl)
  · have hread := readRange_writeRange_self hdata'
    rw [length_toLe] at hread
    exact hread

lemma fdBefore_of_off_eq_zero (s : Rings) (hpage : 12 ≤ page_size) (hzero : p.off = 0) :
    fdBefore page_size s p = some 0 := by
  have hread := readRange_append (replicate (page_size - 12) (0 : UInt8)) (replicate 4 0) (s p.ring).rb.data
  rw [replicate_append_replicate, show page_size - 12 + 4 = page_size - 8 by omega, length_replicate,
    length_replicate] at hread
  unfold fdBefore
  rw [hzero, show page_size - 8 + 0 - 4 = page_size - 12 by omega, hread, map_some, ofLe_replicate_zero]
  rfl

lemma fdBefore_of_header (hpage : 12 ≤ page_size) (hroom : Roomy (s p.ring).rb e)
    (hpos : 8 ∣ pos) (hoff : p.off = (pos + 8) % 2^e) (hfd : -2^31 ≤ fd ∧ fd < 2^31)
    (hword : readRange (s p.ring).rb.data (pos % 2^e + 4) 4 = some (toLe 4 (fd % 2^32).toNat)) :
    fdBefore page_size s p = some (if p.off = 0 then 0 else fd) := by
  have hlt : pos % 2^e < 2^e := mod_lt _ (Nat.two_pow_pos e)
  have h8 : 8 ∣ 2^e := Nat.pow_dvd_pow 2 hroom.three_le
  have hmod : 8 ∣ pos % 2^e := (dvd_mod_iff h8).mpr hpos
  have hoff' : p.off = (pos % 2^e + 8) % 2^e := by rw [hoff, mod_add_mod]
  rcases lt_or_ge (pos % 2^e + 8) (2^e) with hfit | hend
  · -- The header and its payload are next to each other.
    rw [mod_eq_of_lt hfit] at hoff'
    have hread := readRange_append_add (replicate (page_size - 8) (0 : UInt8))
        (s p.ring).rb.data (pos % 2^e + 4) 4
    rw [length_replicate, hword] at hread
    unfold fdBefore
    rw [if_neg (by omega), show page_size - 8 + p.off - 4 = page_size - 8 + (pos % 2^e + 4) by omega, hread,
      map_some, toInt_ofLe_toLe hfd.1 hfd.2]
  · -- The header ends the ring, and the producer's page is in front of the payload.
    have hzero : p.off = 0 := by rw [hoff', show pos % 2^e + 8 = 2^e by omega, mod_self]
    rw [if_pos hzero, fdBefore_of_off_eq_zero s hpage hzero]

lemma headerOff_eq (hroom : Roomy (s p.ring).rb e) (hoff : p.off = (pos + 8) % 2^e) :
    headerOff s p = pos % 2^e := by
  have h8 : 2^3 ≤ 2^e := Nat.pow_le_pow_right (by norm_num) hroom.three_le
  unfold headerOff
  rw [hroom.max_ent, hoff, add_mod_sub_eight _ h8]

lemma submit_header {off : ℕ} (discard : Bool) (hroom : Roomy rb e)
    (hoff : off = (pos + 8) % 2^e) (hsize : size < 2^30)
    (hlen : rb.readLen (pos % 2^e) = some (size + 2^31)) :
    ∃ data, rb.submit off discard = some { rb with data := data } ∧
      AgreeOff rb.data data (pos % 2^e) 4 ∧ readLen { rb with data := data } (pos % 2^e) =
        some (if discard then size ||| bpfRingbufDiscardBit else size) := by
  have h8 : 2^3 ≤ 2^e := Nat.pow_le_pow_right (by norm_num) hroom.three_le
  have h30 : 2^e ≤ 2^30 := Nat.pow_le_pow_right (by norm_num) hroom.e_le
  have hlt : pos % 2^e < 2^e := mod_lt _ (Nat.two_pow_pos e)
  have hmask : rb.mask + 1 = 2^e := by
    unfold mask
    rw [hroom.max_ent]
    omega
  have hhdr : sub64 (rb.mask + 1 + off) bpfRingbufHdrSz &&& rb.mask = pos % 2^e := by
    rw [and_mask hroom.e_le hroom.max_ent, hmask, bpfRingbufHdrSz, sub64_of_le (by omega) (by omega), hoff,
      add_mod_sub_eight _ h8]
  generalize hw : (if discard then size ||| bpfRingbufDiscardBit else size) = w
  have hwlt : w < 2^32 := by
    rw [← hw, or_discard hsize]
    split_ifs <;> omega
  obtain ⟨data, hdata⟩ := writeRange_isSome rb.data (pos % 2^e) (toLe 4 w) (by
    rw [length_toLe, hroom.length_data]
    omega)
  have hag := agreeOff_writeRange hdata
  rw [length_toLe] at hag
  refine ⟨data, ?_, hag, ?_⟩
  · unfold submit
    dsimp only
    rw [hhdr, hlen, bind_some, and_not_busy hsize, hw, hdata, map_some]
  · rw [readLen_of_writeRange rb hdata, mod_eq_of_lt hwlt]

lemma bpftimeRingbufReserve_eq_some {s s' : Rings}
    (h : bpftimeRingbufReserve ringOf s fd size = some (some p, s')) :
    ringOf fd = some p.ring ∧ ∃ rb, (s p.ring).rb.reserve size fd = some (.ok p.off, rb) ∧ s' =
    s.setRb p.ring rb := by
  unfold bpftimeRingbufReserve at h
  cases hring : ringOf fd with
  | none =>
    simp only [hring] at h
    cases h
  | some i =>
    simp only [hring] at h
    obtain ⟨⟨res, rb⟩, hres, heq⟩ := map_eq_some_iff.mp h
    cases res with
    | error _ => cases heq
    | ok off =>
      cases heq
      exact ⟨rfl, rb, hres, rfl⟩

lemma commitRight_iff_of_header (hpage : 12 ≤ page_size)
    (hroom : Roomy (s p.ring).rb e) (hbase : (s p.ring).base + 2^e ≤ 2^64) (hring : ringOf fd = some p.ring)
    (hfd : -2^31 ≤ fd ∧ fd < 2^31) (hsize : size < 2^30) (hpos : 8 ∣ pos) (hoff : p.off = (pos + 8) % 2^e)
    (hlen : readRange (s p.ring).rb.data (pos % 2^e) 4 = some (toLe 4 (size ||| bpfRingbufBusyBit)))
    (hword : readRange (s p.ring).rb.data (pos % 2^e + 4) 4 = some (toLe 4 (fd % 2^32).toNat))
    (discard : Bool) :
    CommitRight page_size ringOf s fd size p discard ↔ p.off ≠ 0 ∨ fd = 0 := by
  have hbefore := fdBefore_of_header hpage hroom hpos hoff hfd hword
  constructor
  · rintro ⟨hread, -⟩
    rw [hbefore, some.injEq] at hread
    split_ifs at hread with hzero
    · exact .inr hread.symm
    · exact .inl hzero
  · intro hcond
    have hread : fdBefore page_size s p = some fd := by
      rw [hbefore]
      split_ifs with hzero
      · rw [hcond.resolve_left (not_not.mpr hzero)]
      · rfl
    -- The ring finds its own pointer.
    have hsub : sub64 ((s p.ring).base + p.off) (s p.ring).base = p.off := by
      rw [sub64_of_le (by omega) (by omega), Nat.add_sub_cancel_left]
    have hbusy : (s p.ring).rb.readLen (pos % 2^e) = some (size + 2^31) := by
      unfold readLen
      rw [hlen, map_some, ofLe_toLe, show 256^4 = 2^32 by norm_num, or_busy hsize]
    obtain ⟨data, hsubmit, hag, hnew⟩ := submit_header discard hroom hoff hsize hbusy
    refine ⟨hread, data, ?_, ?_, ?_, ?_⟩
    · unfold commit bpftimeRingbufSubmit
      rw [hread, bind_some]
      simp only [hring]
      rw [hsub, hsubmit, map_some]
    · rw [headerOff_eq hroom hoff]
      exact hag
    · have hor : size ||| bpfRingbufBusyBit < 2^32 := or_lt_two_pow (by omega) (by unfold bpfRingbufBusyBit; norm_num)
      rw [headerOff_eq hroom hoff, hbusy, ← or_busy hsize, mod_eq_of_lt hor]
    · rw [headerOff_eq hroom hoff]
      exact hnew

/-- The helpers commit a record of a map exactly when its payload does not start the ring, or the fd
of the map is zero. The record was reserved in any state of the rings, at any position of the
producer, and anything may have happened since that left its header alone. -/
theorem commitRight_iff_off_ne_zero (hpage : 12 ≤ page_size) (hint : page_size * 2 < 2^31)
    (hexps : ∀ i, exps i < 32)
    (hbases : ∀ i, bases i + (Ringbuf.create page_size (2^exps i)).data.length ≤ 2^64)
    {before after : List Op}
    {ps ps' : List (Option Ptr)} {s s₁ s₂ : Rings} {rb size : UInt64} {p : Ptr}
    (hbefore : run (step page_size ringOf) (init page_size exps bases) before = some (ps, s))
    (hreserve : bpfRingbufReserve ringOf s rb size = some (some p, s₁))
    (hafter : run (step page_size ringOf) s₁ after = some (ps', s₂)) (hkept : Kept p s₁ s₂)
    (discard : Bool) :
    CommitRight page_size ringOf s₂ (fdOf rb) size.toNat p discard ↔ p.off ≠ 0 ∨ fdOf rb = 0 := by
  have hshape := (shaped_init page_size exps bases).of_run hbefore
  have hshape1 := hshape.reserve hreserve
  have hshape2 := hshape1.of_run hafter
  obtain ⟨hring, rb', hres, rfl⟩ := bpftimeRingbufReserve_eq_some hreserve
  obtain ⟨hroom, hsize, hoff, hlen, hword⟩ := reserve_ok hint (hexps p.ring) (hshape.max_ent p.ring)
    (hshape.length_data p.ring) size.toNat_lt hres
  have hself : (s.setRb p.ring rb' p.ring).rb = rb' := by rw [setRb_self]
  rw [← hself] at hroom hlen hword
  have hdata : (s₂ p.ring).rb.data.length = 2^exps p.ring * 2 :=
    (hshape2.length_data p.ring).trans ((hshape1.length_data p.ring).symm.trans hroom.length_data)
  have hroom2 : Roomy (s₂ p.ring).rb (exps p.ring) :=
    ⟨hroom.e_le, hroom.three_le, hshape2.max_ent p.ring, hdata⟩
  -- Both words of the header are still there.
  have hlt : (s p.ring).rb.producer_pos % 2^exps p.ring < 2^exps p.ring := mod_lt _ (Nat.two_pow_pos _)
  have h8 : 2^3 ≤ 2^exps p.ring := Nat.pow_le_pow_right (by norm_num) hroom.three_le
  unfold Kept at hkept
  rw [headerOff_eq hroom hoff] at hkept
  have hin : (s p.ring).rb.producer_pos % 2^exps p.ring + 8 ≤
      (s.setRb p.ring rb' p.ring).rb.data.length := by
    rw [hroom.length_data]
    omega
  have hlen2 := readRange_part (a := 0) hkept hin (show 0 + 4 ≤ 8 by omega)
  have hword2 := readRange_part hkept hin (show 4 + 4 ≤ 8 by omega)
  rw [Nat.add_zero, hlen] at hlen2
  rw [hword] at hword2
  have hbase : (s₂ p.ring).base + 2^exps p.ring ≤ 2^64 := by
    have hb := hbases p.ring
    rw [← hshape2.length_data, hdata] at hb
    rw [hshape2.base]
    omega
  exact commitRight_iff_of_header hpage hroom2 hbase hring (fdOf_bounds rb) hsize (hshape.eight_dvd p.ring) hoff hlen2
    hword2 discard

end Commit

/-- One ring buffer map, with fd 3. -/
def oneMap (fd : ℤ) : Option ℕ := if fd = 3 then some 0 else none

def smallRings : Rings := init 4096 (fun _ => 4) (fun _ => 4096 * 4)

/-- The first record of such a ring is committed. -/
theorem commitRight_first_record : ∃ s, bpfRingbufReserve oneMap smallRings 12884901888 0 = some
    (some ⟨0, 8⟩, s) ∧
      CommitRight 4096 oneMap s 3 0 ⟨0, 8⟩ false := by
  refine ⟨_, rfl, ?_⟩
  have hbases : ∀ _ : ℕ, 4096 * 4 + (create 4096 (2^4)).data.length ≤ 2^64 := by
    intro _
    simp [create]
  exact (@commitRight_iff_off_ne_zero 4096 oneMap (fun _ => 4) (fun _ =>
    4096 * 4) (by norm_num) (by norm_num)
    (fun _ => by norm_num) hbases [] [] [] [] smallRings _ _ 12884901888 0 _ rfl rfl rfl rfl false).mpr
    (.inl (by decide))

/-- The header of the second one is the last eight bytes of the ring. The helper reads fd 0, which
is no ring buffer map, and nothing is committed. -/
theorem not_commitRight_second_record : ∃ s s',
    bpfRingbufReserve oneMap smallRings 12884901888 0 = some (some ⟨0, 8⟩, s) ∧
      bpfRingbufReserve oneMap s 12884901888 0 = some (some ⟨0, 0⟩, s') ∧
      bpfRingbufSubmit 4096 oneMap s' ⟨0, 0⟩ = some s' ∧ ¬ CommitRight 4096 oneMap s' 3 0 ⟨0, 0⟩ false := by
  refine ⟨_, _, rfl, rfl, ?_, ?_⟩
  · unfold bpfRingbufSubmit commit
    rw [fdBefore_of_off_eq_zero _ (by norm_num) rfl]
    rfl
  · rintro ⟨hread, -⟩
    rw [fdBefore_of_off_eq_zero _ (by norm_num) rfl] at hread
    exact absurd (some.inj hread) (by norm_num)

end Bpftime.RingbufHelpers
