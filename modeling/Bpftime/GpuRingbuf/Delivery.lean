import Bpftime.GpuRingbuf.Layout
import Bpftime.Lib.Circular

/-!
# What the host receives from a ring

A ring has one producer and one consumer.
-/

namespace Bpftime.GpuRingbuf

open SharedMemory Option List Function Prod Nat Bool
open Bytes (toLe ofLe)
open Runs (run Along)

/-! ## What is right -/

def DevPc.current : DevPc → List (List UInt8)
  | idle => []
  | loadTail data | loadHead data _ | setDirty data | addTail data | storeSize data _ | copy data .. => [data]

def DevPc.claims : DevPc → Bool
  | setDirty _ | addTail _ | storeSize .. | copy .. => true
  | _ => false

def DevPc.dirty : DevPc → Bool
  | addTail _ | storeSize .. | copy .. => true
  | _ => false

def DevPc.writes : DevPc → Bool
  | storeSize .. | copy .. => true
  | _ => false

def Thread.stored (th : Thread) : List (List UInt8) := (th.results.filter (·.2 = 0)).map fst

def Holds (m : Memory) (data : List UInt8) : Prop :=
  load m 0 8 = toLe 8 data.length ∧ load m 8 data.length = data

/-- The host has compared `dirty` and not yet `head` and `tail`. -/
def Stage.compares : Stage → Bool
  | loadHead | loadTail _ => true
  | _ => false

def Stage.reads : Stage → Bool
  | loadSize _ | callback .. => true
  | _ => false

def HostPc.stageOf {n : ℕ} (i : Fin n) : HostPc n → Option Stage
  | idle => none
  | ring j stage => if j = i then some stage else none

namespace Sys

variable {n : ℕ} {c : Config} {s : Sys n} {i : Fin n} {todo : Fin n → List (List UInt8)}

def receivedFrom (s : Sys n) (i : Fin n) : List (List UInt8) := (s.received.filter (·.1 = i)).map snd

/-- The threads run through the records of their programs. -/
structure Right (c : Config) (todo : Fin n → List (List UInt8)) (s : Sys n) : Prop where
  program : ∀ i, (s.threads i).results.map fst ++ (s.threads i).pc.current ++ (s.threads i).todo = todo i
  received : ∀ i, s.receivedFrom i <+: (s.threads i).stored
  intact : ∀ i k data, (s.receivedFrom i).length ≤ k → (s.threads i).stored[k]? = some data →
    Holds ((ringOf c s.mem i).slot (k % c.max_entries)) data

/-- A step is as it should be: a record fits its slot; a slot does not become free while the host
reads the record in it; and a record does not become visible in an empty ring when the host has
looked at `dirty` but not at `tail`. -/
def Sound (c : Config) (s : Sys n) : Op n → Prop
  | .host => True
  | .dev i =>
    match (s.threads i).pc with
    | .idle => ∀ data ∈ (s.threads i).todo.head?, data.length ≤ c.value_size
    | .loadHead _ tail => ∀ stage ∈ s.host.stageOf i, stage.reads → tail + 1 ≠ (ringOf c s.mem i).head + c.max_entries
    | .addTail _ => (ringOf c s.mem i).tail + 1 < 2^64 ∧ ∀ stage ∈ s.host.stageOf i, stage.compares →
        (ringOf c s.mem i).head ≠ (ringOf c s.mem i).tail
    | _ => True

instance (c : Config) (s : Sys n) : ∀ op, Decidable (Sound c s op)
  | .host => isTrue trivial
  | .dev i =>
    match h : (s.threads i).pc with
    | .idle => decidable_of_iff (∀ data ∈ (s.threads i).todo.head?, data.length ≤ c.value_size) (by simp [Sound, h])
    | .loadHead _ tail =>
      decidable_of_iff (∀ stage ∈ s.host.stageOf i, stage.reads →
        tail + 1 ≠ (ringOf c s.mem i).head + c.max_entries) (by simp [Sound, h])
    | .addTail _ =>
      decidable_of_iff ((ringOf c s.mem i).tail + 1 < 2^64 ∧ ∀ stage ∈ s.host.stageOf i,
        stage.compares → (ringOf c s.mem i).head ≠ (ringOf c s.mem i).tail) (by simp [Sound, h])
    | .loadTail _ | .setDirty _ | .storeSize .. | .copy .. => isTrue (by simp [Sound, h])

/-- What holds where the device thread is, when it has stored some records. -/
def DevInv (c : Config) (i : ℕ) (v : Ring) (stored : ℕ) : DevPc → Prop
  | .idle => True
  | .loadTail data => data.length ≤ c.value_size
  | .loadHead data tail => data.length ≤ c.value_size ∧ tail = stored
  | .setDirty data => data.length ≤ c.value_size
  | .addTail data => data.length ≤ c.value_size
  | .storeSize data buffer => data.length ≤ c.value_size ∧ buffer = c.slot i (stored % c.max_entries)
  | .copy data a left => data.length ≤ c.value_size ∧ ∃ made, data = made ++ left ∧
      a = c.slot i (stored % c.max_entries) + (8 + made.length) ∧
      load (v.slot (stored % c.max_entries)) 0 8 = toLe 8 data.length ∧
      load (v.slot (stored % c.max_entries)) 8 made.length = made

/-- What holds where the host is with the ring, when it has received some records. -/
def StageInv (c : Config) (i : ℕ) (stored : List (List UInt8)) (received : ℕ) (writes : Bool) : Stage → Prop
  | .checkDirty => True
  | .loadHead => writes → received < stored.length
  | .loadTail head => head = received ∧ (writes → received < stored.length)
  | .loadRealHead => received < stored.length
  | .addHead real_head => received < stored.length ∧ real_head = received % c.max_entries
  | .loadSize buffer_start => received < stored.length ∧ buffer_start = c.slot i (received % c.max_entries)
  | .callback a left bytes => ∃ rest, stored[received]? = some (bytes ++ rest) ∧ rest.length = left ∧
      a = c.slot i (received % c.max_entries) + (8 + bytes.length)

/-- The invariant of a ring, with where its thread is, what that has stored, what the host has
received and where that is. -/
structure RingInv (c : Config) (i : ℕ) (v : Ring) (pc : DevPc) (stored received : List (List UInt8))
    (stage : Option Stage) : Prop where
  head : v.head = received.length + if stage.any Stage.reads then 1 else 0
  tail : v.tail = stored.length + if pc.writes then 1 else 0
  dirty : v.dirty = if pc.dirty then 1 else 0
  bounded : v.tail < 2^64
  room : stored.length + (if pc.claims then 1 else 0) ≤ received.length + c.max_entries
  delivered : received <+: stored
  fits : ∀ data ∈ stored, data.length ≤ c.value_size
  intact : ∀ k data, received.length ≤ k → stored[k]? = some data → Holds (v.slot (k % c.max_entries)) data
  device : DevInv c i v stored.length pc
  host : ∀ st ∈ stage, StageInv c i stored received.length pc.writes st

structure Inv (c : Config) (todo : Fin n → List (List UInt8)) (s : Sys n) : Prop where
  program : ∀ i, (s.threads i).results.map fst ++ (s.threads i).pc.current ++ (s.threads i).todo = todo i
  ring : ∀ i : Fin n, RingInv c i (ringOf c s.mem i) (s.threads i).pc (s.threads i).stored
    (s.receivedFrom i) (s.host.stageOf i)

lemma Inv.right (h : Inv c todo s) : Right c todo s where
  program := h.program
  received i := (h.ring i).delivered
  intact i := (h.ring i).intact

lemma inv_init (c : Config) (todo : Fin n → List (List UInt8)) : Inv c todo (init todo) where
  program _ := rfl
  ring i := by
    have hzero : ∀ a k, ofLe (load (init todo).mem a k) = 0 := by
      intro a k
      rw [show load (init todo).mem a k = replicate k 0 by simp [load, init], Bytes.ofLe_replicate_zero]
    exact
      { head := hzero _ _
        tail := hzero _ _
        dirty := hzero _ _
        bounded := by
          rw [show (ringOf c (init todo).mem i).tail = 0 from hzero _ _]
          decide
        room := Nat.zero_le _
        delivered := nil_prefix
        fits := by simp [init, Thread.stored]
        intact := by simp [init, Thread.stored]
        device := trivial
        host := by simp [init, HostPc.stageOf] }

/-! ## Steps of a device thread -/

section Device

variable {v : Ring} {pc pc' : DevPc} {stored received : List (List UInt8)} {stage : Option Stage}
  {data : List UInt8} {b : ℕ}

lemma RingInv.free_slot (h : RingInv c b v pc stored received stage) (hpc : pc.claims = true) :
    stored.length % c.max_entries < c.max_entries ∧ ∀ k, received.length ≤ k → k < stored.length →
    k % c.max_entries ≠ stored.length % c.max_entries := by
  have hroom := h.room
  have hle := h.delivered.length_le
  rw [if_pos hpc] at hroom
  refine ⟨mod_lt _ (by omega), fun k hk hlt => Circular.mod_ne_mod hlt (by omega)⟩

lemma RingInv.goto (h : RingInv c b v pc stored received stage) (hclaims : pc'.claims = pc.claims)
    (hdirty : pc'.dirty = pc.dirty) (hwrites : pc'.writes = pc.writes)
    (hdevice : DevInv c b v stored.length pc') : RingInv c b v pc' stored received stage where
  head := h.head
  tail := by
    rw [hwrites]
    exact h.tail
  dirty := by
    rw [hdirty]
    exact h.dirty
  bounded := h.bounded
  room := by
    rw [hclaims]
    exact h.room
  delivered := h.delivered
  fits := h.fits
  intact := h.intact
  device := hdevice
  host := by
    rw [hwrites]
    exact h.host

lemma RingInv.claim {tail : ℕ} (h : RingInv c b v (.loadHead data tail) stored received stage)
    (hroom : (tail + 2^64 - v.head) % 2^64 ≠ c.max_entries)
    (hsound : ∀ st ∈ stage, st.reads → tail + 1 ≠ v.head + c.max_entries) :
    RingInv c b v (.setDirty data) stored received stage := by
  obtain ⟨hfits, rfl⟩ := h.device
  have hle := h.delivered.length_le
  have hroom' := h.room
  have hhead := h.head
  have htail := h.tail
  have hbounded := h.bounded
  refine { h with room := ?_, device := hfits }
  simp only [DevPc.claims, DevPc.writes, false_eq_true, if_false, if_true] at hroom' htail ⊢
  cases stage with
  | none =>
    simp only [any_none, false_eq_true, if_false] at hhead
    omega
  | some st =>
    cases hreads : st.reads with
    | true =>
      have := hsound st rfl hreads
      simp only [any_some, hreads, if_true] at hhead
      omega
    | false =>
      simp only [any_some, hreads, false_eq_true, if_false] at hhead
      omega

lemma RingInv.setDirty (h : RingInv c b v (.setDirty data) stored received stage) :
    RingInv c b { v with dirty := 1 } (.addTail data) stored received stage := { h with dirty := rfl }

lemma RingInv.addTail (h : RingInv c b v (.addTail data) stored received stage)
    (hbounded : v.tail + 1 < 2^64)
    (hsound : ∀ st ∈ stage, st.compares → v.head ≠ v.tail) : RingInv c b { v with tail := v.tail + 1 }
      (.storeSize data (c.slot b (v.tail % c.max_entries))) stored received stage := by
  have htail : v.tail = stored.length := h.tail
  refine { h with tail := ?_, bounded := hbounded, device := ?_, host := fun st hst => ?_ }
  · exact congrArg (· + 1) htail
  · exact ⟨h.device, by rw [htail]⟩
  · -- The ring was not empty when the host compares.
    have hhost := h.host st hst
    have hhead := h.head
    have hle := h.delivered.length_le
    have hlt : st.compares = true → received.length < stored.length := fun hcompares => by
      have := hsound st hst hcompares
      rw [mem_def.mp hst] at hhead
      cases st <;> simp [Stage.compares, Stage.reads] at hcompares hhead <;> omega
    cases st with
    | loadHead => exact fun _ => hlt rfl
    | loadTail head => exact ⟨hhost.1, fun _ => hlt rfl⟩
    | _ => exact hhost

variable {m : Memory} {bs : List UInt8}

lemma RingInv.write (h : RingInv c b v pc stored received stage)
    (hclaims : pc.claims = true) (hclaims' : pc'.claims = true) (hdirty : pc'.dirty = pc.dirty)
    (hwrites : pc'.writes = pc.writes)
    (hdevice : DevInv c b { v with slot := update v.slot (stored.length % c.max_entries) m } stored.length pc') :
    RingInv c b { v with slot := update v.slot (stored.length % c.max_entries) m } pc' stored received stage where
  head := h.head
  tail := by
    rw [hwrites]
    exact h.tail
  dirty := by
    rw [hdirty]
    exact h.dirty
  bounded := h.bounded
  room := by
    have hroom := h.room
    rw [hclaims] at hroom
    rw [hclaims']
    exact hroom
  delivered := h.delivered
  fits := h.fits
  intact k data hk hdata := by
    have hlt : k < stored.length := (List.getElem?_eq_some_iff.mp hdata).1
    dsimp only
    rw [update_of_ne ((h.free_slot hclaims).2 k hk hlt)]
    exact h.intact k data hk hdata
  device := hdevice
  host := by
    rw [hwrites]
    exact h.host

variable {a o : ℕ}

lemma RingInv.publish (h : RingInv c b v (.copy data a []) stored received stage) :
    RingInv c b { v with dirty := 0 } .idle (stored ++ [data]) received stage := by
  obtain ⟨hfits, made, hmade, -, hsize, hbytes⟩ := h.device
  rw [append_nil] at hmade
  subst hmade
  refine ⟨h.head, ?_, rfl, h.bounded, ?_, h.delivered.trans (prefix_append _ _), ?_, ?_, trivial,
    fun st hst => ?_⟩
  · simpa [DevPc.writes] using h.tail
  · simpa [DevPc.claims] using h.room
  · intro data hdata
    rcases mem_append.mp hdata with hdata | hdata
    · exact h.fits data hdata
    · rw [mem_singleton.mp hdata]
      exact hfits
  · intro k data' hk hdata'
    rcases Nat.lt_trichotomy k stored.length with hlt | rfl | hgt
    · rw [getElem?_append_left hlt] at hdata'
      exact h.intact k data' hk hdata'
    · rw [getElem?_concat_length] at hdata'
      cases hdata'
      exact ⟨hsize, hbytes⟩
    · rw [getElem?_eq_none (by simp; omega)] at hdata'
      cases hdata'
  · -- What the host waits for is there all the more.
    have hhost := h.host st hst
    have hlen : (stored ++ [data]).length = stored.length + 1 := by simp
    cases st with
    | checkDirty => trivial
    | loadHead => exact fun hcontra => by cases hcontra
    | loadTail head => exact ⟨hhost.1, fun hcontra => by cases hcontra⟩
    | loadRealHead => exact Nat.lt_of_lt_of_le hhost (by omega)
    | addHead _ | loadSize _ => exact ⟨Nat.lt_of_lt_of_le hhost.1 (by omega), hhost.2⟩
    | callback a left bytes =>
      obtain ⟨rest, hrest, hleft⟩ := hhost
      have hlt : received.length < stored.length := (List.getElem?_eq_some_iff.mp hrest).1
      exact ⟨rest, by rw [getElem?_append_left hlt, hrest], hleft⟩

lemma Inv.of_dev {th : Thread} (h : Inv c todo s)
    (hprogram : th.results.map fst ++ th.pc.current ++ th.todo = todo i)
    (hring : RingInv c i (ringOf c m i) th.pc th.stored (s.receivedFrom i) (s.host.stageOf i))
    (hothers : ∀ j : Fin n, j ≠ i → ringOf c m j = ringOf c s.mem j) :
    Inv c todo { s with mem := m, threads := update s.threads i th } where
  program := (forall_update_iff s.threads (p := fun j th =>
    th.results.map fst ++ th.pc.current ++ th.todo = todo j)).mpr
      ⟨hprogram, fun j _ => h.program j⟩
  ring := by
    refine (forall_update_iff s.threads (p := fun j th => RingInv c j (ringOf c m j) th.pc
      th.stored (s.receivedFrom j) (s.host.stageOf j))).mpr ⟨hring, fun j hj => ?_⟩
    rw [hothers j hj]
    exact h.ring j

lemma Inv.goto (h : Inv c todo s) (hcurrent : pc.current = (s.threads i).pc.current)
    (hring : RingInv c i (ringOf c m i) pc (s.threads i).stored (s.receivedFrom i) (s.host.stageOf i))
    (hothers : ∀ j : Fin n, j ≠ i → ringOf c m j = ringOf c s.mem j) :
    Inv c todo ({ s with mem := m }.goto i pc) := by
  have hprogram := h.program i
  rw [← hcurrent] at hprogram
  exact h.of_dev hprogram hring hothers

lemma Inv.ret {code : ℕ} (h : Inv c todo s) (hcurrent : (s.threads i).pc.current = [data])
    (hring : RingInv c i (ringOf c m i) .idle (if code = 0 then (s.threads i).stored ++ [data]
    else (s.threads i).stored) (s.receivedFrom i) (s.host.stageOf i))
    (hothers : ∀ j : Fin n, j ≠ i → ringOf c m j = ringOf c s.mem j) :
    Inv c todo ({ s with mem := m }.ret i data code) := by
  have hstored : Thread.stored ⟨(s.threads i).todo, .idle, (s.threads i).results ++ [(data, code)]⟩ =
      if code = 0 then (s.threads i).stored ++ [data] else (s.threads i).stored := by
    unfold Thread.stored
    split_ifs with hcode
    · simp [hcode]
    · simp [hcode]
  rw [← hstored] at hring
  refine h.of_dev ?_ hring hothers
  have hprogram := h.program i
  rw [hcurrent] at hprogram
  simpa [DevPc.current] using hprogram

lemma ringOf_store_header_of_ne (ho : o + bs.length ≤ 24)
    (j : Fin n) (hj : j ≠ i) : ringOf c (store m (c.header i + o) bs) j = ringOf c m j := by
  have hentry : 24 ≤ c.entrySize := Nat.le_add_left _ _
  exact ringOf_store_of_ne (fun heq => hj (Fin.ext heq)) (by omega) (by omega)

lemma ringOf_store_slot_of_ne {k : ℕ} (hk : k < c.max_entries)
    (ho : o + bs.length ≤ c.slotSize) (j : Fin n) (hj : j ≠ i) :
    ringOf c (store m (c.slot i k + o) bs) j = ringOf c m j := by
  have hbehind : c.header i + 24 ≤ c.slot i k := Config.header_add_le_slot
  have hinside : c.slot i k + c.slotSize ≤ c.header i + c.entrySize := Config.slot_add_le_header hk
  exact ringOf_store_of_ne (fun heq => hj (Fin.ext heq)) (by omega) (by omega)

lemma Inv.store_slot (h : Inv c todo s) (o : ℕ)
    (hcurrent : pc.current = (s.threads i).pc.current) (hclaims : (s.threads i).pc.claims = true)
    (hdirty : pc.dirty = (s.threads i).pc.dirty) (hwrites : pc.writes = (s.threads i).pc.writes)
    (hclaims' : pc.claims = true) (ha : a = c.slot i ((s.threads i).stored.length % c.max_entries) + o)
    (ho : o + bs.length ≤ c.slotSize) (hdevice : DevInv c i { ringOf c s.mem i with
    slot := update (ringOf c s.mem i).slot ((s.threads i).stored.length % c.max_entries)
          (store ((ringOf c s.mem i).slot ((s.threads i).stored.length % c.max_entries)) o bs) }
      (s.threads i).stored.length pc) :
    Inv c todo ({ s with mem := store s.mem a bs }.goto i pc) := by
  have hring := h.ring i
  have hslot := (hring.free_slot hclaims).1
  subst ha
  refine h.goto hcurrent ?_ (ringOf_store_slot_of_ne hslot ho)
  rw [ringOf_store_slot hslot ho]
  exact hring.write hclaims hclaims' hdirty hwrites hdevice

lemma Inv.devStep (hc : c.Sane) (h : Inv c todo s) (hsound : Sound c s (.dev i)) :
    Inv c todo (s.devStep c i) := by
  have hring := h.ring i
  unfold Sys.devStep
  unfold Sound at hsound
  cases hpc : (s.threads i).pc with
  | idle =>
    cases htodo : (s.threads i).todo with
    | nil => exact h
    | cons data rest =>
      rw [hpc] at hring
      simp only [hpc, htodo] at hsound
      refine h.of_dev ?_ (hring.goto rfl rfl rfl (hsound data rfl)) fun _ _ => rfl
      have hprogram := h.program i
      rw [hpc, htodo] at hprogram
      simpa [DevPc.current] using hprogram
  | loadTail data =>
    rw [hpc] at hring
    exact h.goto (by rw [hpc]; rfl) (hring.goto rfl rfl rfl ⟨hring.device, hring.tail⟩) fun _ _ => rfl
  | loadHead data tail =>
    rw [hpc] at hring
    simp only [hpc] at hsound
    dsimp only
    split_ifs with hfull
    · exact h.ret (by rw [hpc]; rfl) (hring.goto rfl rfl rfl trivial) fun _ _ => rfl
    · exact h.goto (by rw [hpc]; rfl) (hring.claim hfull hsound) fun _ _ => rfl
  | setDirty data =>
    rw [hpc] at hring
    refine h.goto (by rw [hpc]; rfl) ?_ (ringOf_store_header_of_ne (by simp))
    rw [ringOf_store_dirty (by decide)]
    exact hring.setDirty
  | addTail data =>
    rw [hpc] at hring
    simp only [hpc] at hsound
    refine h.goto (by rw [hpc]; rfl) ?_ (ringOf_store_header_of_ne (by simp))
    have hbounded : loadTail c s.mem i + 1 < 2^64 := hsound.1
    rw [ringOf_store_tail hbounded]
    exact hring.addTail hsound.1 hsound.2
  | storeSize data buffer =>
    rw [hpc] at hring
    obtain ⟨hfits, hbuffer⟩ := hring.device
    have hvalue := hc.value_size_lt
    refine h.store_slot 0 (by rw [hpc]; rfl) (by rw [hpc]; rfl) (by rw [hpc]; rfl) (by rw [hpc]; rfl) rfl
      hbuffer (by simp [Config.slotSize]) ?_
    refine ⟨hfits, [], ?_, by rw [hbuffer]; rfl, ?_, rfl⟩
    · rw [memcpyBytes_eq (by omega)]
      rfl
    · dsimp only
      rw [update_self]
      exact load_store_of_length (Bytes.length_toLe _ _)
  | copy data a left =>
    rw [hpc] at hring
    cases left with
    | cons b left =>
      obtain ⟨hfits, made, hmade, ha, hsize, hbytes⟩ := hring.device
      have hlen : made.length + (left.length + 1) = data.length := by rw [hmade]; simp
      have ho : 8 + made.length + [b].length ≤ c.slotSize := by
        simp only [Config.slotSize, length_singleton]
        omega
      refine h.store_slot (8 + made.length) (by rw [hpc]; rfl) (by rw [hpc]; rfl) (by rw [hpc]; rfl)
        (by rw [hpc]; rfl) rfl ha ho ?_
      refine ⟨hfits, made ++ [b], by rw [hmade]; simp, by rw [ha]; simp; omega, ?_, ?_⟩
      · dsimp only
        rw [update_self, load_store_of_apart (.inl (by omega)), hsize]
      · dsimp only
        rw [update_self, length_append, load_add, load_store_of_apart (.inl (by omega)), hbytes,
          load_store_self]
    | nil =>
      refine h.ret (by rw [hpc]; rfl) ?_ (ringOf_store_header_of_ne (by simp))
      rw [ringOf_store_dirty (by decide)]
      exact hring.publish

end Device

/-! ## Steps of the host -/

section Host

variable {v : Ring} {pc : DevPc} {stored received : List (List UInt8)} {stage stage' : Option Stage}
  {b : ℕ}

lemma RingInv.of_stage (h : RingInv c b v pc stored received stage)
    (hreads : stage'.any Stage.reads = stage.any Stage.reads)
    (hhost : ∀ st ∈ stage', StageInv c b stored received.length pc.writes st) :
    RingInv c b v pc stored received stage' where
  head := by
    rw [hreads]
    exact h.head
  tail := h.tail
  dirty := h.dirty
  bounded := h.bounded
  room := h.room
  delivered := h.delivered
  fits := h.fits
  intact := h.intact
  device := h.device
  host := hhost

/-- The host has nothing to do with a ring, or comes to it. -/
def Outside (stage : Option Stage) : Prop := stage = none ∨ stage = some .checkDirty

lemma RingInv.of_outside (h : RingInv c b v pc stored received stage)
    (hreads : stage.any Stage.reads = false) (hout : Outside stage') :
    RingInv c b v pc stored received stage' := by
  rcases hout with rfl | rfl
  · exact h.of_stage (by rw [hreads]; rfl) (by simp)
  · refine h.of_stage (by rw [hreads]; rfl) fun st hst => ?_
    cases hst
    trivial

lemma outside_loop (k : ℕ) (j : Fin n) : Outside ((HostPc.loop k).stageOf j) := by
  unfold HostPc.loop
  split_ifs
  · unfold HostPc.stageOf
    dsimp only
    split_ifs
    · exact .inr rfl
    · exact .inl rfl
  · exact .inl rfl

lemma RingInv.checked (h : RingInv c b v pc stored received (some .checkDirty))
    (hdirty : v.dirty = 0) : RingInv c b v pc stored received (some .loadHead) := by
  have hwrites : pc.writes = false := by
    have := h.dirty
    rw [hdirty] at this
    cases pc <;> simp [DevPc.dirty, DevPc.writes] at this ⊢
  refine h.of_stage rfl fun st hst => ?_
  cases hst
  rw [hwrites]
  exact fun hcontra => by cases hcontra

lemma RingInv.loadedHead (h : RingInv c b v pc stored received (some .loadHead)) :
    RingInv c b v pc stored received (some (.loadTail v.head)) := by
  refine h.of_stage rfl fun st hst => ?_
  cases hst
  exact ⟨h.head, h.host _ rfl⟩

lemma RingInv.loadedTail {head : ℕ} (h : RingInv c b v pc stored received (some (.loadTail head)))
    (hne : head ≠ v.tail) : RingInv c b v pc stored received (some .loadRealHead) := by
  obtain ⟨rfl, hwrites⟩ := h.host _ rfl
  have hle := h.delivered.length_le
  have htail := h.tail
  refine h.of_stage rfl fun st hst => ?_
  cases hst
  cases hpc : pc.writes with
  | true => exact hwrites hpc
  | false =>
    rw [hpc] at htail
    exact lt_of_le_of_ne hle fun heq => hne (by rw [htail, heq]; rfl)

lemma RingInv.loadedRealHead (h : RingInv c b v pc stored received (some .loadRealHead)) :
    RingInv c b v pc stored received (some (.addHead (v.head % c.max_entries))) := by
  have hhead : v.head = received.length := h.head
  refine h.of_stage rfl fun st hst => ?_
  cases hst
  exact ⟨h.host _ rfl, by rw [hhead]⟩

variable {real_head a : ℕ} {st : Stage}

section

variable (h : RingInv c b v pc stored received (some (.addHead real_head)))
include h

lemma RingInv.head_lt : v.head + 1 < 2^64 := by
  have hhead : v.head = received.length := h.head
  have hlt : received.length < stored.length := (h.host _ rfl).1
  have htail := h.tail
  have hbounded := h.bounded
  omega

lemma RingInv.addHead : RingInv c b { v with head := v.head + 1 } pc stored received
      (some (.loadSize (c.slot b real_head))) := by
  have hhead : v.head = received.length := h.head
  obtain ⟨hlt, hreal⟩ := h.host _ rfl
  refine { h with head := ?_, host := fun st hst => ?_ }
  · exact congrArg (· + 1) hhead
  · cases hst
    exact ⟨hlt, by rw [hreal]⟩

end

lemma RingInv.next_slot (h : RingInv c b v pc stored received stage)
    (hlt : received.length < stored.length) : received.length % c.max_entries < c.max_entries := by
  have := h.room
  exact mod_lt _ (by omega)

variable {m : Memory}

lemma RingInv.loadedSize {buffer_start : ℕ} (hc : c.Sane)
    (h : RingInv c b (ringOf c m b) pc stored received (some (.loadSize buffer_start))) :
    RingInv c b (ringOf c m b) pc stored received
    (some (.callback (buffer_start + 8) (ofLe (load m buffer_start 8)) [])) := by
  obtain ⟨hlt, rfl⟩ := h.host _ rfl
  have hdata : stored[received.length]? = some stored[received.length] := getElem?_eq_getElem hlt
  have hsize := (h.intact _ _ le_rfl hdata).1
  rw [load_slot (h.next_slot hlt) (by simp [Config.slotSize]), Nat.add_zero] at hsize
  have hfits := h.fits _ (getElem_mem hlt)
  have hvalue := hc.value_size_lt
  refine h.of_stage rfl fun st hst => ?_
  cases hst
  refine ⟨stored[received.length], hdata, ?_, rfl⟩
  rw [hsize, Bytes.ofLe_toLe, mod_eq_of_lt (by omega)]

lemma RingInv.readByte {left : ℕ} {bytes : List UInt8}
    (h : RingInv c b (ringOf c m b) pc stored received (some (.callback a (left + 1) bytes))) :
    RingInv c b (ringOf c m b) pc stored received (some (.callback (a + 1) left (bytes ++ [m a]))) := by
  obtain ⟨rest, hdata, hleft, rfl⟩ := h.host _ rfl
  obtain ⟨hlt, hget⟩ := List.getElem?_eq_some_iff.mp hdata
  obtain ⟨x, rest, rfl⟩ := exists_cons_of_length_eq_add_one hleft
  have hfits := h.fits _ (mem_of_getElem? hdata)
  have hbytes := (h.intact _ _ le_rfl hdata).2
  rw [load_slot (h.next_slot hlt) (by simp [Config.slotSize] at hfits ⊢; omega)] at hbytes
  -- The byte at this place of the record.
  have hx : m (c.slot b (received.length % c.max_entries) + (8 + bytes.length)) = x := by
    have hsome := congrArg (fun l => l[bytes.length]?) hbytes
    rw [getElem?_load (by simp), getElem?_append_right le_rfl, Nat.sub_self, Nat.add_assoc] at hsome
    exact some.inj hsome
  refine h.of_stage rfl fun st hst => ?_
  cases hst
  refine ⟨rest, ?_, succ.inj hleft, by simp; omega⟩
  rw [hx, hdata]
  simp

lemma RingInv.receive {bytes : List UInt8} (h : RingInv c b v pc stored received (some (.callback a 0 bytes))) :
    RingInv c b v pc stored (received ++ [bytes]) none := by
  obtain ⟨rest, hdata, hleft, -⟩ := h.host _ rfl
  obtain rfl := length_eq_zero_iff.mp hleft
  rw [append_nil] at hdata
  refine ⟨?_, h.tail, h.dirty, h.bounded, ?_, ?_, h.fits, ?_, h.device, by simp⟩
  · simpa [Stage.reads] using h.head
  · exact le_trans h.room (by simp)
  · obtain ⟨tail, rfl⟩ := h.delivered
    rw [getElem?_append_right le_rfl, Nat.sub_self] at hdata
    obtain ⟨tail', rfl⟩ : ∃ tail', tail = bytes :: tail' := by
      cases tail with
      | nil => cases hdata
      | cons x tail' => exact ⟨tail', by rw [some.inj hdata]⟩
    exact ⟨tail', by simp⟩
  · intro k data hk hk'
    exact h.intact k data (le_trans (by simp) hk) hk'

lemma Inv.of_host {host : HostPc n} {r : List (Fin n × List UInt8)} (h : Inv c todo s)
    (hhost : s.host = .ring i st)
    (hring : RingInv c i (ringOf c m i) (s.threads i).pc (s.threads i).stored
    (receivedFrom { s with received := r } i) (host.stageOf i))
    (hothers : ∀ j : Fin n, j ≠ i → ringOf c m j = ringOf c s.mem j)
    (hreceived : ∀ j : Fin n, j ≠ i → receivedFrom { s with received := r } j = s.receivedFrom j)
    (hout : ∀ j : Fin n, j ≠ i → Outside (host.stageOf j)) :
    Inv c todo { s with mem := m, host := host, received := r } where
  program := h.program
  ring j := by
    by_cases hj : j = i
    · subst hj
      exact hring
    · have hj' := h.ring j
      have hnone : s.host.stageOf j = none := by
        rw [hhost]
        exact if_neg (Ne.symm hj)
      rw [hnone] at hj'
      have hreceived' : receivedFrom { s with mem := m, host := host, received := r } j =
          s.receivedFrom j := hreceived j hj
      rw [hothers j hj, hreceived']
      exact hj'.of_outside rfl (hout j hj)

lemma stageOf_ring (st : Stage) : (HostPc.ring i st).stageOf i = some st := if_pos rfl

lemma outside_ring (st : Stage) (j : Fin n) (hj : j ≠ i) : Outside ((HostPc.ring i st).stageOf j) :=
  .inl (if_neg (Ne.symm hj))

lemma Inv.next_stage {st' : Stage} (h : Inv c todo s) (hhost : s.host = .ring i st)
    (hring : RingInv c i (ringOf c s.mem i) (s.threads i).pc (s.threads i).stored (s.receivedFrom i)
    (some st')) : Inv c todo { s with host := .ring i st' } := by
  refine h.of_host hhost ?_ (fun _ _ => rfl) (fun _ _ => rfl) (outside_ring st')
  rw [stageOf_ring]
  exact hring

lemma Inv.hostStep (hc : c.Sane) (h : Inv c todo s) : Inv c todo (s.hostStep c) := by
  unfold Sys.hostStep
  cases hhost : s.host with
  | idle =>
    refine ⟨h.program, fun j => ?_⟩
    have hj := h.ring j
    rw [hhost] at hj
    exact hj.of_outside rfl (outside_loop 0 j)
  | ring i st =>
    have hring := h.ring i
    rw [hhost, stageOf_ring] at hring
    cases st with
    | checkDirty =>
      dsimp only
      split_ifs with hdirty
      · exact h.of_host hhost (hring.of_outside rfl (.inl rfl)) (fun _ _ => rfl) (fun _ _ => rfl) fun _ _ => .inl rfl
      · exact h.next_stage hhost (hring.checked (not_not.mp hdirty))
    | loadHead => exact h.next_stage hhost hring.loadedHead
    | loadTail head =>
      dsimp only
      split_ifs with hne
      · exact h.next_stage hhost (hring.loadedTail hne)
      · exact h.of_host hhost (hring.of_outside rfl (outside_loop _ i)) (fun _ _ => rfl)
          (fun _ _ => rfl) fun j _ => outside_loop _ j
    | loadRealHead => exact h.next_stage hhost hring.loadedRealHead
    | addHead real_head =>
      have hbounded : loadHead c s.mem i + 1 < 2^64 := hring.head_lt
      refine h.of_host hhost ?_ (fun j hj => ?_) (fun _ _ => rfl) (outside_ring _)
      · rw [ringOf_store_head hbounded, stageOf_ring]
        exact hring.addHead
      · have hother := ringOf_store_header_of_ne (c := c) (m := s.mem) (o := 0)
          (show 0 + (toLe 8 (loadHead c s.mem i + 1)).length ≤ 24 by simp) j hj
        rwa [Nat.add_zero] at hother
    | loadSize buffer_start => exact h.next_stage hhost (hring.loadedSize hc)
    | callback a left bytes =>
      cases left with
      | succ left => exact h.next_stage hhost hring.readByte
      | zero =>
        have hreceived : receivedFrom { s with received := s.received ++ [(i, bytes)] } i =
            s.receivedFrom i ++ [bytes] := by simp [receivedFrom]
        refine h.of_host hhost ?_ (fun _ _ => rfl) (fun j hj => ?_) fun j _ => outside_loop _ j
        · rw [hreceived]
          exact hring.receive.of_outside rfl (outside_loop _ i)
        · simp [receivedFrom, Ne.symm hj]

end Host

lemma Inv.of_step (hc : c.Sane) (h : Inv c todo s) (op : Op n) (hsound : Sound c s op) :
    ∃ r s', step c s op = some (r, s') ∧ Inv c todo s' := by
  cases op with
  | dev i =>
    refine ⟨(), _, rfl, ?_⟩
    rw [hc.device_eq]
    exact h.devStep hc hsound
  | host => exact ⟨(), _, rfl, h.hostStep hc⟩

end Sys

end Bpftime.GpuRingbuf
