import Bpftime.Cuda.HelperCalls
import Bpftime.Lib.Runs

/-!
# Who is served what

The lock keeps the device threads apart inside `make_helper_call`, and the two flags hand the shared
memory back and forth between the thread with the lock and the watcher.
-/

namespace Bpftime.Cuda

open SharedMemory List Option Function Reader Call DevPc
open Runs (run Along)

/-! ## Requests -/

/-- The data of a call fits the fields of `HelperCallRequest`. -/
def Call.Fits {W : Type} (env : Env W) : Call → Prop
  | mapLookup map key | mapDelete map key => key.length = env.key_size map
  | mapUpdate map key value _ => key.length = env.key_size map ∧ key.length ≤ 2^30 ∧
      value.length = env.value_size map ∧ value.length ≤ 2^30
  | tracePrintk fmt .. => 0 ∈ fmt ∧ fmt.length ≤ 1000
  | getCurrentPidTgid => True
  | puts data => 0 ∉ data ∧ data.length < 10000

instance {W : Type} (env : Env W) : ∀ c : Call, Decidable (c.Fits env)
  | .mapLookup .. | .mapUpdate .. | .mapDelete .. | .tracePrintk .. | .getCurrentPidTgid | .puts _ => by
    unfold Call.Fits
    infer_instance

lemma exists_eq_takeWhile_append {l : List UInt8} (h : 0 ∈ l) :
    ∃ text rest, l.takeWhile (· ≠ 0) = text ∧ l = text ++ 0 :: rest ∧ 0 ∉ text := by
  induction l with
  | nil => cases h
  | cons b l ih =>
    by_cases hb : b = 0
    · exact ⟨[], l, by simp [hb], by simp [hb], by simp⟩
    · obtain ⟨text, rest, htext, hrest, hzero⟩ := ih ((mem_cons.mp h).resolve_left (Ne.symm hb))
      refine ⟨b :: text, rest, ?_, ?_, ?_⟩
      · rw [takeWhile_cons_of_pos (by simpa using hb), htext]
      · rw [hrest, cons_append]
      · simp [hzero, Ne.symm hb]

section ReadRequest

variable {W : Type} {env : Env W} {m : Memory}

lemma run_readRequest_mapUpdate {map flags : BitVec 64} {key value : List UInt8}
    (hfits : (mapUpdate map key value flags).Fits env) :
    (readRequest env 2 map).run (storeAll m (mapUpdate map key value flags).stores) =
    some (.mapUpdate map key value flags.toNat) := by
  obtain ⟨hkey, hkey', hvalue, hvalue'⟩ := hfits
  simp only [readRequest, Call.stores, Reader.run_bind, Reader.run_range, Reader.run_number, Reader.run,
    storeAll_append, storeAll_bytewise, storeAll_cons, storeAll_nil]
  rw [ofLe_load_store (by simpa using flags.isLt), ← hkey, ← hvalue,
    load_store_of_apart (.inl (by simp only [flagsOffset]; omega)),
    load_store_of_apart (.inl (by simp only [valueOffset]; omega)), load_store_self,
    load_store_of_apart (.inl (by simp only [flagsOffset, valueOffset]; omega)), load_store_self]

lemma run_readRequest_tracePrintk {fmt : List UInt8} {arg1 arg2 arg3 : BitVec 64}
    (hfits : (tracePrintk fmt arg1 arg2 arg3).Fits env) :
    (readRequest env 6 0).run (storeAll m (tracePrintk fmt arg1 arg2 arg3).stores) =
    some (tracePrintk fmt arg1 arg2 arg3).request := by
  obtain ⟨hzero, hlen⟩ := hfits
  obtain ⟨text, rest, htext, rfl, hzero'⟩ := exists_eq_takeWhile_append hzero
  have hbelow : ∀ {m : Memory} {a n b : ℕ} {bs : List UInt8}, a + n ≤ b →
      load (store m b bs) a n = load m a n := fun h => load_store_of_apart (.inl h)
  have hword : ∀ v : BitVec 64, v.toNat < 256^8 := fun v => by simpa using v.isLt
  have hlen' : text.length + 1 ≤ (text ++ 0 :: rest).length := by simp
  simp only [readRequest, Call.stores, Call.request, Reader.run_bind, Reader.run_number, Reader.run,
    storeAll_append, storeAll_bytewise, storeAll_cons, storeAll_nil, htext]
  rw [ofLe_load_store (hword arg3), hbelow (show 1016 + 8 ≤ 1024 by decide), ofLe_load_store (hword arg2),
    hbelow (show 1008 + 8 ≤ 1024 by decide), hbelow (show 1008 + 8 ≤ 1016 by decide),
    ofLe_load_store (hword arg1), hbelow (show 1000 + 4 ≤ 1024 by decide),
    hbelow (show 1000 + 4 ≤ 1016 by decide), hbelow (show 1000 + 4 ≤ 1008 by decide),
    ofLe_load_store (show _ < 256^4 by omega)]
  rw [run_cstr hzero' (by omega)]
  -- The string is in front of the other fields.
  rw [hbelow (by omega), hbelow (by omega), hbelow (by omega), hbelow (by omega),
    show text ++ 0 :: rest = (text ++ [0]) ++ rest by simp, show text.length + 1 = (text ++ [0]).length by simp,
    load_store_append]

lemma run_readRequest_puts {data : List UInt8} (hfits : (puts data).Fits env) :
    (readRequest env 501 0).run (storeAll m (Call.puts data).stores) = some (.puts data) := by
  obtain ⟨hzero, hlen⟩ := hfits
  have hstores : storeAll m (puts data).stores = store m 0 (data ++ [0]) := by
    rw [stores, storeAll_append, storeAll_bytewise, storeAll_cons, storeAll_nil, store_append, Nat.zero_add]
  have hload : load (store m 0 (data ++ [0])) 0 (data.length + 1) = data ++ [0] := by
    rw [show data.length + 1 = (data ++ [0]).length by simp, load_store_self]
  simp only [readRequest, Reader.run_bind, Reader.run, hstores, Reader.run_cstr hzero hlen hload]

lemma run_readRequest {c : Call} (hfits : c.Fits env) (hm : Written c.stores m) :
    (readRequest env c.reqId c.mapId).run m = some c.request := by
  obtain ⟨m0, rfl⟩ := hm
  have hkey : ∀ {map : BitVec 64} {key : List UInt8}, key.length = env.key_size map →
      load (storeAll m0 (bytewise 0 key)) 0 (env.key_size map) = key := by
    intro map key hlen
    rw [storeAll_bytewise, ← hlen, load_store_self]
  cases c with
  | mapLookup map key =>
    simp only [readRequest, Call.reqId, Reader.run_bind, Reader.run_range, Reader.run]
    exact congrArg (fun key => some (Request.mapLookup map key)) (hkey hfits)
  | mapUpdate map key value flags => exact run_readRequest_mapUpdate hfits
  | mapDelete map key =>
    simp only [readRequest, Call.reqId, Reader.run_bind, Reader.run_range, Reader.run]
    exact congrArg (fun key => some (Request.mapDelete map key)) (hkey hfits)
  | tracePrintk fmt arg1 arg2 arg3 => exact run_readRequest_tracePrintk hfits
  | getCurrentPidTgid => rfl
  | puts data => exact run_readRequest_puts hfits

end ReadRequest

def DevPc.current : DevPc → List Call
  | idle => []
  | storing c _ | setId c | setMap c | setFlag1 c | waitFlag2 c | clearFlag2 c | loadResp c
  | unlock c _ => [c]

def DevPc.inside : DevPc → Bool
  | idle | storing .. => false
  | _ => true

/-- A thread has stored some of its request, and the host has not answered it. -/
def DevPc.pending : DevPc → Bool
  | storing c left => left ≠ c.stores
  | setId c | setMap c | setFlag1 c | waitFlag2 c => c.stores ≠ []
  | _ => false

/-- A request and its answer, and the call that was made with what it returned. -/
def Answered (e : Request × BitVec 64) (p : Call × BitVec 64) : Prop :=
  e.1 = p.1.request ∧ p.2 = p.1.returned e.2

lemma returned_storeResp (c : Call) (resp v : BitVec 64) :
    c.returned (storeResp c.reqId resp v) = c.returned v := by
  unfold returned storeResp
  split_ifs
  · congr 1
    exact BitVec.extractLsb'_append_eq_right
  · rfl

namespace Sys

variable {ι W : Type} [DecidableEq ι] {env : Env W} {s : Sys ι W} {t : ι}

def servedTo (s : Sys ι W) (t : ι) : List (Request × BitVec 64) :=
  (s.log.filter fun e => e.1 = some t).map Prod.snd

structure Right (todo : ι → List Call) (s : Sys ι W) : Prop where
  program : ∀ t, (s.threads t).results.map Prod.fst ++ (s.threads t).pc.current ++ (s.threads t).todo = todo t
  served : ∀ t, ∃ returned open_, s.servedTo t = returned ++ open_ ∧
    List.Forall₂ Answered returned (s.threads t).results ∧
    open_.map Prod.fst <+: (s.threads t).pc.current.map request
  owned : ∀ e ∈ s.log, e.1 ≠ none

/-- A step is as it should be: the data of a call that begins fits, and a request is stored only
while that of no other thread is pending. -/
def Sound (env : Env W) (s : Sys ι W) : Op ι → Prop
  | .host => True
  | .dev t =>
    match (s.threads t).pc with
    | .idle => ∀ c ∈ (s.threads t).todo.head?, c.Fits env
    | .storing _ (_ :: _) => ∀ t', t' ≠ t → (s.threads t').pc.pending = false
    | _ => True

instance [Fintype ι] (env : Env W) (s : Sys ι W) : ∀ op, Decidable (Sound env s op)
  | .host => isTrue trivial
  | .dev t =>
    match h : (s.threads t).pc with
    | .idle => decidable_of_iff (∀ c ∈ (s.threads t).todo.head?, c.Fits env) (by simp [Sound, h])
    | .storing _ (_ :: _) => decidable_of_iff (∀ t', t' ≠ t → (s.threads t').pc.pending = false) (by simp [Sound, h])
    | .storing _ [] | .setId _ | .setMap _ | .setFlag1 _ | .waitFlag2 _ | .clearFlag2 _ | .loadResp _
    | .unlock .. => isTrue (by simp [Sound, h])

structure View where
  comm : Comm
  host : HostPc
  req : Memory
  served : List (Request × BitVec 64)
  results : List (Call × BitVec 64)

namespace View

variable (v : View)

/-- The flags are down, and the watcher polls. -/
def Quiet : Prop := v.comm.flag1 = false ∧ v.comm.flag2 = false ∧ v.host = .poll

def Unserved : Prop := List.Forall₂ Answered v.served v.results

def ServedWith (c : Call) (x : BitVec 64) : Prop :=
  ∃ returned, v.served = returned ++ [(c.request, x)] ∧ List.Forall₂ Answered returned v.results

/-- The call was served, and the answer is in the shared memory. -/
def Responded (c : Call) : Prop := ∃ x, v.ServedWith c x ∧ c.returned v.comm.resp = c.returned x

/-- The request of the call is in the shared memory. -/
structure Asked (c : Call) : Prop where
  request_id : v.comm.request_id = c.reqId
  map_id : v.comm.map_id = c.mapId
  unserved : v.Unserved
  written : Written c.stores v.req

/-- Where the watcher is while the thread with the lock waits. -/
def Waiting (c : Call) : Prop :=
  match v.host with
  | .poll => (v.comm.flag1 = true ∧ v.comm.flag2 = false ∧ v.Asked c) ∨
      (v.comm.flag1 = false ∧ v.comm.flag2 = true ∧ v.Responded c)
  | .clearFlag1 => v.comm.flag2 = false ∧ v.Asked c
  | .loadId => v.comm.flag1 = false ∧ v.comm.flag2 = false ∧ v.Asked c
  | .loadMap req_id => v.comm.flag1 = false ∧ v.comm.flag2 = false ∧ req_id = c.reqId ∧ v.Asked c
  | .serve req_id r => v.comm.flag1 = false ∧ v.comm.flag2 = false ∧ req_id = c.reqId ∧ v.Unserved ∧
      r.run v.req = some c.request ∧ (c.stores = [] → r = .done (some c.request))
  | .respond req_id x => v.comm.flag1 = false ∧ v.comm.flag2 = false ∧ req_id = c.reqId ∧
      v.ServedWith c x
  | .setFlag2 => v.comm.flag1 = false ∧ v.comm.flag2 = false ∧ v.Responded c

def Phase : DevPc → Prop
  | .idle | .storing .. => False
  | .setId c => v.Quiet ∧ v.Unserved ∧ Written c.stores v.req
  | .setMap c => v.Quiet ∧ v.Unserved ∧ Written c.stores v.req ∧ v.comm.request_id = c.reqId
  | .setFlag1 c => v.Quiet ∧ v.Asked c
  | .waitFlag2 c => v.Waiting c
  | .clearFlag2 c => v.comm.flag1 = false ∧ v.host = .poll ∧ v.Responded c
  | .loadResp c => v.Quiet ∧ v.Responded c
  | .unlock c my_resp => v.Quiet ∧ ∃ x, v.ServedWith c x ∧ c.returned my_resp = c.returned x

end View

structure ThreadInv (env : Env W) (todo : List Call) (k : Comm) (host : HostPc) (m : Memory)
    (served : List (Request × BitVec 64)) (holds : Prop) (th : Thread) : Prop where
  program : th.results.map Prod.fst ++ th.pc.current ++ th.todo = todo
  fits : ∀ c ∈ th.pc.current, c.Fits env
  stored : ∀ c left, th.pc = .storing c left → ∃ made, c.stores = made ++ left ∧ Written made m
  inside_iff : th.pc.inside = true ↔ holds
  outside : ¬ holds → List.Forall₂ Answered served th.results
  held : holds → View.Phase ⟨k, host, m, served, th.results⟩ th.pc

structure Inv (env : Env W) (todo : ι → List Call) (s : Sys ι W) : Prop where
  thread : ∀ t, ThreadInv env (todo t) s.comm s.host s.req (s.servedTo t) (s.holder = some t) (s.threads t)
  occupied : s.occupy_flag = s.holder.isSome
  free : s.holder = none → s.comm.flag1 = false ∧ s.comm.flag2 = false ∧ s.host = .poll
  owned : ∀ e ∈ s.log, e.1 ≠ none

variable {todo : ι → List Call} {th : Thread} {k : Comm} {host : HostPc} {m : Memory}
  {served : List (Request × BitVec 64)} {todo1 : List Call}

lemma ThreadInv.held_of_pc {holds : Prop} {pc : DevPc} (h : ThreadInv env todo1 k host m served holds th)
    (hpc : th.pc = pc) (hin : pc.inside = true) :
    holds ∧ View.Phase ⟨k, host, m, served, th.results⟩ pc := by
  subst hpc
  have hholds := h.inside_iff.mp hin
  exact ⟨hholds, h.held hholds⟩

lemma inv_init (env : Env W) (todo : ι → List Call) (world : W) : Inv env todo (init todo world) where
  thread t :=
    { program := rfl
      fits := by simp [init, current]
      stored := by simp [init]
      inside_iff := by simp [init, inside]
      outside := fun _ => .nil
      held := by simp [init] }
  occupied := rfl
  free _ := ⟨rfl, rfl, rfl⟩
  owned := by simp [init]

variable {pc : DevPc} {c : Call}

lemma View.Phase.served_or {v : View} (h : v.Phase pc) :
    v.Unserved ∨ ∃ c x, pc.current = [c] ∧ v.ServedWith c x := by
  cases pc with
  | idle | storing => exact h.elim
  | setId _ | setMap _ => exact .inl h.2.1
  | setFlag1 c => exact .inl h.2.unserved
  | waitFlag2 c =>
    have hserved : v.Responded c → v.Unserved ∨ ∃ c' x, (waitFlag2 c).current = [c'] ∧
        v.ServedWith c' x := fun ⟨x, hx, _⟩ => .inr ⟨c, x, rfl, hx⟩
    replace h : v.Waiting c := h
    unfold View.Waiting at h
    split at h
    · exact h.elim (fun h => .inl h.2.2.unserved) fun h => hserved h.2.2
    · exact .inl h.2.unserved
    · exact .inl h.2.2.unserved
    · exact .inl h.2.2.2.unserved
    · exact .inl h.2.2.2.1
    · exact .inr ⟨c, _, rfl, h.2.2.2⟩
    · exact hserved h.2.2
  | clearFlag2 c =>
    obtain ⟨-, -, x, hx, -⟩ := h
    exact .inr ⟨c, x, rfl, hx⟩
  | loadResp c | unlock c _ =>
    obtain ⟨-, x, hx, -⟩ := h
    exact .inr ⟨c, x, rfl, hx⟩

lemma Inv.right (h : Inv env todo s) : Right todo s where
  program t := (h.thread t).program
  served t := by
    have ht := h.thread t
    by_cases hholder : s.holder = some t
    · rcases (ht.held hholder).served_or with hunserved | ⟨c, x, hcurrent, returned, hserved, hreturned⟩
      · exact ⟨_, [], (append_nil _).symm, hunserved, nil_prefix⟩
      · refine ⟨returned, [(c.request, x)], hserved, hreturned, ?_⟩
        rw [hcurrent]
        exact prefix_rfl
    · exact ⟨_, [], (append_nil _).symm, ht.outside hholder, nil_prefix⟩
  owned := h.owned

/-! ## Steps of the thread with the lock and of others -/

lemma View.Phase.of_req {v : View} (h : v.Phase pc) (hpending : pc.pending = false)
    (m : Memory) : View.Phase { v with req := m } pc := by
  have hwritten : ∀ {c : Call}, decide (c.stores ≠ []) = false → Written c.stores m := fun {c} hc => by
    have hnil : c.stores = [] := by simpa using hc
    rw [hnil]
    exact written_nil m
  have hasked : ∀ {c : Call}, decide (c.stores ≠ []) = false → v.Asked c →
      View.Asked { v with req := m } c := fun hc ha => ⟨ha.1, ha.2, ha.3, hwritten hc⟩
  cases pc with
  | idle => exact h
  | storing => exact h
  | setId c => exact ⟨h.1, h.2.1, hwritten hpending⟩
  | setMap c => exact ⟨h.1, h.2.1, hwritten hpending, h.2.2.2⟩
  | setFlag1 c => exact ⟨h.1, hasked hpending h.2⟩
  | waitFlag2 c =>
    have hasked' : v.Asked c → View.Asked { v with req := m } c := hasked hpending
    have hnil : c.stores = [] := by simpa [pending] using hpending
    unfold View.Phase View.Waiting at h ⊢
    dsimp only at h ⊢
    split at h
    · exact h.imp (fun h => ⟨h.1, h.2.1, hasked' h.2.2⟩) id
    · exact ⟨h.1, hasked' h.2⟩
    · exact ⟨h.1, h.2.1, hasked' h.2.2⟩
    · exact ⟨h.1, h.2.1, h.2.2.1, hasked' h.2.2.2⟩
    · -- Without data to read, the reader is done.
      obtain ⟨h1, h2, hid, hunserved, -, hdone⟩ := h
      refine ⟨h1, h2, hid, hunserved, ?_, hdone⟩
      rw [hdone hnil]
      rfl
    · exact h
    · exact h
  | clearFlag2 c => exact h
  | loadResp c => exact h
  | unlock c my_resp => exact h

lemma ThreadInv.of_req {holds : Prop} (h : ThreadInv env todo1 k host m served holds th)
    (hpending : th.pc.pending = false) (m' : Memory) : ThreadInv env todo1 k host m' served holds th where
  program := h.program
  fits := h.fits
  stored c left hpc := by
    -- The thread has not begun to store.
    have hleft : left = c.stores := by simpa [hpc, pending] using hpending
    exact ⟨[], by rw [hleft, nil_append], written_nil m'⟩
  inside_iff := h.inside_iff
  outside := h.outside
  held hholds := (h.held hholds).of_req hpending m'

lemma ThreadInv.of_not_holds {holds holds' : Prop} (h : ThreadInv env todo1 k host m served holds th)
    (hnot : ¬ holds) (hnot' : ¬ holds') (k' : Comm) (host' : HostPc) :
    ThreadInv env todo1 k' host' m served holds' th where
  program := h.program
  fits := h.fits
  stored := h.stored
  inside_iff := h.inside_iff.trans (iff_of_false hnot hnot')
  outside _ := h.outside hnot
  held hholds := absurd hholds hnot'

lemma Inv.of_outside (h : Inv env todo s)
    (hth : ThreadInv env (todo t) s.comm s.host m (s.servedTo t) (s.holder = some t) th)
    (hothers : m = s.req ∨ ∀ t', t' ≠ t → (s.threads t').pc.pending = false) :
    Inv env todo { s with req := m, threads := update s.threads t th } where
  thread := by
    refine (forall_update_iff s.threads (p := fun t' th =>
      ThreadInv env (todo t') s.comm s.host m (s.servedTo t') (s.holder = some t') th)).mpr
        ⟨hth, fun t' ht' => ?_⟩
    rcases hothers with rfl | hothers
    · exact h.thread t'
    · exact (h.thread t').of_req (hothers t' ht') m
  occupied := h.occupied
  free := h.free
  owned := h.owned

lemma Inv.of_inside (h : Inv env todo s) (holder : Option ι) (hholder : s.holder = none ∨ s.holder = some t)
    (hholder' : holder = some t ∨ holder = none ∧ k.flag1 = false ∧ k.flag2 = false ∧ s.host = .poll)
    (hth : ThreadInv env (todo t) k s.host s.req (s.servedTo t) (holder = some t) th) :
    Inv env todo { s with
      comm := k
      occupy_flag := holder.isSome
      holder := holder
      threads := update s.threads t th } where
  thread := by
    refine (forall_update_iff s.threads (p := fun t' th =>
      ThreadInv env (todo t') k s.host s.req (s.servedTo t') (holder = some t') th)).mpr
        ⟨hth, fun t' ht' => ?_⟩
    have hnot : ∀ {o : Option ι}, o = none ∨ o = some t → o ≠ some t' := by
      rintro o (rfl | rfl) heq
      · cases heq
      · exact ht' (some.inj heq).symm
    exact (h.thread t').of_not_holds (hnot hholder) (hnot (hholder'.symm.imp_left And.left)) k s.host
  occupied := rfl
  free hnone := by
    rcases hholder' with hsome | ⟨-, hquiet⟩
    · exact absurd (hsome.symm.trans hnone) (some_ne_none t)
    · exact hquiet
  owned := h.owned

lemma Inv.goto_inside (h : Inv env todo s) (hholder : s.holder = some t)
    (hin : pc.inside = true) (hcurrent : pc.current = (s.threads t).pc.current)
    (hphase : View.Phase ⟨k, s.host, s.req, s.servedTo t, (s.threads t).results⟩ pc) :
    Inv env todo ({ s with comm := k }.goto t pc) := by
  have ht := h.thread t
  have hth : ThreadInv env (todo t) k s.host s.req (s.servedTo t) (s.holder = some t)
      { s.threads t with pc } :=
    { program := by
        rw [hcurrent]
        exact ht.program
      fits := by
        rw [hcurrent]
        exact ht.fits
      stored := by
        rintro c left rfl
        cases hin
      inside_iff := iff_of_true hin hholder
      outside := absurd hholder
      held := fun _ => hphase }
  have hinv := h.of_inside s.holder (.inr hholder) (.inl hholder) hth
  rw [← h.occupied] at hinv
  exact hinv

/-- A step of a device thread. -/
lemma Inv.devStep (h : Inv env todo s) (hsound : Sound env s (.dev t)) : Inv env todo (s.devStep t) := by
  have ht := h.thread t
  unfold Sys.devStep
  unfold Sound at hsound
  cases hpc : (s.threads t).pc with
  | idle =>
    have hnot : ¬ s.holder = some t := fun hholder => by
      have := ht.inside_iff.mpr hholder
      rw [hpc] at this
      cases this
    cases htodo : (s.threads t).todo with
    | nil => exact h
    | cons c rest =>
      simp only [hpc, htodo] at hsound
      refine h.of_outside ⟨?_, ?_, ?_, ?_, ht.outside, fun hholder => absurd hholder hnot⟩ (.inl rfl)
      · have hprogram := ht.program
        rw [hpc, htodo] at hprogram
        simpa [current] using hprogram
      · intro c' hc'
        obtain rfl : c' = c := by simpa [current] using hc'
        exact hsound c' rfl
      · rintro c' left ⟨⟩
        exact ⟨[], rfl, written_nil _⟩
      · exact iff_of_false (by simp [inside]) hnot
  | storing c left =>
    have hnot : ¬ s.holder = some t := fun hholder => by
      have := ht.inside_iff.mpr hholder
      rw [hpc] at this
      cases this
    obtain ⟨made, hmade, hwritten⟩ := ht.stored c left hpc
    have hprogram := ht.program
    have hfits := ht.fits
    rw [hpc] at hprogram hfits
    cases left with
    | cons st left =>
      simp only [hpc] at hsound
      refine h.of_outside ⟨hprogram, hfits, ?_, ?_, ht.outside, fun hholder =>
        absurd hholder hnot⟩ (.inr hsound)
      · rintro c' left' ⟨⟩
        exact ⟨made ++ [st], by rw [hmade, append_assoc]; rfl, hwritten.snoc st⟩
      · exact iff_of_false (by simp [inside]) hnot
    | nil =>
      dsimp only
      split_ifs with hoccupied
      · exact h
      · -- The lock is free, so that nothing goes on.
        have hnone : s.holder = none := by
          rw [h.occupied] at hoccupied
          simpa using hoccupied
        rw [append_nil] at hmade
        refine h.of_inside (some t) (.inl hnone) (.inl rfl) ⟨hprogram, hfits, ?_, ?_, ?_, ?_⟩
        · rintro c' left' ⟨⟩
        · exact iff_of_true rfl rfl
        · exact absurd rfl
        · exact fun _ => ⟨h.free hnone, ht.outside hnot, hmade ▸ hwritten⟩
  | setId c =>
    obtain ⟨hholder, hphase⟩ := ht.held_of_pc hpc rfl
    obtain ⟨hquiet, hunserved, hwritten⟩ := hphase
    exact h.goto_inside hholder rfl (by rw [hpc]; rfl) ⟨hquiet, hunserved, hwritten, rfl⟩
  | setMap c =>
    obtain ⟨hholder, hphase⟩ := ht.held_of_pc hpc rfl
    obtain ⟨hquiet, hunserved, hwritten, hid⟩ := hphase
    exact h.goto_inside hholder rfl (by rw [hpc]; rfl) ⟨hquiet, ⟨hid, rfl, hunserved, hwritten⟩⟩
  | setFlag1 c =>
    obtain ⟨hholder, hphase⟩ := ht.held_of_pc hpc rfl
    obtain ⟨⟨-, hflag2, hpoll⟩, hasked⟩ := hphase
    refine h.goto_inside hholder rfl (by rw [hpc]; rfl) ?_
    unfold View.Phase View.Waiting
    dsimp only at hpoll ⊢
    rw [hpoll]
    exact .inl ⟨rfl, hflag2, hasked.1, hasked.2, hasked.3, hasked.4⟩
  | waitFlag2 c =>
    obtain ⟨hholder, hphase⟩ := ht.held_of_pc hpc rfl
    dsimp only
    split_ifs with hflag2
    · -- The flag is up only when the watcher polls again.
      refine h.goto_inside hholder rfl (by rw [hpc]; rfl) ?_
      unfold View.Phase View.Waiting at hphase
      dsimp only at hphase
      rw [hflag2] at hphase
      split at hphase
      · rename_i hpoll
        obtain ⟨-, hcontra, -⟩ | ⟨hflag1, -, hresponded⟩ := hphase
        · cases hcontra
        · exact ⟨hflag1, hpoll, hresponded⟩
      all_goals simp at hphase
    · exact h
  | clearFlag2 c =>
    obtain ⟨hholder, hphase⟩ := ht.held_of_pc hpc rfl
    obtain ⟨hflag1, hpoll, hresponded⟩ := hphase
    exact h.goto_inside hholder rfl (by rw [hpc]; rfl) ⟨⟨hflag1, rfl, hpoll⟩, hresponded⟩
  | loadResp c =>
    obtain ⟨hholder, hphase⟩ := ht.held_of_pc hpc rfl
    obtain ⟨hquiet, hresponded⟩ := hphase
    exact h.goto_inside hholder rfl (by rw [hpc]; rfl) ⟨hquiet, hresponded⟩
  | unlock c my_resp =>
    obtain ⟨hholder, hphase⟩ := ht.held_of_pc hpc rfl
    have hprogram := ht.program
    rw [hpc] at hprogram
    obtain ⟨⟨hflag1, hflag2, hpoll⟩, x, ⟨returned, hserved, hreturned⟩, hx⟩ := hphase
    refine h.of_inside none (.inr hholder) (.inr ⟨rfl, hflag1, hflag2, hpoll⟩) ⟨?_, ?_, ?_, ?_, ?_, ?_⟩
    · simpa [current] using hprogram
    · simp [current]
    · rintro c' left ⟨⟩
    · exact iff_of_false (by simp [inside]) (by simp)
    · intro _
      dsimp only at hserved
      rw [hserved]
      exact rel_append hreturned (.cons ⟨rfl, hx⟩ .nil)
    · intro hcontra
      cases hcontra

lemma Inv.of_host (h : Inv env todo s) (hholder : s.holder = some t)
    (hpc : (s.threads t).pc = .waitFlag2 c) {world : W} {log : List (Option ι × Request × BitVec 64)}
    (hlog : log = s.log ∨ ∃ rq x, log = s.log ++ [(some t, rq, x)]) (hwait : View.Waiting ⟨k, host, s.req,
      servedTo ({ s with comm := k, host := host, world := world, log := log } : Sys ι W) t, (s.threads t).results⟩ c) :
    Inv env todo { s with comm := k, host := host, world := world, log := log } where
  thread t' := by
    by_cases ht : t' = t
    · subst ht
      have ht' := h.thread t'
      refine ⟨ht'.program, ht'.fits, ht'.stored, ht'.inside_iff, fun hnot =>
        absurd hholder hnot, fun _ => ?_⟩
      rw [hpc]
      exact hwait
    · have hnot : ¬ s.holder = some t' := fun heq => ht (some.inj (heq.symm.trans hholder))
      have hserved : servedTo ({ s with comm := k, host := host, world := world, log := log } : Sys ι W) t' =
          s.servedTo t' := by
        unfold servedTo
        rcases hlog with rfl | ⟨rq, x, rfl⟩
        · rfl
        · simp [Ne.symm ht]
      rw [hserved]
      exact (h.thread t').of_not_holds hnot hnot k host
  occupied := h.occupied
  free hnone := absurd (hholder.symm.trans hnone) (some_ne_none t)
  owned e he := by
    rcases hlog with rfl | ⟨rq, x, rfl⟩
    · exact h.owned e he
    · rcases mem_append.mp he with he | he
      · exact h.owned e he
      · rw [mem_singleton.mp he]
        exact some_ne_none t

omit [DecidableEq ι] in
lemma hostStep_eq_self (hpoll : s.host = .poll) (hflag1 : s.comm.flag1 = false) : s.hostStep env = s := by
  unfold hostStep
  rw [hpoll]
  simp [hflag1]

lemma View.Asked.of_comm {v : View} (h : v.Asked c) (k : Comm)
    (hid : k.request_id = v.comm.request_id) (hmap : k.map_id = v.comm.map_id) (host : HostPc) :
    View.Asked { v with comm := k, host := host } c :=
  ⟨hid.trans h.request_id, hmap.trans h.map_id, h.unserved, h.written⟩

lemma readRequest_of_stores_eq_nil (hfits : c.Fits env) (hnil : c.stores = []) :
    readRequest env c.reqId c.mapId = .done (some c.request) := by
  have hkey : ∀ {map : BitVec 64} {key : List UInt8}, key.length = env.key_size map →
      bytewise 0 key = [] → key = [] ∧ env.key_size map = 0 := by
    intro map key hlen hnil
    cases key with
    | nil => exact ⟨rfl, hlen.symm⟩
    | cons => cases hnil
  cases c with
  | mapLookup _ _ | mapDelete _ _ =>
    obtain ⟨rfl, hsize⟩ := hkey hfits hnil
    simp [readRequest, Call.reqId, Call.mapId, Call.request, hsize, Reader.range, Reader.bind]
  | getCurrentPidTgid => rfl
  | mapUpdate | tracePrintk | puts => simp [stores] at hnil

lemma Inv.hostStep_waiting (h : Inv env todo s) (hholder : s.holder = some t)
    (hpc : (s.threads t).pc = .waitFlag2 c) : Inv env todo (s.hostStep env) := by
  have hfits : c.Fits env := (h.thread t).fits c (by rw [hpc]; exact mem_singleton_self c)
  have hwait := (h.thread t).held hholder
  rw [hpc] at hwait
  replace hwait : View.Waiting ⟨s.comm, s.host, s.req, s.servedTo t, (s.threads t).results⟩ c := hwait
  unfold hostStep
  unfold View.Waiting at hwait
  cases hhost : s.host with
  | poll =>
    rw [hhost] at hwait
    rcases hwait with ⟨hflag1, hflag2, hasked⟩ | ⟨hflag1, -⟩
    · rw [if_pos hflag1]
      exact h.of_host hholder hpc (.inl rfl) ⟨hflag2, hasked.of_comm s.comm rfl rfl _⟩
    · rw [hflag1]
      exact h
  | clearFlag1 =>
    rw [hhost] at hwait
    obtain ⟨hflag2, hasked⟩ := hwait
    exact h.of_host hholder hpc (.inl rfl) ⟨rfl, hflag2,
      hasked.of_comm { s.comm with flag1 := false } rfl rfl _⟩
  | loadId =>
    rw [hhost] at hwait
    obtain ⟨hflag1, hflag2, hasked⟩ := hwait
    exact h.of_host hholder hpc (.inl rfl) ⟨hflag1, hflag2, hasked.request_id,
      hasked.of_comm s.comm rfl rfl _⟩
  | loadMap req_id =>
    rw [hhost] at hwait
    obtain ⟨hflag1, hflag2, rfl, hasked⟩ := hwait
    have hmap : s.comm.map_id = c.mapId := hasked.map_id
    refine h.of_host hholder hpc (.inl rfl) ⟨hflag1, hflag2, rfl, hasked.unserved, ?_, fun hnil => ?_⟩
    · rw [hmap]
      exact run_readRequest hfits hasked.written
    · rw [hmap]
      exact readRequest_of_stores_eq_nil hfits hnil
  | serve req_id r =>
    rw [hhost] at hwait
    obtain ⟨hflag1, hflag2, rfl, hunserved, hrun, hnil⟩ := hwait
    cases r with
    | load a n next =>
      have hstores : c.stores ≠ [] := fun heq => by cases hnil heq
      exact h.of_host hholder hpc (.inl rfl) ⟨hflag1, hflag2, rfl, hunserved, hrun, fun heq =>
        absurd heq hstores⟩
    | done rq =>
      obtain rfl : rq = some c.request := hrun
      -- The call is served, and the thread that waits has the lock.
      refine h.of_host hholder hpc (.inr ⟨_, _, by rw [hholder]⟩) ⟨hflag1, hflag2, rfl, ?_⟩
      refine ⟨s.servedTo t, ?_, hunserved⟩
      simp [servedTo, hholder]
  | respond req_id x =>
    rw [hhost] at hwait
    obtain ⟨hflag1, hflag2, rfl, hserved⟩ := hwait
    exact h.of_host hholder hpc (.inl rfl) ⟨hflag1, hflag2, x, hserved, returned_storeResp c s.comm.resp x⟩
  | setFlag2 =>
    rw [hhost] at hwait
    obtain ⟨hflag1, -, hresponded⟩ := hwait
    exact h.of_host hholder hpc (.inl rfl) (.inr ⟨hflag1, rfl, hresponded⟩)

lemma View.Phase.polls {v : View} (h : v.Phase pc) (hpc : ∀ c, pc ≠ .waitFlag2 c) :
    v.host = .poll ∧ v.comm.flag1 = false := by
  cases pc with
  | idle | storing => exact h.elim
  | waitFlag2 c => exact absurd rfl (hpc c)
  | clearFlag2 c => exact ⟨h.2.1, h.1⟩
  | setId _ | setMap _ | setFlag1 _ | loadResp _ | unlock _ _ => exact ⟨h.1.2.2, h.1.1⟩

lemma Inv.hostStep (h : Inv env todo s) : Inv env todo (s.hostStep env) := by
  cases hholder : s.holder with
  | none =>
    obtain ⟨hflag1, -, hpoll⟩ := h.free hholder
    rw [hostStep_eq_self hpoll hflag1]
    exact h
  | some t =>
    by_cases hpc : ∃ c, (s.threads t).pc = .waitFlag2 c
    · obtain ⟨c, hpc⟩ := hpc
      exact h.hostStep_waiting hholder hpc
    · obtain ⟨hpoll, hflag1⟩ := ((h.thread t).held hholder).polls fun c hc => hpc ⟨c, hc⟩
      rw [hostStep_eq_self hpoll hflag1]
      exact h

lemma Inv.of_step (h : Inv env todo s) (op : Op ι) (hsound : Sound env s op) :
    ∃ r s', step env s op = some (r, s') ∧ Inv env todo s' := by
  cases op with
  | dev t => exact ⟨(), _, rfl, h.devStep hsound⟩
  | host => exact ⟨(), _, rfl, h.hostStep⟩

end Sys

end Bpftime.Cuda
