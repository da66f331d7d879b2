import Bpftime.Shm.LinkIntegrity

/-!
# Export and import

A table that is exported to a file and imported into an empty table.
-/

namespace Bpftime

open BpftimeShm (read)
open Json (attr handlerType index num toStr)
open Numerals List Prod Option Int Except Json Int32 Bind String Runs

variable {i : ℕ} {hs : List Handler}

lemma toString_inj_of_lt {j : ℕ} (hi : i < 2^31) (hj : j < 2^31) (h : toString i = toString j) : i = j := by
  have hi' := stoi_toString hi
  rw [h, stoi_toString hj] at hi'
  exact_mod_cast (some.inj hi').symm

namespace Json

variable {key : String} {value : Json} {members : List (String × Json)}

lemma mem_insertMember (hnew : ∀ p ∈ members, p.1 ≠ key) (p : String × Json) :
    p ∈ insertMember key value members ↔ p = (key, value) ∨ p ∈ members := by
  induction members with
  | nil => simp [insertMember]
  | cons q members ih =>
    obtain ⟨k, v⟩ := q
    have hk : k ≠ key := hnew (k, v) mem_cons_self
    unfold insertMember
    split_ifs with hlt heq
    · simp
    · exact absurd heq.symm hk
    · rw [mem_cons, mem_cons, ih fun q hq => hnew q (mem_cons_of_mem _ hq)]
      tauto

lemma pairwise_insertMember (hnew : ∀ p ∈ members, p.1 ≠ key)
    (hsorted : members.Pairwise fun p q => p.1 < q.1) :
    (insertMember key value members).Pairwise fun p q => p.1 < q.1 := by
  induction members with
  | nil => simp [insertMember]
  | cons q members ih =>
    obtain ⟨k, v⟩ := q
    have hk : k ≠ key := hnew (k, v) mem_cons_self
    have hnew' : ∀ p ∈ members, p.1 ≠ key := fun p hp => hnew p (mem_cons_of_mem _ hp)
    obtain ⟨hhead, htail⟩ := pairwise_cons.mp hsorted
    unfold insertMember
    split_ifs with hlt heq
    · refine pairwise_cons.mpr ⟨fun p hp => ?_, hsorted⟩
      rcases mem_cons.mp hp with rfl | hp
      · exact hlt
      · exact hlt.trans (hhead p hp)
    · exact absurd heq.symm hk
    · refine pairwise_cons.mpr ⟨fun p hp => ?_, ih hnew' htail⟩
      rcases (mem_insertMember hnew' p).mp hp with rfl | hp
      · exact lt_of_le_of_ne (not_lt.mp hlt) hk
      · exact hhead p hp

end Json

/-- The members for the slots in front of `i`, in the order of their keys. -/
structure Exported (hs : List Handler) (i : ℕ) (members : List (String × Json)) : Prop where
  sorted : members.Pairwise fun p q => p.1 < q.1
  mem_iff : ∀ k v, (k, v) ∈ members ↔
    ∃ j < i, ∃ h, hs[j]? = some h ∧ handlerToJson h = some v ∧ k = toString j

lemma Exported.succ {members : List (String × Json)} {h : Handler}
    {v : Json} (hex : Exported hs i members) (hi : i < 2^31) (hget : hs[i]? = some h)
    (hv : handlerToJson h = some v) :
    Exported hs (i + 1) (insertMember (toString i) v members) := by
  have hnew : ∀ p ∈ members, p.1 ≠ toString i := by
    intro p hp heq
    obtain ⟨j, hj, -, -, -, hkey⟩ := (hex.mem_iff p.1 p.2).mp hp
    have := toString_inj_of_lt (by omega) hi (hkey.symm.trans heq)
    omega
  refine ⟨pairwise_insertMember hnew hex.sorted, fun k w => ?_⟩
  rw [mem_insertMember hnew, hex.mem_iff]
  constructor
  · rintro (heq | ⟨j, hj, h', hj', hw, hk⟩)
    · cases heq
      exact ⟨i, by omega, h, hget, hv, rfl⟩
    · exact ⟨j, by omega, h', hj', hw, hk⟩
  · rintro ⟨j, hj, h', hj', hw, hk⟩
    rcases Nat.lt_succ_iff_lt_or_eq.mp hj with hlt | rfl
    · exact .inr ⟨j, hlt, h', hj', hw, hk⟩
    · rw [hget] at hj'
      cases hj'
      rw [hv] at hw
      cases hw
      exact .inl (by rw [hk])

lemma Exported.skip {members : List (String × Json)}
    (hex : Exported hs i members) (hget : hs[i]? = some .unused) : Exported hs (i + 1) members := by
  refine ⟨hex.sorted, fun k v => ?_⟩
  rw [hex.mem_iff]
  constructor
  · rintro ⟨j, hj, h', hj', hw, hk⟩
    exact ⟨j, by omega, h', hj', hw, hk⟩
  · rintro ⟨j, hj, h', hj', hw, hk⟩
    rcases Nat.lt_succ_iff_lt_or_eq.mp hj with hlt | rfl
    · exact ⟨j, hlt, h', hj', hw, hk⟩
    · rw [hget] at hj'
      cases hj'
      simp [handlerToJson] at hw

lemma handlerToJson_eq_none {h : Handler} (hne : h ≠ .unused) :
    handlerToJson h = none ↔ ∃ name flags, h = .memfd name flags := by
  cases h <;> simp_all [handlerToJson]

lemma exportItems_spec (hlen : hs.length ≤ 2^31) {members : List (String × Json)}
    (hex : Exported hs i members) :
    (exportItems (hs.drop i) i members = none ∧ ∃ name flags, .memfd name flags ∈ hs.drop i) ∨
    ((∀ name flags, .memfd name flags ∉ hs.drop i) ∧
    ∃ ms, exportItems (hs.drop i) i members = some ms ∧ Exported hs hs.length ms) := by
  generalize hrest : hs.drop i = rest
  induction rest generalizing i members with
  | nil =>
    have hi : hs.length ≤ i := drop_eq_nil_iff.mp hrest
    refine .inr ⟨by simp, members, rfl, hex.sorted, fun k v => ?_⟩
    rw [hex.mem_iff]
    constructor
    · rintro ⟨j, -, h, hj, hv⟩
      exact ⟨j, (List.getElem?_eq_some_iff.mp hj).1, h, hj, hv⟩
    · rintro ⟨j, hj, h, hj', hv⟩
      exact ⟨j, by omega, h, hj', hv⟩
  | cons h rest ih =>
    have hget : hs[i]? = some h := by
      rw [← head?_drop, hrest]
      rfl
    have hi : i < hs.length := (List.getElem?_eq_some_iff.mp hget).1
    have hrest' : hs.drop (i + 1) = rest := by
      rw [← tail_drop, hrest]
      rfl
    unfold exportItems
    by_cases hun : h = .unused
    · subst hun
      rw [if_pos rfl]
      simpa using ih (hex.skip hget) hrest'
    · rw [if_neg hun]
      cases hv : handlerToJson h with
      | none =>
        obtain ⟨name, flags, rfl⟩ := (handlerToJson_eq_none hun).mp hv
        exact .inl ⟨rfl, name, flags, mem_cons_self⟩
      | some v =>
        have hnot : ∀ name flags, h ≠ .memfd name flags := by
          rintro name flags rfl
          simp [handlerToJson] at hv
        rcases ih (hex.succ (by omega) hget hv) hrest' with ⟨hnone, name, flags, hmem⟩ | ⟨hno, hsome⟩
        · exact .inl ⟨hnone, name, flags, mem_cons_of_mem _ hmem⟩
        · refine .inr ⟨fun name flags hmem => ?_, hsome⟩
          rcases mem_cons.mp hmem with heq | hmem
          · exact hnot name flags heq.symm
          · exact hno name flags hmem

/-! ## Import of one handler -/

/-- A handler and what comes back for it: the same kind, with what the export writes of it. -/
def Handler.Agrees : Handler → Handler → Prop
  | .unused, .unused => True
  | .map m, .map m' => m'.name = m.name ∧ { m'.attr with gpu_thread_count := m.attr.gpu_thread_count } = m.attr
  | .prog p, .prog p' => p'.name = p.name ∧ p'.insns = p.insns
  | .perfEvent e, .perfEvent e' => e' = e
  | .link l, .link l' => l'.prog_id = l.prog_id ∧ l'.attach_target_id = l.attach_target_id
  | _, _ => False

/-- The handlers that come back from slot `i`. -/
def Handler.Exchanged (i : ℤ) : Handler → Prop
  | .unused => True
  | .map m => cStr m.name = m.name
  | .prog p => cStr p.name = p.name ∧ p.insns.length < 2^31
  | .perfEvent e => e.type = 2 ∧ ∃ pid tracepoint_id, e.data = .tracepoint pid tracepoint_id
  | .link l => toString l.prog_id.toNat < toString i.toNat ∧ -2^31 ≤ l.attach_target_id ∧ l.attach_target_id < 2^31
  | .epoll => False
  | .memfd _ _ => False

lemma toUInt32_num (w : UInt32) : (num w.toNat).toUInt32 = .ok w := by
  have hlt := w.toNat_lt
  have hword : UInt32.ofInt (w.toNat : ℤ) = w := by
    rw [UInt32.ofInt, emod_eq_of_lt (by omega) (by omega), toNat_natCast, UInt32.ofNat_toNat]
  exact congrArg ok hword

lemma toUInt64_num (w : UInt64) : (num w.toNat).toUInt64 = .ok w := by
  have hlt := w.toNat_lt
  have hword : UInt64.ofInt (w.toNat : ℤ) = w := by
    rw [UInt64.ofInt, emod_eq_of_lt (by omega) (by omega), toNat_natCast, UInt64.ofNat_toNat]
  exact congrArg ok hword

lemma toInt32_num (w : Int32) : (num w.toInt).toInt32 = .ok w := congrArg ok (ofInt_toInt w)

lemma toInt32_ofInt {n : ℤ} (hmin : -2^31 ≤ n) (hmax : n < 2^31) : (UInt32.ofInt n).toInt32.toInt = n := by
  have hword : (UInt32.ofInt n).toInt32 = ofInt n := by
    apply toBitVec.inj
    apply BitVec.eq_of_toNat_eq
    simp only [UInt32.ofInt, toBitVec_ofInt, BitVec.toNat_ofInt]
    simp
    omega
  rw [hword, toInt_ofInt_of_le hmin hmax]

lemma jsonToBpfMapAttr_toJson (attr : BpfMapAttr) : BpftimeShm.jsonToBpfMapAttr
    (bpfMapAttrToJson attr) = .ok { attr with gpu_thread_count := 1000 } := by
  simp [BpftimeShm.jsonToBpfMapAttr, bpfMapAttrToJson, constIndex, lookup_cons, toUInt32_num,
    toUInt64_num, toInt32_num, bind, Except.bind, pure, Except.pure]

namespace BpftimeShm

variable {s s' : BpftimeShm} {fd : ℤ}

/-- Slot `fd` of a table was unused and is filled with `h'`. -/
def FilledWith (s : BpftimeShm) (fd : ℤ) (h' : Handler) (s' : BpftimeShm) : Prop :=
  ∀ i, s'.getHandler i = if i = fd then some h' else s.getHandler i

variable {h : Handler} {v : Json}

lemma orFakeFd_of_getHandler (hfd : s.getHandler fd = some h) : s.orFakeFd fd = (fd, s) := by
  have hpos := (getHandler_eq_some.mp hfd).1
  unfold orFakeFd
  rw [if_neg (by omega)]

lemma setHandler_filledWith (hfd : s.getHandler fd = some .unused)
    (hne : h ≠ .unused) : ∃ s', s.setHandler fd h = some (fd, s') ∧
    s.FilledWith fd (initialised s.segment h).1 s' :=
  ⟨_, setHandler_of_unused hfd hne, getHandler_filled hfd _ _⟩

lemma mapInit_attr (m : BpfMapHandler) (g : Segment) :
    (m.mapInit g).2.1.attr = m.attr ∧ (m.mapInit g).2.1.name = m.name := by
  unfold BpfMapHandler.mapInit
  split_ifs <;> exact ⟨rfl, rfl⟩

abbrev ImportsAs (s : BpftimeShm) (v : Json) (fd : ℤ) (h : Handler) : Prop :=
  ∃ s' h', s.importShmHandlerFromJson v fd = some (.ret 0, s') ∧ h.Agrees h' ∧ s.FilledWith fd h' s'

lemma importMap_toJson {m : BpfMapHandler} (hv : handlerToJson (.map m) = some v)
    (hname : cStr m.name = m.name) (hfd : s.getHandler fd = some .unused) : s.ImportsAs v fd (.map m) := by
  cases hv
  obtain ⟨s', hset, hfill⟩ := setHandler_filledWith
    (h := .map ⟨{ m.attr with gpu_thread_count := 1000 }, m.name, none⟩) hfd (by simp)
  refine ⟨s', _, ?_, ?_, hfill⟩
  · simp [importShmHandlerFromJson, importMap, mapFields, read, handlerType, index,
      lookup_cons, toStr, jsonToBpfMapAttr_toJson, addBpfMap, orFakeFd_of_getHandler hfd, hfd,
      hname, hset, bind, Except.bind, pure, Except.pure]
  · obtain ⟨hattr, hname'⟩ := mapInit_attr
      ⟨{ m.attr with gpu_thread_count := 1000 }, m.name, none⟩ s.segment
    exact ⟨hname', by rw [hattr]⟩

lemma importProg_toJson {p : BpfProgHandler} (hv : handlerToJson (.prog p) = some v)
    (hname : cStr p.name = p.name) (hlen : p.insns.length < 2^31)
    (hfd : s.getHandler fd = some .unused) : s.ImportsAs v fd (.prog p) := by
  cases hv
  have hcnt : (num p.insns.length).toInt32 = .ok (ofInt p.insns.length) := rfl
  have hcount : (ofInt p.insns.length).toInt = p.insns.length := toInt_ofInt_of_le (by omega) (by omega)
  have hhex : hexStringToBuffer (bufferToHexString (insnBytes p.insns)) (p.insns.length * 8) =
      .ok (insnBytes p.insns) := by rw [← length_insnBytes, hexStringToBuffer_bufferToHexString]
  obtain ⟨s', hset, hfill⟩ := setHandler_filledWith
    (s := { s with prog_types := s.prog_types.tail })
    (h := .prog ⟨s.prog_types.head, p.insns, p.name⟩) hfd (by simp)
  have hopen := orFakeFd_of_getHandler (s := { s with prog_types := s.prog_types.tail }) hfd
  refine ⟨s', .prog ⟨s.prog_types.head, p.insns, p.name⟩, ?_, ⟨rfl, rfl⟩, hfill⟩
  simp [importShmHandlerFromJson, importProg, progFields, read, handlerType, attr, index,
    lookup_cons, toStr, toInt32_num, hcnt, hcount, hhex, insnsOfBytes_insnBytes, hname,
    addBpfProg, setHandlerAt, hopen, hset, elements, attachAll,
    bind, Except.bind, pure, Except.pure]

lemma importPerfEvent_toJson {e : BpfPerfEventHandler} {pid tracepoint_id : Int32}
    (hv : handlerToJson (.perfEvent e) = some v) (htype : e.type = 2)
    (hdata : e.data = .tracepoint pid tracepoint_id) (hfd : s.getHandler fd = some .unused) :
    s.ImportsAs v fd (.perfEvent e) := by
  obtain ⟨type, enabled, data⟩ := e
  subst htype hdata
  cases hv
  obtain ⟨s', hset, hfill⟩ := setHandler_filledWith
    (h := .perfEvent ⟨2, false, .tracepoint pid tracepoint_id⟩) hfd (by simp)
  have htwo : (num 2).toInt32 = .ok 2 := rfl
  have hcall : s.importShmHandlerFromJson (.obj [("type", .str "bpf_perf_event_handler"),
      ("attr", bpfPerfEventHandlerAttrToJson ⟨2, enabled, .tracepoint pid tracepoint_id⟩),
      ("enabled", .bool enabled)]) fd =
      some (.ret 0, if enabled then (s'.perfEventEnable fd true).2 else s') := by
    simp [importShmHandlerFromJson, importPerfEvent, perfFields, bpfPerfEventHandlerAttrToJson,
      perfEventDataMembers, read, handlerType, attr, index, lookup_cons,
      toStr, Json.toBool, htwo, toInt32_num, importEnabled, addTracepoint, setHandlerAt,
      orFakeFd_of_getHandler hfd, hset, bind, Except.bind, pure, Except.pure]
  have hself : s'.getHandler fd = some (.perfEvent ⟨2, false, .tracepoint pid tracepoint_id⟩) := by
    rw [hfill, if_pos rfl]
    rfl
  refine ⟨_, .perfEvent ⟨2, enabled, .tracepoint pid tracepoint_id⟩, hcall, rfl, fun i => ?_⟩
  cases enabled with
  | false => exact hfill i
  | true =>
    have henable : (s'.perfEventEnable fd true).2 =
        s'.put fd (.perfEvent ⟨2, true, .tracepoint pid tracepoint_id⟩) := by
      unfold perfEventEnable
      rw [hself]
    rw [if_pos rfl, henable]
    split_ifs with hi
    · rw [hi, getHandler_put_self hself]
    · rw [getHandler_put_of_ne hself hi, hfill, if_neg hi]

lemma importLink_toJson {l : BpfLinkHandler} (hv : handlerToJson (.link l) = some v)
    (hprog : s.isProgFd l.prog_id = true) (hlt : l.prog_id < 2^31)
    (hmin : -2^31 ≤ l.attach_target_id) (hmax : l.attach_target_id < 2^31)
    (hfd : s.getHandler fd = some .unused) : s.ImportsAs v fd (.link l) := by
  cases hv
  obtain ⟨p, hp⟩ := isProgFd_iff.mp hprog
  have hpos := (getHandler_eq_some.mp hp).1
  have hprog_fd := toInt32_ofInt (by omega) hlt
  have htarget_fd := toInt32_ofInt hmin hmax
  obtain ⟨s', hset, hfill⟩ := setHandler_filledWith (h :=
    .link ⟨l.prog_id, l.attach_target_id, none⟩) hfd (by simp)
  refine ⟨s', .link ⟨l.prog_id, l.attach_target_id, none⟩, ?_, ⟨rfl, rfl⟩, hfill⟩
  simp [importShmHandlerFromJson, importLink, linkFields, read, handlerType, attr, index,
    lookup_cons, toStr, Json.toUInt32, Json.toInteger, Except.map, hprog_fd, htarget_fd,
    addBpfLink, orFakeFd_of_getHandler hfd, hprog, hset, bind, Except.bind, pure, Except.pure]

lemma import_toJson (hv : handlerToJson h = some v) (hex : h.Exchanged fd)
    (hfd : s.getHandler fd = some .unused)
    (hprog : ∀ l, h = .link l → s.isProgFd l.prog_id = true ∧ l.prog_id < 2^31) : s.ImportsAs v fd h := by
  cases h with
  | unused => simp [handlerToJson] at hv
  | map m => exact importMap_toJson hv hex hfd
  | prog p => exact importProg_toJson hv hex.1 hex.2 hfd
  | perfEvent e =>
    obtain ⟨htype, pid, tracepoint_id, hdata⟩ := hex
    exact importPerfEvent_toJson hv htype hdata hfd
  | link l =>
    obtain ⟨hp, hlt⟩ := hprog l rfl
    exact importLink_toJson hv hp hlt hex.2.1 hex.2.2 hfd
  | epoll | memfd _ _ => exact hex.elim

/-- The table `s` holds what comes back from the members `done` of the export of `src`. -/
def Partway (src s : BpftimeShm) (done : List (String × Json)) : Prop :=
  ∀ i h, src.getHandler i = some h →
    (toString i.toNat ∈ done.map fst → ∃ h', s.getHandler i = some h' ∧ h.Agrees h') ∧
      (toString i.toNat ∉ done.map fst → s.getHandler i = some .unused)

variable {src : BpftimeShm}

lemma toNat_lt_of_getHandler (hlen : src.handlers.length ≤ 2^31)
    (hget : src.getHandler fd = some h) : fd.toNat < 2^31 := by
  obtain ⟨-, hget⟩ := getHandler_eq_some.mp hget
  have := (List.getElem?_eq_some_iff.mp hget).1
  omega

lemma Partway.snoc {done : List (String × Json)} {h' : Handler}
    (hlen : src.handlers.length ≤ 2^31) (hpart : Partway src s done)
    (hget : src.getHandler fd = some h) (hagree : h.Agrees h') (hfill : s.FilledWith fd h' s') :
    Partway src s' (done ++ [(toString fd.toNat, v)]) := by
  intro i hi hgeti
  rw [hfill, map_append, mem_append]
  by_cases hfd : i = fd
  · subst hfd
    rw [hget] at hgeti
    cases hgeti
    simp only [if_true]
    exact ⟨fun _ => ⟨h', rfl, hagree⟩, fun hno => absurd (.inr (by simp)) hno⟩
  · -- Another slot has another key.
    have hkey : toString i.toNat ≠ toString fd.toNat := by
      intro heq
      have := toString_inj_of_lt (toNat_lt_of_getHandler hlen hgeti) (toNat_lt_of_getHandler hlen hget) heq
      have hi0 := (getHandler_eq_some.mp hgeti).1
      have hfd0 := (getHandler_eq_some.mp hget).1
      omega
    rw [if_neg hfd]
    simp only [map_cons, map_nil, mem_singleton, hkey, or_false]
    exact hpart i hi hgeti

variable {ms : List (String × Json)} {j : Json}

lemma importItems_exported (hlen : src.handlers.length ≤ 2^31)
    (hexp : Exported src.handlers src.handlers.length ms) (hlinks : LinksLive progEnd src)
    (hex : ∀ i h, src.getHandler i = some h → h.Exchanged i) (rest : List (String × Json)) :
    ∀ (done : List (String × Json)) (s : BpftimeShm), ms = done ++ rest → Partway src s done →
    ∃ s', s.importItems rest = some (.ret 0, s') ∧ Partway src s' ms := by
  induction rest with
  | nil =>
    intro done s hms hpart
    rw [append_nil] at hms
    exact ⟨s, rfl, hms ▸ hpart⟩
  | cons item rest ih =>
    intro done s hms hpart
    obtain ⟨k, v⟩ := item
    have hmem : (k, v) ∈ ms := by simp [hms]
    obtain ⟨j, hj, h, hget, hv, rfl⟩ := (hexp.mem_iff k v).mp hmem
    have hgetj : src.getHandler (j : ℤ) = some h := getHandler_eq_some.mpr ⟨by omega, by simpa using hget⟩
    -- The keys in front are smaller, and those behind are larger.
    have hsorted := hexp.sorted
    rw [hms, pairwise_append] at hsorted
    obtain ⟨-, hsuf, hcross⟩ := hsorted
    have hfront : ∀ p ∈ done, p.1 < toString j := fun p hp => hcross p hp (toString j, v) mem_cons_self
    have hbehind : ∀ p ∈ rest, toString j < p.1 := (pairwise_cons.mp hsuf).1
    have hnew : toString (j : ℤ).toNat ∉ done.map fst := by
      intro hin
      obtain ⟨p, hp, hkey⟩ := mem_map.mp hin
      have hless := hfront p hp
      rw [hkey, toNat_natCast] at hless
      exact String.lt_irrefl _ hless
    have hfree : s.getHandler (j : ℤ) = some .unused := (hpart j h hgetj).2 hnew
    -- The program of a link has a smaller key, so it is there.
    have hprog : ∀ l, h = .link l → s.isProgFd l.prog_id = true ∧ l.prog_id < 2^31 := by
      rintro l rfl
      obtain ⟨hp, hgetp, hkind⟩ := hlinks j l hgetj
      cases hp with
      | prog p =>
        obtain ⟨hp0, hgetp'⟩ := getHandler_eq_some.mp hgetp
        obtain ⟨vp, hvp⟩ : ∃ vp, handlerToJson (.prog p) = some vp := ⟨_, rfl⟩
        have hlt : l.prog_id.toNat < src.handlers.length := (List.getElem?_eq_some_iff.mp hgetp').1
        have hpmem : (toString l.prog_id.toNat, vp) ∈ ms :=
          (hexp.mem_iff _ _).mpr ⟨_, hlt, _, hgetp', hvp, rfl⟩
        have hless : toString l.prog_id.toNat < toString j := by simpa using (hex j _ hgetj).1
        have hdone : toString l.prog_id.toNat ∈ done.map fst := by
          rw [hms] at hpmem
          rcases mem_append.mp hpmem with hin | hin
          · exact mem_map.mpr ⟨_, hin, rfl⟩
          · rcases mem_cons.mp hin with heq | hin
            · rw [(Prod.mk.inj heq).1] at hless
              exact absurd hless (lt_irrefl _)
            · exact absurd (lt_trans hless (hbehind _ hin)) (lt_irrefl _)
        obtain ⟨h', hh', hagree⟩ := (hpart l.prog_id _ hgetp).1 hdone
        cases h' with
        | prog p' => exact ⟨isProgFd_iff.mpr ⟨p', hh'⟩, by omega⟩
        | _ => exact hagree.elim
      | _ => exact absurd hkind (by simp [progEnd])
    obtain ⟨s1, h', himport, hagree, hfill⟩ := import_toJson hv (hex j h hgetj) hfree hprog
    have hpart1 : Partway src s1 (done ++ [(toString j, v)]) := by
      simpa using hpart.snoc (v := v) hlen hgetj hagree hfill
    obtain ⟨s', hs', hpart'⟩ := ih (done ++ [(toString j, v)]) s1 (by simp [hms]) hpart1
    have hstep : s.importItems ((toString j, v) :: rest) = s1.importItems rest := by
      rw [importItems, stoi_toString (by omega)]
      dsimp only
      rw [himport]
      exact if_neg (by decide)
    exact ⟨s', hstep.trans hs', hpart'⟩

lemma importItems_accepts {items : List (String × Json)}
    (himport : s.importItems items = some (.ret 0, s')) {k : String} (hmem : (k, v) ∈ items) :
    ∃ (s1 : BpftimeShm) (fd n : ℤ) (s2 : BpftimeShm), s1.importShmHandlerFromJson v fd =
    some (.ret n, s2) ∧ 0 ≤ n := by
  induction items generalizing s with
  | nil => simp at hmem
  | cons item items ih =>
    obtain ⟨k', v'⟩ := item
    unfold importItems at himport
    cases hkey : stoi 10 (stdChars k') with
    | none => simp [hkey] at himport
    | some fd =>
      simp only [hkey] at himport
      cases hone : s.importShmHandlerFromJson v' fd with
      | none => simp [hone] at himport
      | some p =>
        obtain ⟨r, s1⟩ := p
        simp only [hone] at himport
        cases r with
        | ret n =>
          dsimp only at himport
          split_ifs at himport with hneg
          · simp at himport
          · rcases mem_cons.mp hmem with heq | hmem
            · cases heq
              exact ⟨s, fd, n, s1, hone, by omega⟩
            · exact ih himport hmem
        | error _ | threw => simp at himport

/-! ## The round trip -/

lemma items_exportToJson (hj : s.exportToJson = some j) : exportItems s.handlers 0 [] = some j.items := by
  unfold exportToJson at hj
  cases hms : exportItems s.handlers 0 [] with
  | none => simp [hms] at hj
  | some ms =>
    cases ms with
    | nil | cons _ _ =>
      simp only [hms, some.injEq] at hj
      rw [← hj]
      rfl

lemma partway_create (src : BpftimeShm) (fake_fds : Stream' ℤ) (prog_types : Stream' Int32) :
    Partway src (create src.handlers.length fake_fds prog_types) [] := by
  intro i h hget
  obtain ⟨hpos, hget⟩ := getHandler_eq_some.mp hget
  have hlt := (List.getElem?_eq_some_iff.mp hget).1
  refine ⟨fun hin => by simp at hin, fun _ => getHandler_eq_some.mpr ⟨hpos, ?_⟩⟩
  simp [create, hlt]

lemma Partway.agrees (hlen : src.handlers.length ≤ 2^31)
    (hexp : Exported src.handlers src.handlers.length ms)
    (hex : ∀ i h, src.getHandler i = some h → h.Exchanged i) (hpart : Partway src s ms) {i : ℤ}
    (hget : src.getHandler i = some h) : ∃ h', s.getHandler i = some h' ∧ h.Agrees h' := by
  obtain ⟨hpos, hget'⟩ := getHandler_eq_some.mp hget
  have hlt := (List.getElem?_eq_some_iff.mp hget').1
  cases hv : handlerToJson h with
  | some v =>
    have hmem := (hexp.mem_iff (toString i.toNat) v).mpr ⟨_, hlt, h, hget', hv, rfl⟩
    exact (hpart i h hget).1 (mem_map.mpr ⟨_, hmem, rfl⟩)
  | none =>
    -- Only an unused slot is not written.
    have hun : h = .unused := by
      by_contra hne
      obtain ⟨name, flags, rfl⟩ := (handlerToJson_eq_none hne).mp hv
      exact hex i _ hget
    subst hun
    refine ⟨.unused, (hpart i _ hget).2 fun hin => ?_, trivial⟩
    obtain ⟨p, hp, hkey⟩ := mem_map.mp hin
    obtain ⟨j, hj, h', hj', hv', hk⟩ := (hexp.mem_iff p.1 p.2).mp hp
    have : i.toNat = j := toString_inj_of_lt (by omega) (by omega) (hkey.symm.trans hk)
    subst this
    rw [hget'] at hj'
    cases hj'
    rw [hv] at hv'
    cases hv'

lemma exported_nil (hs : List Handler) : Exported hs 0 [] := by
  refine ⟨Pairwise.nil, fun k v => ?_⟩
  simp

lemma exportToJson_eq_none (hlen : s.handlers.length ≤ 2^31) :
    s.exportToJson = none ↔ ∃ i name flags, s.getHandler i = some (.memfd name flags) := by
  have hitems : s.exportToJson = none ↔ exportItems s.handlers 0 [] = none := by
    unfold exportToJson
    cases exportItems s.handlers 0 [] with
    | none => simp
    | some ms => cases ms <;> simp
  have hmem : (∃ i name flags, s.getHandler i = some (.memfd name flags)) ↔
      ∃ name flags, .memfd name flags ∈ s.handlers := by
    constructor
    · rintro ⟨i, name, flags, hi⟩
      exact ⟨name, flags, mem_of_getElem? (getHandler_eq_some.mp hi).2⟩
    · rintro ⟨name, flags, hin⟩
      obtain ⟨i, hi⟩ := mem_iff_getElem?.mp hin
      exact ⟨i, name, flags, getHandler_eq_some.mpr ⟨by omega, by simpa using hi⟩⟩
  rw [hitems, hmem]
  rcases exportItems_spec hlen (exported_nil s.handlers) with ⟨hnone, hin⟩ | ⟨hno, ms, hms, -⟩
  · exact ⟨fun _ => by simpa using hin, fun _ => by simpa using hnone⟩
  · rw [drop_zero] at hms hno
    simp [hms, hno]

lemma exported_of_exportToJson (hlen : s.handlers.length ≤ 2^31)
    (hj : s.exportToJson = some j) : Exported s.handlers s.handlers.length j.items := by
  have hitems := items_exportToJson hj
  rcases exportItems_spec hlen (exported_nil s.handlers) with ⟨hnone, -⟩ | ⟨-, ms, hms, hexp⟩
  · rw [drop_zero, hitems] at hnone
    cases hnone
  · rw [drop_zero, hitems] at hms
    cases hms
    exact hexp

/-- A table all of whose handlers come back is exported, and its import into an empty table of the
same size returns 0 and gives each handler back at its index. A table with a memory file is not
exported, and no import of a file with an epoll instance returns 0. -/
theorem export_import_of_run (n : ℕ) (hn : n ≤ 2^31) (fake_fds : Stream' ℤ)
    (prog_types : Stream' Int32) (ops : List ShmOp) (rs : List ShmReply)
    (hrun : run step (create n fake_fds prog_types) ops = some (rs, s)) :
    ((∀ i h, s.getHandler i = some h → h.Exchanged i) → ∃ j, s.exportToJson = some j ∧
      ∀ (fake_fds' : Stream' ℤ) (prog_types' : Stream' Int32), ∃ s',
        (create n fake_fds' prog_types').importFromJson j = some (.ret 0, s') ∧
          ∀ i h, s.getHandler i = some h → ∃ h', s'.getHandler i = some h' ∧ h.Agrees h') ∧
      (s.exportToJson = none ↔ ∃ i name flags, s.getHandler i = some (.memfd name flags)) ∧
      (∀ i j, s.getHandler i = some .epoll → s.exportToJson = some j →
        ∀ s₀ s' : BpftimeShm, s₀.importFromJson j ≠ some (.ret 0, s')) := by
  have hsize := length_of_run hrun
  have hlen : s.handlers.length ≤ 2^31 := by omega
  refine ⟨fun hex => ?_, exportToJson_eq_none hlen, fun i j hepoll hj s₀ s' himport => ?_⟩
  · cases hj : s.exportToJson with
    | none =>
      obtain ⟨i, name, flags, hi⟩ := (exportToJson_eq_none hlen).mp hj
      exact (hex i _ hi).elim
    | some j =>
      have hexp := exported_of_exportToJson hlen hj
      refine ⟨j, rfl, fun fake_fds' prog_types' => ?_⟩
      have hstart := partway_create s fake_fds' prog_types'
      rw [hsize] at hstart
      obtain ⟨s', hs', hpart⟩ := importItems_exported hlen hexp (linksLive_prog_of_run hrun) hex j.items [] _ rfl hstart
      exact ⟨s', hs', fun i h hget => hpart.agrees hlen hexp hex hget⟩
  · obtain ⟨hpos, hget⟩ := getHandler_eq_some.mp hepoll
    have hlt := (List.getElem?_eq_some_iff.mp hget).1
    have hmem := ((exported_of_exportToJson hlen hj).mem_iff (toString i.toNat) _).mpr ⟨_, hlt, _,
        hget, rfl, rfl⟩
    obtain ⟨s1, fd, m, s2, hone, hm⟩ := importItems_accepts himport hmem
    have hrefuse : s1.importShmHandlerFromJson (.obj [("type", .str "epoll_handler")]) fd =
        some (.ret (-1), s1) := by
      simp [importShmHandlerFromJson, read, handlerType, index, toStr, bind, Except.bind]
    rw [hrefuse] at hone
    cases hone
    omega

/-- A program, a tracepoint, a link between them and a map. -/
def exchangedOps : List ShmOp :=
  [.addBpfProg 4 [0x95] "p" 1, .addTracepoint 5 123 6, .addBpfLink 7 4 5,
    .addBpfMap 2 "m" ⟨1, 4, 4, 8, 0, 0, 0, 0, 0, 0, 0, 0, 1000⟩, .perfEventEnable 5 true]

def exchangedSlots : List Handler :=
  [.unused, .unused, .map ⟨⟨1, 4, 4, 8, 0, 0, 0, 0, 0, 0, 0, 0, 1000⟩, "m", some 0⟩, .unused,
    .prog ⟨0, [0x95], "p"⟩, .perfEvent ⟨2, true, .tracepoint 123 6⟩, .unused, .link ⟨4, 5, none⟩]

lemma exchanged_exchangedSlots (hs : s.handlers = exchangedSlots) (i : ℤ) (h : Handler)
    (hget : s.getHandler i = some h) : h.Exchanged i := by
  obtain ⟨-, hget⟩ := getHandler_eq_some.mp hget
  have hlt : i.toNat < 8 := by simpa [hs, exchangedSlots] using (List.getElem?_eq_some_iff.mp hget).1
  rw [hs] at hget
  have hname : cStr "m" = "m" ∧ cStr "p" = "p" := by decide +kernel
  have hkey : toString (4 : ℤ).toNat < toString 7 := by decide +kernel
  interval_cases hi : i.toNat <;> cases hget
  · trivial
  · trivial
  · exact hname.1
  · trivial
  · exact ⟨hname.2, by decide⟩
  · exact ⟨rfl, 123, 6, rfl⟩
  · trivial
  · exact ⟨by rw [hi]; exact hkey, by decide, by decide⟩

/-- The round trip of a program, a tracepoint, a link and a map. -/
theorem export_import_exchangedOps :
    ∃ rs s j, run step (create 8 (fun _ => 3) (fun _ => 0)) exchangedOps = some (rs, s) ∧
      s.exportToJson = some j ∧ ∃ s', (create 8 (fun _ => 3) (fun _ => 0)).importFromJson j =
      some (.ret 0, s') ∧
          ∀ i h, s.getHandler i = some h → ∃ h', s'.getHandler i = some h' ∧ h.Agrees h' := by
  have hsome : (run step (create 8 (fun _ => 3) (fun _ => 0)) exchangedOps).map
      (fun p => p.2.handlers) = some exchangedSlots := by decide +kernel
  obtain ⟨⟨rs, s⟩, hrun, hslots⟩ := map_eq_some_iff.mp hsome
  obtain ⟨hround, -⟩ := export_import_of_run 8 (by decide) (fun _ => 3) (fun _ => 0) exchangedOps rs hrun
  obtain ⟨j, hj, himport⟩ := hround (exchanged_exchangedSlots hslots)
  exact ⟨rs, s, j, hrun, hj, himport (fun _ => 3) (fun _ => 0)⟩

/-- A handler that comes back as it was. -/
def Same : Handler → Handler → Prop
  | .map m, .map m' => m'.name = m.name ∧ m'.attr = m.attr
  | .perfEvent e, .perfEvent e' => e'.type = e.type ∧ e'.data = e.data
  | h, h' => h' = h

/-- The export of a table succeeds, and so does its import into an empty table, which gives every
handler back as it was. -/
def RoundTrips (s : BpftimeShm) : Prop :=
  ∃ j, s.exportToJson = some j ∧ ∀ (fake_fds : Stream' ℤ) (prog_types : Stream' Int32), ∃ s',
    (create s.handlers.length fake_fds prog_types).importFromJson j = some (.ret 0, s') ∧
      ∀ i h, s.getHandler i = some h → ∃ h', s'.getHandler i = some h' ∧ Same h h'

/-- An epoll instance does not come back. -/
theorem not_roundTrips_epoll :
    ∃ rs s, run step (create 8 (fun _ => 3) (fun _ => 0)) [.epollCreate] = some (rs, s) ∧
    ¬ RoundTrips s := by
  have hsome : (run step (create 8 (fun _ => 3) (fun _ => 0)) [.epollCreate]).map
      (fun p => (p.2.handlers.length, p.2.exportToJson.map fun j =>
        ((create 8 (fun _ => 3) (fun _ => 0)).importFromJson j).map fst)) =
        some (8, some (some (.ret (-1)))) := by decide +kernel
  obtain ⟨⟨rs, s⟩, hrun, hslots⟩ := map_eq_some_iff.mp hsome
  obtain ⟨hsize, hexport⟩ := Prod.mk.inj hslots
  refine ⟨rs, s, hrun, fun ⟨j, hj, himport⟩ => ?_⟩
  obtain ⟨s', hs', -⟩ := himport (fun _ => 3) (fun _ => 0)
  rw [hj, Option.map_some, ← hsize, hs'] at hexport
  simp at hexport

/-! ## One handler -/

/-- What the import of a perf event reads before it does something with the table. -/
def perfEventFields (value : Json) : Except JsonFault Unit := do
  let (type, _, _) ← perfFields value
  match type.toInt with
  | 6 => do let _ ← uprobeFields value
  | 7 => do let _ ← uprobeFields value
  | 2 => .ok ()
  | 1008 => do let _ ← overrideFields value
  | 1 => do let _ ← softwareFields value
  | _ => .ok ()

/-- What the import reads of a handler before it does something with the table. -/
def handlerFields (value : Json) : Except JsonFault Unit := do
  let handler_type ← value.handlerType
  if handler_type = "bpf_prog_handler" then do
    let (insns_str, _, _, cnt) ← progFields value
    if cnt.toInt < 0 ∨ hexStringToBuffer insns_str (cnt.toInt.toNat * 8) =
      .threw then .error .threw else .ok ()
  else if handler_type = "bpf_map_handler" then do let _ ← mapFields value
  else if handler_type = "bpf_perf_event_handler" then perfEventFields value
  else if handler_type = "bpf_link_handler" then do let _ ← linkFields value
  else .ok ()

/-- An import throws and leaves the table alone if the reading of the fields throws, and only then
if its slot is free. -/
def Follows (s : BpftimeShm) (fd : ℤ) (x : Option (ShmReply × BpftimeShm))
    (fields : Except JsonFault Unit) : Prop :=
  (fields = .error .threw → x = some (.threw, s)) ∧
    (s.getHandler fd = some .unused → x = some (.threw, s) → fields = .error .threw)

lemma Follows.read {α : Type} {r : Except JsonFault α} {k : α → Option (ShmReply × BpftimeShm)}
    {f : α → Except JsonFault Unit} (h : ∀ a, s.Follows fd (k a) (f a)) :
    s.Follows fd (s.read r k) (r >>= f) := by
  cases r with
  | ok a => exact h a
  | error e => cases e <;> simp [Follows, BpftimeShm.read, Bind.bind, Except.bind]

lemma follows_ok {x : Option (ShmReply × BpftimeShm)}
    (h : s.getHandler fd = some .unused → x ≠ some (.threw, s)) : s.Follows fd x (.ok ()) :=
  ⟨nofun, fun hfd hx => absurd hx (h hfd)⟩

/-- A reading behind an addition that has filled the slot throws with another table. -/
lemma read_ne_threw {s1 : BpftimeShm} {α : Type} {r : Except JsonFault α}
    {k : α → Option (ShmReply × BpftimeShm)} (hfd : s.getHandler fd = some .unused)
    (hs1 : s1.getHandler fd ≠ some .unused) (hk : ∀ a, k a ≠ some (.threw, s)) :
    s1.read r k ≠ some (.threw, s) := by
  cases r with
  | ok a => exact hk a
  | error e =>
    cases e with
    | undefined => exact nofun
    | threw =>
      rintro ⟨⟩
      exact hs1 hfd

lemma follows_importEnabled {e : BpfPerfEventHandler} :
    s.Follows fd (importEnabled v fd (s.setHandlerAt fd (.perfEvent e))) (.ok ()) := by
  refine follows_ok fun hfd => ?_
  obtain ⟨s', hset, hfill⟩ := setHandler_filledWith (h := .perfEvent e) hfd (by simp)
  simp only [setHandlerAt, orFakeFd_of_getHandler hfd, hset, map_some, importEnabled]
  refine read_ne_threw hfd ?_ fun enabled => nofun
  rw [hfill, if_pos rfl]
  simp [initialised]

lemma attachAll_ne_threw (hfd : s.getHandler fd = some .unused) {s1 : BpftimeShm} {i : ℤ} (fds : List Json)
    (hs1 : ∃ p, s1.getHandler fd = some (.prog p)) : s1.attachAll i fds ≠ some (.threw, s) := by
  induction fds generalizing s1 with
  | nil => exact nofun
  | cons j js ih =>
    obtain ⟨p, hp⟩ := hs1
    refine read_ne_threw hfd (by simp [hp]) fun perf_fd => ?_
    cases hadd : s1.addBpfProgAttachTarget perf_fd.toInt i none with
    | none => exact nofun
    | some q =>
      obtain ⟨-, hgrow⟩ : Changes False s1 q.2 ∧ s1.Grows q.2 := addBpfProgAttachTarget_changes hadd nofun
      exact ih ⟨p, hgrow fd _ hp (by simp)⟩

lemma follows_importProg : s.Follows fd (s.importProg v fd) (do
    let (insns_str, _, _, cnt) ← progFields v
    if cnt.toInt < 0 ∨ hexStringToBuffer insns_str (cnt.toInt.toNat * 8) = .threw then .error .threw
    else .ok ()) := by
  refine Follows.read fun ⟨insns_str, name, type, cnt⟩ => ?_
  dsimp only
  by_cases hcnt : cnt.toInt < 0
  · simp [hcnt, Follows]
  · rw [if_neg hcnt]
    cases hhex : hexStringToBuffer insns_str (cnt.toInt.toNat * 8) with
    | failed => simp [hcnt, Follows]
    | threw => simp [Follows]
    | ok bytes =>
      rw [if_neg (by simp [hcnt])]
      refine follows_ok fun hfd => ?_
      obtain ⟨s', hset, hfill⟩ := setHandler_filledWith (s := { s with prog_types := s.prog_types.tail })
        (h := .prog ⟨s.prog_types.head, insnsOfBytes cnt.toInt.toNat bytes, cStr name⟩) hfd (by simp)
      have hopen := orFakeFd_of_getHandler (s := { s with prog_types := s.prog_types.tail }) hfd
      simp only [addBpfProg, setHandlerAt, hopen, hset, map_some]
      have hprog : ∃ p, s'.getHandler fd = some (.prog p) := ⟨_, by rw [hfill, if_pos rfl]; rfl⟩
      obtain ⟨p, hp⟩ := hprog
      exact read_ne_threw hfd (by simp [hp]) fun fds => attachAll_ne_threw hfd _ ⟨p, hp⟩

lemma follows_importPerfEvent : s.Follows fd (s.importPerfEvent v fd) (perfEventFields v) := by
  refine Follows.read fun ⟨type, pid, tracepoint_id⟩ => ?_
  dsimp only
  generalize type.toInt = n
  split
  · exact Follows.read fun _ => follows_importEnabled
  · exact Follows.read fun _ => follows_importEnabled
  · exact follows_importEnabled
  · exact Follows.read fun _ => follows_importEnabled
  · refine Follows.read fun ⟨cpu, sample_type, config⟩ => follows_ok fun hfd => ?_
    have hadd : s.addSoftwarePerfEvent (some fd) cpu sample_type config =
        s.setHandlerAt fd (.perfEvent ⟨1, false, .software cpu config sample_type⟩) := by
      simp only [addSoftwarePerfEvent, setHandlerAt, orFakeFd_of_getHandler hfd]
    rw [hadd]
    exact fun hx => nomatch follows_importEnabled.2 hfd hx
  · simp_all
    exact follows_ok fun _ h => by cases h

lemma follows_import : s.Follows fd (s.importShmHandlerFromJson v fd) (handlerFields v) := by
  refine Follows.read fun handler_type => ?_
  split_ifs
  · exact follows_importProg
  · refine Follows.read fun ⟨name, attr⟩ => follows_ok fun _ => ?_
    dsimp only
    cases s.addBpfMap fd (cStr name) attr <;> exact nofun
  · exact follows_importPerfEvent
  · refine Follows.read fun ⟨prog_fd, target_fd⟩ => follows_ok fun _ => ?_
    dsimp only
    cases s.addBpfLink fd prog_fd.toInt32.toInt target_fd.toInt32.toInt <;> exact nofun
  · exact follows_ok fun _ => nofun

lemma import_ways_agree {members : List (String × Json)} {key : String}
    (hkey : stoi 10 (stdChars key) = some fd) :
    s.bpftimeImportShmHandlerFromJson fd (.obj members) = s.importFromJson (.obj [(key, .obj members)]) ↔
      s.importShmHandlerFromJson (.obj members) fd = some (.threw, s) := by
  -- The call passes its arguments in the other order, and an object is no descriptor.
  have hthrows : s.bpftimeImportShmHandlerFromJson fd (.obj members) = some (.threw, s) := rfl
  rw [hthrows, eq_comm]
  simp only [importFromJson, Json.items, importItems, hkey]
  rcases s.importShmHandlerFromJson (.obj members) fd with _ | ⟨⟨n⟩ | e | _, s'⟩
  · exact Iff.rfl
  · dsimp only
    split_ifs <;> simp
  · exact Iff.rfl
  · exact Iff.rfl

/-- The import of one handler agrees with that of a file with only this handler if the reading of
the fields of the handler throws, and in a free slot only then. -/
theorem import_ways_agree_iff (s : BpftimeShm) (members : List (String × Json)) {key : String} {fd : ℤ}
    (hkey : stoi 10 (stdChars key) = some fd) : (handlerFields (.obj members) = .error .threw →
      s.bpftimeImportShmHandlerFromJson fd (.obj members) = s.importFromJson (.obj [(key, .obj members)])) ∧
    (s.getHandler fd = some .unused →
      (s.bpftimeImportShmHandlerFromJson fd (.obj members) = s.importFromJson (.obj [(key, .obj members)]) ↔
        handlerFields (.obj members) = .error .threw)) := by
  rw [import_ways_agree hkey]
  obtain ⟨hthrows, hfree⟩ : s.Follows fd (s.importShmHandlerFromJson (.obj members) fd) _ := follows_import
  exact ⟨hthrows, fun hfd => ⟨hfree hfd, hthrows⟩⟩

/-- A table with one slot, and a link. -/
def slotAndLink : BpftimeShm × List (String × Json) := (.create 1 (Stream'.const 0) (Stream'.const 0),
  [("type", .str "bpf_link_handler"), ("attr", .obj [("prog_fd", .num 0), ("target_fd", .num 0)])])

theorem import_ways_agree_empty : slotAndLink.1.bpftimeImportShmHandlerFromJson 0 (.obj []) =
    slotAndLink.1.importFromJson (.obj [("0", .obj [])]) :=
    ((import_ways_agree_iff _ [] (by decide)).2 rfl).mpr rfl

/-- The file imports the link. -/
theorem not_import_ways_agree : slotAndLink.1.bpftimeImportShmHandlerFromJson 0
    (.obj slotAndLink.2) ≠ slotAndLink.1.importFromJson (.obj [("0", .obj slotAndLink.2)]) := by
  have hfile : (slotAndLink.1.importFromJson (.obj [("0", .obj slotAndLink.2)])).map Prod.fst =
      some (.ret 0) := by
    decide
  intro h
  rw [← h] at hfile
  cases hfile

end BpftimeShm

end Bpftime
