import Bpftime.Shm.Table
import Bpftime.Shm.Json

/-!
# What the operations do to the table

Every operation of `bpftime_shm`, the imports included, is a sequence of four changes to the table:
nothing but what the table is not concerned with, one unused slot filled, one descriptor closed, one
perf event enabled or disabled.
-/

namespace Bpftime.BpftimeShm

open Option List

inductive Change (checked : Prop) : BpftimeShm → BpftimeShm → Prop
  | rest {s s' : BpftimeShm} (h : s'.handlers = s.handlers) : Change checked s s'
  | fill {s s' : BpftimeShm} {fd : ℤ} {h : Handler} (hfree : s.getHandler fd = some .unused)
      (hlink : ∀ l, h = .link l →
        s.isProgFd l.prog_id = true ∧ (checked → s.isPerfFd l.attach_target_id = true))
      (hs' : s'.handlers = (s.put fd h).handlers) : Change checked s s'
  | clear {s : BpftimeShm} (fd : ℤ) : Change checked s (s.clearIdAt fd)
  | enable {s : BpftimeShm} {fd : ℤ} {e : BpfPerfEventHandler} (enabled : Bool)
      (h : s.getHandler fd = some (.perfEvent e)) :
      Change checked s (s.put fd (.perfEvent { e with enabled }))

def Changes (checked : Prop) : BpftimeShm → BpftimeShm → Prop := Relation.ReflTransGen (Change checked)

/-- Wherever a call ends, it made changes only. -/
def Leads (checked : Prop) (s : BpftimeShm) (x : Option (ShmReply × BpftimeShm)) : Prop :=
  ∀ r s', x = some (r, s') → Changes checked s s'

variable {checked : Prop} {s s' : BpftimeShm} {fd : ℤ}

lemma Changes.rest (h : s'.handlers = s.handlers) : Changes checked s s' :=
  Relation.ReflTransGen.single (.rest h)

variable {x : Option (ShmReply × BpftimeShm)} {name prog_name : String} {insns : List UInt64}

lemma Changes.leads (h : Changes checked s s') (hx : Leads checked s' x) : Leads checked s x :=
  fun r s'' heq => Relation.ReflTransGen.trans h (hx r s'' heq)

variable {r : ShmReply} {h : Handler} {perf_fd bpf_fd : ℤ} {cookie : Option UInt64}

lemma Changes.leads_some (h : Changes checked s s') : Leads checked s (some (r, s')) := by
  intro r' s'' heq
  cases heq
  exact h

lemma leads_none : Leads checked s none := by
  intro r s' h
  cases h

lemma leads_same : Leads checked s (some (r, s)) := Changes.leads_some .refl

lemma Leads.read {α : Type} {x : Except JsonFault α} {k : α → Option (ShmReply × BpftimeShm)}
    (h : ∀ a, x = .ok a → Leads checked s (k a)) : Leads checked s (s.read x k) := by
  unfold BpftimeShm.read
  cases x with
  | ok a => exact h a rfl
  | error e =>
    cases e with
    | threw => exact leads_same
    | undefined => exact leads_none

lemma Changes.length_eq (h : Changes checked s s') : s'.handlers.length = s.handlers.length := by
  induction h with
  | refl => rfl
  | tail _ hstep ih =>
    rw [← ih]
    cases hstep with
    | rest h => rw [h]
    | fill _ _ hs' => rw [hs', put, length_set]
    | clear fd => exact length_clearIdAt _ fd
    | enable _ _ => rw [put, length_set]

def Grows (s s' : BpftimeShm) : Prop := ∀ i h, s.getHandler i = some h → h ≠ .unused →
    s'.getHandler i = some h

lemma isPerfFd_iff : s.isPerfFd fd = true ↔ ∃ e, s.getHandler fd = some (.perfEvent e) := by
  unfold isPerfFd
  cases s.getHandler fd with
  | none => simp
  | some h => cases h <;> simp

lemma isProgFd_iff : s.isProgFd fd = true ↔ ∃ p, s.getHandler fd = some (.prog p) := by
  unfold isProgFd
  cases s.getHandler fd with
  | none => simp
  | some h => cases h <;> simp

lemma Grows.isPerfFd (h : s.Grows s') (hfd : s.isPerfFd fd = true) : s'.isPerfFd fd = true := by
  rw [isPerfFd_iff] at hfd ⊢
  obtain ⟨e, he⟩ := hfd
  exact ⟨e, h fd _ he (by simp)⟩

lemma initialised_link {g : Segment} {l : BpfLinkHandler} (heq : (initialised g h).1 = .link l) :
    h = .link l := by
  cases h with
  | map m => simp [initialised] at heq
  | _ => exact heq

lemma setHandler_changes {n : ℤ} (hset : s.setHandler fd h = some (n, s')) (hlink : ∀ l, h = .link l →
    s.isProgFd l.prog_id = true ∧ (checked → s.isPerfFd l.attach_target_id = true)) :
    Changes checked s s' ∧ s.Grows s' := by
  rcases setHandler_cases hset with rfl | ⟨hfree, -, rfl⟩
  · exact ⟨.refl, fun _ _ hi _ => hi⟩
  · refine ⟨Relation.ReflTransGen.single
      (.fill hfree (fun l hl => hlink l (initialised_link hl)) rfl), fun i h' hi hne => ?_⟩
    rw [getHandler_filled hfree, if_neg, hi]
    rintro rfl
    rw [hfree] at hi
    exact hne (some.inj hi).symm

lemma leads_setHandler {f : ℤ → ShmReply} (hlink : ∀ l, h = .link l →
    s.isProgFd l.prog_id = true ∧ (checked → s.isPerfFd l.attach_target_id = true)) :
    Leads checked s ((s.setHandler fd h).map fun p => (f p.1, p.2)) := by
  intro r s' heq
  obtain ⟨⟨n, s''⟩, hset, hp⟩ := map_eq_some_iff.mp heq
  cases hp
  exact (setHandler_changes hset hlink).1

lemma orFakeFd_handlers (s : BpftimeShm) (fd : ℤ) : (s.orFakeFd fd).2.handlers = s.handlers := by
  unfold orFakeFd openFakeFd
  split_ifs <;> rfl

lemma leads_setHandlerAt (hlink : ∀ l, h ≠ .link l) : Leads checked s (s.setHandlerAt fd h) := by
  unfold setHandlerAt
  exact (Changes.rest (orFakeFd_handlers s fd)).leads (leads_setHandler fun l hl => absurd hl (hlink l))

/-! ## The operations -/

lemma leads_replaceByMap {m : BpfMapHandler} :
    Leads checked s (((if h = .unused then s else s.clearIdAt fd).setHandler fd (.map m)).map
    fun p => (ShmReply.ret p.1, p.2)) := by
  have hclear : Changes checked s (if h = .unused then s else s.clearIdAt fd) := by
    split_ifs
    · exact .refl
    · exact Relation.ReflTransGen.single (.clear fd)
  exact hclear.leads (leads_setHandler fun l hl => by simp at hl)

lemma leads_addBpfMap {attr : BpfMapAttr} : Leads checked s (s.addBpfMap fd name attr) := by
  unfold addBpfMap
  refine (Changes.rest (orFakeFd_handlers s fd)).leads ?_
  dsimp only
  cases (s.orFakeFd fd).2.getHandler (s.orFakeFd fd).1 with
  | none => exact leads_none
  | some h => exact leads_replaceByMap

lemma leads_dupBpfMap {newfd : ℤ} : Leads checked s (s.dupBpfMap fd newfd) := by
  unfold dupBpfMap
  cases s.getHandler fd with
  | none => exact leads_same
  | some h =>
    cases h with
    | map m =>
      refine (Changes.rest (orFakeFd_handlers s newfd)).leads ?_
      dsimp only
      cases (s.orFakeFd newfd).2.getHandler (s.orFakeFd newfd).1 with
      | none => exact leads_none
      | some h =>
        dsimp only
        by_cases hsame : (s.orFakeFd newfd).1 = fd
        · rw [if_pos hsame]
          exact leads_none
        · rw [if_neg hsame]
          exact leads_replaceByMap
    | _ => exact leads_same

lemma leads_addBpfProg (prog_type : Int32) :
    Leads checked s (s.addBpfProg fd insns prog_name prog_type) := by
  unfold addBpfProg
  have hrest : Changes checked s { s with prog_types := s.prog_types.tail } := .rest rfl
  exact hrest.leads (leads_setHandlerAt fun l h => by simp at h)

lemma addBpfProg_grows {prog_type : Int32}
    (hadd : s.addBpfProg fd insns prog_name prog_type = some (r, s')) : s.Grows s' := by
  unfold addBpfProg setHandlerAt at hadd
  obtain ⟨⟨n, s''⟩, hset, hp⟩ := map_eq_some_iff.mp hadd
  cases hp
  have hset' : Changes True _ s'' ∧ _ := setHandler_changes hset fun l h => by simp at h
  intro i h hi hne
  refine hset'.2 i h ?_ hne
  rw [← hi]
  exact getHandler_congr (orFakeFd_handlers _ fd) i

lemma leads_optional {fd : Option ℤ} {e : BpfPerfEventHandler} :
    Leads checked s (let (fd, s) := match fd with
        | some fd => (fd, s)
        | none => s.openFakeFd
      (s.setHandler fd (.perfEvent e)).map fun p => (ShmReply.ret p.1, p.2)) := by
  cases fd with
  | some fd => exact leads_setHandler fun l hl => by simp at hl
  | none =>
    have hrest : Changes checked s s.openFakeFd.2 := .rest rfl
    exact hrest.leads (leads_setHandler fun l hl => by simp at hl)

lemma leads_addSoftwarePerfEvent {fd : Option ℤ} {cpu sample_type : Int32} {config : Int64} :
    Leads checked s (s.addSoftwarePerfEvent fd cpu sample_type config) := by
  unfold addSoftwarePerfEvent
  exact leads_optional

lemma leads_addCustomPerfEvent {type : Int32} {attach_argument : String} :
    Leads checked s (s.addCustomPerfEvent type attach_argument) := by
  unfold addCustomPerfEvent
  have hrest : Changes checked s s.openFakeFd.2 := .rest rfl
  refine hrest.leads ?_
  dsimp only
  split_ifs
  · exact leads_same
  · exact leads_setHandler (f := fun _ => .ret s.openFakeFd.1) fun l hl => by simp at hl

lemma addBpfProgAttachTarget_changes (hadd : s.addBpfProgAttachTarget perf_fd bpf_fd cookie = some (r, s'))
    (hperf : checked → s.isPerfFd perf_fd = true) : Changes checked s s' ∧ s.Grows s' := by
  unfold addBpfProgAttachTarget at hadd
  have hrest : Changes checked s s.openFakeFd.2 := .rest rfl
  by_cases hprog : s.isProgFd bpf_fd = true
  · rw [if_neg (by simpa using hprog)] at hadd
    dsimp only at hadd
    split_ifs at hadd with hneg
    · cases hadd
      exact ⟨hrest, fun _ _ hi _ => hi⟩
    · obtain ⟨⟨n, s''⟩, hset, hp⟩ := map_eq_some_iff.mp hadd
      cases hp
      have hlink : ∀ l : BpfLinkHandler, Handler.link ⟨bpf_fd, perf_fd, cookie⟩ = .link l →
          s.openFakeFd.2.isProgFd l.prog_id = true ∧
            (checked → s.openFakeFd.2.isPerfFd l.attach_target_id = true) := by
        rintro l ⟨⟩
        exact ⟨hprog, hperf⟩
      obtain ⟨hchange, hgrow⟩ := setHandler_changes hset hlink
      exact ⟨Relation.ReflTransGen.trans hrest hchange, hgrow⟩
  · rw [if_pos hprog] at hadd
    cases hadd
    exact ⟨.refl, fun _ _ hi _ => hi⟩

lemma leads_addBpfProgAttachTarget (hperf : checked → s.isPerfFd perf_fd = true) :
    Leads checked s (s.addBpfProgAttachTarget perf_fd bpf_fd cookie) :=
  fun _ _ hadd => (addBpfProgAttachTarget_changes hadd hperf).1

lemma leads_attachPerfToBpf : Leads checked s (s.attachPerfToBpf perf_fd bpf_fd cookie) := by
  unfold attachPerfToBpf
  split_ifs with hperf
  · exact leads_addBpfProgAttachTarget fun _ => hperf
  · exact leads_same

lemma leads_addBpfLink {prog_fd target_fd : ℤ} (hperf : checked → s.isPerfFd target_fd = true) :
    Leads checked s (s.addBpfLink fd prog_fd target_fd) := by
  unfold addBpfLink
  have hsame := orFakeFd_handlers s fd
  refine (Changes.rest hsame).leads ?_
  dsimp only
  split_ifs with hprog
  · refine leads_setHandler ?_
    rintro l ⟨⟩
    refine ⟨hprog, fun hchecked => ?_⟩
    obtain ⟨e, he⟩ := isPerfFd_iff.mp (hperf hchecked)
    exact isPerfFd_iff.mpr ⟨e, (getHandler_congr hsame _).trans he⟩
  · exact leads_same

lemma leads_perfEventEnable {enabled : Bool} : Leads checked s (some (s.perfEventEnable fd enabled)) := by
  unfold perfEventEnable
  cases hfd : s.getHandler fd with
  | none => exact leads_same
  | some h =>
    cases h with
    | perfEvent e => exact Changes.leads_some (Relation.ReflTransGen.single (.enable enabled hfd))
    | _ => exact leads_same

lemma leads_epollCreate : Leads checked s s.epollCreate := by
  unfold epollCreate
  have hrest : Changes checked s s.openFakeFd.2 := .rest rfl
  refine hrest.leads ?_
  dsimp only
  split_ifs
  · exact leads_same
  · exact leads_setHandler fun l hl => by simp at hl

lemma leads_addMemfdHandler {flags : Int32} : Leads checked s (s.addMemfdHandler name flags) := by
  unfold addMemfdHandler
  have hrest : Changes checked s s.openFakeFd.2 := .rest rfl
  exact hrest.leads (leads_setHandler fun l hl => by simp at hl)

/-! ## Imports -/

/-- The targets that the import of a handler gives to links are live perf events. -/
def targetsLive (s : BpftimeShm) (value : Json) : Bool :=
  match value.handlerType with
  | .error _ => true
  | .ok handler_type =>
    if handler_type = "bpf_prog_handler" then
      match value.attr "attach_fds" with
      | .error _ => true
      | .ok fds => fds.elements.all fun j =>
        match j.toInt32 with
        | .error _ => true
        | .ok perf_fd => s.isPerfFd perf_fd.toInt
    else if handler_type = "bpf_link_handler" then
      match value.attr "target_fd" with
      | .error _ => true
      | .ok j =>
        match j.toUInt32 with
        | .error _ => true
        | .ok target_fd => s.isPerfFd target_fd.toInt32.toInt
    else true

lemma leads_attachAll {fds : List Json} (hperf : checked → ∀ j ∈ fds, ∀ perf_fd,
    j.toInt32 = .ok perf_fd → s.isPerfFd perf_fd.toInt = true) : Leads checked s (s.attachAll fd fds) := by
  induction fds generalizing s with
  | nil => exact leads_same
  | cons j js ih =>
    unfold attachAll
    refine Leads.read fun perf_fd hread => ?_
    cases hadd : s.addBpfProgAttachTarget perf_fd.toInt fd none with
    | none => exact leads_none
    | some p =>
      have hperf' : checked → s.isPerfFd perf_fd.toInt = true := fun hc =>
          hperf hc j mem_cons_self perf_fd hread
      obtain ⟨hchange, hgrow⟩ := addBpfProgAttachTarget_changes hadd hperf'
      exact hchange.leads (ih fun hc j' hj' fd' hread' =>
        hgrow.isPerfFd (hperf hc j' (mem_cons_of_mem _ hj') fd' hread'))

lemma targetsLive_prog {value fds : Json} (htype : value.handlerType = .ok "bpf_prog_handler")
    (hfds : value.attr "attach_fds" = .ok fds) (hlive : s.targetsLive value = true) :
    ∀ j ∈ fds.elements, ∀ perf_fd, j.toInt32 = .ok perf_fd → s.isPerfFd perf_fd.toInt = true := by
  intro j hj perf_fd hread
  unfold targetsLive at hlive
  simp only [htype, hfds, if_true, List.all_eq_true] at hlive
  simpa [hread] using hlive j hj

lemma targetsLive_link {value j : Json} {target_fd : UInt32}
    (htype : value.handlerType = .ok "bpf_link_handler")
    (hj : value.attr "target_fd" = .ok j) (htarget : j.toUInt32 = .ok target_fd)
    (hlive : s.targetsLive value = true) : s.isPerfFd target_fd.toInt32.toInt = true := by
  unfold targetsLive at hlive
  simpa [htype, hj, htarget] using hlive

lemma leads_importProg {value : Json} (htype : value.handlerType = .ok "bpf_prog_handler")
    (hlive : checked → s.targetsLive value = true) : Leads checked s (s.importProg value fd) := by
  unfold importProg
  refine Leads.read fun a _ => ?_
  obtain ⟨insns_str, name, type, cnt⟩ := a
  dsimp only
  split_ifs
  · exact leads_same
  · cases hexStringToBuffer insns_str (cnt.toInt.toNat * 8) with
    | failed | threw => exact leads_same
    | ok bytes =>
      dsimp only
      cases hadd : s.addBpfProg fd (insnsOfBytes cnt.toInt.toNat bytes) (cStr name) type with
      | none => exact leads_none
      | some p =>
        obtain ⟨r, s1⟩ := p
        have hchange : Changes checked s s1 := leads_addBpfProg type r s1 hadd
        have hgrow := addBpfProg_grows hadd
        refine hchange.leads (Leads.read fun fds hfds => leads_attachAll fun hc j hj n hn => ?_)
        exact hgrow.isPerfFd (targetsLive_prog htype hfds (hlive hc) j hj n hn)

lemma leads_importMap {value : Json} : Leads checked s (s.importMap value fd) := by
  unfold importMap
  refine Leads.read fun a _ => ?_
  obtain ⟨name, attr⟩ := a
  dsimp only
  cases hadd : s.addBpfMap fd (cStr name) attr with
  | none => exact leads_none
  | some p => exact Changes.leads_some (leads_addBpfMap p.1 p.2 hadd)

lemma leads_importEnabled {value : Json} (hx : Leads checked s x) :
    Leads checked s (importEnabled value fd x) := by
  cases x with
  | none => exact leads_none
  | some p =>
    refine (hx p.1 p.2 rfl).leads (Leads.read fun enabled _ => ?_)
    cases enabled with
    | false => exact leads_same
    | true =>
      exact Changes.leads_some (leads_perfEventEnable (p.2.perfEventEnable fd true).1 _ rfl)

lemma leads_importPerfEvent {value : Json} : Leads checked s (s.importPerfEvent value fd) := by
  unfold importPerfEvent
  refine Leads.read fun a _ => ?_
  obtain ⟨type, pid, tracepoint_id⟩ := a
  dsimp only
  -- Whatever the type is, one perf event is added.
  split
  · refine Leads.read fun b _ => leads_importEnabled ?_
    exact leads_setHandlerAt fun l h => by simp at h
  · refine Leads.read fun b _ => leads_importEnabled ?_
    exact leads_setHandlerAt fun l h => by simp at h
  · exact leads_importEnabled (leads_setHandlerAt fun l h => by simp at h)
  · refine Leads.read fun b _ => leads_importEnabled ?_
    exact leads_setHandlerAt fun l h => by simp at h
  · exact Leads.read fun b _ => leads_importEnabled leads_addSoftwarePerfEvent
  · exact leads_same

lemma leads_importLink {value : Json} (htype : value.handlerType = .ok "bpf_link_handler")
    (hlive : checked → s.targetsLive value = true) : Leads checked s (s.importLink value fd) := by
  unfold importLink
  refine Leads.read fun a hread => ?_
  simp only [linkFields, JsonFault.bind_eq_ok] at hread
  obtain ⟨-, -, prog_fd, -, j, hj, target_fd, htarget, ha⟩ := hread
  cases ha
  dsimp only
  cases hadd : s.addBpfLink fd prog_fd.toInt32.toInt target_fd.toInt32.toInt with
  | none => exact leads_none
  | some p =>
    exact Changes.leads_some (leads_addBpfLink (fun hc =>
      targetsLive_link htype hj htarget (hlive hc)) p.1 p.2 hadd)

lemma leads_importShmHandlerFromJson {value : Json} (hlive : checked → s.targetsLive value = true) :
    Leads checked s (s.importShmHandlerFromJson value fd) := by
  unfold importShmHandlerFromJson
  refine Leads.read fun handler_type htype => ?_
  split_ifs with hprog hmap hperf hlink
  · exact leads_importProg (hprog ▸ htype) hlive
  · exact leads_importMap
  · exact leads_importPerfEvent
  · exact leads_importLink (hlink ▸ htype) hlive
  · exact leads_same

/-- The condition of `targetsLive` at every handler that the loop of an import reaches. -/
def itemsLive (s : BpftimeShm) : List (String × Json) → Bool
  | [] => true
  | (key, value) :: items =>
    match Numerals.stoi 10 (Numerals.stdChars key) with
    | none => true
    | some fd =>
      s.targetsLive value && match s.importShmHandlerFromJson value fd with
        | some (.ret n, s) => if n < 0 then true else s.itemsLive items
        | _ => true

lemma leads_importItems {items : List (String × Json)}
    (hlive : checked → s.itemsLive items = true) : Leads checked s (s.importItems items) := by
  induction items generalizing s with
  | nil => exact leads_same
  | cons item items ih =>
    obtain ⟨key, value⟩ := item
    unfold importItems
    unfold itemsLive at hlive
    cases hkey : Numerals.stoi 10 (Numerals.stdChars key) with
    | none => exact leads_same
    | some fd =>
      simp only [hkey, Bool.and_eq_true] at hlive
      have hone : Leads checked s (s.importShmHandlerFromJson value fd) :=
        leads_importShmHandlerFromJson fun hc => (hlive hc).1
      dsimp only
      cases himport : s.importShmHandlerFromJson value fd with
      | none => exact leads_none
      | some p =>
        obtain ⟨r, s1⟩ := p
        have hchange := hone r s1 himport
        cases r with
        | ret n =>
          dsimp only
          split_ifs with hneg
          · exact Changes.leads_some hchange
          · refine hchange.leads (ih fun hc => ?_)
            simpa [himport, hneg] using (hlive hc).2
        | error _ | threw => exact Changes.leads_some hchange

/-- An operation of `bpftime_shm`. -/
inductive ShmOp where
  | addBpfProg (fd : ℤ) (insns : List UInt64) (prog_name : String) (prog_type : Int32)
  | addBpfMap (fd : ℤ) (name : String) (attr : BpfMapAttr)
  | dupBpfMap (oldfd newfd : ℤ)
  | addUprobe (fd : ℤ) (pid : Int32) (name : String) (offset : UInt64) (retprobe : Bool)
      (ref_ctr_off : UInt64)
  | addUprobeOverride (fd : ℤ) (pid : Int32) (name : String) (offset : UInt64) (is_replace : Bool)
  | addKprobe (fd : Option ℤ) (func_name : String) (addr : UInt64) (retprobe : Bool)
      (ref_ctr_off : UInt64)
  | addTracepoint (fd : ℤ) (pid tracepoint_id : Int32)
  | addSoftwarePerfEvent (fd : Option ℤ) (cpu sample_type : Int32) (config : Int64)
  | addCustomPerfEvent (type : Int32) (attach_argument : String)
  | addBpfProgAttachTarget (perf_fd bpf_fd : ℤ) (cookie : Option UInt64)
  | attachPerfToBpf (perf_fd bpf_fd : ℤ) (cookie : Option UInt64)
  | addBpfLink (fd prog_fd target_fd : ℤ)
  | perfEventEnable (fd : ℤ) (enabled : Bool)
  | epollCreate
  | addMemfdHandler (name : String) (flags : Int32)
  | closeFd (fd : ℤ)
  | importHandler (fd : ℤ) (j : Json)
  | importFile (j : Json)

def step (s : BpftimeShm) : ShmOp → Option (ShmReply × BpftimeShm)
  | .addBpfProg fd insns prog_name prog_type => s.addBpfProg fd insns prog_name prog_type
  | .addBpfMap fd name attr => s.addBpfMap fd name attr
  | .dupBpfMap oldfd newfd => s.dupBpfMap oldfd newfd
  | .addUprobe fd pid name offset retprobe ref_ctr_off => s.addUprobe fd pid name offset retprobe ref_ctr_off
  | .addUprobeOverride fd pid name offset is_replace => s.addUprobeOverride fd pid name offset is_replace
  | .addKprobe fd func_name addr retprobe ref_ctr_off => s.addKprobe fd func_name addr retprobe ref_ctr_off
  | .addTracepoint fd pid tracepoint_id => s.addTracepoint fd pid tracepoint_id
  | .addSoftwarePerfEvent fd cpu sample_type config => s.addSoftwarePerfEvent fd cpu sample_type config
  | .addCustomPerfEvent type attach_argument => s.addCustomPerfEvent type attach_argument
  | .addBpfProgAttachTarget perf_fd bpf_fd cookie => s.addBpfProgAttachTarget perf_fd bpf_fd cookie
  | .attachPerfToBpf perf_fd bpf_fd cookie => s.attachPerfToBpf perf_fd bpf_fd cookie
  | .addBpfLink fd prog_fd target_fd => s.addBpfLink fd prog_fd target_fd
  | .perfEventEnable fd enabled => some (s.perfEventEnable fd enabled)
  | .epollCreate => s.epollCreate
  | .addMemfdHandler name flags => s.addMemfdHandler name flags
  | .closeFd fd => some (.ret 0, s.closeFd fd)
  | .importHandler fd j => s.bpftimeImportShmHandlerFromJson fd j
  | .importFile j => s.importFromJson j

/-- The targets that an operation gives to links without a check of its own are live perf events. -/
def opTargetsLive (s : BpftimeShm) : ShmOp → Bool
  | .addBpfProgAttachTarget perf_fd _ _ => s.isPerfFd perf_fd
  | .addBpfLink _ _ target_fd => s.isPerfFd target_fd
  | .importFile j => s.itemsLive j.items
  | _ => true

lemma importHandler_num (s : BpftimeShm) (n fd : ℤ) :
    s.importShmHandlerFromJson (.num n) fd = some (.threw, s) := rfl

lemma leads_step {op : ShmOp} (hlive : checked → s.opTargetsLive op = true) :
    Leads checked s (s.step op) := by
  cases op with
  | addBpfProg fd insns prog_name prog_type => exact leads_addBpfProg prog_type
  | addBpfMap fd name attr => exact leads_addBpfMap
  | dupBpfMap oldfd newfd => exact leads_dupBpfMap
  | addUprobe _ _ _ _ _ _ | addUprobeOverride _ _ _ _ _ | addTracepoint _ _ _ =>
    exact leads_setHandlerAt fun l h => by simp at h
  | addKprobe fd func_name addr retprobe ref_ctr_off => exact leads_optional
  | addSoftwarePerfEvent fd cpu sample_type config => exact leads_addSoftwarePerfEvent
  | addCustomPerfEvent type attach_argument => exact leads_addCustomPerfEvent
  | addBpfProgAttachTarget perf_fd bpf_fd cookie => exact leads_addBpfProgAttachTarget hlive
  | attachPerfToBpf perf_fd bpf_fd cookie => exact leads_attachPerfToBpf
  | addBpfLink fd prog_fd target_fd => exact leads_addBpfLink hlive
  | perfEventEnable fd enabled => exact leads_perfEventEnable
  | epollCreate => exact leads_epollCreate
  | addMemfdHandler name flags => exact leads_addMemfdHandler
  | closeFd fd => exact Changes.leads_some (Relation.ReflTransGen.single (.clear fd))
  | importHandler fd j =>
    refine Leads.read fun n _ => ?_
    rw [importHandler_num]
    exact leads_same
  | importFile j => exact leads_importItems hlive

end Bpftime.BpftimeShm
