import Bpftime.Shm.Model
import Bpftime.Shm.Hex
import Mathlib.Data.String.Basic

/-!
# The table as JSON

`bpftime_export_shm_to_json` and the imports of `runtime/src/bpftime_shm_json.cpp`, over the values
of the JSON library they use.
-/

namespace Bpftime

open Numerals

/-! ## Values -/

inductive Json where
  | null
  | bool (b : Bool)
  | num (n : ℤ)
  | str (s : String)
  | arr (elems : List Json)
  | obj (members : List (String × Json))

/-- A reading that has no value: it throws, or the library does not say what it does. -/
inductive JsonFault where
  | threw
  | undefined
deriving DecidableEq

lemma JsonFault.bind_eq_ok {α β : Type} {x : Except JsonFault α} {f : α → Except JsonFault β}
    {b : β} : (x >>= f) = .ok b ↔ ∃ a, x = .ok a ∧ f a = .ok b := by
  cases x with
  | error _ | ok _ => simp [Bind.bind, Except.bind]

namespace Json

/-- `value[key]`. -/
def index (key : String) : Json → Except JsonFault Json
  | .obj members => .ok ((members.lookup key).getD .null)
  | .null => .ok .null
  | _ => .error .threw

/-- `value[key]` of a constant value, which must have the member. -/
def constIndex (key : String) : Json → Except JsonFault Json
  | .obj members =>
    match members.lookup key with
    | none => .error .undefined
    | some v => .ok v
  | _ => .error .threw

/-- The integer that a value is converted to, for types that are not those of the library. -/
def toInteger : Json → Except JsonFault ℤ
  | .num n => .ok n
  | .bool b => .ok (if b then 1 else 0)
  | _ => .error .threw

/-- Conversion to `int`. -/
def toInt32 (j : Json) : Except JsonFault Int32 := j.toInteger.map Int32.ofInt

/-- Conversion to `unsigned int`. -/
def toUInt32 (j : Json) : Except JsonFault UInt32 := j.toInteger.map UInt32.ofInt

/-- Conversion to `uint64_t`, a number type of the library. -/
def toUInt64 : Json → Except JsonFault UInt64
  | .num n => .ok (UInt64.ofInt n)
  | _ => .error .threw

/-- Conversion to `int64_t`, a number type of the library. -/
def toInt64 : Json → Except JsonFault Int64
  | .num n => .ok (Int64.ofInt n)
  | _ => .error .threw

/-- Conversion to `bool`. -/
def toBool : Json → Except JsonFault Bool
  | .bool b => .ok b
  | _ => .error .threw

/-- Conversion to `std::string`. -/
def toStr : Json → Except JsonFault String
  | .str s => .ok s
  | _ => .error .threw

/-- `value["attr"][key]`. -/
def attr (key : String) (value : Json) : Except JsonFault Json := do
  (← value.index "attr").index key

/-- The string `value["type"]`. -/
def handlerType (value : Json) : Except JsonFault String := do (← value.index "type").toStr

def elements : Json → List Json
  | .null => []
  | .arr elems => elems
  | .obj members => members.map Prod.snd
  | j => [j]

/-- `items()`: what a loop over a value visits, with keys. -/
def items : Json → List (String × Json)
  | .null => []
  | .arr elems => elems.zipIdx.map fun p => (toString p.2, p.1)
  | .obj members => members
  | j => [("", j)]

/-- `object[key] = value` on the members of an object. -/
def insertMember (key : String) (value : Json) : List (String × Json) → List (String × Json)
  | [] => [(key, value)]
  | (k, v) :: members =>
    if key < k then (key, value) :: (k, v) :: members
    else if key = k then (key, value) :: members
    else (k, v) :: insertMember key value members

end Json

/-- `c_str()`: a text up to the first null character. -/
def cStr (s : String) : String := String.ofList (s.toList.takeWhile (· ≠ '\x00'))

/-- `bpf_map_attr_to_json`. -/
def bpfMapAttrToJson (attr : BpfMapAttr) : Json :=
  .obj [("map_type", .num attr.type.toInt), ("key_size", .num attr.key_size.toNat),
    ("value_size", .num attr.value_size.toNat), ("max_entries", .num attr.max_ents.toNat),
    ("flags", .num attr.flags.toNat), ("ifindex", .num attr.ifindex.toNat),
    ("btf_vmlinux_value_type_id", .num attr.btf_vmlinux_value_type_id.toNat),
    ("btf_id", .num attr.btf_id.toNat), ("btf_key_type_id", .num attr.btf_key_type_id.toNat),
    ("btf_value_type_id", .num attr.btf_value_type_id.toNat),
    ("map_extra", .num attr.map_extra.toNat),
    ("kernel_bpf_map_id", .num attr.kernel_bpf_map_id.toNat)]

/-- The members of `bpf_perf_event_handler_attr_to_json` behind `type`. -/
def perfEventDataMembers : PerfEventData → List (String × Json)
  | .uprobe offset pid ref_ctr_off module_name =>
    [("data_type", .str "uprobe_perf_event_data"), ("offset", .num offset.toNat),
      ("pid", .num pid.toInt), ("ref_ctr_off", .num ref_ctr_off.toNat), ("_module_name", .str module_name)]
  | .tracepoint pid tracepoint_id =>
    [("data_type", .str "tracepoint_perf_event_data"), ("pid", .num pid.toInt),
      ("tracepoint_id", .num tracepoint_id.toInt)]
  | .software cpu config sample_type =>
    [("data_type", .str "software_perf_event_shared_ptr"), ("cpu", .num cpu.toInt),
      ("config", .num config.toInt), ("sample_type", .num sample_type.toInt)]
  | .custom _ | .kprobe _ _ _ => []

/-- `bpf_perf_event_handler_attr_to_json`. -/
def bpfPerfEventHandlerAttrToJson (h : BpfPerfEventHandler) : Json :=
  .obj (("type", .num h.type.toInt) :: perfEventDataMembers h.data)

/-- The value that the loop of `bpftime_export_shm_to_json` writes for a handler that is
allocated. -/
def handlerToJson : Handler → Option Json
  | .prog h =>
    let attr := .obj [("type", .num h.type.toInt), ("insns", .str (bufferToHexString (insnBytes h.insns))),
      ("cnt", .num h.insns.length)]
    some (.obj [("type", .str "bpf_prog_handler"), ("attr", attr), ("name", .str (cStr h.name))])
  | .map h =>
    some (.obj [("type", .str "bpf_map_handler"), ("name", .str (cStr h.name)),
      ("attr", bpfMapAttrToJson h.attr)])
  | .perfEvent h =>
    some (.obj [("type", .str "bpf_perf_event_handler"), ("attr", bpfPerfEventHandlerAttrToJson h),
      ("enabled", .bool h.enabled)])
  | .epoll => some (.obj [("type", .str "epoll_handler")])
  | .link h =>
    some (.obj [("type", .str "bpf_link_handler"),
      ("attr", .obj [("prog_fd", .num h.prog_id), ("target_fd", .num h.attach_target_id)])])
  | .unused | .memfd _ _ => none

/-- The loop of `bpftime_export_shm_to_json` from slot `i` on, with the members written so far. -/
def exportItems : List Handler → ℕ → List (String × Json) → Option (List (String × Json))
  | [], _, members => some members
  | h :: hs, i, members =>
    -- Slots that are not allocated are skipped.
    if h = .unused then exportItems hs (i + 1) members
    else
      match handlerToJson h with
      | none => none
      | some value => exportItems hs (i + 1) (Json.insertMember (toString i) value members)

namespace BpftimeShm

/-- `bpftime_export_shm_to_json`: the value in the file, unless it returns -1. -/
def exportToJson (s : BpftimeShm) : Option Json :=
  match exportItems s.handlers 0 [] with
  | none => none
  | some [] => some .null
  | some members => some (.obj members)

/-! ## Import -/

def read {α : Type} (s : BpftimeShm) (r : Except JsonFault α)
    (k : α → Option (ShmReply × BpftimeShm)) : Option (ShmReply × BpftimeShm) :=
  match r with
  | .ok a => k a
  | .error .threw => some (.threw, s)
  | .error .undefined => none

/-- `json_to_bpf_map_attr`. -/
def jsonToBpfMapAttr (j : Json) : Except JsonFault BpfMapAttr := do
  return {
    type := ← (← j.constIndex "map_type").toInt32
    key_size := ← (← j.constIndex "key_size").toUInt32
    value_size := ← (← j.constIndex "value_size").toUInt32
    max_ents := ← (← j.constIndex "max_entries").toUInt32
    flags := ← (← j.constIndex "flags").toUInt64
    ifindex := ← (← j.constIndex "ifindex").toUInt32
    btf_vmlinux_value_type_id := ← (← j.constIndex "btf_vmlinux_value_type_id").toUInt32
    btf_id := ← (← j.constIndex "btf_id").toUInt32
    btf_key_type_id := ← (← j.constIndex "btf_key_type_id").toUInt32
    btf_value_type_id := ← (← j.constIndex "btf_value_type_id").toUInt32
    map_extra := ← (← j.constIndex "map_extra").toUInt64
    kernel_bpf_map_id := ← (← j.constIndex "kernel_bpf_map_id").toUInt32
    gpu_thread_count := 1000 }

/-- The loop over `attach_fds`. -/
def attachAll (s : BpftimeShm) (fd : ℤ) : List Json → Option (ShmReply × BpftimeShm)
  | [] => some (.ret 0, s)
  | j :: js =>
    s.read j.toInt32 fun perf_fd =>
      match s.addBpfProgAttachTarget perf_fd.toInt fd none with
      | none => none
      | some (_, s) => s.attachAll fd js

/-- What is read of a program. -/
def progFields (value : Json) : Except JsonFault (String × String × Int32 × Int32) := do
  let insns_str ← (← value.attr "insns").toStr
  let name ← (← value.index "name").toStr
  let type ← (← value.attr "type").toInt32
  let cnt ← (← value.attr "cnt").toInt32
  return (insns_str, name, type, cnt)

/-- The branch of `import_shm_handler_from_json` for a program. -/
def importProg (s : BpftimeShm) (value : Json) (fd : ℤ) : Option (ShmReply × BpftimeShm) :=
  s.read (progFields value) fun (insns_str, name, type, cnt) =>
    -- A vector cannot have a negative number of elements.
    if cnt.toInt < 0 then some (.threw, s)
    else
      match hexStringToBuffer insns_str (cnt.toInt.toNat * 8) with
      | .failed => some (.ret (-1), s)
      | .threw => some (.threw, s)
      | .ok bytes =>
        match s.addBpfProg fd (insnsOfBytes cnt.toInt.toNat bytes) (cStr name) type with
        | none => none
        | some (_, s) =>
          s.read (value.attr "attach_fds") fun fds => s.attachAll fd fds.elements

/-- What is read of a map. -/
def mapFields (value : Json) : Except JsonFault (String × BpfMapAttr) := do
  let name ← (← value.index "name").toStr
  let attr ← jsonToBpfMapAttr (← value.index "attr")
  return (name, attr)

def importMap (s : BpftimeShm) (value : Json) (fd : ℤ) : Option (ShmReply × BpftimeShm) :=
  s.read (mapFields value) fun (name, attr) =>
    match s.addBpfMap fd (cStr name) attr with
    | none => none
    | some (_, s) => some (.ret 0, s)

/-- The end of the branch for a perf event, behind the operation that adds it. -/
def importEnabled (value : Json) (fd : ℤ) : Option (ShmReply × BpftimeShm) → Option (ShmReply × BpftimeShm)
  | none => none
  | some (_, s) =>
    s.read (do (← value.index "enabled").toBool) fun enabled =>
      some (.ret 0, if enabled then (s.perfEventEnable fd true).2 else s)

/-- What is read of every perf event. -/
def perfFields (value : Json) : Except JsonFault (Int32 × Int32 × Int32) := do
  let type ← (← value.attr "type").toInt32
  let pid ← (← value.attr "pid").toInt32
  let tracepoint_id ← (← value.attr "tracepoint_id").toInt32
  return (type, pid, tracepoint_id)

/-- What is read of a uprobe or uretprobe. -/
def uprobeFields (value : Json) : Except JsonFault (Int32 × Int32 × String) := do
  let ref_ctr_off ← (← value.attr "ref_ctr_off").toInt32
  let offset ← (← value.attr "offset").toInt32
  let module_name ← (← value.attr "_module_name").toStr
  return (ref_ctr_off, offset, module_name)

/-- What is read of an override. -/
def overrideFields (value : Json) : Except JsonFault (Int32 × String) := do
  let offset ← (← value.attr "offset").toInt32
  let module_name ← (← value.attr "_module_name").toStr
  return (offset, module_name)

/-- What is read of a software event. -/
def softwareFields (value : Json) : Except JsonFault (Int32 × Int32 × Int64) := do
  let cpu ← (← value.attr "cpu").toInt32
  let sample_type ← (← value.attr "sample_type").toInt32
  let config ← (← value.attr "config").toInt64
  return (cpu, sample_type, config)

def importPerfEvent (s : BpftimeShm) (value : Json) (fd : ℤ) : Option (ShmReply × BpftimeShm) :=
  s.read (perfFields value) fun (type, pid, tracepoint_id) =>
    let uprobe (retprobe : Bool) : Option (ShmReply × BpftimeShm) :=
      s.read (uprobeFields value) fun (ref_ctr_off, offset, module_name) =>
        importEnabled value fd (s.addUprobe fd pid (cStr module_name) (UInt64.ofInt offset.toInt)
          retprobe (UInt64.ofInt ref_ctr_off.toInt))
    match type.toInt with
    | 6 => uprobe false
    | 7 => uprobe true
    | 2 => importEnabled value fd (s.addTracepoint fd pid tracepoint_id)
    | 1008 =>
      s.read (overrideFields value) fun (offset, module_name) =>
        importEnabled value fd (s.addUprobeOverride fd pid (cStr module_name)
          (UInt64.ofInt offset.toInt) false)
    | 1 =>
      s.read (softwareFields value) fun (cpu, sample_type, config) =>
        importEnabled value fd (s.addSoftwarePerfEvent (some fd) cpu sample_type config)
    -- The type is not supported.
    | _ => some (.ret (-1), s)

/-- What is read of a link. -/
def linkFields (value : Json) : Except JsonFault (UInt32 × UInt32) := do
  let prog_fd ← (← value.attr "prog_fd").toUInt32
  let target_fd ← (← value.attr "target_fd").toUInt32
  return (prog_fd, target_fd)

def importLink (s : BpftimeShm) (value : Json) (fd : ℤ) : Option (ShmReply × BpftimeShm) :=
  s.read (linkFields value) fun (prog_fd, target_fd) =>
    match s.addBpfLink fd prog_fd.toInt32.toInt target_fd.toInt32.toInt with
    | none => none
    | some (_, s) => some (.ret 0, s)

/-- `import_shm_handler_from_json`. -/
def importShmHandlerFromJson (s : BpftimeShm) (value : Json) (fd : ℤ) : Option (ShmReply × BpftimeShm) :=
  s.read value.handlerType fun handler_type =>
    if handler_type = "bpf_prog_handler" then s.importProg value fd
    else if handler_type = "bpf_map_handler" then s.importMap value fd
    else if handler_type = "bpf_perf_event_handler" then s.importPerfEvent value fd
    else if handler_type = "bpf_link_handler" then s.importLink value fd
    -- The type is not supported.
    else some (.ret (-1), s)

/-- `bpftime_import_shm_handler_from_json`. -/
def bpftimeImportShmHandlerFromJson (s : BpftimeShm) (fd : ℤ) (j : Json) : Option (ShmReply × BpftimeShm) :=
  s.read j.toInt32 fun n => s.importShmHandlerFromJson (.num fd) n.toInt

/-- The loop of `bpftime_import_shm_from_json`. -/
def importItems (s : BpftimeShm) : List (String × Json) → Option (ShmReply × BpftimeShm)
  | [] => some (.ret 0, s)
  | (key, value) :: items =>
    match stoi 10 (stdChars key) with
    | none => some (.threw, s)
    | some fd =>
      match s.importShmHandlerFromJson value fd with
      | none => none
      | some (.ret n, s) => if n < 0 then some (.ret (-1), s) else s.importItems items
      | some (r, s) => some (r, s)

/-- `bpftime_import_shm_from_json`, for the value in the file. -/
def importFromJson (s : BpftimeShm) (j : Json) : Option (ShmReply × BpftimeShm) := s.importItems j.items

end BpftimeShm

end Bpftime
