import Bpftime.Lib.SharedMemory

/-!
# Helper calls from the GPU

A device thread that calls a helper of `attach/nv_attach_impl/trampoline/default_trampoline.cu` puts
its request into `CommSharedMem`, the memory that it shares with the host, and waits in
`make_helper_call` for the answer.
-/

namespace Bpftime.Cuda

open SharedMemory Function

inductive Call
  | mapLookup (map : BitVec 64) (key : List UInt8)
  | mapUpdate (map : BitVec 64) (key value : List UInt8) (flags : BitVec 64)
  | mapDelete (map : BitVec 64) (key : List UInt8)
  | tracePrintk (fmt : List UInt8) (arg1 arg2 arg3 : BitVec 64)
  | getCurrentPidTgid
  | puts (data : List UInt8)
  deriving DecidableEq

inductive Request
  | mapLookup (map : BitVec 64) (key : List UInt8)
  | mapUpdate (map : BitVec 64) (key value : List UInt8) (flags : ℕ)
  | mapDelete (map : BitVec 64) (key : List UInt8)
  | tracePrintk (fmt : List UInt8) (fmt_size arg1 arg2 arg3 : ℕ)
  | getCurrentPidTgid
  | puts (data : List UInt8)
  deriving DecidableEq

/-- What is not part of the protocol: the sizes of the keys and values of a map, as both sides know
them, and how the host answers. -/
structure Env (W : Type) where
  key_size : BitVec 64 → ℕ
  value_size : BitVec 64 → ℕ
  serve : Request → W → BitVec 64 × W

/-- The offset of `map_update.value` in `HelperCallRequest`. -/
def valueOffset : ℕ := 2^30

/-- The offset of `map_update.flags`. -/
def flagsOffset : ℕ := 2^31

namespace Call

/-- The `HelperOperation` of a call. -/
def reqId : Call → ℕ
  | mapLookup .. => 1
  | mapUpdate .. => 2
  | mapDelete .. => 3
  | tracePrintk .. => 6
  | getCurrentPidTgid => 14
  | puts _ => 501

/-- The `map_id` of a call. -/
def mapId : Call → BitVec 64
  | mapLookup map _ | mapUpdate map .. | mapDelete map _ => map
  | tracePrintk .. | getCurrentPidTgid | puts _ => 0

/-- The stores into `req` in front of `make_helper_call`, in `_bpf_helper_ext_0001` and the like. -/
def stores : Call → List Store
  | mapLookup _ key => bytewise 0 key
  | mapUpdate _ key value flags =>
    bytewise 0 key ++ bytewise valueOffset value ++ [(flagsOffset, Bytes.toLe 8 flags.toNat)]
  | mapDelete _ key => bytewise 0 key
  | tracePrintk fmt arg1 arg2 arg3 =>
    bytewise 0 fmt ++ [(1000, Bytes.toLe 4 fmt.length), (1008, Bytes.toLe 8 arg1.toNat),
      (1016, Bytes.toLe 8 arg2.toNat), (1024, Bytes.toLe 8 arg3.toNat)]
  | getCurrentPidTgid => []
  | puts data => bytewise 0 data ++ [(data.length, [0])]

def request : Call → Request
  | mapLookup map key => .mapLookup map key
  | mapUpdate map key value flags => .mapUpdate map key value flags.toNat
  | mapDelete map key => .mapDelete map key
  | tracePrintk fmt arg1 arg2 arg3 =>
    .tracePrintk (fmt.takeWhile (· ≠ 0)) fmt.length arg1.toNat arg2.toNat arg3.toNat
  | getCurrentPidTgid => .getCurrentPidTgid
  | puts data => .puts data

end Call

/-- How the host reads a request with a `request_id` and a `map_id`. -/
def readRequest {W : Type} (env : Env W) (req_id : ℕ) (map_id : BitVec 64) : Reader (Option Request) :=
  match req_id with
  | 1 => (Reader.range 0 (env.key_size map_id)).bind fun key => .done (some (.mapLookup map_id key))
  | 2 =>
    (Reader.number flagsOffset 8).bind fun flags =>
      (Reader.range 0 (env.key_size map_id)).bind fun key =>
        (Reader.range valueOffset (env.value_size map_id)).bind fun value =>
          .done (some (.mapUpdate map_id key value flags))
  | 3 => (Reader.range 0 (env.key_size map_id)).bind fun key => .done (some (.mapDelete map_id key))
  | 6 =>
    (Reader.number 1000 4).bind fun fmt_size =>
      (Reader.number 1008 8).bind fun arg1 =>
        (Reader.number 1016 8).bind fun arg2 =>
          (Reader.number 1024 8).bind fun arg3 =>
            (Reader.cstr 0 1000).bind fun fmt => .done (some (.tracePrintk fmt fmt_size arg1 arg2 arg3))
  | 14 => .done (some .getCurrentPidTgid)
  | 501 => (Reader.cstr 0 10000).bind fun data => .done (some (.puts data))
  | _ => .done none

/-- Whether the response to a request id is an `int`, and not a word of 64 bits. -/
def isInt (req_id : ℕ) : Bool := req_id ≠ 1 && req_id ≠ 14

/-- The response after the host stores the answer `v`. -/
def storeResp (req_id : ℕ) (resp v : BitVec 64) : BitVec 64 :=
  if isInt req_id then resp.extractLsb' 32 32 ++ v.extractLsb' 0 32 else v

def Call.returned (c : Call) (resp : BitVec 64) : BitVec 64 :=
  if isInt c.reqId then (resp.extractLsb' 0 32).signExtend 64 else resp

inductive DevPc
  | idle
  | storing (c : Call) (left : List Store)
  | setId (c : Call)
  | setMap (c : Call)
  | setFlag1 (c : Call)
  | waitFlag2 (c : Call)
  | clearFlag2 (c : Call)
  | loadResp (c : Call)
  | unlock (c : Call) (my_resp : BitVec 64)

/-- A device thread: the calls that it is still going to make, where it is, and the calls it has
made with what they returned. -/
structure Thread where
  todo : List Call
  pc : DevPc
  results : List (Call × BitVec 64)

inductive HostPc
  | poll
  | clearFlag1
  | loadId
  | loadMap (req_id : ℕ)
  | serve (req_id : ℕ) (r : Reader (Option Request))
  | respond (req_id : ℕ) (v : BitVec 64)
  | setFlag2

/-- The members of `CommSharedMem` apart from the request and the lock. -/
structure Comm where
  flag1 : Bool
  flag2 : Bool
  request_id : ℕ
  map_id : BitVec 64
  resp : BitVec 64

structure Sys (ι W : Type) where
  comm : Comm
  occupy_flag : Bool
  req : Memory
  threads : ι → Thread
  host : HostPc
  world : W
  holder : Option ι
  log : List (Option ι × Request × BitVec 64)

inductive Op (ι : Type)
  | dev (t : ι)
  | host

namespace Sys

variable {ι W : Type} [DecidableEq ι]

def init (todo : ι → List Call) (world : W) : Sys ι W where
  comm := ⟨false, false, 0, 0, 0⟩
  occupy_flag := false
  req _ := 0
  threads t := ⟨todo t, .idle, []⟩
  host := .poll
  world := world
  holder := none
  log := []

def goto (s : Sys ι W) (t : ι) (pc : DevPc) : Sys ι W :=
  { s with threads := update s.threads t { s.threads t with pc } }

def devStep (s : Sys ι W) (t : ι) : Sys ι W :=
  match (s.threads t).pc with
  | .idle =>
    match (s.threads t).todo with
    | [] => s
    | c :: todo => { s with threads := update s.threads t ⟨todo, .storing c c.stores, (s.threads t).results⟩ }
  | .storing c (st :: left) => { s with req := store s.req st.1 st.2 }.goto t (.storing c left)
  -- `spin_lock`.
  | .storing c [] =>
    if s.occupy_flag then s
    else { s with occupy_flag := true, holder := some t }.goto t (.setId c)
  | .setId c => { s with comm := { s.comm with request_id := c.reqId } }.goto t (.setMap c)
  | .setMap c => { s with comm := { s.comm with map_id := c.mapId } }.goto t (.setFlag1 c)
  | .setFlag1 c => { s with comm := { s.comm with flag1 := true } }.goto t (.waitFlag2 c)
  | .waitFlag2 c => if s.comm.flag2 then s.goto t (.clearFlag2 c) else s
  | .clearFlag2 c => { s with comm := { s.comm with flag2 := false } }.goto t (.loadResp c)
  | .loadResp c => s.goto t (.unlock c s.comm.resp)
  | .unlock c my_resp =>
    { s with
      occupy_flag := false
      holder := none
      threads := update s.threads t
        ⟨(s.threads t).todo, .idle, (s.threads t).results ++ [(c, c.returned my_resp)]⟩ }

def hostStep (env : Env W) (s : Sys ι W) : Sys ι W :=
  match s.host with
  | .poll => if s.comm.flag1 then { s with host := .clearFlag1 } else s
  | .clearFlag1 => { s with comm := { s.comm with flag1 := false }, host := .loadId }
  | .loadId => { s with host := .loadMap s.comm.request_id }
  | .loadMap req_id => { s with host := .serve req_id (readRequest env req_id s.comm.map_id) }
  | .serve req_id (.load a n next) => { s with host := .serve req_id (next (load s.req a n)) }
  -- An unknown request is not answered.
  | .serve _ (.done none) => { s with host := .setFlag2 }
  | .serve req_id (.done (some rq)) =>
    let r := env.serve rq s.world
    { s with
      world := r.2
      log := s.log ++ [(s.holder, rq, r.1)]
      host := .respond req_id r.1 }
  | .respond req_id v => { s with comm := { s.comm with resp := storeResp req_id s.comm.resp v }, host := .setFlag2 }
  | .setFlag2 => { s with comm := { s.comm with flag2 := true }, host := .poll }

def step (env : Env W) (s : Sys ι W) : Op ι → Option (Unit × Sys ι W)
  | .dev t => some ((), s.devStep t)
  | .host => some ((), s.hostStep env)

end Sys

end Bpftime.Cuda
