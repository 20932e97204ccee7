import Rfrp.Config.BaseTypes
import Mathlib.Data.List.Basic

/-!
# Frames

`rfrp_proto/src/frame_types.rs`, and the views of a frame log that the session proofs use: the
Data frames in it, the registrations and the answers to them.
-/

namespace Rfrp

inductive RfrpFrame
  | register (client : ClientInfo)
  | registerAck (response : RegisterResponse)
  | control (info : ControlInfo)
  | data (info : DataInfo)
deriving DecidableEq, Repr

namespace RfrpFrame

def newDataFrame (data : Bytes) (proxyId : UInt32) (connId : UInt64) : RfrpFrame :=
  .data ⟨connId, proxyId, data⟩

def newRegAckFrame (client : ClientInfo) (success : Bool) (proxyId : UInt32) : RfrpFrame :=
  .registerAck ⟨client, success, proxyId⟩

def newPingFrame : RfrpFrame := .control ⟨"ping", []⟩

def newPongFrame : RfrpFrame := .control ⟨"pong", []⟩

def isPing : RfrpFrame → Bool
  | .control c => c.command == "ping"
  | _ => false

def isPong : RfrpFrame → Bool
  | .control c => c.command == "pong"
  | _ => false

/-- The frame the other side decodes: the skipped `addr` fields come back empty. -/
def skipAddr : RfrpFrame → RfrpFrame
  | .register client => .register client.skipAddr
  | .registerAck response => .registerAck { response with client := response.client.skipAddr }
  | f => f

def dataInfo? : RfrpFrame → Option DataInfo
  | .data d => some d
  | _ => none

def register? : RfrpFrame → Option ClientInfo
  | .register client => some client
  | _ => none

def ack? : RfrpFrame → Option RegisterResponse
  | .registerAck response => some response
  | _ => none

@[simp] theorem dataInfo?_skipAddr (f : RfrpFrame) : f.skipAddr.dataInfo? = f.dataInfo? := by
  cases f <;> rfl

@[simp] theorem register?_skipAddr (f : RfrpFrame) :
    f.skipAddr.register? = f.register?.map ClientInfo.skipAddr := by
  cases f <;> rfl

@[simp] theorem ack?_skipAddr (f : RfrpFrame) :
    f.skipAddr.ack? = f.ack?.map fun a => { a with client := a.client.skipAddr } := by
  cases f <;> rfl

end RfrpFrame

/-- The Data frames of a log. -/
def dataOf (log : List RfrpFrame) : List DataInfo := log.filterMap RfrpFrame.dataInfo?

def registersOf (log : List RfrpFrame) : List ClientInfo := log.filterMap RfrpFrame.register?

def acksOf (log : List RfrpFrame) : List RegisterResponse := log.filterMap RfrpFrame.ack?

/-- The payloads of one logical connection among some Data frames. -/
def payloads (p : UInt32) (c : UInt64) (frames : List DataInfo) : List Bytes :=
  (frames.filter fun d => d.proxyId = p ∧ d.connId = c).map DataInfo.data

section logs
variable (log log' : List RfrpFrame) (p : UInt32) (c : UInt64) (frames frames' : List DataInfo)

@[simp] theorem dataOf_nil : dataOf [] = [] := rfl
@[simp] theorem registersOf_nil : registersOf [] = [] := rfl
@[simp] theorem acksOf_nil : acksOf [] = [] := rfl
@[simp] theorem payloads_nil : payloads p c [] = [] := rfl

@[simp] theorem dataOf_append : dataOf (log ++ log') = dataOf log ++ dataOf log' :=
  List.filterMap_append

@[simp] theorem registersOf_append :
    registersOf (log ++ log') = registersOf log ++ registersOf log' :=
  List.filterMap_append

@[simp] theorem acksOf_append : acksOf (log ++ log') = acksOf log ++ acksOf log' :=
  List.filterMap_append

@[simp] theorem payloads_append :
    payloads p c (frames ++ frames') = payloads p c frames ++ payloads p c frames' := by
  simp [payloads]

theorem mem_acksOf {log : List RfrpFrame} {a : RegisterResponse} :
    a ∈ acksOf log ↔ .registerAck a ∈ log := by
  refine List.mem_filterMap.trans ⟨?_, fun mem => ⟨_, mem, rfl⟩⟩
  rintro ⟨f, mem, ack⟩
  cases f <;> cases ack
  exact mem

@[simp] theorem dataOf_map_skipAddr : dataOf (log.map RfrpFrame.skipAddr) = dataOf log := by
  simp only [dataOf, List.filterMap_map, Function.comp_def, RfrpFrame.dataInfo?_skipAddr]

@[simp] theorem registersOf_map_skipAddr :
    registersOf (log.map RfrpFrame.skipAddr) = (registersOf log).map ClientInfo.skipAddr := by
  simp only [registersOf, List.filterMap_map, Function.comp_def, RfrpFrame.register?_skipAddr,
    List.map_filterMap]

@[simp] theorem acksOf_map_skipAddr :
    acksOf (log.map RfrpFrame.skipAddr) =
      (acksOf log).map fun a => { a with client := a.client.skipAddr } := by
  simp only [acksOf, List.filterMap_map, Function.comp_def, RfrpFrame.ack?_skipAddr,
    List.map_filterMap]

@[simp] theorem dataOf_data (d : DataInfo) : dataOf [.data d] = [d] := rfl
@[simp] theorem dataOf_newDataFrame (d : Bytes) :
    dataOf [RfrpFrame.newDataFrame d p c] = [⟨c, p, d⟩] := rfl
@[simp] theorem dataOf_register (r : ClientInfo) : dataOf [.register r] = [] := rfl
@[simp] theorem dataOf_registerAck (r : RegisterResponse) : dataOf [.registerAck r] = [] := rfl
@[simp] theorem dataOf_control (r : ControlInfo) : dataOf [.control r] = [] := rfl
@[simp] theorem registersOf_data (d : DataInfo) : registersOf [.data d] = [] := rfl
@[simp] theorem registersOf_register (r : ClientInfo) : registersOf [.register r] = [r] := rfl
@[simp] theorem registersOf_registerAck (r : RegisterResponse) :
    registersOf [.registerAck r] = [] := rfl
@[simp] theorem registersOf_control (r : ControlInfo) : registersOf [.control r] = [] := rfl
@[simp] theorem acksOf_data (d : DataInfo) : acksOf [.data d] = [] := rfl
@[simp] theorem acksOf_register (r : ClientInfo) : acksOf [.register r] = [] := rfl
@[simp] theorem acksOf_registerAck (r : RegisterResponse) : acksOf [.registerAck r] = [r] := rfl
@[simp] theorem acksOf_control (r : ControlInfo) : acksOf [.control r] = [] := rfl

theorem payloads_singleton (d : DataInfo) :
    payloads p c [d] = if d.proxyId = p ∧ d.connId = c then [d.data] else [] := by
  by_cases h : d.proxyId = p ∧ d.connId = c <;> simp [payloads, h]

end logs

section monotone
variable {log log' : List RfrpFrame} {frames frames' : List DataInfo} (p : UInt32) (c : UInt64)

theorem dataOf_isPrefix (h : log <+: log') : dataOf log <+: dataOf log' := h.filterMap _

theorem registersOf_isPrefix (h : log <+: log') : registersOf log <+: registersOf log' :=
  h.filterMap _

theorem acksOf_isPrefix (h : log <+: log') : acksOf log <+: acksOf log' := h.filterMap _

theorem payloads_isPrefix (h : frames <+: frames') : payloads p c frames <+: payloads p c frames' :=
  (h.filter _).map _

end monotone

end Rfrp
