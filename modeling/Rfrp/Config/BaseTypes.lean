/-!
# Configuration and message records

`rfrp_config/src/config_info/base_types.rs`. `addr` is the cached `ip:port` string that
`ConfigInfo::init` fills in and that serde skips.
-/

namespace Rfrp

abbrev Bytes := List UInt8

inductive RunningMode
  | server
  | client
  | unknown
deriving DecidableEq, Repr

structure ControlInfo where
  command : String
  args : List String
deriving DecidableEq, Repr

structure DataInfo where
  connId : UInt64
  proxyId : UInt32
  data : Bytes
deriving DecidableEq, Repr

structure ServerInfo where
  serverIp : String
  serverPort : UInt16
  authToken : String
  addr : String
deriving DecidableEq, Repr

structure ClientInfo where
  name : String
  bindPort : UInt16
  proxyIp : String
  proxyPort : UInt16
  proxyConType : String
  addr : String
deriving DecidableEq, Repr

structure RegisterResponse where
  client : ClientInfo
  success : Bool
  proxyId : UInt32
deriving DecidableEq, Repr

structure ConfigInfo where
  runningMode : RunningMode
  server : ServerInfo
  clientProxy : List ClientInfo
deriving DecidableEq, Repr

/-- `format!("{}:{}", ip, port)`. -/
def formatAddr (ip : String) (port : UInt16) : String := s!"{ip}:{port}"

def ClientInfo.init (client : ClientInfo) : ClientInfo :=
  { client with addr := formatAddr client.proxyIp client.proxyPort }

/-- `ConfigInfo::init`: cache the addresses once, after deserialization. -/
def ConfigInfo.init (config : ConfigInfo) : ConfigInfo :=
  { config with
    server := { config.server with addr := formatAddr config.server.serverIp config.server.serverPort }
    clientProxy := config.clientProxy.map ClientInfo.init }

/-- What `#[serde(skip, default)]` leaves of a record that went over the wire. -/
def ClientInfo.skipAddr (client : ClientInfo) : ClientInfo := { client with addr := "" }

@[simp] theorem ClientInfo.skipAddr_bindPort (client : ClientInfo) :
    client.skipAddr.bindPort = client.bindPort := rfl

@[simp] theorem ClientInfo.skipAddr_skipAddr (client : ClientInfo) :
    client.skipAddr.skipAddr = client.skipAddr := rfl

end Rfrp
