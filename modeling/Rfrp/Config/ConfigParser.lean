import Rfrp.Config.BaseTypes
import Mathlib.Algebra.Group.Nat.Defs

/-!
# Validation of a configuration

`rfrp_config/src/config_parser.rs`. A server's own record must be complete; of a client's entries
one usable one is enough, whatever the others are. `ip.parse` is the parser of the standard library,
of which only whether it succeeds is read.
-/

namespace Rfrp

/-! ## Addresses -/

namespace IpParser

abbrev Reader := Bytes → Option Bytes

def toDigit (radix : Nat) (char : UInt8) : Option Nat :=
  let digit :=
    if 48 ≤ char ∧ char ≤ 57 then some (char.toNat - 48)
    else if 65 ≤ char ∧ char ≤ 90 then some (char.toNat - 55)
    else if 97 ≤ char ∧ char ≤ 122 then some (char.toNat - 87)
    else none
  digit.filter (· < radix)

def readGivenChar (target : UInt8) : Reader
  | char :: rest => if char = target then some rest else none
  | [] => none

def readSeparator (separator : UInt8) (index : Nat) (inner : Reader) : Reader := fun text =>
  if 0 < index then (readGivenChar separator text).bind inner else inner text

/-- A number below `size` of at most `maxDigits` digits. -/
def readNumber (radix maxDigits size : Nat) (allowZeroPrefix : Bool) : Reader := fun text =>
  let digits := text.takeWhile fun char => (toDigit radix char).isSome
  let value := digits.foldl (fun n char => n * radix + (toDigit radix char).getD 0) 0
  if maxDigits < digits.length ∨ digits = [] then none
  else if !allowZeroPrefix ∧ digits.head? = some 48 ∧ 1 < digits.length then none
  else if value < size then some (text.drop digits.length)
  else none

def readOctet : Reader := readNumber 10 3 (2 ^ 8) false

def readHextet : Reader := readNumber 16 4 (2 ^ 16) true

def readIpv4Addr : Reader := fun text =>
  (List.range 4).foldlM (fun text i => readSeparator 46 i readOctet text) text

/-- The groups of an IPv6 address, of which `left` may still come: how many were read, whether the
last two of them were an embedded IPv4 address, and the rest. -/
def readGroups (limit : Nat) : Nat → Bytes → Nat × Bool × Bytes
  | 0, text => (limit, false, text)
  | left + 1, text =>
      let i := limit - (left + 1)
      let ipv4 := if i < limit - 1 then readSeparator 58 i readIpv4Addr text else none
      match ipv4 with
      | some rest => (i + 2, true, rest)
      | none =>
          match readSeparator 58 i readHextet text with
          | some rest => readGroups limit left rest
          | none => (i, false, text)

def readIpv6Addr : Reader := fun text =>
  let (headSize, headIpv4, rest) := readGroups 8 8 text
  if headSize = 8 then some rest
  else if headIpv4 then none
  else
    -- the `::` stands for at least one group
    (readGivenChar 58 rest).bind fun rest => (readGivenChar 58 rest).map fun rest =>
      let limit := 8 - (headSize + 1)
      (readGroups limit limit rest).2.2

end IpParser

def isIpv4Addr (ip : String) : Bool :=
  let text := ip.toUTF8.data.toList
  text.length ≤ 15 ∧ IpParser.readIpv4Addr text = some []

def isIpv6Addr (ip : String) : Bool := IpParser.readIpv6Addr ip.toUTF8.data.toList = some []

def isValidIp (ip : String) : Bool := isIpv4Addr ip || isIpv6Addr ip

example : ["127.0.0.1", "::1", "fe80::1:2", "::ffff:10.0.0.1", "1:2:3:4:5:6:7:8"].all isValidIp := by
  decide

example : ["", "localhost", "10.0.0", "10.0.0.256", "010.0.0.1", "1::2::3", "1:2"].all
    fun ip => !isValidIp ip := by
  decide

def isValidPort (port : UInt16) : Bool := 0 < port

/-! ## Entries -/

/-- What the loop of `validate_clients` finds wrong with entry `i`. -/
def ClientInfo.problem? (client : ClientInfo) (i : Nat) : Option String :=
  let ip := client.proxyIp
  let port := client.proxyPort
  if ip = "" then some s!"client_proxy[{i}]: proxy_ip is empty"
  else if !isValidIp ip then
    some s!"client_proxy[{i}]: proxy_ip '{ip}' is not a valid IPv4/IPv6 address"
  else if !isValidPort port then
    some s!"client_proxy[{i}]: proxy_port {port} is invalid (must be 1-65535)"
  else none

/-- An entry that validation finds usable. -/
def ClientInfo.usable (client : ClientInfo) : Bool :=
  client.proxyIp ≠ "" && isValidIp client.proxyIp && isValidPort client.proxyPort

@[simp] theorem ClientInfo.usable_init (client : ClientInfo) : client.init.usable = client.usable :=
  rfl

theorem ClientInfo.problem_eq_none (client : ClientInfo) (i : Nat) :
    client.problem? i = none ↔ client.usable = true := by
  unfold problem? usable
  by_cases empty : client.proxyIp = ""
  · simp [empty]
  · cases valid : isValidIp client.proxyIp
    · simp [empty, valid]
    · cases port : isValidPort client.proxyPort <;> simp [empty, valid, port]

namespace ConfigInfo

/-- `valid_count` and `errors` after the entries from `i` on. -/
def tally (i : Nat) : List ClientInfo → Nat × List String → Nat × List String
  | [], counts => counts
  | client :: clients, (validCount, errors) =>
      match client.problem? i with
      | some error => tally (i + 1) clients (validCount, errors ++ [error])
      | none => tally (i + 1) clients (validCount + 1, errors)

def validateClients (config : ConfigInfo) : Except String Unit :=
  if config.clientProxy = [] then
    .error "client_proxy is empty, Client mode requires at least 1 usable entry"
  else
    let (validCount, errors) := tally 0 config.clientProxy (0, [])
    let joined := "; ".intercalate errors
    if validCount = 0 then .error s!"No usable client_proxy entries found. Errors: [{joined}]"
    else .ok ()

def validateServer (config : ConfigInfo) : Except String Unit :=
  let ip := config.server.serverIp
  let port := config.server.serverPort
  if ip = "" then .error "server.server_ip is empty"
  else if !isValidIp ip then .error s!"server.server_ip '{ip}' is not a valid IPv4/IPv6 address"
  else if !isValidPort port then .error s!"server.server_port {port} is invalid (must be 1-65535)"
  else if config.server.authToken = "" then .error "server.auth_token is empty"
  else .ok ()

def validate (config : ConfigInfo) : Except String Unit :=
  match config.runningMode with
  | .server => config.validateServer
  | .client => config.validateClients
  | .unknown => .error "running_mode is Unknown"

theorem tally_eq (clients : List ClientInfo) (i validCount : Nat) (errors : List String) :
    tally i clients (validCount, errors) =
      (validCount + clients.countP ClientInfo.usable,
        errors ++ (clients.zipIdx i).filterMap fun (client, i) => client.problem? i) := by
  induction clients generalizing i validCount errors with
  | nil => simp [tally]
  | cons client clients ih =>
      have usable := client.problem_eq_none i
      unfold tally
      cases problem : client.problem? i with
      | some error =>
          have unusable : client.usable = false := by simpa [problem] using usable
          simp [ih, unusable, problem]
      | none =>
          have usable : client.usable = true := usable.mp problem
          simp only [ih]
          simp [usable, problem]
          omega

theorem validateClients_eq_ok {config : ConfigInfo} :
    config.validateClients = .ok () ↔ ∃ client ∈ config.clientProxy, client.usable = true := by
  unfold validateClients
  rw [tally_eq, Nat.zero_add, List.nil_append]
  by_cases none : config.clientProxy = []
  · simp [none]
  · rw [if_neg none]
    by_cases count : config.clientProxy.countP ClientInfo.usable = 0
    · rw [List.countP_eq_zero] at count
      simp [List.countP_eq_zero.mpr count]
      exact fun client mem => by simpa using count client mem
    · have some : ∃ client ∈ config.clientProxy, client.usable = true := by
        simpa [List.countP_eq_zero] using count
      simp [count, some]

theorem validateServer_eq_ok {config : ConfigInfo} :
    config.validateServer = .ok () ↔ config.server.serverIp ≠ "" ∧
      isValidIp config.server.serverIp = true ∧ isValidPort config.server.serverPort = true ∧
      config.server.authToken ≠ "" := by
  unfold validateServer
  by_cases ip : config.server.serverIp = ""
  · simp [ip]
  · by_cases valid : isValidIp config.server.serverIp = true
    · by_cases port : isValidPort config.server.serverPort = true
      · by_cases token : config.server.authToken = "" <;> simp [ip, valid, port, token]
      · simp [ip, valid, port]
    · simp [ip, valid]

end ConfigInfo

end Rfrp
