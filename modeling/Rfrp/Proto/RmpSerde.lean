import Rfrp.Lib.MessagePack
import Rfrp.Proto.FrameCodec

/-!
# Frames in MessagePack

What the `Serialize` and `Deserialize` derives of the frame types come to with `rmp_serde`: a frame
is a map of one entry from the variant's name to its record, a record the array of its fields
without the skipped ones.
-/

namespace Rfrp.RmpSerde

open Msgpack

def putString (text : String) : Bytes := putBlob str text.toByteArray.data.toList

def getString (input : Bytes) : Option (String × Bytes) :=
  (getBlob str input).bind fun (bytes, rest) =>
    (String.fromUTF8? ⟨bytes.toArray⟩).map fun text => (text, rest)

def putNat (n : Nat) : Bytes := uint.put n

def getNat (bound : Nat) (input : Bytes) : Option (Nat × Bytes) :=
  (uint.get input).bind fun (n, rest) => if n < bound then some (n, rest) else none

def putClient (client : ClientInfo) : Bytes :=
  array.put 5 ++ putString client.name ++ putNat client.bindPort.toNat ++
    putString client.proxyIp ++ putNat client.proxyPort.toNat ++ putString client.proxyConType

/-- A header with this length. -/
def expect (format : Format) (n : Nat) (input : Bytes) : Option Bytes :=
  (format.get input).bind fun (m, rest) => if m = n then some rest else none

def getClient (input : Bytes) : Option (ClientInfo × Bytes) := do
  let rest ← expect array 5 input
  let (name, rest) ← getString rest
  let (bindPort, rest) ← getNat (2 ^ 16) rest
  let (proxyIp, rest) ← getString rest
  let (proxyPort, rest) ← getNat (2 ^ 16) rest
  let (proxyConType, rest) ← getString rest
  return (⟨name, .ofNat bindPort, proxyIp, .ofNat proxyPort, proxyConType, ""⟩, rest)

def getStrings : Nat → Bytes → Option (List String × Bytes)
  | 0, rest => some ([], rest)
  | n + 1, rest => do
      let (text, rest) ← getString rest
      let (texts, rest) ← getStrings n rest
      return (text :: texts, rest)

def putFrame : RfrpFrame → Bytes
  | .register client => map.put 1 ++ putString "Register" ++ putClient client
  | .registerAck response =>
      map.put 1 ++ putString "RegisterAck" ++ array.put 3 ++ putClient response.client ++
        putBool response.success ++ putNat response.proxyId.toNat
  | .control info =>
      map.put 1 ++ putString "Control" ++ array.put 2 ++ putString info.command ++
        array.put info.args.length ++ (info.args.map putString).flatten
  | .data info =>
      map.put 1 ++ putString "Data" ++ array.put 3 ++ putNat info.connId.toNat ++
        putNat info.proxyId.toNat ++ putBlob bin info.data

def getFrame (input : Bytes) : Option RfrpFrame := do
  let rest ← expect map 1 input
  let (variant, rest) ← getString rest
  match variant with
  | "Register" => do
      let (client, _) ← getClient rest
      return .register client
  | "RegisterAck" => do
      let rest ← expect array 3 rest
      let (client, rest) ← getClient rest
      let (success, rest) ← getBool rest
      let (proxyId, _) ← getNat (2 ^ 32) rest
      return .registerAck ⟨client, success, .ofNat proxyId⟩
  | "Control" => do
      let rest ← expect array 2 rest
      let (command, rest) ← getString rest
      let (count, rest) ← array.get rest
      let (args, _) ← getStrings count rest
      return .control ⟨command, args⟩
  | "Data" => do
      let rest ← expect array 3 rest
      let (connId, rest) ← getNat (2 ^ 64) rest
      let (proxyId, rest) ← getNat (2 ^ 32) rest
      let (data, _) ← getBlob bin rest
      return .data ⟨.ofNat connId, .ofNat proxyId, data⟩
  | _ => none

def messagePack : MessagePack where
  write f := some (putFrame f)
  fromSlice bytes :=
    match getFrame bytes with
    | some f => .ok f
    | none => .error "invalid"

/-! ## Round trips -/

theorem fits_of_lt {format : Format} {k n : Nat} (wide : k ∈ format.wide.map Prod.snd)
    (small : n < 256 ^ k) : format.Fits n := ⟨k, wide, small⟩

theorem getString_putString {text : String} (short : shortString text) (rest : Bytes) :
    getString (putString text ++ rest) = some (text, rest) := by
  have fits : str.Fits text.toByteArray.data.toList.length :=
    fits_of_lt (k := 4) (by decide) (by simpa [shortString] using short)
  rw [getString, putString, getBlob_putBlob (by decide) _ fits, Option.bind_some]
  simp only [String.fromUTF8?, Array.toArray_toList, Option.map_eq_some_iff]
  refine ⟨text, ?_, rfl⟩
  exact dif_pos text.isValidUTF8

theorem getNat_putNat {bound n : Nat} (small : n < bound) (most : bound ≤ 2 ^ 64) (rest : Bytes) :
    getNat bound (putNat n ++ rest) = some (n, rest) := by
  have fits : uint.Fits n := fits_of_lt (k := 8) (by decide) (by omega)
  rw [getNat, putNat, Format.get_put (by decide) fits, Option.bind_some]
  exact if_pos small

theorem expect_put (format : Format) (apart : format.Apart) {n : Nat} (fits : format.Fits n)
    (rest : Bytes) : expect format n (format.put n ++ rest) = some rest := by
  rw [expect, Format.get_put apart fits, Option.bind_some]
  exact if_pos rfl

theorem getClient_putClient (client : ClientInfo) (fits : client.fits) (rest : Bytes) :
    getClient (putClient client ++ rest) = some (client.skipAddr, rest) := by
  obtain ⟨name, proxyIp, conType⟩ := fits
  have port : ∀ p : UInt16, p.toNat < 2 ^ 16 := UInt16.toNat_lt
  simp only [getClient, putClient, List.append_assoc, Option.bind_eq_bind, Option.bind_some,
    expect_put array (n := 5) (by decide) (fits_of_lt (k := 2) (by decide) (by decide)),
    getString_putString name, getString_putString proxyIp, getString_putString conType,
    getNat_putNat (port _) (by decide), UInt16.ofNat_toNat]
  rfl

theorem getStrings_putStrings {texts : List String} (short : ∀ text ∈ texts, shortString text)
    (rest : Bytes) :
    getStrings texts.length ((texts.map putString).flatten ++ rest) = some (texts, rest) := by
  induction texts with
  | nil => rfl
  | cons text texts ih =>
      have later := ih fun t mem => short t (List.mem_cons_of_mem _ mem)
      simp only [getStrings, List.length_cons, List.map_cons, List.flatten_cons, List.append_assoc,
        getString_putString (short text List.mem_cons_self), later, Option.bind_eq_bind,
        Option.bind_some]
      rfl

theorem getFrame_putFrame {f : RfrpFrame} (fits : f.fits) : getFrame (putFrame f) = some f.skipAddr := by
  have one : map.Fits 1 := fits_of_lt (k := 2) (by decide) (by decide)
  have fields : ∀ n < 256 ^ 2, ∀ rest, expect array n (array.put n ++ rest) = some rest :=
    fun n small => expect_put _ (by decide) (fits_of_lt (k := 2) (by decide) small)
  have variant : ∀ (text : String) (rest : Bytes), text.utf8ByteSize < 2 ^ 32 →
      (expect map 1 (map.put 1 ++ (putString text ++ rest))).bind getString = some (text, rest) := by
    intro text rest short
    rw [expect_put _ (by decide) one, Option.bind_some, getString_putString short]
  unfold getFrame
  cases f with
  | register client =>
      have name := variant "Register" (putClient client ++ []) (by decide)
      have inner := getClient_putClient client fits []
      rw [List.append_nil] at inner name
      simp only [putFrame, List.append_assoc, Option.bind_eq_bind, ← Option.bind_assoc, name,
        Option.bind_some, inner]
      rfl
  | registerAck response =>
      have name := fun rest => variant "RegisterAck" rest (by decide)
      have proxyId := getNat_putNat (UInt32.toNat_lt response.proxyId) (by decide) []
      rw [List.append_nil] at proxyId
      simp only [putFrame, List.append_assoc, Option.bind_eq_bind, ← Option.bind_assoc, name,
        Option.bind_some]
      simp only [fields 3 (by decide), getClient_putClient response.client fits,
        getBool_putBool, proxyId, Option.bind_some, UInt32.ofNat_toNat]
      rfl
  | control info =>
      obtain ⟨command, args, short⟩ := fits
      have name := fun rest => variant "Control" rest (by decide)
      have count := array.get_put (by decide) (n := info.args.length) (fits_of_lt (k := 4) (by decide) args)
        (info.args.map putString).flatten
      have strings := getStrings_putStrings short []
      rw [List.append_nil] at strings
      simp only [putFrame, List.append_assoc, Option.bind_eq_bind, ← Option.bind_assoc, name,
        Option.bind_some]
      simp only [fields 2 (by decide), getString_putString command, count, strings, Option.bind_some]
      rfl
  | data info =>
      have name := fun rest => variant "Data" rest (by decide)
      have blob := getBlob_putBlob (by decide : bin.Apart) info.data
        (fits_of_lt (k := 4) (by decide) fits) []
      rw [List.append_nil] at blob
      simp only [putFrame, List.append_assoc, Option.bind_eq_bind, ← Option.bind_assoc, name,
        Option.bind_some]
      simp only [fields 3 (by decide), getNat_putNat (UInt64.toNat_lt info.connId) (by decide),
        getNat_putNat (UInt32.toNat_lt info.proxyId) (by decide), blob, Option.bind_some,
        UInt32.ofNat_toNat, UInt64.ofNat_toNat]
      rfl

theorem roundTrips {f : RfrpFrame} (fits : f.fits) : messagePack.RoundTrips f := by
  refine ⟨putFrame f, rfl, ?_⟩
  show (match getFrame (putFrame f) with | some f => _ | none => _) = _
  rw [getFrame_putFrame fits]

/-! ## Lengths -/

theorem length_putString (text : String) : (putString text).length ≤ text.utf8ByteSize + 5 := by
  have head := str.length_put 4 (by decide) text.toByteArray.data.toList.length
  have body : text.toByteArray.data.toList.length = text.utf8ByteSize := by simp
  rw [putString, putBlob, List.length_append]
  omega

theorem length_putNat (n : Nat) : (putNat n).length ≤ 9 :=
  uint.length_put 8 (by decide) n

theorem length_putClient (client : ClientInfo) : (putClient client).length ≤ client.size + 34 := by
  have name := length_putString client.name
  have proxyIp := length_putString client.proxyIp
  have conType := length_putString client.proxyConType
  have bindPort := length_putNat client.bindPort.toNat
  have proxyPort := length_putNat client.proxyPort.toNat
  have head : (array.put 5).length = 1 := rfl
  simp only [putClient, List.length_append]
  unfold ClientInfo.size
  omega

theorem length_putStrings (texts : List String) :
    (texts.map putString).flatten.length ≤ (texts.map fun text => text.utf8ByteSize + 5).sum := by
  induction texts with
  | nil => exact Nat.le_refl _
  | cons text texts ih =>
      rw [List.map_cons, List.flatten_cons, List.length_append, List.map_cons, List.sum_cons]
      exact Nat.add_le_add (length_putString text) ih

theorem compact : messagePack.Compact := by
  intro f bytes written
  cases written
  have one : (map.put 1).length = 1 := rfl
  cases f with
  | register client =>
      have name : (putString "Register").length = 9 := by decide
      have fields := length_putClient client
      simp only [putFrame, List.length_append, RfrpFrame.size]
      omega
  | registerAck response =>
      have name : (putString "RegisterAck").length = 12 := by decide
      have head : (array.put 3).length = 1 := rfl
      have fields := length_putClient response.client
      have success : (putBool response.success).length = 1 := rfl
      have proxyId := length_putNat response.proxyId.toNat
      simp only [putFrame, List.length_append, RfrpFrame.size]
      omega
  | control info =>
      have name : (putString "Control").length = 8 := by decide
      have head : (array.put 2).length = 1 := rfl
      have command := length_putString info.command
      have count := array.length_put 4 (by decide) info.args.length
      have args := length_putStrings info.args
      simp only [putFrame, List.length_append, RfrpFrame.size]
      omega
  | data info =>
      have name : (putString "Data").length = 5 := by decide
      have head : (array.put 3).length = 1 := rfl
      have connId := length_putNat info.connId.toNat
      have proxyId := length_putNat info.proxyId.toNat
      have count := bin.length_put 4 (by decide) info.data.length
      simp only [putFrame, putBlob, List.length_append, RfrpFrame.size]
      omega

end Rfrp.RmpSerde
