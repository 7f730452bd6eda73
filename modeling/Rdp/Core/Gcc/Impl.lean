import Rdp.Core.Per.Impl
import Rdp.Model.Data.Equations
import Rdp.Nla.Ntlm.Impl

/-!
This module contains the GCC layer: the blocks of settings the two sides exchange inside the
connection of the MCS layer.
-/

namespace Rdp.Gcc

open Cursor

def t1240298Oid : Bytes := [0, 0, 20, 124, 0, 1]

def h221CsKey : Bytes := [68, 117, 99, 97]

def h221ScKey : Bytes := [77, 99, 68, 110]

inductive Version where
  | rdpVersion
  | rdpVersion5plus
  | unknown
  deriving DecidableEq, Repr

namespace Version

def toU32 (v : Version) : UInt32 :=
  match v with
  | .rdpVersion => 0x00080001
  | .rdpVersion5plus => 0x00080004
  | .unknown => 0x00080005

/--
The two codes stand the other way round than in `toU32`.
-/
def ofU32 (e : UInt32) : Version :=
  if e = 0x00080001 then
    .rdpVersion5plus
  else if e = 0x00080004 then
    .rdpVersion
  else
    .unknown

end Version

inductive KeyboardLayout where
  | arabic
  | bulgarian
  | chineseUsKeyboard
  | czech
  | danish
  | german
  | greek
  | us
  | spanish
  | finnish
  | french
  | hebrew
  | hungarian
  | icelandic
  | italian
  | japanese
  | korean
  | dutch
  | norwegian
  deriving DecidableEq, Repr

def KeyboardLayout.toU32 (l : KeyboardLayout) : UInt32 :=
  match l with
  | .arabic => 0x00000401
  | .bulgarian => 0x00000402
  | .chineseUsKeyboard => 0x00000404
  | .czech => 0x00000405
  | .danish => 0x00000406
  | .german => 0x00000407
  | .greek => 0x00000408
  | .us => 0x00000409
  | .spanish => 0x0000040a
  | .finnish => 0x0000040b
  | .french => 0x0000040c
  | .hebrew => 0x0000040d
  | .hungarian => 0x0000040e
  | .icelandic => 0x0000040f
  | .italian => 0x00000410
  | .japanese => 0x00000411
  | .korean => 0x00000412
  | .dutch => 0x00000413
  | .norwegian => 0x00000414

/--
`KeyboardType::Ibm101102Keys`, the only one that is used.
-/
def ibm101102Keys : UInt32 := 0x00000004

inductive MessageType where
  | scCore
  | scSecurity
  | scNet
  | csCore
  | csSecurity
  | csNet
  | csCluster
  | csMonitor
  | unknown
  deriving DecidableEq, Repr

namespace MessageType

def toU16 (t : MessageType) : UInt16 :=
  match t with
  | .scCore => 0x0C01
  | .scSecurity => 0x0C02
  | .scNet => 0x0C03
  | .csCore => 0xC001
  | .csSecurity => 0xC002
  | .csNet => 0xC003
  | .csCluster => 0xC004
  | .csMonitor => 0xC005
  | .unknown => 0

def ofU16 (e : UInt16) : MessageType :=
  match e.toNat with
  | 0x0C01 => .scCore
  | 0x0C02 => .scSecurity
  | 0x0C03 => .scNet
  | 0xC001 => .csCore
  | 0xC002 => .csSecurity
  | 0xC003 => .csNet
  | 0xC004 => .csCluster
  | 0xC005 => .csMonitor
  | _ => .unknown

end MessageType

structure ClientData where
  width : UInt16
  height : UInt16
  layout : KeyboardLayout
  serverSelectedProtocol : UInt32
  rdpVersion : Version
  name : String

/--
`&name[0..n]`, which has to end between two characters.
-/
def takeUtf8 (n : Nat) (name : List Char) : RdpResult (List Char) :=
  match n, name with
  | 0, _ => .ok []
  | _ + 1, [] => .error (.panic "byte index is out of bounds")
  | n + 1, c :: name =>
    if c.utf8Size ≤ n + 1 then do
      return c :: (← takeUtf8 (n + 1 - c.utf8Size) name)
    else
      .error (.panic "byte index is not a char boundary")

def clientName (name : String) : RdpResult String :=
  if 16 ≤ name.utf8ByteSize then do
    return .ofList (← takeUtf8 16 name.toList)
  else
    .ok (name ++ .ofList (List.replicate (16 - name.utf8ByteSize) '\x00'))

def clientCoreData (parameter : Option ClientData) : RdpResult Component := do
  let parameter := parameter.getD ⟨0, 0, .french, 0, .rdpVersion5plus, ""⟩
  let clientName ← clientName parameter.name
  return [
    ("version", .leaf (.u32 .le parameter.rdpVersion.toU32)),
    ("desktopWidth", .leaf (.u16 .le parameter.width)),
    ("desktopHeight", .leaf (.u16 .le parameter.height)),
    ("colorDepth", .leaf (.u16 .le 0xCA01)),
    ("sasSequence", .leaf (.u16 .le 0xAA03)),
    ("kbdLayout", .leaf (.u32 .le parameter.layout.toU32)),
    ("clientBuild", .leaf (.u32 .le 3790)),
    ("clientName", .leaf (.bytes (Nla.unicode clientName))),
    ("keyboardType", .leaf (.u32 .le ibm101102Keys)),
    ("keyboardSubType", .leaf (.u32 .le 0)),
    ("keyboardFnKeys", .leaf (.u32 .le 12)),
    ("imeFileName", .leaf (.bytes (List.replicate 64 0))),
    ("postBeta2ColorDepth", .leaf (.u16 .le 0xCA01)),
    ("clientProductId", .leaf (.u16 .le 1)),
    ("serialNumber", .leaf (.u32 .le 0)),
    ("highColorDepth", .leaf (.u16 .le 0x0018)),
    ("supportedColorDepths", .leaf (.u16 .le (0x0002 ||| 0x0008))),
    ("earlyCapabilityFlags", .leaf (.u16 .le 0x0001)),
    ("clientDigProductId", .leaf (.bytes (List.replicate 64 0))),
    ("connectionType", .leaf (.u8 0)),
    ("pad1octet", .leaf (.u8 0)),
    ("serverSelectedProtocol", .leaf (.u32 .le parameter.serverSelectedProtocol))
  ]

def serverCoreData : Component := [
  ("rdpVersion", .leaf (.u32 .le 0)),
  ("clientRequestedProtocol", .option (some (.leaf (.u32 .le 0)))),
  ("earlyCapabilityFlags", .option (some (.leaf (.u32 .le 0))))
]

def clientSecurityData : Component := [
  ("encryptionMethods", .leaf (.u32 .le (0x00000001 ||| 0x00000008 ||| 0x00000002))),
  ("extEncryptionMethods", .leaf (.u32 .le 0))
]

def serverSecurityData : Component := [
  ("encryptionMethod", .leaf (.u32 .le 0)),
  ("encryptionLevel", .leaf (.u32 .le 0))
]

def clientNetworkData (channelDefArray : Trame) : RdpResult Component := do
  return [
    ("channelCount", .leaf (.u32 .le (.ofNat channelDefArray.length))),
    ("channelDefArray", .leaf (.bytes (← toVec (.trame channelDefArray))))
  ]

def serverNetworkData : Component := [
  ("MCSChannelId", .check (.u16 .le 1003)),
  ("channelCount", .dynOption (.leaf (.u16 .le 0)) fun node =>
    match node with
    | .u16 count => .ok (.size "channelIdArray" (count.toNat * 2))
    | _ => .ok .none),
  ("channelIdArray", .array [] (some (.leaf (.u16 .le 0))))
]

def blockHeader (dataType : Option MessageType) (length : Option UInt16) : RdpResult Component := do
  let length ← checkedAdd 16 (length.getD 0).toNat 4
  return [
    ("type", .leaf (.u16 .le (dataType.getD .csCore).toU16)),
    ("length", .leaf (.u16 .le (.ofNat length)))
  ]

def writeConferenceCreateRequest (userData : Bytes) : RdpResult Bytes := do
  let oid ← Per.writeObjectIdentifier t1240298Oid
  let length ← checkedAdd 16 (UInt16.ofNat userData.length).toNat 14
  let length ← Per.encodeLength (.ofNat length)
  let name ← Per.writeNumericString (Nla.asBytes "1") 1
  let key ← Per.writeOctetStream h221CsKey 4
  let userData ← Per.writeOctetStream userData 0
  return [Per.writeChoice 0, oid, length, Per.writeChoice 0, Per.writeSelection 0x08, name,
    Per.writePadding 1, Per.writeNumberOfSet 1, Per.writeChoice 0xc0, key, userData].flatten

structure ServerData where
  channelIds : List UInt16
  rdpVersion : Version

/--
What `read` leaves of the block of a type, and nothing for the types that are not known.
-/
def readBlock (type : MessageType) (buffer : Bytes) : RdpResult (Option DataType) := do
  let template :=
    match type with
    | .scCore => some serverCoreData
    | .scSecurity => some serverSecurityData
    | .scNet => some serverNetworkData
    | _ => none
  match template with
  | none => return none
  | some template =>
    match (Message.component template).reader.run buffer with
    | .ok block _ => return some block.visit
    | .error e _ => .error e

/--
The blocks up to where no header can be read, the last one first. A header has four bytes, so the
fuel of one more than the bytes that are left never runs out.
-/
def readBlocks (fuel : Nat) (result : List (MessageType × DataType)) :
    Reader (List (MessageType × DataType)) :=
  match fuel with
  | 0 => throw .diverge
  | fuel + 1 => do
    let header ← Prog.lift (blockHeader none none)
    match ← Prog.attempt (Message.component header).reader with
    | none => return result
    | some header =>
      let fields ← Prog.lift (castComponent header.visit)
      let length ← Prog.lift (castU16 (← Prog.lift (field fields "length")))
      let size ← Prog.lift (checkedSub length.toNat
        (UInt16.ofNat (← Prog.lift header.length)).toNat)
      let buffer ← readExact size
      let type := MessageType.ofU16
        (← Prog.lift (castU16 (← Prog.lift (field fields "type"))))
      match ← Prog.lift (readBlock type buffer) with
      | none => readBlocks fuel result
      | some block => readBlocks fuel ((type, block) :: result)

/--
`result[&key]["name"]`.
-/
def blockField (result : List (MessageType × DataType)) (key : MessageType) (name : String) :
    RdpResult DataType :=
  match result.lookup key with
  | some (.component fields) => field fields name
  | _ => .error (.panic "HashMap: key not found")

def serverData (result : List (MessageType × DataType)) : RdpResult ServerData := do
  let ids ← castTrame (← blockField result .scNet "channelIdArray")
  let channelIds ← ids.mapM fun x => unwrap (castU16 x)
  let version ← castU32 (← blockField result .scCore "rdpVersion")
  return ⟨channelIds, .ofU32 version⟩

/--
The blocks stand in the next `length` bytes, of which the ones that were not read stay.
-/
def readConferenceCreateResponse : Reader ServerData := do
  let _ ← Per.readChoice
  let _ ← Per.readObjectIdentifier t1240298Oid
  let _ ← Per.readLength
  let _ ← Per.readChoice
  let _ ← Per.readInteger16 1001
  let _ ← Per.readInteger
  let _ ← Per.readEnumerates
  let _ ← Per.readNumberOfSet
  let _ ← Per.readChoice
  Per.readOctetStream h221ScKey 4
  let length ← Per.readLength
  let result ← taking length.toNat (do readBlocks ((← get).length + 1) [])
  Prog.lift (serverData result)

end Rdp.Gcc
