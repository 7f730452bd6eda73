import Rdp.Model.Data.Reader

/-!
This module contains the license phase of the connection, in which only a server that asks for no
license is accepted.
-/

namespace Rdp.License

inductive MessageType where
  | licenseRequest
  | platformChallenge
  | newLicense
  | upgradeLicense
  | licenseInfo
  | newLicenseRequest
  | platformChallengeResponse
  | errorAlert
  deriving DecidableEq, Repr

def MessageType.tryFrom (v : UInt8) : RdpResult MessageType :=
  match v.toNat with
  | 0x01 => .ok .licenseRequest
  | 0x02 => .ok .platformChallenge
  | 0x03 => .ok .newLicense
  | 0x04 => .ok .upgradeLicense
  | 0x12 => .ok .licenseInfo
  | 0x13 => .ok .newLicenseRequest
  | 0x15 => .ok .platformChallengeResponse
  | 0xFF => .ok .errorAlert
  | _ => .error (.error .enumConversion)

inductive ErrorCode where
  | errInvalidServerCertificate
  | errNoLicense
  | errInvalidScope
  | errNoLicenseServer
  | statusValidClient
  | errInvalidClient
  | errInvalidProductid
  | errInvalidMessageLen
  | errInvalidMac
  deriving DecidableEq, Repr

def ErrorCode.tryFrom (v : UInt32) : RdpResult ErrorCode :=
  match v.toNat with
  | 0x00000001 => .ok .errInvalidServerCertificate
  | 0x00000002 => .ok .errNoLicense
  | 0x00000004 => .ok .errInvalidScope
  | 0x00000006 => .ok .errNoLicenseServer
  | 0x00000007 => .ok .statusValidClient
  | 0x00000008 => .ok .errInvalidClient
  | 0x0000000B => .ok .errInvalidProductid
  | 0x0000000C => .ok .errInvalidMessageLen
  | 0x00000003 => .ok .errInvalidMac
  | _ => .error (.error .enumConversion)

inductive StateTransition where
  | stTotalAbort
  | stNoTransition
  | stResetPhaseToStart
  | stResendLastMessage
  deriving DecidableEq, Repr

def StateTransition.tryFrom (v : UInt32) : RdpResult StateTransition :=
  match v.toNat with
  | 0x00000001 => .ok .stTotalAbort
  | 0x00000002 => .ok .stNoTransition
  | 0x00000003 => .ok .stResetPhaseToStart
  | 0x00000004 => .ok .stResendLastMessage
  | _ => .error (.error .enumConversion)

def preamble : Component := [
  ("bMsgtype", .leaf (.u8 0)),
  ("flag", .check (.u8 0x3)),
  ("wMsgSize", .dynOption (.leaf (.u16 .le 0)) fun node =>
    match node with
    | .u16 size => do return .size "message" (← checkedSub size.toNat 4)
    | _ => .ok .none),
  ("message", .leaf (.bytes []))
]

def licenseBinaryBlob : Component := [
  ("wBlobType", .leaf (.u16 .le 0)),
  ("wBlobLen", .dynOption (.leaf (.u16 .le 0)) fun node =>
    match node with
    | .u16 size => .ok (.size "blobData" size.toNat)
    | _ => .ok .none),
  ("blobData", .leaf (.bytes []))
]

def licensingErrorMessage : Component := [
  ("dwErrorCode", .leaf (.u32 .le 0)),
  ("dwStateTransition", .leaf (.u32 .le 0)),
  ("blob", .component licenseBinaryBlob)
]

inductive LicenseMessage where
  | newLicense
  | errorAlert (message : List (String × DataType))

def parsePayload (payload : List (String × DataType)) : RdpResult LicenseMessage := do
  match ← MessageType.tryFrom (← castU8 (← field payload "bMsgtype")) with
  | .newLicense => return .newLicense
  | .errorAlert =>
    let stream ← castSlice (← field payload "message")
    match (Message.component licensingErrorMessage).reader.run stream with
    | .ok message _ => return .errorAlert (← castComponent message.visit)
    | .error e _ => .error e
  | _ => .error (.error (.new .notImplemented "Licensing nego not implemented"))

/--
The second code is looked at only when the first one is the expected one.
-/
def isValidClient (blob : List (String × DataType)) : RdpResult Bool := do
  if (← ErrorCode.tryFrom (← castU32 (← field blob "dwErrorCode"))) = .statusValidClient then
    let transition ← StateTransition.tryFrom (← castU32 (← field blob "dwStateTransition"))
    return transition = .stNoTransition
  else
    return false

def clientConnect : Reader Unit := do
  let licenseMessage ← (Message.component preamble).reader
  let payload ← Prog.lift (castComponent licenseMessage.visit)
  match ← Prog.lift (parsePayload payload) with
  | .newLicense => return ()
  | .errorAlert blob =>
    if ← Prog.lift (isValidClient blob) then
      return ()
    else
      Prog.fail (.new .invalidRespond
        "Server reject license, Actually license nego is not implemented")

end Rdp.License
