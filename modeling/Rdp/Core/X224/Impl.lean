import Rdp.Core.Tpkt.Impl
import Rdp.Nla.Cssp.Impl

/-!
This module contains the X.224 layer: the negotiation of the security protocol and the header of
every message after it.
-/

namespace Rdp

namespace Tpkt.Client

variable {σ τ : Type}

/--
`start_nla` without an authentication protocol is where its `unwrap` aborts.
-/
def startNla (tls : Tls) (der : Der) (checkCertificate : Bool)
    (authenticationProtocol : Option (AuthenticationProtocol σ τ)) (restrictedAdminMode : Bool) :
    Prog Error (Link × σ) Unit := do
  match authenticationProtocol with
  | none => Prog.abort "called `Option::unwrap()` on a `None` value"
  | some authenticationProtocol =>
    Cssp.onLink (Link.startSsl tls checkCertificate)
    Cssp.csspConnect der authenticationProtocol restrictedAdminMode

end Tpkt.Client

namespace X224

inductive NegotiationType where
  | typeRDPNegReq
  | typeRDPNegRsp
  | typeRDPNegFailure
  deriving DecidableEq, Repr

namespace NegotiationType

def toU8 (t : NegotiationType) : UInt8 :=
  match t with
  | .typeRDPNegReq => 0x01
  | .typeRDPNegRsp => 0x02
  | .typeRDPNegFailure => 0x03

def tryFrom (v : UInt8) : RdpResult NegotiationType :=
  if v = 0x01 then
    .ok .typeRDPNegReq
  else if v = 0x02 then
    .ok .typeRDPNegRsp
  else if v = 0x03 then
    .ok .typeRDPNegFailure
  else
    .error (.error .enumConversion)

end NegotiationType

inductive Protocols where
  | protocolRDP
  | protocolSSL
  | protocolHybrid
  | protocolHybridEx
  deriving DecidableEq, Repr

namespace Protocols

def toU32 (p : Protocols) : UInt32 :=
  match p with
  | .protocolRDP => 0x00
  | .protocolSSL => 0x01
  | .protocolHybrid => 0x02
  | .protocolHybridEx => 0x08

def tryFrom (v : UInt32) : RdpResult Protocols :=
  if v = 0x00 then
    .ok .protocolRDP
  else if v = 0x01 then
    .ok .protocolSSL
  else if v = 0x02 then
    .ok .protocolHybrid
  else if v = 0x08 then
    .ok .protocolHybridEx
  else
    .error (.error .enumConversion)

end Protocols

inductive MessageType where
  | x224TPDUConnectionRequest
  | x224TPDUConnectionConfirm
  | x224TPDUDisconnectRequest
  | x224TPDUData
  | x224TPDUError

def MessageType.toU8 (t : MessageType) : UInt8 :=
  match t with
  | .x224TPDUConnectionRequest => 0xE0
  | .x224TPDUConnectionConfirm => 0xD0
  | .x224TPDUDisconnectRequest => 0x80
  | .x224TPDUData => 0xF0
  | .x224TPDUError => 0x70

inductive RequestMode where
  | restrictedAdminModeRequired
  | redirectedAuthenticationModeRequired
  | correlationInfoPresent

def RequestMode.toU8 (m : RequestMode) : UInt8 :=
  match m with
  | .restrictedAdminModeRequired => 0x01
  | .redirectedAuthenticationModeRequired => 0x02
  | .correlationInfoPresent => 0x08

def rdpNegReq (negType : Option NegotiationType) (result : Option UInt32) (flag : Option UInt8) :
    Component := [
  ("type", .leaf (.u8 (negType.getD .typeRDPNegReq).toU8)),
  ("flag", .leaf (.u8 (flag.getD 0))),
  ("length", .check (.u16 .le 0x0008)),
  ("result", .leaf (.u32 .le (result.getD 0)))
]

def x224Crq (len : UInt8) (code : MessageType) : RdpResult Component := do
  let len ← checkedAdd 8 len.toNat 6
  return [
    ("len", .leaf (.u8 (.ofNat len))),
    ("code", .leaf (.u8 code.toU8)),
    ("padding", .trame [.leaf (.u16 .le 0), .leaf (.u16 .le 0), .leaf (.u8 0)])
  ]

def x224ConnectionPdu (negType : Option NegotiationType) (mode : Option UInt8)
    (protocols : Option UInt32) : RdpResult Component := do
  let negotiation := rdpNegReq negType protocols mode
  let length ← (Message.component negotiation).length
  let header ← x224Crq (.ofNat length) .x224TPDUConnectionRequest
  return [
    ("header", .component header),
    ("negotiation", .component negotiation)
  ]

def x224Header : Component := [
  ("header", .leaf (.u8 2)),
  ("messageType", .leaf (.u8 MessageType.x224TPDUData.toU8)),
  ("separator", .check (.u8 0x80))
]

namespace Client

def write (message : Message) : Prog Error Link Unit :=
  Tpkt.Client.write (.trame [.component x224Header, message])

def read : Prog Error Link Tpkt.Payload := do
  match ← Tpkt.Client.read with
  | .raw payload =>
    let (_, payload) ← Prog.on payload (Message.component x224Header).reader
    return .raw payload
  | .fastPath flag payload => return .fastPath flag payload

def writeConnectionRequest (securityProtocols : UInt32) (mode : Option UInt8) :
    Prog Error Link Unit := do
  let pdu ← Prog.lift (x224ConnectionPdu (some .typeRDPNegReq) mode (some securityProtocols))
  Tpkt.Client.write (.component pdu)

def selectedProtocol (confirm : DataType) : RdpResult Protocols := do
  let nego ← unwrap (castComponent (← field (← castComponent confirm) "negotiation"))
  let type ← castU8 (← field nego "type")
  match ← NegotiationType.tryFrom type with
  | .typeRDPNegFailure =>
    .error (.error (.new .protocolNegFailure "Error during negotiation step"))
  | .typeRDPNegReq =>
    .error (.error (.new .invalidAutomata "Server reject security protocols"))
  | .typeRDPNegRsp =>
    let result ← castU32 (← field nego "result")
    Protocols.tryFrom result

def readConnectionConfirm : Prog Error Link Protocols := do
  match ← Tpkt.Client.read with
  | .fastPath _ _ => Prog.lift DataType.invalidCast
  | .raw buffer =>
    let confirm ← Prog.lift (x224ConnectionPdu none none none)
    let (confirm, _) ← Prog.on buffer (Message.component confirm).reader
    Prog.lift (selectedProtocol confirm.visit)

variable {σ τ : Type}

/--
`connect`, for any way to start TLS and CSSP on the link. The result is the protocol the client
records.
-/
def connectWith (startNla startSsl : Prog Error (Link × σ) Unit) (securityProtocols : UInt32)
    (restrictedAdminMode : Bool) : Prog Error (Link × σ) Protocols := do
  let mode := if restrictedAdminMode then RequestMode.restrictedAdminModeRequired.toU8 else 0
  Cssp.onLink (writeConnectionRequest securityProtocols (some mode))
  match ← Cssp.onLink readConnectionConfirm with
  | .protocolHybrid =>
    startNla
    return .protocolHybrid
  | .protocolSSL =>
    startSsl
    return .protocolSSL
  | .protocolRDP => return .protocolRDP
  | _ => Prog.fail (.new .invalidProtocol "Security protocol not handled")

def connect (tls : Tls) (der : Der) (securityProtocols : UInt32) (checkCertificate : Bool)
    (authenticationProtocol : Option (AuthenticationProtocol σ τ))
    (restrictedAdminMode blankCreds : Bool) : Prog Error (Link × σ) Protocols :=
  connectWith
    (Tpkt.Client.startNla tls der checkCertificate authenticationProtocol
      (restrictedAdminMode || blankCreds))
    (Cssp.onLink (Link.startSsl tls checkCertificate)) securityProtocols restrictedAdminMode

def shutdown (close : TlsStream → RdpResult Unit) : Prog Error Link Unit :=
  Tpkt.Client.shutdown close

end Client

end X224

end Rdp
