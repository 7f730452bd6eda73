import Rdp.Core.Global.Impl
import Rdp.Core.Sec.Impl

/-!
This module contains the client as its user sees it: the connector that goes through all layers of
the connection, and the client it yields.
-/

namespace Rdp

open Gcc (KeyboardLayout)
open Nla (Hashes Rng)

structure RdpClient where
  mcs : Mcs.Client
  global : Global.Client

namespace RdpClient

open Global

def read : Prog Error Session Unit := do
  let (channelName, message) ← Client.onMcs Mcs.Client.read
  if channelName = "global" then
    Client.read message
  else
    Prog.fail (.new .unexpectedType ("Invalid channel name " ++ channelName.quote))

def pointerFlags (pointer : PointerEvent) : UInt16 :=
  let button :=
    match pointer.button with
    | .left => PointerFlag.ptrflagsButton1.toU16
    | .right => PointerFlag.ptrflagsButton2.toU16
    | .middle => PointerFlag.ptrflagsButton3.toU16
    | .none => PointerFlag.ptrflagsMove.toU16
  if pointer.down then button ||| PointerFlag.ptrflagsDown.toU16 else button

def write (event : RdpEvent) : Prog Error Session Unit :=
  match event with
  | .pointer pointer =>
    Client.writeInputEvent
      (tsPointerEvent (some (pointerFlags pointer)) (some pointer.x) (some pointer.y))
  | .key key =>
    let flags := if key.down then 0 else KeyboardFlag.kbdflagsRelease.toU16
    Client.writeInputEvent (tsKeyboardEvent (some flags) (some key.code))
  | .bitmap _ => Prog.fail (.new .unexpectedType "RDPCLIENT: This event can't be sent")

/--
An event that comes before the end of the handshake is dropped.
-/
def tryWrite (event : RdpEvent) : Prog Error Session Unit := fun s =>
  match write event s with
  | .error (.error (.rdpError ⟨.invalidAutomata, _⟩)) s => .ok () s
  | r => r

def shutdown (close : TlsStream → RdpResult Unit) : Prog Error Session Unit :=
  Client.onMcs (Mcs.Client.shutdown close)

end RdpClient

structure Connector where
  width : UInt16
  height : UInt16
  layout : KeyboardLayout
  restrictedAdminMode : Bool
  domain : String
  username : String
  password : String
  passwordHash : Option Bytes
  autoLogon : Bool
  blankCreds : Bool
  checkCertificate : Bool
  name : String
  useNla : Bool

/--
What a connection rests on: the TLS library, the ASN.1 libraries, the hash functions, and the seed
of a map.
-/
structure Env where
  tls : Tls
  der : Der
  hashes : Hashes
  place : String → Nat

namespace Connector

def new : Connector where
  width := 800
  height := 600
  layout := .us
  restrictedAdminMode := false
  domain := ""
  username := ""
  password := ""
  passwordHash := none
  autoLogon := false
  blankCreds := false
  checkCertificate := false
  name := "rdp-rs"
  useNla := true

def authentication (hashes : Hashes) (self : Connector) : Ntlm :=
  match self.passwordHash with
  | some hash => .fromHash hashes self.domain self.username hash
  | none => .new hashes self.domain self.username self.password

def protocols (self : Connector) : UInt32 :=
  let protocols := X224.Protocols.protocolSSL.toU32
  if self.useNla then protocols ||| X224.Protocols.protocolHybrid.toU32 else protocols

def connectX224 (env : Env) (self : Connector) : Prog Error (Link × Rng) X224.Protocols :=
  Prog.zoom (fun s => (s.1, self.authentication env.hashes, s.2)) (fun t _ => (t.1, t.2.2))
    (X224.Client.connect env.tls env.der self.protocols self.checkCertificate
      (some (Ntlm.authenticationProtocol env.hashes)) self.restrictedAdminMode self.blankCreds)

def connectSec (self : Connector) : Prog Error Mcs.Client Unit :=
  if self.restrictedAdminMode then
    Sec.connect "" "" "" self.autoLogon
  else
    Sec.connect self.domain self.username self.password self.autoLogon

def connectMcs (env : Env) (self : Connector) (selectedProtocol : X224.Protocols) :
    Prog Error (Link × Rng) Mcs.Client :=
  Prog.zoom (fun s => .new s.1 selectedProtocol env.place) (fun mcs s => (mcs.link, s.2)) do
    Mcs.Client.connect env.der self.name self.width self.height self.layout
    self.connectSec
    get

def globalClient (self : Connector) (mcs : Mcs.Client) : RdpResult Global.Client := do
  return .new (← mcs.getUserId) (← mcs.getGlobalChannelId) self.width self.height self.layout self.name

/--
The link starts on the raw stream, and both its state and the random numbers that are left are the
ones after the call, whether it succeeded or not.
-/
def connect (env : Env) (self : Connector) : Prog Error (Link × Rng) RdpClient := do
  let selectedProtocol ← self.connectX224 env
  let mcs ← self.connectMcs env selectedProtocol
  let global ← Prog.lift (self.globalClient mcs)
  return ⟨mcs, global⟩

end Connector

end Rdp
