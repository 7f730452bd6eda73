import Rdp.Model.Data.Reader
import Rdp.Model.Link
import Rdp.Nla.Sspi
import Rdp.Nla.Asn1

/-!
This module contains the CSSP handshake: the authentication protocol runs over the link, the public
key of the peer is checked, and the credentials are sent.
-/

namespace Rdp.Cssp

variable (der : Der)

def createTsRequest (nego : Bytes) : Bytes :=
  der.toDer <| .sequence [
    ("version", .explicitTag (.context 0) (.integer 2)),
    ("negoTokens", .explicitTag (.context 1)
      (.sequenceOf [
        .sequence [("negoToken", .explicitTag (.context 0) (.octetString nego))]
      ] none))
  ]

def readTsServerChallenge (stream : Bytes) : RdpResult Bytes := do
  let tsRequest ← der.fromDer (.sequence [
    ("version", .explicitTag (.context 0) (.integer 2)),
    ("negoTokens", .explicitTag (.context 1)
      (.sequenceOf [] (some (
        .sequence [("negoToken", .explicitTag (.context 0) (.octetString []))]))))
  ]) stream
  let negoTokens ← unwrap (← tsRequest.field "negoTokens").castSequenceOf
  match negoTokens with
  | [] => .error (.panic "index out of bounds")
  | token :: _ =>
    let firstNegoTokens ← unwrap token.castSequence
    let negoToken ← unwrap (← (ASN1.sequence firstNegoTokens).field "negoToken").castOctetString
    return negoToken

def createTsAuthenticate (nego pubKeyAuth : Bytes) : Bytes :=
  der.toDer <| .sequence [
    ("version", .explicitTag (.context 0) (.integer 2)),
    ("negoTokens", .explicitTag (.context 1)
      (.sequenceOf [
        .sequence [("negoToken", .explicitTag (.context 0) (.octetString nego))]
      ] none)),
    ("pubKeyAuth", .explicitTag (.context 3) (.octetString pubKeyAuth))
  ]

/--
The public key of the certificate is all that is used of it.
-/
def readPublicCertificate (stream : Bytes) : RdpResult Bytes :=
  match der.parseX509Der stream with
  | some publicKey => .ok publicKey
  | none => .error (.panic "called `Result::unwrap()` on an `Err` value")

def readTsValidate (request : Bytes) : RdpResult Bytes := do
  let tsChallenge ← der.fromDer (.sequence [
    ("version", .explicitTag (.context 0) (.integer 2)),
    ("pubKeyAuth", .explicitTag (.context 3) (.octetString []))
  ]) request
  let pubkey ← (← tsChallenge.field "pubKeyAuth").castOctetString
  return pubkey

def createTsCredentials (domain user password : Bytes) : Bytes :=
  let tsPasswordCredEncoded := der.toDer <| .sequence [
    ("domainName", .explicitTag (.context 0) (.octetString domain)),
    ("userName", .explicitTag (.context 1) (.octetString user)),
    ("password", .explicitTag (.context 2) (.octetString password))
  ]
  der.toDer <| .sequence [
    ("credType", .explicitTag (.context 0) (.integer 1)),
    ("credentials", .explicitTag (.context 1) (.octetString tsPasswordCredEncoded))
  ]

def createTsAuthinfo (authInfo : Bytes) : Bytes :=
  der.toDer <| .sequence [
    ("version", .explicitTag (.context 0) (.integer 2)),
    ("authInfo", .explicitTag (.context 2) (.octetString authInfo))
  ]

/--
`BigUint::from_bytes_le`.
-/
def leNat (bytes : Bytes) : Nat :=
  match bytes with
  | [] => 0
  | b :: bytes => b.toNat + 256 * leNat bytes

variable {σ τ : Type}

def onLink (x : Prog Error Link α) : Prog Error (Link × σ) α :=
  Prog.zoom Prod.fst (fun link s => (link, s.2)) x

def onAuth (x : Prog Error σ α) : Prog Error (Link × σ) α :=
  Prog.zoom Prod.snd (fun t s => (s.1, t)) x

def writeVec (bytes : Bytes) : Prog Error (Link × σ) Unit :=
  onLink (Link.write (.leaf (.bytes bytes)))

variable (auth : AuthenticationProtocol σ τ)

def sendNegotiate : Prog Error (Link × σ) Unit := do
  let nego ← onAuth auth.createNegotiateMessage
  let negotiateMessage := createTsRequest der nego
  writeVec negotiateMessage

/--
The answer to the challenge of the server.
-/
def receiveChallenge : Prog Error (Link × σ) Bytes := do
  let reply ← onLink (Link.read 0)
  let serverChallenge ← Prog.lift (readTsServerChallenge der reply)
  onAuth (auth.readChallengeMessage serverChallenge)

def getPublicKey : Prog Error (Link × σ) Bytes := do
  match ← onLink Link.getPeerCertificate with
  | none => Prog.fail (.new .invalidOptionalField "No public certificate available")
  | some certificate =>
    let certificateDer ← Prog.lift certificate.toDer
    Prog.lift (readPublicCertificate der certificateDer)

def sendAuthenticate : Prog Error (Link × σ) (τ × Bytes) := do
  let clientChallenge ← receiveChallenge der auth
  let securityInterface ← Prog.lift (auth.buildSecurityInterface (← get).2)
  let publicKey ← getPublicKey der
  let (pubKeyAuth, securityInterface) ←
    Prog.on securityInterface (auth.gss.gssWrapex publicKey)
  let challenge := createTsAuthenticate der clientChallenge pubKeyAuth
  writeVec challenge
  return (securityInterface, publicKey)

/--
The server answers with its public key incremented by one.
-/
def checkPublicKey (securityInterface : τ) (publicKey : Bytes) : Prog Error (Link × σ) τ := do
  let reply ← onLink (Link.read 0)
  let pubKeyAuth ← Prog.lift (readTsValidate der reply)
  let (incPubKey, securityInterface) ←
    Prog.on securityInterface (auth.gss.gssUnwrapex pubKeyAuth)
  if leNat incPubKey ≠ leNat publicKey + 1 then
    Prog.fail (.new .possibleMITM "Man in the middle detected")
  else
    return securityInterface

def sendCredentials (restrictedAdminMode : Bool) (securityInterface : τ) :
    Prog Error (Link × σ) Unit := do
  let s := (← get).2
  let domain := if restrictedAdminMode then [] else auth.getDomainName s
  let user := if restrictedAdminMode then [] else auth.getUserName s
  let password := if restrictedAdminMode then [] else auth.getPassword s
  let (authInfo, _) ← Prog.on securityInterface
    (auth.gss.gssWrapex (createTsCredentials der domain user password))
  writeVec (createTsAuthinfo der authInfo)

def csspConnect (restrictedAdminMode : Bool) : Prog Error (Link × σ) Unit := do
  sendNegotiate der auth
  let (securityInterface, publicKey) ← sendAuthenticate der auth
  let securityInterface ← checkPublicKey der auth securityInterface publicKey
  sendCredentials der auth restrictedAdminMode securityInterface

end Rdp.Cssp
