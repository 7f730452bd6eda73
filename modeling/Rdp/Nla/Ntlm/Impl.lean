import Rdp.Model.Data.Reader
import Rdp.Nla.Rc4
import Rdp.Nla.Sspi

/-!
This module contains the NTLMv2 protocol: its messages, the keys that are derived from the
credentials, and the security interface that wraps and unwraps the messages after it.
-/

namespace Rdp.Nla

/--
The hash functions, and the upper case of a string as Unicode defines it.
-/
structure Hashes where
  md4 : Bytes → Bytes
  md5 : Bytes → Bytes
  hmacMd5 : Bytes → Bytes → Bytes
  toUppercase : String → String

/--
The bytes the random number generator yields from now on.
-/
abbrev Rng := Nat → UInt8

inductive Negotiate where
  | ntlmsspNegociateKeyExch
  | ntlmsspNegociate128
  | ntlmsspNegociateVersion
  | ntlmsspNegociateExtendedSessionSecurity
  | ntlmsspNegociateAlwaysSign
  | ntlmsspNegociateNTLM
  | ntlmsspNegociateSeal
  | ntlmsspNegociateSign
  | ntlmsspRequestTarget
  | ntlmsspNegociateUnicode

def Negotiate.toU32 (n : Negotiate) : UInt32 :=
  match n with
  | .ntlmsspNegociateKeyExch => 0x40000000
  | .ntlmsspNegociate128 => 0x20000000
  | .ntlmsspNegociateVersion => 0x02000000
  | .ntlmsspNegociateExtendedSessionSecurity => 0x00080000
  | .ntlmsspNegociateAlwaysSign => 0x00008000
  | .ntlmsspNegociateNTLM => 0x00000200
  | .ntlmsspNegociateSeal => 0x00000020
  | .ntlmsspNegociateSign => 0x00000010
  | .ntlmsspRequestTarget => 0x00000004
  | .ntlmsspNegociateUnicode => 0x00000001

def ntlmssp : Bytes := [78, 84, 76, 77, 83, 83, 80, 0]

def version : Component := [
  ("ProductMajorVersion", .leaf (.u8 0x06)),
  ("ProductMinorVersion", .leaf (.u8 0x00)),
  ("ProductBuild", .leaf (.u16 .le 6002)),
  ("Reserved", .trame [.leaf (.u16 .le 0), .leaf (.u8 0)]),
  ("NTLMRevisionCurrent", .leaf (.u8 0x0F))
]

/--
The messages announce in their flags whether they have a version.
-/
def versionOption (node : DataType) : RdpResult MessageOption :=
  match node with
  | .u32 flags =>
    if flags &&& Negotiate.ntlmsspNegociateVersion.toU32 = 0 then
      .ok (.skipField "Version")
    else
      .ok .none
  | _ => .ok .none

def negotiateMessage (flags : UInt32) : Component := [
  ("Signature", .leaf (.bytes ntlmssp)),
  ("MessageType", .leaf (.u32 .le 0x00000001)),
  ("NegotiateFlags", .dynOption (.leaf (.u32 .le flags)) versionOption),
  ("DomainNameLen", .leaf (.u16 .le 0)),
  ("DomainNameMaxLen", .leaf (.u16 .le 0)),
  ("DomainNameBufferOffset", .leaf (.u32 .le 0)),
  ("WorkstationLen", .leaf (.u16 .le 0)),
  ("WorkstationMaxLen", .leaf (.u16 .le 0)),
  ("WorkstationBufferOffset", .leaf (.u32 .le 0)),
  ("Version", .component version),
  ("Payload", .leaf (.bytes []))
]

def challengeMessage : Component := [
  ("Signature", .check (.bytes ntlmssp)),
  ("MessageType", .check (.u32 .le 2)),
  ("TargetNameLen", .leaf (.u16 .le 0)),
  ("TargetNameLenMax", .leaf (.u16 .le 0)),
  ("TargetNameBufferOffset", .leaf (.u32 .le 0)),
  ("NegotiateFlags", .dynOption (.leaf (.u32 .le 0)) versionOption),
  ("ServerChallenge", .leaf (.bytes (List.replicate 8 0))),
  ("Reserved", .leaf (.bytes (List.replicate 8 0))),
  ("TargetInfoLen", .leaf (.u16 .le 0)),
  ("TargetInfoMaxLen", .leaf (.u16 .le 0)),
  ("TargetInfoBufferOffset", .leaf (.u32 .le 0)),
  ("Version", .component version),
  ("Payload", .leaf (.bytes []))
]

/--
`offset + length as u32`.
-/
def bufferOffset (offset : UInt32) (length : Nat) : RdpResult UInt32 := do
  return .ofNat (← checkedAdd 32 offset.toNat (UInt32.ofNat length).toNat)

/--
The message without its payload, of the lengths and the offsets of the six parts of the payload.
-/
def authenticateFields (lm nt domain user workstation key : Nat)
    (lmOffset ntOffset domainOffset userOffset workstationOffset keyOffset flags : UInt32) :
    Component := [
  ("Signature", .check (.bytes ntlmssp)),
  ("MessageType", .check (.u32 .le 3)),
  ("LmChallengeResponseLen", .leaf (.u16 .le (.ofNat lm))),
  ("LmChallengeResponseMaxLen", .leaf (.u16 .le (.ofNat lm))),
  ("LmChallengeResponseBufferOffset", .leaf (.u32 .le lmOffset)),
  ("NtChallengeResponseLen", .leaf (.u16 .le (.ofNat nt))),
  ("NtChallengeResponseMaxLen", .leaf (.u16 .le (.ofNat nt))),
  ("NtChallengeResponseBufferOffset", .leaf (.u32 .le ntOffset)),
  ("DomainNameLen", .leaf (.u16 .le (.ofNat domain))),
  ("DomainNameMaxLen", .leaf (.u16 .le (.ofNat domain))),
  ("DomainNameBufferOffset", .leaf (.u32 .le domainOffset)),
  ("UserNameLen", .leaf (.u16 .le (.ofNat user))),
  ("UserNameMaxLen", .leaf (.u16 .le (.ofNat user))),
  ("UserNameBufferOffset", .leaf (.u32 .le userOffset)),
  ("WorkstationLen", .leaf (.u16 .le (.ofNat workstation))),
  ("WorkstationMaxLen", .leaf (.u16 .le (.ofNat workstation))),
  ("WorkstationBufferOffset", .leaf (.u32 .le workstationOffset)),
  ("EncryptedRandomSessionLen", .leaf (.u16 .le (.ofNat key))),
  ("EncryptedRandomSessionMaxLen", .leaf (.u16 .le (.ofNat key))),
  ("EncryptedRandomSessionBufferOffset", .leaf (.u32 .le keyOffset)),
  ("NegotiateFlags", .dynOption (.leaf (.u32 .le flags)) versionOption),
  ("Version", .component version)
]

/--
The message without its payload, and the payload.
-/
def authenticateMessage (lmChallengeResponse ntChallengeResponse domain user workstation
    encryptedRandomSessionKey : Bytes) (flags : UInt32) : RdpResult (Component × Bytes) := do
  let lm := lmChallengeResponse.length
  let nt := ntChallengeResponse.length
  let payload := [lmChallengeResponse, ntChallengeResponse, domain, user, workstation,
    encryptedRandomSessionKey].flatten
  let offset := if flags &&& Negotiate.ntlmsspNegociateVersion.toU32 = 0 then 80 else 88
  let ntOffset ← bufferOffset offset lm
  let domainOffset ← bufferOffset offset (lm + nt)
  let userOffset ← bufferOffset offset (lm + nt + domain.length)
  let workstationOffset ← bufferOffset offset (lm + nt + domain.length + user.length)
  let keyOffset ← bufferOffset offset (lm + nt + domain.length + user.length + workstation.length)
  return (authenticateFields lm nt domain.length user.length workstation.length
    encryptedRandomSessionKey.length offset ntOffset domainOffset userOffset workstationOffset
    keyOffset flags, payload)

/--
`&data[start..stop]`.
-/
def slice (data : Bytes) (start stop : Nat) : RdpResult Bytes :=
  if start ≤ stop ∧ stop ≤ data.length then
    .ok ((data.take stop).drop start)
  else
    .error (.panic "range out of range for slice")

def getPayloadField (message : Component) (length : UInt16) (bufferOffset : UInt32) :
    RdpResult Bytes := do
  let payload ← castSlice (← field (Message.visitFields message) "Payload")
  let offset ← checkedSub (← (Message.component message).length) payload.length
  let start ← checkedSub bufferOffset.toNat offset
  slice payload start (start + length.toNat)

inductive AvId where
  | msvAvEOL
  | msvAvNbComputerName
  | msvAvNbDomainName
  | msvAvDnsComputerName
  | msvAvDnsDomainName
  | msvAvDnsTreeName
  | msvAvFlags
  | msvAvTimestamp
  | msvAvSingleHost
  | msvAvTargetName
  | msvChannelBindings
  deriving DecidableEq, Repr

def AvId.tryFrom (v : UInt16) : RdpResult AvId :=
  match v.toNat with
  | 0x0000 => .ok .msvAvEOL
  | 0x0001 => .ok .msvAvNbComputerName
  | 0x0002 => .ok .msvAvNbDomainName
  | 0x0003 => .ok .msvAvDnsComputerName
  | 0x0004 => .ok .msvAvDnsDomainName
  | 0x0005 => .ok .msvAvDnsTreeName
  | 0x0006 => .ok .msvAvFlags
  | 0x0007 => .ok .msvAvTimestamp
  | 0x0008 => .ok .msvAvSingleHost
  | 0x0009 => .ok .msvAvTargetName
  | 0x000A => .ok .msvChannelBindings
  | _ => .error (.error .enumConversion)

def avPair : Component := [
  ("AvId", .leaf (.u16 .le 0)),
  ("AvLen", .dynOption (.leaf (.u16 .le 0)) fun node =>
    match node with
    | .u16 n => .ok (.size "Value" n.toNat)
    | _ => .ok .none),
  ("Value", .leaf (.bytes []))
]

/--
One pair, or nothing where the list ends.
-/
def readAvPair : Reader (Option (AvId × Bytes)) := do
  let element := (← (Message.component avPair).reader).visit
  let fields ← Prog.lift (castComponent element)
  let avId ← Prog.lift (AvId.tryFrom (← Prog.lift (castU16 (← Prog.lift (field fields "AvId")))))
  if avId = .msvAvEOL then
    return none
  else
    return some (avId, ← Prog.lift (castSlice (← Prog.lift (field fields "Value"))))

/--
The pairs of a target info, the last one first. A pair has four bytes at least, so the fuel of one
more than the bytes that are left never runs out.
-/
def readPairs (fuel : Nat) (result : List (AvId × Bytes)) : Reader (List (AvId × Bytes)) :=
  match fuel with
  | 0 => throw .diverge
  | fuel + 1 => do
    match ← readAvPair with
    | none => return result
    | some pair => readPairs fuel (pair :: result)

/--
The map that is read is a list in which the first entry of a key counts.
-/
def readTargetInfo (data : Bytes) : RdpResult (List (AvId × Bytes)) :=
  match (readPairs (data.length + 1) []).run data with
  | .ok result _ => .ok result
  | .error e _ => .error e

def z (m : Nat) : Bytes := List.replicate m 0

def encodeUtf16 (c : Char) : List UInt16 :=
  if c.toNat < 0x10000 then
    [.ofNat c.toNat]
  else
    [.ofNat (0xD800 + (c.toNat - 0x10000) / 2 ^ 10), .ofNat (0xDC00 + (c.toNat - 0x10000) % 2 ^ 10)]

def unicode (data : String) : Bytes :=
  (data.toList.flatMap encodeUtf16).flatMap Endian.le.encode16

def asBytes (data : String) : Bytes := data.toUTF8.data.toList

section Hashes

variable (hashes : Hashes)

def ntowfv2Hash (hash : Bytes) (user domain : String) : Bytes :=
  hashes.hmacMd5 hash (unicode (hashes.toUppercase user ++ domain))

def ntowfv2 (password user domain : String) : Bytes :=
  hashes.hmacMd5 (hashes.md4 (unicode password)) (unicode (hashes.toUppercase user ++ domain))

def lmowfv2 (password user domain : String) : Bytes := ntowfv2 hashes password user domain

structure ResponseV2 where
  ntChallengeResponse : Bytes
  lmChallengeResponse : Bytes
  sessionBaseKey : Bytes

def computeResponseV2 (responseKeyNt responseKeyLm serverChallenge clientChallenge time
    serverName : Bytes) : ResponseV2 :=
  let temp := [[1], [1], z 6, time, clientChallenge, z 4, serverName].flatten
  let ntProofStr := hashes.hmacMd5 responseKeyNt (serverChallenge ++ temp)
  {
    ntChallengeResponse := ntProofStr ++ temp
    lmChallengeResponse :=
      hashes.hmacMd5 responseKeyLm (serverChallenge ++ clientChallenge) ++ clientChallenge
    sessionBaseKey := hashes.hmacMd5 responseKeyNt ntProofStr
  }

def kxKeyV2 (sessionBaseKey _lmChallengeResponse _serverChallenge : Bytes) : Bytes :=
  sessionBaseKey

def rc4k (key plaintext : Bytes) : RdpResult Bytes := do
  let rc4Handle ← Rc4.new key
  return (rc4Handle.process plaintext).1

def mic (exportedSessionKey negotiateMessage challengeMessage authenticateMessage : Bytes) : Bytes :=
  hashes.hmacMd5 exportedSessionKey (negotiateMessage ++ challengeMessage ++ authenticateMessage)

def signKey (exportedSessionKey : Bytes) (isClient : Bool) : Bytes :=
  if isClient then
    hashes.md5 (exportedSessionKey ++
      asBytes "session key to client-to-server signing key magic constant\x00")
  else
    hashes.md5 (exportedSessionKey ++
      asBytes "session key to server-to-client signing key magic constant\x00")

def sealKey (exportedSessionKey : Bytes) (isClient : Bool) : Bytes :=
  if isClient then
    hashes.md5 (exportedSessionKey ++
      asBytes "session key to client-to-server sealing key magic constant\x00")
  else
    hashes.md5 (exportedSessionKey ++
      asBytes "session key to server-to-client sealing key magic constant\x00")

def messageSignatureEx (checkSum : Option Bytes) (seqNum : Option UInt32) : RdpResult Component := do
  let sum ←
    match checkSum with
    | some sum => slice sum 0 8
    | none => pure (List.replicate 8 0)
  return [
    ("Version", .check (.u32 .le 1)),
    ("Checksum", .leaf (.bytes sum)),
    ("SeqNum", .leaf (.u32 .le (seqNum.getD 0)))
  ]

def mac (rc4Handle : Rc4) (signingKey : Bytes) (seqNum : UInt32) (data : Bytes) :
    RdpResult (Bytes × Rc4) := do
  let seq ← toVec (.leaf (.u32 .le seqNum))
  let signature := hashes.hmacMd5 signingKey (seq ++ data)
  let (encrypedSignature, rc4Handle) := rc4Handle.process (← slice signature 0 8)
  let bytes ← toVec (.component (← messageSignatureEx (some encrypedSignature) (some seqNum)))
  return (bytes, rc4Handle)

end Hashes

end Rdp.Nla

namespace Rdp

open Nla

structure Ntlm where
  domain : String
  user : String
  password : String
  responseKeyNt : Bytes
  responseKeyLm : Bytes
  negotiateMessage : Option Bytes
  exportedSessionKey : Option Bytes
  isUnicode : Bool

structure NTLMv2SecurityInterface where
  encrypt : Rc4
  decrypt : Rc4
  signingKey : Bytes
  verifyKey : Bytes
  seqNum : UInt32

namespace NTLMv2SecurityInterface

variable (hashes : Hashes)

def new (encrypt decrypt : Rc4) (signingKey verifyKey : Bytes) : NTLMv2SecurityInterface :=
  ⟨encrypt, decrypt, signingKey, verifyKey, 0⟩

def gssWrapex (data : Bytes) : Prog Error NTLMv2SecurityInterface Bytes := do
  let self ← get
  let (encryptedData, encrypt) := self.encrypt.process data
  let (signature, encrypt) ← Prog.lift (mac hashes encrypt self.signingKey self.seqNum data)
  let seqNum ← Prog.lift (checkedAdd 32 self.seqNum.toNat 1)
  set { self with encrypt, seqNum := .ofNat seqNum }
  Prog.lift (toVec (.trame [.leaf (.bytes signature), .leaf (.bytes encryptedData)]))

structure SignedMessage where
  checksum : Bytes
  seqNum : UInt32
  payload : Bytes

def readSignedMessage (data : Bytes) : RdpResult SignedMessage := do
  let signature ← messageSignatureEx none none
  match (Message.component signature).reader.run data with
  | .error e _ => .error e
  | .ok signature rest =>
    let fields ← castComponent signature.visit
    let checksum ← castSlice (← field fields "Checksum")
    let seqNum ← castU32 (← field fields "SeqNum")
    match (Message.leaf (.bytes [])).reader.run rest with
    | .error e _ => .error e
    | .ok payload _ => return ⟨checksum, seqNum, ← castSlice payload.visit⟩

/--
The state of the decryption is the one after the payload and the checksum, also when the checksum is
not the expected one.
-/
def gssUnwrapex (data : Bytes) : Prog Error NTLMv2SecurityInterface Bytes := do
  let self ← get
  let signed ← Prog.lift (readSignedMessage data)
  let (plaintextPayload, decrypt) := self.decrypt.process signed.payload
  let (plaintextChecksum, decrypt) := decrypt.process signed.checksum
  set { self with decrypt }
  let seqNum ← Prog.lift (toVec (.leaf (.u32 .le signed.seqNum)))
  let computedChecksum := hashes.hmacMd5 self.verifyKey (seqNum ++ plaintextPayload)
  let computed ← Prog.lift (slice computedChecksum 0 8)
  if plaintextChecksum ≠ computed then
    Prog.fail (.new .invalidChecksum "Invalid checksum on NTLMv2")
  else
    return plaintextPayload

def gss : GenericSecurityService NTLMv2SecurityInterface where
  gssWrapex := gssWrapex hashes
  gssUnwrapex := gssUnwrapex hashes

end NTLMv2SecurityInterface

namespace Ntlm

variable (hashes : Hashes)

def new (domain user password : String) : Ntlm where
  responseKeyNt := ntowfv2 hashes password user domain
  responseKeyLm := lmowfv2 hashes password user domain
  domain := domain
  user := user
  password := password
  negotiateMessage := none
  exportedSessionKey := none
  isUnicode := false

def fromHash (domain user : String) (passwordHash : Bytes) : Ntlm where
  responseKeyNt := ntowfv2Hash hashes passwordHash user domain
  responseKeyLm := ntowfv2Hash hashes passwordHash user domain
  domain := domain
  user := user
  password := ""
  negotiateMessage := none
  exportedSessionKey := none
  isUnicode := false

def encode (self : Ntlm) (s : String) : Bytes :=
  if self.isUnicode then
    unicode s
  else
    asBytes s

def getDomainName (self : Ntlm) : Bytes := self.encode self.domain

def getUserName (self : Ntlm) : Bytes := self.encode self.user

def getPassword (self : Ntlm) : Bytes := self.encode self.password

def random (size : Nat) : Prog Error (Ntlm × Rng) Bytes := fun s =>
  .ok ((List.range size).map s.2) (s.1, fun i => s.2 (size + i))

def modifySelf (f : Ntlm → Ntlm) : Prog Error (Ntlm × Rng) Unit := modify fun s => (f s.1, s.2)

def negotiateFlags : UInt32 :=
  Negotiate.ntlmsspNegociateKeyExch.toU32 |||
    Negotiate.ntlmsspNegociate128.toU32 |||
    Negotiate.ntlmsspNegociateExtendedSessionSecurity.toU32 |||
    Negotiate.ntlmsspNegociateAlwaysSign.toU32 |||
    Negotiate.ntlmsspNegociateNTLM.toU32 |||
    Negotiate.ntlmsspNegociateSeal.toU32 |||
    Negotiate.ntlmsspNegociateSign.toU32 |||
    Negotiate.ntlmsspRequestTarget.toU32 |||
    Negotiate.ntlmsspNegociateUnicode.toU32

def createNegotiateMessage : Prog Error (Ntlm × Rng) Bytes := do
  let buffer ← Prog.lift (toVec (.component (Nla.negotiateMessage negotiateFlags)))
  modifySelf fun self => { self with negotiateMessage := some buffer }
  return buffer

/--
What is used of the challenge of the server.
-/
structure Challenge where
  serverChallenge : Bytes
  targetName : Bytes
  timestamp : Bytes
  flags : UInt32

def readChallenge (request : Bytes) : RdpResult Challenge := do
  let result ←
    match (Message.component challengeMessage).reader.run request with
    | .ok result _ => .ok result
    | .error e _ => .error e
  match result with
  | .component message =>
    let fields := Message.visitFields message
    let serverChallenge ← castSlice (← field fields "ServerChallenge")
    let targetInfoLen ← castU16 (← field fields "TargetInfoLen")
    let targetInfoBufferOffset ← castU32 (← field fields "TargetInfoBufferOffset")
    let targetName ← getPayloadField message targetInfoLen targetInfoBufferOffset
    let targetInfo ← readTargetInfo targetName
    let flags ← castU32 (← field fields "NegotiateFlags")
    match targetInfo.lookup .msvAvTimestamp with
    | some timestamp => return ⟨serverChallenge, targetName, timestamp, flags⟩
    | none => .error (.panic "no timestamp available")
  | _ => DataType.invalidCast

def unwrapOption (x : Option α) : RdpResult α :=
  match x with
  | some a => .ok a
  | none => .error (.panic "called `Option::unwrap()` on a `None` value")

def readChallengeMessage (request : Bytes) : Prog Error (Ntlm × Rng) Bytes := do
  let challenge ← Prog.lift (readChallenge request)
  let clientChallenge ← random 8
  let self := (← get).1
  let response := computeResponseV2 hashes self.responseKeyNt self.responseKeyLm
    challenge.serverChallenge clientChallenge challenge.timestamp challenge.targetName
  let keyExchangeKey := kxKeyV2 response.sessionBaseKey response.lmChallengeResponse
    challenge.serverChallenge
  let exportedSessionKey ← random 16
  modifySelf fun self => { self with exportedSessionKey := some exportedSessionKey }
  let encryptedRandomSessionKey ← Prog.lift (rc4k keyExchangeKey exportedSessionKey)
  modifySelf fun self => { self with
    isUnicode := challenge.flags &&& Negotiate.ntlmsspNegociateUnicode.toU32 = 1 }
  let self := (← get).1
  let (message, payload) ← Prog.lift (authenticateMessage response.lmChallengeResponse
    response.ntChallengeResponse self.getDomainName self.getUserName [] encryptedRandomSessionKey
    challenge.flags)
  -- the signature covers the message with zeros in its place
  let header ← Prog.lift (toVec (.component message))
  let tmp ← Prog.lift (toVec (.trame [.leaf (.bytes header), .leaf (.bytes (z 16)),
    .leaf (.bytes payload)]))
  let negotiateMessage ← Prog.lift (unwrapOption self.negotiateMessage)
  let signature := mic hashes exportedSessionKey negotiateMessage request tmp
  Prog.lift (toVec (.trame [.component message, .leaf (.bytes signature), .leaf (.bytes payload)]))

def buildSecurityInterface (self : Ntlm) : RdpResult NTLMv2SecurityInterface := do
  let exportedSessionKey ← unwrapOption self.exportedSessionKey
  let clientSigningKey := signKey hashes exportedSessionKey true
  let serverSigningKey := signKey hashes exportedSessionKey false
  let encrypt ← Rc4.new (sealKey hashes exportedSessionKey true)
  let decrypt ← Rc4.new (sealKey hashes exportedSessionKey false)
  return .new encrypt decrypt clientSigningKey serverSigningKey

def authenticationProtocol : AuthenticationProtocol (Ntlm × Rng) NTLMv2SecurityInterface where
  createNegotiateMessage := createNegotiateMessage
  readChallengeMessage := readChallengeMessage hashes
  buildSecurityInterface s := s.1.buildSecurityInterface hashes
  gss := NTLMv2SecurityInterface.gss hashes
  getDomainName s := s.1.getDomainName
  getUserName s := s.1.getUserName
  getPassword s := s.1.getPassword

end Ntlm

end Rdp
