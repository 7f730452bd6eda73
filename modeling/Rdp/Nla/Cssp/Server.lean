import Rdp.Nla.Cssp.RoundTrip
import Rdp.Nla.Ntlm.Agreement
import Rdp.Nla.Ntlm.Duplex

/-!
This module contains the server of a CSSP handshake. It knows the response key of the user, its own
public key and the challenge it has sent, and learns everything else from the messages of the client.
-/

namespace Rdp.Cssp

open Nla NTLMv2SecurityInterface

def negoToken (nego : Bytes) : ASN1 := .sequence [("negoToken", .explicitTag (.context 0) (.octetString nego))]

def tsAuthenticate (tokens : List ASN1) (factory : Option ASN1) (pubKeyAuth : Bytes) : ASN1 := .sequence [
  ("version", .explicitTag (.context 0) (.integer 2)),
  ("negoTokens", .explicitTag (.context 1) (.sequenceOf tokens factory)),
  ("pubKeyAuth", .explicitTag (.context 3) (.octetString pubKeyAuth))
]

def tsValidate (pubKeyAuth : Bytes) : ASN1 := .sequence [
  ("version", .explicitTag (.context 0) (.integer 2)),
  ("pubKeyAuth", .explicitTag (.context 3) (.octetString pubKeyAuth))
]

def tsAuthinfo (authInfo : Bytes) : ASN1 := .sequence [
  ("version", .explicitTag (.context 0) (.integer 2)),
  ("authInfo", .explicitTag (.context 2) (.octetString authInfo))
]

def tsCredentials (credentials : Bytes) : ASN1 := .sequence [
  ("credType", .explicitTag (.context 0) (.integer 1)),
  ("credentials", .explicitTag (.context 1) (.octetString credentials))
]

def tsPasswordCreds (domain user password : Bytes) : ASN1 := .sequence [
  ("domainName", .explicitTag (.context 0) (.octetString domain)),
  ("userName", .explicitTag (.context 1) (.octetString user)),
  ("password", .explicitTag (.context 2) (.octetString password))
]

section Readers

variable (der : Der)

def readTsAuthenticate (stream : Bytes) : Option (Bytes × Bytes) :=
  match der.fromDer (tsAuthenticate [] (some (negoToken [])) []) stream with
  | .ok (.sequence [_, (_, .explicitTag _ (.sequenceOf [.sequence [(_, .explicitTag _ (.octetString nego))]] _)),
      (_, .explicitTag _ (.octetString pubKeyAuth))]) => some (nego, pubKeyAuth)
  | _ => none

def createTsValidate (pubKeyAuth : Bytes) : Bytes := der.toDer (tsValidate pubKeyAuth)

def readTsAuthinfo (stream : Bytes) : Option Bytes :=
  match der.fromDer (tsAuthinfo []) stream with
  | .ok (.sequence [_, (_, .explicitTag _ (.octetString authInfo))]) => some authInfo
  | _ => none

def readTsCredentials (stream : Bytes) : Option (Bytes × Bytes × Bytes) :=
  match der.fromDer (tsCredentials []) stream with
  | .ok (.sequence [_, (_, .explicitTag _ (.octetString credentials))]) =>
    match der.fromDer (tsPasswordCreds [] [] []) credentials with
    | .ok (.sequence [(_, .explicitTag _ (.octetString domain)), (_, .explicitTag _ (.octetString user)),
        (_, .explicitTag _ (.octetString password))]) => some (domain, user, password)
    | _ => none
  | _ => none

end Readers

section RoundTrip

variable {y : Yasna} {parseX509Der : Bytes → Option Bytes} (hy : y.FollowsX690)

include hy

theorem readTsAuthenticate_createTsAuthenticate (nego pubKeyAuth : Bytes) :
    readTsAuthenticate (y.der parseX509Der) (createTsAuthenticate (y.der parseX509Der) nego pubKeyAuth) =
      some (nego, pubKeyAuth) := by
  have hinner : ASN1.Template (.sequenceOf [negoToken nego] none) (.sequenceOf [] (some (negoToken []))) :=
    ⟨⟨rfl, ⟨rfl, trivial⟩, trivial⟩, trivial⟩
  have htemplate : (tsAuthenticate [negoToken nego] none pubKeyAuth).Template
      (tsAuthenticate [] (some (negoToken [])) []) :=
    ⟨rfl, ⟨rfl, trivial⟩, rfl, ⟨rfl, hinner⟩, rfl, ⟨rfl, trivial⟩, trivial⟩
  have hread : (y.der parseX509Der).fromDer (tsAuthenticate [] (some (negoToken [])) [])
      (createTsAuthenticate (y.der parseX509Der) nego pubKeyAuth) =
        .ok (tsAuthenticate [negoToken nego] (some (negoToken [])) pubKeyAuth) := hy.fromDer_toDer htemplate
  rw [readTsAuthenticate, hread]
  rfl

theorem readTsValidate_createTsValidate (pubKeyAuth : Bytes) :
    readTsValidate (y.der parseX509Der) (createTsValidate (y.der parseX509Der) pubKeyAuth) =
      .ok pubKeyAuth := by
  have htemplate : (tsValidate pubKeyAuth).Template (tsValidate []) :=
    ⟨rfl, ⟨rfl, trivial⟩, rfl, ⟨rfl, trivial⟩, trivial⟩
  have hread := hy.fromDer_toDer htemplate
  change (y.fromDer (tsValidate []) (y.toDer (tsValidate pubKeyAuth)) >>= _) = _
  rw [hread]
  rfl

theorem readTsAuthinfo_createTsAuthinfo (authInfo : Bytes) :
    readTsAuthinfo (y.der parseX509Der) (createTsAuthinfo (y.der parseX509Der) authInfo) = some authInfo := by
  have htemplate : (tsAuthinfo authInfo).Template (tsAuthinfo []) :=
    ⟨rfl, ⟨rfl, trivial⟩, rfl, ⟨rfl, trivial⟩, trivial⟩
  have hread : (y.der parseX509Der).fromDer (tsAuthinfo [])
      (createTsAuthinfo (y.der parseX509Der) authInfo) = .ok (tsAuthinfo authInfo) :=
    hy.fromDer_toDer htemplate
  rw [readTsAuthinfo, hread]
  rfl

theorem readTsCredentials_createTsCredentials (domain user password : Bytes) :
    readTsCredentials (y.der parseX509Der) (createTsCredentials (y.der parseX509Der) domain user password) =
      some (domain, user, password) := by
  have houter (credentials : Bytes) : (tsCredentials credentials).Template (tsCredentials []) :=
    ⟨rfl, ⟨rfl, trivial⟩, rfl, ⟨rfl, trivial⟩, trivial⟩
  have hinner : (tsPasswordCreds domain user password).Template (tsPasswordCreds [] [] []) :=
    ⟨rfl, ⟨rfl, trivial⟩, rfl, ⟨rfl, trivial⟩, rfl, ⟨rfl, trivial⟩, trivial⟩
  have hread : (y.der parseX509Der).fromDer (tsCredentials [])
      (createTsCredentials (y.der parseX509Der) domain user password) =
        .ok (tsCredentials (y.toDer (tsPasswordCreds domain user password))) :=
    hy.fromDer_toDer (houter _)
  have hread' : (y.der parseX509Der).fromDer (tsPasswordCreds [] [] [])
      (y.toDer (tsPasswordCreds domain user password)) = .ok (tsPasswordCreds domain user password) :=
    hy.fromDer_toDer hinner
  rw [readTsCredentials, hread]
  dsimp only [tsCredentials]
  rw [hread']
  rfl

end RoundTrip

/--
What the server knows before the client speaks, and the challenge it sends.
-/
structure Server where
  responseKeyNt : Bytes
  publicKey : Bytes
  challengeMessage : Bytes

namespace Server

variable (hashes : Hashes) (der : Der)

/--
The first two messages. The client proves that it has the response key, the session key is recovered
from its answer, and the signature covers all three messages of NTLM. What the client has wrapped has to
be the public key.
-/
def accept (self : Server) (first second : Bytes) : Option NTLMv2SecurityInterface := do
  let negotiateMessage ← (readTsServerChallenge der first).toOption
  let (message, pubKeyAuth) ← readTsAuthenticate der second
  let response := ntChallengeResponse message
  let proof := hashes.hmacMd5 self.responseKeyNt (serverChallenge self.challengeMessage ++ response.drop 16)
  guard (response.take 16 = proof)
  guard (targetInfo self.challengeMessage <:+ response.drop 16)
  let exportedSessionKey ← (rc4k (hashes.hmacMd5 self.responseKeyNt proof)
    (encryptedRandomSessionKey message)).toOption
  guard (micOf message = hashes.hmacMd5 exportedSessionKey
    (negotiateMessage ++ self.challengeMessage ++ withoutMic message))
  let interface ← (ofServer hashes exportedSessionKey).toOption
  match (gssUnwrapex hashes pubKeyAuth).run interface with
  | .ok publicKey interface =>
    guard (publicKey = self.publicKey)
    return interface
  | .error _ _ => none

def confirm (text : Bytes) (interface : NTLMv2SecurityInterface) : Option (Bytes × NTLMv2SecurityInterface) :=
  match (gssWrapex hashes text).run interface with
  | .ok pubKeyAuth interface => some (createTsValidate der pubKeyAuth, interface)
  | .error _ _ => none

def receive (third : Bytes) (interface : NTLMv2SecurityInterface) : Option (Bytes × Bytes × Bytes) := do
  let authInfo ← readTsAuthinfo der third
  match (gssUnwrapex hashes authInfo).run interface with
  | .ok credentials _ => readTsCredentials der credentials
  | .error _ _ => none

variable {hashes} {y : Yasna} {parseX509Der : Bytes → Option Bytes}

theorem accept_of_agrees (hy : y.FollowsX690) {self : Server}
    {negotiateMessage message exportedSessionKey publicKey pubKeyAuth : Bytes}
    (hagrees : Ntlm.Agrees hashes self.responseKeyNt negotiateMessage self.challengeMessage message
      exportedSessionKey)
    {interface interface' : NTLMv2SecurityInterface}
    (hserver : ofServer hashes exportedSessionKey = .ok interface)
    (hunwrap : (gssUnwrapex hashes pubKeyAuth).run interface = .ok publicKey interface') :
    self.accept hashes (y.der parseX509Der) (createTsRequest (y.der parseX509Der) negotiateMessage)
      (createTsAuthenticate (y.der parseX509Der) message pubKeyAuth) =
        if publicKey = self.publicKey then some interface' else none := by
  obtain ⟨front, hfront⟩ := hagrees.targetInfo_eq
  have hsuffix : targetInfo self.challengeMessage <:+ (ntChallengeResponse message).drop 16 :=
    ⟨front, hfront.symm⟩
  have hkey := hagrees.rc4k_eq
  rw [hagrees.proof_eq] at hkey
  unfold accept
  rw [readTsServerChallenge_createTsRequest hy, readTsAuthenticate_createTsAuthenticate hy]
  simp only [Except.toOption, Option.bind_eq_bind, Option.bind_some, guard, hagrees.proof_eq, hsuffix, hkey,
    hagrees.mic_eq, hserver, hunwrap, if_true, Option.pure_def]
  split <;> rfl

theorem confirm_eq_some {text reply : Bytes} {der : Der} {interface interface' : NTLMv2SecurityInterface}
    (h : confirm hashes der text interface = some (reply, interface')) :
    ∃ pubKeyAuth, (gssWrapex hashes text).run interface = .ok pubKeyAuth interface' ∧
      reply = createTsValidate der pubKeyAuth := by
  unfold confirm at h
  split at h
  next pubKeyAuth interface'' hrun =>
    cases h
    exact ⟨pubKeyAuth, hrun, rfl⟩
  next => cases h

theorem exists_confirm (hmac : ∀ key data, 8 ≤ (hashes.hmacMd5 key data).length) {der : Der}
    {interface : NTLMv2SecurityInterface} (hseq : interface.seqNum = 0) (text : Bytes) :
    ∃ reply interface', confirm hashes der text interface = some (reply, interface') := by
  have hlt : interface.seqNum.toNat + 1 < 2 ^ 32 := by
    rw [hseq]
    decide
  rw [confirm, run_gssWrapex hmac hlt]
  exact ⟨_, _, rfl⟩

theorem receive_of_unwraps (hy : y.FollowsX690) {authInfo domain user password : Bytes}
    {interface interface' : NTLMv2SecurityInterface}
    (h : (gssUnwrapex hashes authInfo).run interface =
      .ok (createTsCredentials (y.der parseX509Der) domain user password) interface') :
    receive hashes (y.der parseX509Der) (createTsAuthinfo (y.der parseX509Der) authInfo) interface =
      some (domain, user, password) := by
  unfold receive
  rw [readTsAuthinfo_createTsAuthinfo hy]
  simp only [Option.bind_eq_bind, Option.bind_some, h, readTsCredentials_createTsCredentials hy]

end Server

end Rdp.Cssp
