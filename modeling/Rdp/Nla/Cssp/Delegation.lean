import Rdp.Nla.Cssp.Handshake
import Rdp.Nla.Cssp.Server
import Rdp.Nla.Cssp.Splitting
import Rdp.Nla.Cssp.Totality
import Rdp.Nla.Ntlm.Challenge

/-!
This module contains the handshake of the client with a server that knows the response key of the user:
only the server with the public key of the TLS connection accepts the client, and only this server gets
the credentials.
-/

namespace Rdp

open Nla

namespace Arrival

theorem length_takeAvailable_le (n : Nat) (reads : List Arrival) : (takeAvailable n reads).1.length ≤ n := by
  induction n generalizing reads with
  | zero => cases reads <;> exact Nat.le_refl 0
  | succ n ih =>
    match reads with
    | [] => exact Nat.zero_le _
    | .cut :: reads => exact Nat.zero_le _
    | .fail e :: reads => exact Nat.zero_le _
    | .byte b :: reads => exact Nat.succ_le_succ (ih reads)

theorem length_read_le {n : Nat} {reads left : List Arrival} {bytes : Bytes}
    (h : read n reads = (.ok bytes, left)) : bytes.length ≤ n := by
  induction reads with
  | nil =>
    cases h
    exact Nat.zero_le n
  | cons a reads ih =>
    cases a with
    | cut => exact ih h
    | fail e => cases h
    | byte b =>
      cases h
      exact length_takeAvailable_le n (.byte b :: reads)

theorem read_ofChunks_of_le {chunk : Bytes} (hne : chunk ≠ []) {n : Nat} (hlength : chunk.length ≤ n)
    (chunks : List Bytes) : read n (ofChunks (chunk :: chunks)) = (.ok chunk, ofChunks chunks) := by
  rw [read_ofChunks hne, List.take_of_length_le hlength, List.drop_of_length_le hlength]
  rfl

end Arrival

namespace Ntlm

theorem readChallenge_eq {request : Bytes} {c : Challenge} (h : readChallenge request = .ok c) :
    ∃ pairs, AvPairs (targetInfo request) pairs ∧ (.msvAvTimestamp, c.timestamp) ∈ pairs ∧
      c = ⟨serverChallenge request, targetInfo request, c.timestamp, uint32At request 20⟩ := by
  have hchallenge : IsChallenge request := by
    by_contra hnot
    obtain ⟨e, he⟩ := readChallenge_of_not_isChallenge hnot
    cases he.symm.trans h
  have hin : Inside request (uint32At request 44).toNat (uint16At request 40).toNat := by
    by_contra hnot
    exact Except.not_aborts_ok c (h ▸ aborts_readChallenge_of_not_inside hchallenge hnot)
  rw [readChallenge_of_inside hchallenge hin] at h
  obtain ⟨info, hinfo, hrest⟩ := Except.bind_eq_ok h
  obtain ⟨pairs, hpairs, rfl⟩ := readTargetInfo_eq_ok.mp hinfo
  split at hrest
  next timestamp hlookup =>
    cases hrest
    obtain ⟨front, back, hreverse, _⟩ := List.lookup_eq_some_iff.mp hlookup
    have hmem : (AvId.msvAvTimestamp, timestamp) ∈ pairs.reverse := by simp [hreverse]
    exact ⟨pairs, hpairs, List.mem_reverse.mp hmem, rfl⟩
  next => cases hrest

theorem length_le_of_avPairs {data : Bytes} {pairs : List (AvId × Bytes)} (h : AvPairs data pairs)
    {pair : AvId × Bytes} (hpair : pair ∈ pairs) : pair.2.length ≤ data.length := by
  induction h with
  | eol hlength rest => cases hpair
  | pair hid heol hlength hdata ih =>
    rw [List.length_append, length_avBytes]
    rcases List.mem_cons.mp hpair with rfl | hpair
    . simp only
      omega
    . have := ih hpair
      omega

theorem length_lt_of_readChallenge {request : Bytes} {c : Challenge} (h : readChallenge request = .ok c)
    (hlength : request.length ≤ 1500) : 36 + c.timestamp.length + c.targetName.length < 2 ^ 16 := by
  obtain ⟨pairs, hpairs, hmem, heq⟩ := readChallenge_eq h
  have htime := length_le_of_avPairs hpairs hmem
  have hname : c.targetName = targetInfo request := congrArg Challenge.targetName heq
  have hinfo : (targetInfo request).length ≤ request.length := by
    rw [targetInfo, announced, List.length_take, List.length_drop]
    omega
  rw [hname]
  simp only at htime
  omega

section Answer

variable {hashes : Hashes} {s : Ntlm × Rng} {request : Bytes} {c : Challenge}

/--
What the client sends as credentials to a server that has announced these flags.
-/
def delegated (restrictedAdminMode : Bool) (self : Ntlm) (flags : UInt32) : Bytes × Bytes × Bytes :=
  if restrictedAdminMode then
    ([], [], [])
  else
    ((self.talking flags).getDomainName, (self.talking flags).getUserName, (self.talking flags).getPassword)

theorem state_of_run_readChallengeMessage {message : Bytes} {s' : Ntlm × Rng}
    (h : (readChallengeMessage hashes request).run s = .ok message s') :
    ∃ c exportedSessionKey, readChallenge request = .ok c ∧
      s'.1 = { s.1.talking c.flags with exportedSessionKey := some exportedSessionKey } := by
  obtain ⟨c, hc, h₁⟩ := Prog.run_lift_bind_eq_ok h
  obtain ⟨clientChallenge, s₁, hclient, h₂⟩ := Prog.run_bind_eq_ok h₁
  cases hclient
  obtain ⟨exportedSessionKey, s₂, hexported, h₃⟩ := Prog.run_bind_eq_ok (Prog.run_get_bind_eq_ok h₂)
  cases hexported
  obtain ⟨_, s₃, hkey, h₄⟩ := Prog.run_bind_eq_ok h₃
  cases hkey
  obtain ⟨_, _, h₅⟩ := Prog.run_lift_bind_eq_ok h₄
  obtain ⟨_, s₄, hunicode, h₆⟩ := Prog.run_bind_eq_ok h₅
  cases hunicode
  obtain ⟨_, _, h₇⟩ := Prog.run_lift_bind_eq_ok (Prog.run_get_bind_eq_ok h₆)
  obtain ⟨_, _, h₈⟩ := Prog.run_lift_bind_eq_ok h₇
  obtain ⟨_, _, h₉⟩ := Prog.run_lift_bind_eq_ok h₈
  obtain ⟨_, _, h₁₀⟩ := Prog.run_lift_bind_eq_ok h₉
  obtain ⟨_, rfl⟩ := Prog.run_lift_eq_ok h₁₀
  exact ⟨c, _, hc, rfl⟩

theorem getDomainName_talking (self : Ntlm) (flags : UInt32) (exportedSessionKey : Option Bytes) :
    Ntlm.getDomainName { self with
      exportedSessionKey
      isUnicode := flags &&& Negotiate.ntlmsspNegociateUnicode.toU32 = 1 } =
        (self.talking flags).getDomainName := rfl

theorem getUserName_talking (self : Ntlm) (flags : UInt32) (exportedSessionKey : Option Bytes) :
    Ntlm.getUserName { self with
      exportedSessionKey
      isUnicode := flags &&& Negotiate.ntlmsspNegociateUnicode.toU32 = 1 } =
        (self.talking flags).getUserName := rfl

theorem exists_run_readChallengeMessage (hmac : ∀ key data, (hashes.hmacMd5 key data).length = 16)
    {negotiateMessage : Bytes} (hnegotiate : s.1.negotiateMessage = some negotiateMessage)
    (hc : readChallenge request = .ok c)
    (hfits : OffsetsFit c.flags 24 (36 + c.timestamp.length + c.targetName.length)
      (s.1.talking c.flags).getDomainName.length (s.1.talking c.flags).getUserName.length) :
    ∃ message s', (readChallengeMessage hashes request).run s = .ok message s' := by
  have hclient : ((List.range 8).map s.2).length = 8 := by simp
  have hlm := length_computeResponseV2_lm hmac s.1.responseKeyNt s.1.responseKeyLm c.serverChallenge
    ((List.range 8).map s.2) c.timestamp c.targetName
  obtain ⟨temp, htemp, _, hnt, hbase⟩ := @computeResponseV2_nt hashes s.1.responseKeyNt s.1.responseKeyLm
    c.serverChallenge ((List.range 8).map s.2) c.timestamp c.targetName
  rw [readChallengeMessage, hc, Prog.lift_ok, pure_bind,
    Prog.run_bind_of_ok (show (random 8).run s = .ok _ _ from rfl), EStateM.run_bind, EStateM.run_get]
  dsimp only
  generalize computeResponseV2 hashes s.1.responseKeyNt s.1.responseKeyLm c.serverChallenge
    ((List.range 8).map s.2) c.timestamp c.targetName = response at *
  have hntlength : response.ntChallengeResponse.length = 36 + c.timestamp.length + c.targetName.length := by
    rw [hnt, List.length_append, hmac, htemp, hclient]
    omega
  have hlmlength : response.lmChallengeResponse.length = 24 := by rw [hlm, hclient]
  have hkey : response.sessionBaseKey.length = 16 := by rw [hbase, hmac]
  obtain ⟨rc4, hrc4⟩ := Rc4.new_of_length (show 1 ≤ response.sessionBaseKey.length ∧ _ by omega)
  rw [← hlmlength, ← hntlength] at hfits
  obtain ⟨_, _, _, _, _, hmessage⟩ := authenticateMessage_of_fits
    (rc4.process ((List.range 16).map fun i => s.2 (8 + i))).1 hfits
  rw [Prog.run_bind_of_ok (show (random 16).run _ = .ok _ _ from rfl),
    Prog.run_bind_of_ok (show (modifySelf _).run _ = .ok () _ from rfl), rc4k, kxKeyV2, hrc4,
    Except.ok_bind, Prog.run_bind_of_ok (show (Prog.lift (pure _)).run _ = .ok _ _ from rfl),
    Prog.run_bind_of_ok (show (modifySelf _).run _ = .ok () _ from rfl), EStateM.run_bind, EStateM.run_get]
  dsimp only
  rw [getDomainName_talking, getUserName_talking, hmessage, Prog.lift_ok, pure_bind,
    toVec_eq_ok_iff.mpr (write_authenticateFields _ _ _ _ _ _ _ _ _ _ _ _ _), Prog.lift_ok, pure_bind,
    toVec_triple, Prog.lift_ok, pure_bind, hnegotiate, unwrapOption, Prog.lift_ok, pure_bind,
    toVec_fields_triple (write_authenticateFields _ _ _ _ _ _ _ _ _ _ _ _ _)]
  exact ⟨_, _, rfl⟩

end Answer

end Ntlm

namespace NTLMv2SecurityInterface

variable {hashes : Hashes} {client server : NTLMv2SecurityInterface}

theorem run_gssUnwrapex_eq_ok {message text : Bytes} {self self' : NTLMv2SecurityInterface}
    (h : (gssUnwrapex hashes message).run self = .ok text self') : ∃ decrypt, self' = { self with decrypt } := by
  obtain ⟨signed, _, h₁⟩ := Prog.run_lift_bind_eq_ok (Prog.run_get_bind_eq_ok h)
  obtain ⟨_, _, hset, h₂⟩ := Prog.run_bind_eq_ok h₁
  cases hset
  obtain ⟨_, _, h₃⟩ := Prog.run_lift_bind_eq_ok h₂
  obtain ⟨_, _, h₄⟩ := Prog.run_lift_bind_eq_ok h₃
  split at h₄
  next => cases h₄
  next =>
    cases h₄
    exact ⟨_, rfl⟩

theorem exists_ofServer {self : Ntlm} {exportedSessionKey : Bytes}
    (hkey : self.exportedSessionKey = some exportedSessionKey)
    (hbuild : self.buildSecurityInterface hashes = .ok client) :
    ∃ server, ofServer hashes exportedSessionKey = .ok server ∧ Mirrored client server ∧
      Mirrored server client ∧ client.seqNum = 0 ∧ server.seqNum = 0 := by
  rw [Ntlm.buildSecurityInterface, hkey, Ntlm.unwrapOption, Except.ok_bind] at hbuild
  obtain ⟨toServer, hto, hrest⟩ := Except.bind_eq_ok hbuild
  obtain ⟨toClient, hfrom, hreturn⟩ := Except.bind_eq_ok hrest
  cases hreturn
  refine ⟨.new toClient toServer (signKey hashes exportedSessionKey false)
    (signKey hashes exportedSessionKey true), ?_, ⟨rfl, rfl⟩, ⟨rfl, rfl⟩, rfl, rfl⟩
  rw [ofServer, hto, hfrom]
  rfl

theorem exists_run_gssUnwrapex (hmac : ∀ key data, 8 ≤ (hashes.hmacMd5 key data).length)
    {sender sender' receiver : NTLMv2SecurityInterface} {text message : Bytes}
    (hseq : sender.seqNum.toNat + 1 < 2 ^ 32)
    (hwrap : (gssWrapex hashes text).run sender = .ok message sender') (hto : Mirrored sender receiver) :
    ∃ receiver', (gssUnwrapex hashes message).run receiver = .ok text receiver' ∧ Mirrored sender' receiver' ∧
      (Mirrored receiver sender → Mirrored receiver' sender') ∧ sender'.seqNum = sender.seqNum + 1 ∧
      receiver'.seqNum = receiver.seqNum := by
  rw [run_gssWrapex hmac hseq] at hwrap
  cases hwrap
  refine ⟨_, run_gssUnwrapex hmac hto text, ⟨rfl, hto.key_eq⟩, fun hfrom => ⟨hfrom.rc4_eq, hfrom.key_eq⟩, rfl, rfl⟩

theorem length_of_run_gssWrapex (hmac : ∀ key data, 8 ≤ (hashes.hmacMd5 key data).length)
    {self self' : NTLMv2SecurityInterface} {text message : Bytes}
    (h : (gssWrapex hashes text).run self = .ok message self') : message.length = 16 + text.length := by
  obtain ⟨_, hmac', h₁⟩ := Prog.run_lift_bind_eq_ok (Prog.run_get_bind_eq_ok h)
  rw [mac_eq hmac] at hmac'
  cases hmac'
  obtain ⟨_, _, h₂⟩ := Prog.run_lift_bind_eq_ok h₁
  obtain ⟨_, _, hset, h₃⟩ := Prog.run_bind_eq_ok h₂
  obtain ⟨hvec, _⟩ := Prog.run_lift_eq_ok h₃
  rw [toVec_pair] at hvec
  cases hvec
  change (Endian.le.encode32 1 ++ (((self.encrypt.process text).2.process
    (checksum hashes self.signingKey self.seqNum text)).1 ++ Endian.le.encode32 self.seqNum) ++
      (self.encrypt.process text).1).length = _
  simp only [List.length_append, Rc4.length_process, length_checksum hmac, Endian.length_encode32]

end NTLMv2SecurityInterface

namespace Cssp

open NTLMv2SecurityInterface

variable {y : Yasna} {parseX509Der : Bytes → Option Bytes} {hashes : Hashes}

theorem length_le_of_readTsServerChallenge (hy : y.FollowsDer) {stream nego : Bytes}
    (h : readTsServerChallenge (y.der parseX509Der) stream = .ok nego) : nego.length ≤ stream.length := by
  have hreadable : tsServerChallenge.Readable := ⟨trivial, ⟨trivial, trivial⟩, trivial⟩
  change (y.fromDer tsServerChallenge stream >>= _) = _ at h
  rcases hy.fromDer_cases hreadable stream with ⟨t, ht, rfl, hread⟩ | ⟨e, hread⟩
  . obtain ⟨version, tokens, factory, rfl, htokens⟩ := exists_request ht
    rw [hread] at h
    cases tokens with
    | nil => cases h
    | cons t tokens =>
      obtain ⟨token, rfl⟩ := exists_token htokens.1
      cases h
      simp only [Yasna.toDer, hy.constructDer, request, ASN1.writeAsn1, ASN1.writeFields, ASN1.writeInner,
        hy.writeSequence, hy.writeTagged, hy.writeSequenceOf, hy.writeU32, hy.writeBytes,
        X690.Element.encode, List.flatMap_cons, List.length_append]
      omega
  . rw [hread] at h
    cases h

section Agreement

variable {self : Ntlm} {rng : Rng} {state : Ntlm × Rng} {challengeMessage publicKey : Bytes}

theorem eight_le_hmacMd5 (hmac : ∀ key data, (hashes.hmacMd5 key data).length = 16) (key data : Bytes) :
    8 ≤ (hashes.hmacMd5 key data).length := by
  rw [hmac]
  decide

theorem accept_of_answer (hy : y.FollowsX690) (hmac : ∀ key data, (hashes.hmacMd5 key data).length = 16)
    {nego : Bytes} (hnego : Ntlm.createNegotiateMessage.run (self, rng) = .ok nego state)
    (a : Answer (Ntlm.authenticationProtocol hashes) challengeMessage publicKey state)
    (hlength : challengeMessage.length ≤ 1500)
    (hdomain : ∀ flags, (self.talking flags).getDomainName.length < 2 ^ 16)
    (huser : ∀ flags, (self.talking flags).getUserName.length < 2 ^ 16) :
    ∃ interface, Mirrored a.securityInterface' interface ∧ Mirrored interface a.securityInterface' ∧
      a.securityInterface'.seqNum = 1 ∧ interface.seqNum = 0 ∧
      (a.state.1.getDomainName, a.state.1.getUserName, a.state.1.getPassword) =
        self.delegated false (uint32At challengeMessage 20) ∧
      ∀ key, Server.accept hashes (y.der parseX509Der) ⟨self.responseKeyNt, key, challengeMessage⟩
        (createTsRequest (y.der parseX509Der) nego) (a.request (y.der parseX509Der)) =
          if publicKey = key then some interface else none := by
  have hmac8 := eight_le_hmacMd5 hmac
  cases Ntlm.run_createNegotiateMessage hnego
  obtain ⟨c, key', hc, hstate⟩ := Ntlm.state_of_run_readChallengeMessage a.run_readChallenge
  obtain ⟨_, _, _, heq⟩ := Ntlm.readChallenge_eq hc
  have hflags : c.flags = uint32At challengeMessage 20 := congrArg Ntlm.Challenge.flags heq
  have hlengths : ∀ c', Ntlm.readChallenge challengeMessage = .ok c' →
      36 + c'.timestamp.length + c'.targetName.length < 2 ^ 16 :=
    fun c' hc' => Ntlm.length_lt_of_readChallenge hc' hlength
  have hnames : (a.state.1.getDomainName, a.state.1.getUserName, a.state.1.getPassword) =
      self.delegated false c.flags := by
    rw [hstate]
    rfl
  obtain ⟨hname, huname⟩ := Prod.mk.inj hnames
  have hdomain' : a.state.1.getDomainName.length < 2 ^ 16 := by
    rw [hname]
    exact hdomain c.flags
  have huser' : a.state.1.getUserName.length < 2 ^ 16 := by
    rw [(Prod.mk.inj huname).1]
    exact huser c.flags
  obtain ⟨exportedSessionKey, hkey, hagrees⟩ :=
    Ntlm.run_readChallengeMessage hmac rfl hlengths hdomain' huser' a.run_readChallenge
  -- The server derives its keys from the exported key it has decrypted, so both sides mirror each other.
  obtain ⟨server, hserver, hto, hfrom, hseq, hseq'⟩ := exists_ofServer hkey a.build
  obtain ⟨interface, hunwrap, hto', hback, hsent, hgot⟩ :=
    exists_run_gssUnwrapex hmac8 (by rw [hseq]; decide) a.wrap hto
  refine ⟨interface, hto', hback hfrom, by rw [hsent, hseq]; rfl, by rw [hgot, hseq'], hflags ▸ hnames, ?_⟩
  intro key
  exact Server.accept_of_agrees hy hagrees hserver hunwrap

theorem receive_of_wrapped (hy : y.FollowsX690) (hmac : ∀ key data, 8 ≤ (hashes.hmacMd5 key data).length)
    {restrictedAdminMode : Bool} {flags : UInt32} {client client' interface interface' : NTLMv2SecurityInterface}
    {message incPubKey text reply : Bytes} (hto : Mirrored client interface) (hseq : client.seqNum = 1)
    (hseq' : interface.seqNum = 0)
    (hunwrap : (gssUnwrapex hashes message).run client = .ok incPubKey client')
    (hconfirm : Server.confirm hashes (y.der parseX509Der) text interface = some (reply, interface'))
    (hnames : (state.1.getDomainName, state.1.getUserName, state.1.getPassword) = self.delegated false flags)
    (w : Wrapped (y.der parseX509Der) (Ntlm.authenticationProtocol hashes) restrictedAdminMode client' state) :
    Server.receive hashes (y.der parseX509Der) (w.message (y.der parseX509Der)) interface' =
      some (self.delegated restrictedAdminMode flags) := by
  obtain ⟨decrypt, rfl⟩ := run_gssUnwrapex_eq_ok hunwrap
  obtain ⟨pubKeyAuth, hwrap, _⟩ := Server.confirm_eq_some hconfirm
  rw [run_gssWrapex hmac (by rw [hseq']; decide)] at hwrap
  cases hwrap
  have hto' : Mirrored { client with decrypt } { interface with
      encrypt := (interface.sum hashes text).2
      seqNum := interface.seqNum + 1 } := ⟨hto.rc4_eq, hto.key_eq⟩
  obtain ⟨_, hthird, _⟩ := exists_run_gssUnwrapex hmac (by rw [hseq]; decide) w.wrap hto'
  rw [Wrapped.message, Server.receive_of_unwraps hy hthird]
  cases restrictedAdminMode with
  | true => rfl
  | false => exact congrArg some hnames

/--
A run of the client that returns, whatever has come from the network: the server that knows the response
key of the user accepts the client if it owns the public key of the certificate, and then it reads the
credentials, which are empty in the restricted admin mode. No other server accepts.
-/
theorem csspConnect_delegates (hy : y.FollowsDer) (hmac : ∀ key data, (hashes.hmacMd5 key data).length = 16)
    (hdomain : ∀ flags, (self.talking flags).getDomainName.length < 2 ^ 16)
    (huser : ∀ flags, (self.talking flags).getUserName.length < 2 ^ 16) {restrictedAdminMode : Bool}
    {link : Link} {t : Link × (Ntlm × Rng)}
    (hrun : (csspConnect (y.der parseX509Der) (Ntlm.authenticationProtocol hashes) restrictedAdminMode).run
      (link, (self, rng)) = .ok () t) :
    ∃ reply left challengeMessage publicKey first second third interface,
      Arrival.read 1500 link.reads = (.ok reply, left) ∧
      readTsServerChallenge (y.der parseX509Der) reply = .ok challengeMessage ∧
      link.Presents (y.der parseX509Der) publicKey ∧ t.1.sent = link.sent ++ [first, second, third] ∧
      (∀ key, Server.accept hashes (y.der parseX509Der) ⟨self.responseKeyNt, key, challengeMessage⟩ first second =
        if publicKey = key then some interface else none) ∧
      ∀ text confirmation interface',
        Server.confirm hashes (y.der parseX509Der) text interface = some (confirmation, interface') →
          Server.receive hashes (y.der parseX509Der) third interface' =
            some (self.delegated restrictedAdminMode (uint32At challengeMessage 20)) := by
  obtain ⟨handshake, hsent, _⟩ := handshake_of_run hrun
  have hlength : handshake.challenge.length ≤ 1500 :=
    (length_le_of_readTsServerChallenge hy handshake.read_challenge).trans
      (Arrival.length_read_le handshake.read_reply)
  obtain ⟨interface, hto, _, hseq, hseq', hnames, haccept⟩ := accept_of_answer hy.toFollowsX690 hmac
    handshake.negotiated.run_createNegotiate handshake.answer hlength hdomain huser
  refine ⟨handshake.reply, handshake.left, handshake.challenge, handshake.publicKey, _, _, _, interface,
    handshake.read_reply, handshake.read_challenge, handshake.presents, hsent, haccept, ?_⟩
  intro text confirmation interface' hconfirm
  exact receive_of_wrapped hy.toFollowsX690 (eight_le_hmacMd5 hmac) hto hseq hseq' handshake.unwrap hconfirm
    hnames handshake.wrapped

theorem exists_answer (hmac : ∀ key data, (hashes.hmacMd5 key data).length = 16)
    (hmd5 : ∀ data, 1 ≤ (hashes.md5 data).length ∧ (hashes.md5 data).length ≤ 256) {c : Ntlm.Challenge}
    (hchallenge : Ntlm.readChallenge challengeMessage = .ok c) (hlength : challengeMessage.length ≤ 1500)
    (hdomain : ∀ flags, (self.talking flags).getDomainName.length < 2 ^ 16)
    (huser : ∀ flags, (self.talking flags).getUserName.length < 2 ^ 16) (rng : Rng) (publicKey : Bytes) :
    ∃ n : Negotiated (Ntlm.authenticationProtocol hashes) (self, rng),
      Nonempty (Answer (Ntlm.authenticationProtocol hashes) challengeMessage publicKey n.state) := by
  have hmac8 := eight_le_hmacMd5 hmac
  obtain ⟨nego, state, hnego⟩ := Ntlm.exists_createNegotiateMessage (self, rng)
  refine ⟨⟨nego, state, hnego⟩, ?_⟩
  cases Ntlm.run_createNegotiateMessage hnego
  have hresponse := Ntlm.length_lt_of_readChallenge hchallenge hlength
  have hoffset : (payloadOffset c.flags).toNat ≤ 88 := by
    rw [toNat_payloadOffset]
    split <;> decide
  have hname := hdomain c.flags
  have huname := huser c.flags
  have hfits : OffsetsFit c.flags 24 (36 + c.timestamp.length + c.targetName.length)
      (self.talking c.flags).getDomainName.length (self.talking c.flags).getUserName.length := by
    intro length hmem
    simp only [List.mem_cons, List.not_mem_nil, or_false] at hmem
    omega
  obtain ⟨message, s, hanswer⟩ := Ntlm.exists_run_readChallengeMessage hmac
    (s := ({ self with negotiateMessage := some nego }, rng)) rfl hchallenge hfits
  obtain ⟨_, key, _, hkey⟩ := Ntlm.state_of_run_readChallengeMessage hanswer
  obtain ⟨encrypt, hencrypt⟩ := @Rc4.new_of_length (sealKey hashes key true) (hmd5 _)
  obtain ⟨decrypt, hdecrypt⟩ := @Rc4.new_of_length (sealKey hashes key false) (hmd5 _)
  have hbuild : s.1.buildSecurityInterface hashes = .ok (.new encrypt decrypt (signKey hashes key true)
      (signKey hashes key false)) := by
    rw [hkey, Ntlm.buildSecurityInterface]
    dsimp only
    rw [Ntlm.unwrapOption, Except.ok_bind, hencrypt, Except.ok_bind, hdecrypt]
    rfl
  have hfirst : (0 : UInt32).toNat + 1 < 2 ^ 32 := by decide
  exact ⟨⟨message, s, _, _, _, hanswer, hbuild, run_gssWrapex hmac8 hfirst publicKey⟩⟩

theorem run_with_server (hy : y.FollowsX690) (hmac : ∀ key data, 8 ≤ (hashes.hmacMd5 key data).length)
    {restrictedAdminMode : Bool} {s : Ntlm × Rng} {n : Negotiated (Ntlm.authenticationProtocol hashes) s}
    {a : Answer (Ntlm.authenticationProtocol hashes) challengeMessage publicKey n.state}
    {interface interface' : NTLMv2SecurityInterface} (hfrom : Mirrored interface a.securityInterface')
    (hseq : a.securityInterface'.seqNum = 1) (hseq' : interface.seqNum = 0) {link : Link}
    {left left' : List Arrival} {text reply : Bytes} (hpresents : link.Presents (y.der parseX509Der) publicKey)
    (hwrites : link.writes = [])
    (hread : Arrival.read 1500 link.reads = (.ok (createTsRequest (y.der parseX509Der) challengeMessage), left))
    (hconfirm : Server.confirm hashes (y.der parseX509Der) text interface = some (reply, interface'))
    (hread' : Arrival.read 1500 left = (.ok reply, left')) :
    ∃ pubKeyAuth client', (gssUnwrapex hashes pubKeyAuth).run a.securityInterface' = .ok text client' ∧
      (leNat text = leNat publicKey + 1 →
        ∃ (w : Wrapped (y.der parseX509Der) (Ntlm.authenticationProtocol hashes) restrictedAdminMode client'
            a.state) (t : Link × (Ntlm × Rng)),
          (csspConnect (y.der parseX509Der) (Ntlm.authenticationProtocol hashes) restrictedAdminMode).run
            (link, s) = .ok () t ∧
          t.1.sent = link.sent ++ [n.message (y.der parseX509Der), a.request (y.der parseX509Der),
            w.message (y.der parseX509Der)] ∧
          t.1.reads = left' ∧ t.1.writes = []) ∧
      (leNat text ≠ leNat publicKey + 1 →
        ∃ t : Link × (Ntlm × Rng),
          (csspConnect (y.der parseX509Der) (Ntlm.authenticationProtocol hashes) restrictedAdminMode).run
            (link, s) = .error (.error (.new .possibleMITM "Man in the middle detected")) t ∧
          t.1.sent = link.sent ++ [n.message (y.der parseX509Der), a.request (y.der parseX509Der)]) := by
  -- The rest of the handshake depends on the text alone that the server sends back.
  obtain ⟨pubKeyAuth, hwrap, rfl⟩ := Server.confirm_eq_some hconfirm
  obtain ⟨client', hunwrap, _, _, _, hseq₂⟩ :=
    exists_run_gssUnwrapex hmac (by rw [hseq']; decide) hwrap hfrom
  refine ⟨pubKeyAuth, client', hunwrap, ?_⟩
  obtain ⟨link₁, hrun₁, hsends₁, hreads₁, hnil₁⟩ :=
    @run_sendNegotiate _ _ (y.der parseX509Der) _ link _ n hwrites
  have hpresents₁ : link₁.Presents (y.der parseX509Der) publicKey := by
    unfold Link.Presents at hpresents ⊢
    rwa [hsends₁.peer_eq]
  rw [← hreads₁] at hread
  obtain ⟨link₂, hrun₂, hsends₂, hreads₂, hnil₂⟩ := run_sendAuthenticate a hread
    (readTsServerChallenge_createTsRequest hy challengeMessage) hpresents₁ hnil₁
  rw [← hreads₂] at hread'
  have hcheck := @run_checkPublicKey_of_read _ _ (y.der parseX509Der) (Ntlm.authenticationProtocol hashes)
    link₂ a.state _ _ publicKey _ _ _ _ hread' (readTsValidate_createTsValidate hy pubKeyAuth) hunwrap
  have hsends₃ : Link.Sends [] link₂ (link₂.withReads left') :=
    ⟨(List.append_nil _).symm, Link.peer_withSocket _ _ _⟩
  have hsends := (hsends₁.trans hsends₂).trans hsends₃
  unfold csspConnect
  rw [Prog.run_bind_of_ok hrun₁, Prog.run_bind_of_ok hrun₂]
  dsimp only
  -- Up to here the two runs are the same, and the text decides which one it is.
  constructor
  . intro htext
    rw [if_pos htext] at hcheck
    have hseq₃ : client'.seqNum.toNat + 1 < 2 ^ 32 := by
      rw [hseq₂, hseq]
      decide
    let w : Wrapped (y.der parseX509Der) (Ntlm.authenticationProtocol hashes) restrictedAdminMode client'
      a.state := ⟨_, _, run_gssWrapex hmac hseq₃ _⟩
    have hnil₃ : (link₂.withReads left').writes = [] := by rwa [Link.writes_withReads]
    obtain ⟨link₃, hrun₃, hsends₄, hreads₃, hnil₄⟩ := run_sendCredentials w hnil₃
    refine ⟨w, (link₃, a.state), ?_, (hsends.trans hsends₄).sent_eq, ?_, hnil₄⟩
    . rw [Prog.run_bind_of_ok hcheck]
      exact hrun₃
    . rw [hreads₃, Link.reads_withReads]
  . intro htext
    rw [if_neg htext] at hcheck
    exact ⟨_, Prog.run_bind_of_error hcheck, hsends.sent_eq⟩

/--
The handshake with a server that knows the response key of the user. The first two messages are the
same whatever the server does next, and no server accepts them but the one that owns the public key of
the certificate. The client returns exactly if this server sends its public key plus one, and then the
server reads the credentials; to any other text the client gives away nothing.
-/
theorem csspConnect_with_server (hy : y.FollowsX690)
    (hmac : ∀ key data, (hashes.hmacMd5 key data).length = 16)
    (hmd5 : ∀ data, 1 ≤ (hashes.md5 data).length ∧ (hashes.md5 data).length ≤ 256)
    (hdomain : ∀ flags, (self.talking flags).getDomainName.length < 2 ^ 16)
    (huser : ∀ flags, (self.talking flags).getUserName.length < 2 ^ 16) {c : Ntlm.Challenge}
    (hchallenge : Ntlm.readChallenge challengeMessage = .ok c) (hlength : challengeMessage.length ≤ 1500)
    (rng : Rng) (publicKey : Bytes) (restrictedAdminMode : Bool) :
    ∃ first second interface,
      (∀ key, Server.accept hashes (y.der parseX509Der) ⟨self.responseKeyNt, key, challengeMessage⟩ first second =
        if publicKey = key then some interface else none) ∧
      (∀ text, ∃ reply interface',
        Server.confirm hashes (y.der parseX509Der) text interface = some (reply, interface')) ∧
      ∀ (link : Link) (left left' : List Arrival) (text reply : Bytes) (interface' : NTLMv2SecurityInterface),
        link.Presents (y.der parseX509Der) publicKey → link.writes = [] →
        Arrival.read 1500 link.reads = (.ok (createTsRequest (y.der parseX509Der) challengeMessage), left) →
        Server.confirm hashes (y.der parseX509Der) text interface = some (reply, interface') →
        Arrival.read 1500 left = (.ok reply, left') →
        (leNat text = leNat publicKey + 1 → ∃ third t,
          (csspConnect (y.der parseX509Der) (Ntlm.authenticationProtocol hashes) restrictedAdminMode).run
            (link, (self, rng)) = .ok () t ∧
          t.1.sent = link.sent ++ [first, second, third] ∧
          Server.receive hashes (y.der parseX509Der) third interface' =
            some (self.delegated restrictedAdminMode (uint32At challengeMessage 20))) ∧
        (leNat text ≠ leNat publicKey + 1 → ∃ t,
          (csspConnect (y.der parseX509Der) (Ntlm.authenticationProtocol hashes) restrictedAdminMode).run
            (link, (self, rng)) = .error (.error (.new .possibleMITM "Man in the middle detected")) t ∧
          t.1.sent = link.sent ++ [first, second]) := by
  have hmac8 := eight_le_hmacMd5 hmac
  obtain ⟨n, ⟨a⟩⟩ := exists_answer hmac hmd5 hchallenge hlength hdomain huser rng publicKey
  obtain ⟨interface, hto, hfrom, hseq, hseq', hnames, haccept⟩ :=
    accept_of_answer hy hmac n.run_createNegotiate a hlength hdomain huser
  refine ⟨n.message (y.der parseX509Der), a.request (y.der parseX509Der), interface, haccept,
    Server.exists_confirm hmac8 hseq', ?_⟩
  intro link left left' text reply interface' hpresents hwrites hread hconfirm hread'
  obtain ⟨pubKeyAuth, client', hunwrap, hreturns, hrejects⟩ :=
    run_with_server hy hmac8 hfrom hseq hseq' hpresents hwrites hread hconfirm hread'
  refine ⟨?_, hrejects⟩
  intro htext
  obtain ⟨w, t, hrun, hsent, _⟩ := hreturns htext
  exact ⟨_, t, hrun, hsent, receive_of_wrapped hy hmac8 hto hseq hseq' hunwrap hconfirm hnames w⟩

end Agreement

namespace Delegation

def user : Ntlm := .new Duplex.hashes "domain" "user" "foo"

def der : Der := Standard.distinguished.der some

def link (reply : Bytes) : Link where
  stream := .ssl ⟨⟨Arrival.ofChunks [createTsRequest der Ntlm.Agrees.request, reply], [], []⟩,
    .ok (some ⟨.ok [1, 2]⟩)⟩
  sent := []

theorem length_hmacMd5 (key data : Bytes) : (Duplex.hashes.hmacMd5 key data).length = 16 :=
  List.length_replicate

theorem length_md5 (data : Bytes) :
    1 ≤ (Duplex.hashes.md5 data).length ∧ (Duplex.hashes.md5 data).length ≤ 256 := by
  rw [show (Duplex.hashes.md5 data).length = 16 from List.length_replicate]
  decide

theorem length_names_of {self : Ntlm} (hdomain : self.domain = "domain") (huser : self.user = "user") :
    self.getDomainName.length < 2 ^ 16 ∧ self.getUserName.length < 2 ^ 16 := by
  rw [Ntlm.getDomainName, Ntlm.getUserName, hdomain, huser, Ntlm.encode, Ntlm.encode]
  cases self.isUnicode <;> decide

theorem length_names (flags : UInt32) : (user.talking flags).getDomainName.length < 2 ^ 16 ∧
    (user.talking flags).getUserName.length < 2 ^ 16 := length_names_of rfl rfl

theorem exists_readChallenge : ∃ c, Ntlm.readChallenge Ntlm.Agrees.request = .ok c := by
  have hread : (Ntlm.readChallenge Ntlm.Agrees.request).toOption.isSome := by decide +kernel
  cases h : Ntlm.readChallenge Ntlm.Agrees.request with
  | ok c => exact ⟨c, rfl⟩
  | error e => simp [h, Except.toOption] at hread

theorem presents (reply : Bytes) : (link reply).Presents der [1, 2] := ⟨_, _, rfl, rfl, rfl⟩

theorem read_messages {reply : Bytes} {interface interface' : NTLMv2SecurityInterface}
    (h : Server.confirm Duplex.hashes der [2, 2] interface = some (reply, interface')) (chunks : List Bytes) :
    Arrival.read 1500 (Arrival.ofChunks (createTsRequest der Ntlm.Agrees.request :: reply :: chunks)) =
        (.ok (createTsRequest der Ntlm.Agrees.request), Arrival.ofChunks (reply :: chunks)) ∧
      Arrival.read 1500 (Arrival.ofChunks (reply :: chunks)) = (.ok reply, Arrival.ofChunks chunks) := by
  obtain ⟨pubKeyAuth, hwrap, rfl⟩ := Server.confirm_eq_some h
  have hlength := length_of_run_gssWrapex (fun key data => by rw [length_hmacMd5]; decide) hwrap
  have hy := Standard.followsDer.toFollowsX690
  have hreply : (createTsValidate der pubKeyAuth).length = 29 := by
    simp only [createTsValidate, der, Yasna.der, Yasna.toDer, hy.constructDer, tsValidate, ASN1.writeAsn1,
      ASN1.writeFields, hy.writeSequence, hy.writeTagged, hy.writeU32, hy.writeBytes, X690.Element.encode,
      List.flatMap_cons, List.flatMap_nil, List.length_append, hlength]
    decide
  have hchallenge : (createTsRequest der Ntlm.Agrees.request).length ≤ 1500 := by decide +kernel
  have hne : createTsRequest der Ntlm.Agrees.request ≠ [] := by decide +kernel
  have hne' : createTsValidate der pubKeyAuth ≠ [] := by
    intro hnil
    rw [hnil] at hreply
    cases hreply
  exact ⟨Arrival.read_ofChunks_of_le hne hchallenge _,
    Arrival.read_ofChunks_of_le hne' (by rw [hreply]; decide) chunks⟩

end Delegation

open Delegation in
theorem csspConnect_with_server_user :
    ∃ first second third reply t interface interface',
      Server.accept Duplex.hashes der ⟨user.responseKeyNt, [1, 2], Ntlm.Agrees.request⟩ first second =
        some interface ∧
      Server.accept Duplex.hashes der ⟨user.responseKeyNt, [3, 4], Ntlm.Agrees.request⟩ first second = none ∧
      Server.confirm Duplex.hashes der [2, 2] interface = some (reply, interface') ∧
      (csspConnect der (Ntlm.authenticationProtocol Duplex.hashes) false).run
        (link reply, (user, fun _ => 0)) = .ok () t ∧
      t.1.sent = [first, second, third] ∧
      Server.receive Duplex.hashes der third interface' =
        some (user.delegated false (uint32At Ntlm.Agrees.request 20)) := by
  obtain ⟨c, hc⟩ := exists_readChallenge
  obtain ⟨first, second, interface, haccept, hanswers, hruns⟩ :=
    @csspConnect_with_server _ some _ _ _ Standard.followsDer.toFollowsX690 length_hmacMd5 length_md5
      (fun flags => (length_names flags).1) (fun flags => (length_names flags).2) _ hc (by decide)
      (fun _ => 0) [1, 2] false
  obtain ⟨reply, interface', hconfirm⟩ := hanswers [2, 2]
  obtain ⟨hread, hread'⟩ := read_messages hconfirm []
  obtain ⟨hreturns, _⟩ := hruns (link reply) _ _ [2, 2] reply interface' (presents reply) rfl hread
    hconfirm hread'
  obtain ⟨third, t, hrun, hsent, hreceive⟩ := hreturns (by decide)
  exact ⟨first, second, third, reply, t, interface, interface', haccept [1, 2], haccept [3, 4], hconfirm, hrun,
    hsent, hreceive⟩

open Delegation in
theorem csspConnect_delegates_user :
    ∃ reply t first second third interface,
      (csspConnect der (Ntlm.authenticationProtocol Duplex.hashes) false).run
        (link reply, (user, fun _ => 0)) = .ok () t ∧
      t.1.sent = [first, second, third] ∧
      Server.accept Duplex.hashes der ⟨user.responseKeyNt, [1, 2], Ntlm.Agrees.request⟩ first second =
        some interface ∧
      ∀ text confirmation interface',
        Server.confirm Duplex.hashes der text interface = some (confirmation, interface') →
          Server.receive Duplex.hashes der third interface' =
            some (user.delegated false (uint32At Ntlm.Agrees.request 20)) := by
  have hy := Standard.followsDer
  have hmac8 := eight_le_hmacMd5 length_hmacMd5
  obtain ⟨c, hc⟩ := exists_readChallenge
  obtain ⟨n, ⟨a⟩⟩ := exists_answer length_hmacMd5 length_md5 hc (by decide)
    (fun flags => (length_names flags).1) (fun flags => (length_names flags).2) (fun _ => 0) [1, 2]
  obtain ⟨interface, _, hfrom, hseq, hseq', _⟩ := @accept_of_answer _ some _ _ _ _ _ _ hy.toFollowsX690
    length_hmacMd5 _ n.run_createNegotiate a (by decide) (fun flags => (length_names flags).1)
    fun flags => (length_names flags).2
  obtain ⟨reply, interface', hconfirm⟩ := @Server.exists_confirm _ hmac8 der _ hseq' [2, 2]
  obtain ⟨hread, hread'⟩ := read_messages hconfirm []
  obtain ⟨_, _, _, hreturns, _⟩ := @run_with_server _ _ _ _ _ hy.toFollowsX690 hmac8 false _ _ _ _ _ hfrom hseq
    hseq' (link reply) _ _ _ _ (presents reply) rfl hread hconfirm hread'
  obtain ⟨_, t, hrun, _⟩ := hreturns (by decide)
  obtain ⟨reply', left'', challengeMessage, publicKey, first, second, third, interface'', hreply, hchallenge,
    hpresents, hsent, haccept, hreceive⟩ := csspConnect_delegates hy length_hmacMd5
      (fun flags => (length_names flags).1) (fun flags => (length_names flags).2) hrun
  cases hread.symm.trans hreply
  cases (readTsServerChallenge_createTsRequest hy.toFollowsX690 _).symm.trans hchallenge
  obtain ⟨_, _, hpeer, hder, hparse⟩ := hpresents
  cases hpeer
  cases hder
  cases hparse
  exact ⟨reply, t, first, second, third, interface'', hrun, hsent, haccept [1, 2], hreceive⟩

end Cssp

end Rdp
