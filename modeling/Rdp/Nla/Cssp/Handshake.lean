import Rdp.Nla.Cssp.Release

/-!
This module contains the runs of the CSSP handshake that return: what they have to show, and that they
return when they have it.
-/

namespace Rdp

namespace Link

/--
The peer shows a certificate with this public key.
-/
def Presents (der : Der) (publicKey : Bytes) (link : Link) : Prop :=
  ∃ certificate certificateDer, link.peer = some (.ok (some certificate)) ∧
    certificate.toDer = .ok certificateDer ∧ der.parseX509Der certificateDer = some publicKey

theorem run_getPeerCertificate_of_peer {link : Link} {certificate : Option Certificate}
    (h : link.peer = some (.ok certificate)) : getPeerCertificate.run link = .ok certificate link := by
  obtain ⟨stream, sent⟩ := link
  cases stream with
  | ssl stream =>
    change (Prog.lift stream.peerCertificate).run _ = _
    rw [Option.some.inj h]
    rfl
  | raw socket => cases h

end Link

namespace Cssp

variable {σ τ : Type} {der : Der} {auth : AuthenticationProtocol σ τ} {restrictedAdminMode : Bool}

theorem run_onAuth {x : Prog Error σ α} {a : α} {s t : σ} (h : x.run s = .ok a t) (link : Link) :
    (onAuth x).run (link, s) = .ok a (link, t) := by
  rw [onAuth, Prog.run_zoom, h]

theorem run_onLink {x : Prog Error Link α} {a : α} {link link' : Link} (h : x.run link = .ok a link') (s : σ) :
    (onLink x).run (link, s) = .ok a (link', s) := by
  rw [onLink, Prog.run_zoom, h]

theorem run_writeVec_of_nil (bytes : Bytes) {link : Link} (hwrites : link.writes = []) (s : σ) :
    ∃ link', (writeVec bytes).run (link, s) = .ok () (link', s) ∧ Link.Sends [bytes] link link' ∧
      link'.reads = link.reads ∧ link'.writes = [] := by
  obtain ⟨link', hrun, hreads, hnil⟩ := Link.run_write_of_nil (m := .leaf (.bytes bytes)) rfl hwrites
  exact ⟨link', run_onLink hrun s, (Link.run_write_sends rfl hrun).1, hreads, hnil⟩

theorem run_getPublicKey_of_presents {link : Link} {publicKey : Bytes} (h : link.Presents der publicKey)
    (s : σ) : (getPublicKey der).run (link, s) = .ok publicKey (link, s) := by
  obtain ⟨certificate, certificateDer, hpeer, hder, hparse⟩ := h
  have hcertificate := run_onLink (Link.run_getPeerCertificate_of_peer hpeer) s
  rw [getPublicKey, Prog.run_bind_of_ok hcertificate]
  dsimp only
  rw [hder, Prog.lift_ok, pure_bind, readPublicCertificate, hparse]
  rfl

theorem run_getPublicKey_eq_ok {publicKey : Bytes} {s t : Link × σ}
    (h : (getPublicKey der).run s = .ok publicKey t) : s.1.Presents der publicKey ∧ t = s := by
  obtain ⟨certificate, certificateDer, hpeer, hder, hparse, ht⟩ := run_getPublicKey der h
  exact ⟨⟨certificate, certificateDer, hpeer, hder, hparse⟩, ht⟩

/--
The answer to a challenge, and the public key wrapped with the keys that come out of it.
-/
structure Answer (auth : AuthenticationProtocol σ τ) (challenge publicKey : Bytes) (s : σ) where
  message : Bytes
  state : σ
  securityInterface : τ
  pubKeyAuth : Bytes
  securityInterface' : τ
  run_readChallenge : (auth.readChallengeMessage challenge).run s = .ok message state
  build : auth.buildSecurityInterface state = .ok securityInterface
  wrap : (auth.gss.gssWrapex publicKey).run securityInterface = .ok pubKeyAuth securityInterface'

def Answer.request {challenge publicKey : Bytes} {s : σ} (der : Der) (a : Answer auth challenge publicKey s) :
    Bytes :=
  createTsAuthenticate der a.message a.pubKeyAuth

/--
What a run has to show that returns.
-/
structure Handshake (der : Der) (auth : AuthenticationProtocol σ τ) (restrictedAdminMode : Bool) (link : Link)
    (s : σ) where
  negotiated : Negotiated auth s
  reply : Bytes
  left : List Arrival
  challenge : Bytes
  publicKey : Bytes
  answer : Answer auth challenge publicKey negotiated.state
  validation : Bytes
  left' : List Arrival
  pubKeyAuth : Bytes
  incPubKey : Bytes
  securityInterface : τ
  wrapped : Wrapped der auth restrictedAdminMode securityInterface answer.state
  read_reply : Arrival.read 1500 link.reads = (.ok reply, left)
  read_challenge : readTsServerChallenge der reply = .ok challenge
  presents : link.Presents der publicKey
  read_validation : Arrival.read 1500 left = (.ok validation, left')
  read_validate : readTsValidate der validation = .ok pubKeyAuth
  unwrap : (auth.gss.gssUnwrapex pubKeyAuth).run answer.securityInterface' = .ok incPubKey securityInterface
  check : leNat incPubKey = leNat publicKey + 1

def Handshake.messages {link : Link} {s : σ} (h : Handshake der auth restrictedAdminMode link s) : List Bytes :=
  [h.negotiated.message der, h.answer.request der, h.wrapped.message der]

section Returned

variable {s t : Link × σ}

theorem negotiated_of_run (h : (sendNegotiate der auth).run s = .ok () t) :
    ∃ n : Negotiated auth s.2, t.2 = n.state ∧ Link.Sends [n.message der] s.1 t.1 ∧ t.1.reads = s.1.reads := by
  obtain ⟨nego, s₁, hnego, hwrite⟩ := Prog.run_bind_eq_ok h
  obtain ⟨hnego, hlink⟩ := run_onAuth_eq_ok hnego
  obtain ⟨hsends, hreads, hstate⟩ := run_writeVec hwrite
  rw [hlink] at hsends hreads
  exact ⟨⟨nego, s₁.2, hnego⟩, hstate, hsends, hreads⟩

theorem answer_of_run {securityInterface : τ} {publicKey : Bytes}
    (h : (sendAuthenticate der auth).run s = .ok (securityInterface, publicKey) t) :
    ∃ (reply challenge : Bytes) (a : Answer auth challenge publicKey s.2),
      Arrival.read 1500 s.1.reads = (.ok reply, t.1.reads) ∧
      readTsServerChallenge der reply = .ok challenge ∧ s.1.Presents der publicKey ∧
      securityInterface = a.securityInterface' ∧ t.2 = a.state ∧ Link.Sends [a.request der] s.1 t.1 := by
  obtain ⟨message, s₁, hreceive, h⟩ := Prog.run_bind_eq_ok h
  obtain ⟨reply, s₂, hread, hrest⟩ := Prog.run_bind_eq_ok hreceive
  obtain ⟨hread, hs₂⟩ := run_onLink_eq_ok hread
  obtain ⟨left, hreply, hlink⟩ := Link.run_read_zero_eq_ok hread
  obtain ⟨challenge, hchallenge, hrest⟩ := Prog.run_lift_bind_eq_ok hrest
  obtain ⟨hanswer, hs₁⟩ := run_onAuth_eq_ok hrest
  rw [hs₂] at hanswer
  have hquiet : Link.Sends [] s.1 s₁.1 := by
    rw [hs₁, hlink]
    exact ⟨(List.append_nil _).symm, Link.peer_withSocket _ _ _⟩
  have hreads : s₁.1.reads = left := by rw [hs₁, hlink, Link.reads_withReads]
  obtain ⟨built, hbuild, h₁⟩ := Prog.run_lift_bind_eq_ok (Prog.run_get_bind_eq_ok h)
  obtain ⟨key, s₃, hkey, h₂⟩ := Prog.run_bind_eq_ok h₁
  obtain ⟨hpresents, rfl⟩ := run_getPublicKey_eq_ok hkey
  obtain ⟨pubKeyAuth, built', hwrap, h₃⟩ := Prog.run_on_bind_eq_ok h₂
  obtain ⟨_, s₄, hwrite, hreturn⟩ := Prog.run_bind_eq_ok h₃
  obtain ⟨hsends, hreads', hstate⟩ := run_writeVec hwrite
  cases hreturn
  refine ⟨reply, challenge,
    ⟨message, s₃.2, built, pubKeyAuth, securityInterface, hanswer, hbuild, hwrap⟩, ?_, hchallenge,
    ?_, rfl, hstate, hquiet.trans hsends⟩
  . rw [hreads', hreads]
    exact hreply
  . unfold Link.Presents at hpresents ⊢
    rwa [hquiet.peer_eq] at hpresents

theorem checked_of_run {securityInterface securityInterface' : τ} {publicKey : Bytes}
    (h : (checkPublicKey der auth securityInterface publicKey).run s = .ok securityInterface' t) :
    ∃ (validation : Bytes) (left : List Arrival) (pubKeyAuth incPubKey : Bytes),
      Arrival.read 1500 s.1.reads = (.ok validation, left) ∧ readTsValidate der validation = .ok pubKeyAuth ∧
      (auth.gss.gssUnwrapex pubKeyAuth).run securityInterface = .ok incPubKey securityInterface' ∧
      leNat incPubKey = leNat publicKey + 1 ∧ t = (s.1.withReads left, s.2) := by
  obtain ⟨validation, s₁, hread, h⟩ := Prog.run_bind_eq_ok h
  obtain ⟨hread, hs₁⟩ := run_onLink_eq_ok hread
  obtain ⟨left, hvalidation, hlink⟩ := Link.run_read_zero_eq_ok hread
  obtain ⟨pubKeyAuth, hvalidate, h⟩ := Prog.run_lift_bind_eq_ok h
  obtain ⟨incPubKey, unwrapped, hunwrap, h⟩ := Prog.run_on_bind_eq_ok h
  simp only at h
  split at h
  next => cases h
  next hcheck =>
    cases h
    exact ⟨validation, left, pubKeyAuth, incPubKey, hvalidation, hvalidate, hunwrap, not_not.mp hcheck,
      Prod.ext hlink hs₁⟩

theorem wrapped_of_run {securityInterface : τ}
    (h : (sendCredentials der auth restrictedAdminMode securityInterface).run s = .ok () t) :
    ∃ w : Wrapped der auth restrictedAdminMode securityInterface s.2,
      t.2 = s.2 ∧ Link.Sends [w.message der] s.1 t.1 := by
  obtain ⟨authInfo, wrapped, hwrap, h⟩ := Prog.run_on_bind_eq_ok (Prog.run_get_bind_eq_ok h)
  obtain ⟨hsends, _, hstate⟩ := run_writeVec h
  exact ⟨⟨authInfo, wrapped, hwrap⟩, hstate, hsends⟩

theorem handshake_of_run {link : Link} {s : σ}
    (h : (csspConnect der auth restrictedAdminMode).run (link, s) = .ok () t) :
    ∃ handshake : Handshake der auth restrictedAdminMode link s,
      t.1.sent = link.sent ++ handshake.messages ∧ t.2 = handshake.answer.state := by
  obtain ⟨_, ⟨link₁, s₁⟩, hnegotiate, h⟩ := Prog.run_bind_eq_ok h
  obtain ⟨n, hn, hsends₁, hreads₁⟩ := negotiated_of_run hnegotiate
  cases hn
  obtain ⟨⟨securityInterface, publicKey⟩, ⟨link₂, s₂⟩, hauthenticate, h⟩ := Prog.run_bind_eq_ok h
  obtain ⟨reply, challenge, a, hreply, hchallenge, hpresents, rfl, ha, hsends₂⟩ := answer_of_run hauthenticate
  cases ha
  obtain ⟨securityInterface, s₃, hcheck, h⟩ := Prog.run_bind_eq_ok h
  obtain ⟨validation, left, pubKeyAuth, incPubKey, hvalidation, hvalidate, hunwrap, hchecked, rfl⟩ :=
    checked_of_run hcheck
  obtain ⟨w, ht, hsends₃⟩ := wrapped_of_run h
  have hread : Arrival.read 1500 link.reads = (.ok reply, link₂.reads) := hreads₁ ▸ hreply
  have hshows : link.Presents der publicKey := by
    unfold Link.Presents at hpresents ⊢
    rwa [hsends₁.peer_eq] at hpresents
  let handshake : Handshake der auth restrictedAdminMode link s := {
    negotiated := n
    reply, challenge, publicKey, validation, pubKeyAuth, incPubKey, securityInterface
    left := link₂.reads
    left' := left
    answer := a
    wrapped := w
    read_reply := hread
    read_challenge := hchallenge
    presents := hshows
    read_validation := hvalidation
    read_validate := hvalidate
    unwrap := hunwrap
    check := hchecked
  }
  have hquiet : Link.Sends [] link₂ (link₂.withReads left) :=
    ⟨(List.append_nil _).symm, Link.peer_withSocket _ _ _⟩
  exact ⟨handshake, (((hsends₁.trans hsends₂).trans hquiet).trans hsends₃).sent_eq, ht⟩

end Returned

section Returns

variable {link : Link} {s : σ}

theorem run_sendNegotiate (n : Negotiated auth s) (hwrites : link.writes = []) :
    ∃ link', (sendNegotiate der auth).run (link, s) = .ok () (link', n.state) ∧
      Link.Sends [n.message der] link link' ∧ link'.reads = link.reads ∧ link'.writes = [] := by
  obtain ⟨link', hwrite, hsends⟩ := run_writeVec_of_nil (n.message der) hwrites n.state
  refine ⟨link', ?_, hsends⟩
  rw [sendNegotiate, Prog.run_bind_of_ok (run_onAuth n.run_createNegotiate link)]
  exact hwrite

theorem run_sendAuthenticate {reply challenge publicKey : Bytes} {left : List Arrival}
    (a : Answer auth challenge publicKey s) (hread : Arrival.read 1500 link.reads = (.ok reply, left))
    (hchallenge : readTsServerChallenge der reply = .ok challenge) (hpresents : link.Presents der publicKey)
    (hwrites : link.writes = []) :
    ∃ link', (sendAuthenticate der auth).run (link, s) = .ok (a.securityInterface', publicKey) (link', a.state) ∧
      Link.Sends [a.request der] link link' ∧ link'.reads = left ∧ link'.writes = [] := by
  have hlink : (Link.read 0).run link = .ok reply (link.withReads left) := by
    rw [Link.run_read_zero, hread]
  have hreceive : (receiveChallenge der auth).run (link, s) = .ok a.message (link.withReads left, a.state) := by
    rw [receiveChallenge, Prog.run_bind_of_ok (run_onLink hlink s), hchallenge, Prog.lift_ok, pure_bind]
    exact run_onAuth a.run_readChallenge _
  have hshows : (link.withReads left).Presents der publicKey := by
    unfold Link.Presents at hpresents ⊢
    rwa [show (link.withReads left).peer = link.peer from Link.peer_withSocket _ _ _]
  have hwrites' : (link.withReads left).writes = [] := by rwa [Link.writes_withReads]
  obtain ⟨link', hwrite, hsends, hreads, hnil⟩ := run_writeVec_of_nil (a.request der) hwrites' a.state
  have hquiet : Link.Sends [] link (link.withReads left) :=
    ⟨(List.append_nil _).symm, Link.peer_withSocket _ _ _⟩
  refine ⟨link', ?_, hquiet.trans hsends, by rw [hreads, Link.reads_withReads], hnil⟩
  rw [sendAuthenticate, Prog.run_bind_of_ok hreceive, EStateM.run_bind, EStateM.run_get]
  dsimp only
  rw [a.build, Prog.lift_ok, pure_bind, Prog.run_bind_of_ok (run_getPublicKey_of_presents hshows a.state)]
  have hwrap : (Prog.on a.securityInterface (auth.gss.gssWrapex publicKey) :
      Prog Error (Link × σ) _).run (link.withReads left, a.state) =
        .ok (a.pubKeyAuth, a.securityInterface') (link.withReads left, a.state) := by
    rw [Prog.run_on, a.wrap]
  rw [Prog.run_bind_of_ok hwrap]
  dsimp only
  change (writeVec (a.request der) >>= _ : Prog Error (Link × σ) _).run _ = _
  rw [Prog.run_bind_of_ok hwrite]
  rfl

theorem run_checkPublicKey_of_read {securityInterface securityInterface' : τ}
    {publicKey validation pubKeyAuth incPubKey : Bytes} {left : List Arrival}
    (hread : Arrival.read 1500 link.reads = (.ok validation, left))
    (hvalidate : readTsValidate der validation = .ok pubKeyAuth)
    (hunwrap : (auth.gss.gssUnwrapex pubKeyAuth).run securityInterface = .ok incPubKey securityInterface') :
    (checkPublicKey der auth securityInterface publicKey).run (link, s) =
      if leNat incPubKey = leNat publicKey + 1 then
        .ok securityInterface' (link.withReads left, s)
      else
        .error (.error (.new .possibleMITM "Man in the middle detected")) (link.withReads left, s) := by
  have hlink : (Link.read 0).run link = .ok validation (link.withReads left) := by
    rw [Link.run_read_zero, hread]
  have hon : (Prog.on securityInterface (auth.gss.gssUnwrapex pubKeyAuth) : Prog Error (Link × σ) _).run
      (link.withReads left, s) = .ok (incPubKey, securityInterface') (link.withReads left, s) := by
    rw [Prog.run_on, hunwrap]
  rw [checkPublicKey, Prog.run_bind_of_ok (run_onLink hlink s), hvalidate, Prog.lift_ok, pure_bind,
    Prog.run_bind_of_ok hon]
  by_cases hcheck : leNat incPubKey = leNat publicKey + 1
  . simp only [hcheck, ne_eq, not_true_eq_false, if_false, if_true]
    rfl
  . simp only [hcheck, ne_eq, not_false_eq_true, if_false, if_true]
    rfl

theorem run_sendCredentials {securityInterface : τ}
    (w : Wrapped der auth restrictedAdminMode securityInterface s) (hwrites : link.writes = []) :
    ∃ link', (sendCredentials der auth restrictedAdminMode securityInterface).run (link, s) =
      .ok () (link', s) ∧ Link.Sends [w.message der] link link' ∧ link'.reads = link.reads ∧
        link'.writes = [] := by
  obtain ⟨link', hwrite, hsends⟩ := run_writeVec_of_nil (w.message der) hwrites s
  refine ⟨link', ?_, hsends⟩
  have hon : (Prog.on securityInterface (auth.gss.gssWrapex (createTsCredentials der
      (if restrictedAdminMode then [] else auth.getDomainName s)
      (if restrictedAdminMode then [] else auth.getUserName s)
      (if restrictedAdminMode then [] else auth.getPassword s))) : Prog Error (Link × σ) _).run (link, s) =
        .ok (w.authInfo, w.securityInterface') (link, s) := by
    rw [Prog.run_on, w.wrap]
  rw [sendCredentials, EStateM.run_bind, EStateM.run_get]
  dsimp only
  rw [Prog.run_bind_of_ok hon]
  exact hwrite

end Returns

end Cssp

end Rdp
