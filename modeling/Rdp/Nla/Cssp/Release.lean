import Rdp.Nla.Cssp.Impl
import Rdp.Model.Link.Receive

/-!
This module contains what a run of the CSSP handshake sends, and what it has checked before it sends
the credentials.
-/

namespace Rdp

namespace Link

def peer (link : Link) : Option (RdpResult (Option Certificate)) :=
  match link.stream with
  | .raw _ => none
  | .ssl stream => some stream.peerCertificate

/--
Messages that were sent between two states of a link to the same peer.
-/
structure Sends (messages : List Bytes) (link link' : Link) : Prop where
  sent_eq : link'.sent = link.sent ++ messages
  peer_eq : link'.peer = link.peer

theorem Sends.refl (link : Link) : Sends [] link link := ⟨by simp, rfl⟩

theorem Sends.trans {a b : List Bytes} {link link' link'' : Link} (h : Sends a link link')
    (h' : Sends b link' link'') : Sends (a ++ b) link link'' := by
  constructor
  . rw [h'.sent_eq, h.sent_eq, List.append_assoc]
  . rw [h'.peer_eq, h.peer_eq]

theorem peer_withSocket (link : Link) (socket : Socket) (sent : List Bytes) :
    peer ⟨link.stream.withSocket socket, sent⟩ = link.peer := by
  unfold peer
  cases link.stream <;> rfl

theorem moves_read (n : Nat) : Prog.Moves (Sends []) (read n) := by
  intro link
  cases n with
  | zero =>
    rw [run_read_zero]
    split <;>
      exact ⟨by simp [Prog.finalState, withReads], peer_withSocket _ _ _⟩
  | succ n =>
    rw [run_read_pos]
    split <;>
      exact ⟨by simp [Prog.finalState, withReads], peer_withSocket _ _ _⟩

theorem moves_write {m : Message} {buffer : Bytes} (h : m.write = .ok buffer) :
    Prog.Moves (Sends [buffer]) (write m) := by
  intro link
  rw [run_write h]
  split <;>
    exact ⟨rfl, peer_withSocket _ _ _⟩

theorem run_write_sends {m : Message} {buffer : Bytes} (h : m.write = .ok buffer) {link link' : Link}
    (hrun : (write m).run link = .ok () link') : Sends [buffer] link link' ∧ link'.reads = link.reads := by
  have hsends := moves_write h link
  rw [hrun] at hsends
  exact ⟨hsends, (writable_of_run_write h hrun).2⟩

theorem moves_getPeerCertificate : Prog.Moves (Sends []) getPeerCertificate := by
  rintro ⟨stream, sent⟩
  cases stream with
  | ssl stream =>
    change Sends [] _ (Prog.finalState ((Prog.lift stream.peerCertificate).run _))
    cases stream.peerCertificate <;> exact Sends.refl _
  | raw socket => exact Sends.refl _

theorem run_getPeerCertificate {link link' : Link} {certificate : Option Certificate}
    (h : getPeerCertificate.run link = .ok certificate link') :
    link.peer = some (.ok certificate) ∧ link' = link := by
  obtain ⟨stream, sent⟩ := link
  cases stream with
  | ssl stream =>
    change (Prog.lift stream.peerCertificate).run _ = _ at h
    obtain ⟨hpeer, rfl⟩ := Prog.run_lift_eq_ok h
    exact ⟨congrArg some hpeer, rfl⟩
  | raw socket => cases h

end Link

namespace Cssp

variable {σ τ : Type} (der : Der) (auth : AuthenticationProtocol σ τ)

/--
The first step: the authentication protocol gave its negotiate message.
-/
structure Negotiated (s : σ) where
  nego : Bytes
  state : σ
  run_createNegotiate : auth.createNegotiateMessage.run s = .ok nego state

/--
The second step: the first read of the link was the challenge of the server, which was answered, and
the public key of the certificate of the peer was wrapped. `left` is what the link still has to read.
-/
structure Authenticated (link : Link) (s : σ) where
  reply : Bytes
  left : List Arrival
  challenge : Bytes
  clientChallenge : Bytes
  state : σ
  securityInterface : τ
  certificate : Certificate
  certificateDer : Bytes
  publicKey : Bytes
  pubKeyAuth : Bytes
  securityInterface' : τ
  read_reply : Arrival.read 1500 link.reads = (.ok reply, left)
  read_challenge : readTsServerChallenge der reply = .ok challenge
  run_readChallenge : (auth.readChallengeMessage challenge).run s = .ok clientChallenge state
  build : auth.buildSecurityInterface state = .ok securityInterface
  peer_eq : link.peer = some (.ok (some certificate))
  toDer : certificate.toDer = .ok certificateDer
  parse : der.parseX509Der certificateDer = some publicKey
  wrap : (auth.gss.gssWrapex publicKey).run securityInterface = .ok pubKeyAuth securityInterface'

/--
The check against a man in the middle: the next read was a reply of the server that was accepted by
the security interface and is the public key plus one.
-/
structure Checked (reads : List Arrival) (securityInterface : τ) (publicKey : Bytes) where
  reply : Bytes
  left : List Arrival
  pubKeyAuth : Bytes
  incPubKey : Bytes
  securityInterface' : τ
  read_reply : Arrival.read 1500 reads = (.ok reply, left)
  read_validate : readTsValidate der reply = .ok pubKeyAuth
  unwrap : (auth.gss.gssUnwrapex pubKeyAuth).run securityInterface =
    .ok incPubKey securityInterface'
  check : leNat incPubKey = leNat publicKey + 1

/--
The last step: the credentials were wrapped. In the restricted admin mode they are empty.
-/
structure Wrapped (restrictedAdminMode : Bool) (securityInterface : τ) (s : σ) where
  authInfo : Bytes
  securityInterface' : τ
  wrap : (auth.gss.gssWrapex (createTsCredentials der
      (if restrictedAdminMode then [] else auth.getDomainName s)
      (if restrictedAdminMode then [] else auth.getUserName s)
      (if restrictedAdminMode then [] else auth.getPassword s))).run securityInterface =
    .ok authInfo securityInterface'

variable {auth}

def Wrapped.message {restrictedAdminMode : Bool} {securityInterface : τ} {s : σ}
    (w : Wrapped der auth restrictedAdminMode securityInterface s) : Bytes :=
  createTsAuthinfo der w.authInfo

def Negotiated.message {s : σ} (n : Negotiated auth s) : Bytes := createTsRequest der n.nego

def Authenticated.message {link : Link} {s : σ} (a : Authenticated der auth link s) : Bytes :=
  createTsAuthenticate der a.clientChallenge a.pubKeyAuth

theorem moves_onLink {messages : List Bytes} {x : Prog Error Link α}
    (h : Prog.Moves (Link.Sends messages) x) :
    Prog.Moves (fun s s' => Link.Sends messages s.1 s'.1 ∧ s'.2 = s.2)
      (onLink x : Prog Error (Link × σ) α) :=
  h.zoom fun _ _ h => ⟨h, rfl⟩

theorem moves_onAuth (x : Prog Error σ α) :
    Prog.Moves (fun s s' => Link.Sends [] s.1 s'.1) (onAuth x : Prog Error (Link × σ) α) := by
  intro s
  unfold onAuth
  rw [Prog.run_zoom]
  split <;> exact Link.Sends.refl s.1

theorem moves_writeVec (bytes : Bytes) :
    Prog.Moves (fun s s' => Link.Sends [bytes] s.1 s'.1 ∧ s'.2 = s.2)
      (writeVec bytes : Prog Error (Link × σ) Unit) :=
  moves_onLink (Link.moves_write rfl)

theorem run_onAuth_eq_ok {x : Prog Error σ α} {a : α} {s t : Link × σ}
    (h : (onAuth x).run s = .ok a t) : x.run s.2 = .ok a t.2 ∧ t.1 = s.1 := by
  obtain ⟨u, hrun, rfl⟩ := Prog.run_zoom_eq_ok h
  exact ⟨hrun, rfl⟩

theorem run_onLink_eq_ok {x : Prog Error Link α} {a : α} {s t : Link × σ}
    (h : (onLink x).run s = .ok a t) : x.run s.1 = .ok a t.1 ∧ t.2 = s.2 := by
  obtain ⟨u, hrun, rfl⟩ := Prog.run_zoom_eq_ok h
  exact ⟨hrun, rfl⟩

theorem run_writeVec {bytes : Bytes} {s t : Link × σ} (h : (writeVec bytes).run s = .ok () t) :
    Link.Sends [bytes] s.1 t.1 ∧ t.1.reads = s.1.reads ∧ t.2 = s.2 := by
  obtain ⟨hrun, hstate⟩ := run_onLink_eq_ok h
  obtain ⟨hsends, hreads⟩ := Link.run_write_sends rfl hrun
  exact ⟨hsends, hreads, hstate⟩

/--
How a step ends that sends at most one message, and sends it only with a `p : P` to show.
-/
inductive Step {P : Type} (message : P → Bytes) (Q : P → α → Link × σ → Prop) (link : Link) :
    EStateM.Result (Fault Error) (Link × σ) α → Prop where
  | stopped {e t} (h : Link.Sends [] link t.1) : Step message Q link (.error e t)
  | sent {e t} (p : P) (h : Link.Sends [message p] link t.1) : Step message Q link (.error e t)
  | passed {a t} (p : P) (h : Link.Sends [message p] link t.1) (hQ : Q p a t) :
    Step message Q link (.ok a t)

section Step

variable {P : Type} {message : P → Bytes} {Q : P → α → Link × σ → Prop} {link : Link} {s : Link × σ}

theorem Step.bind {x : Prog Error (Link × σ) β} {f : β → Prog Error (Link × σ) α}
    (hs : Link.Sends [] link s.1)
    (hx : Prog.Moves (fun s t => Link.Sends [] s.1 t.1) x)
    (hf : ∀ b t, x.run s = .ok b t → Link.Sends [] link t.1 → Step message Q link ((f b).run t)) :
    Step message Q link ((x >>= f).run s) := by
  have hmove := hs.trans (hx s)
  rw [EStateM.run_bind]
  cases hrun : x.run s with
  | ok b t =>
    rw [hrun] at hmove
    exact hf b t hrun hmove
  | error e t =>
    rw [hrun] at hmove
    exact .stopped hmove

theorem Step.write {Q : P → Unit → Link × σ → Prop} (p : P) (hs : Link.Sends [] link s.1)
    (hQ : ∀ t : Link × σ, t.1.reads = s.1.reads → t.2 = s.2 → Q p () t) :
    Step message Q link ((writeVec (message p) : Prog Error (Link × σ) Unit).run s) := by
  have hmove := hs.trans (moves_writeVec (message p) s).1
  cases hrun : (writeVec (message p)).run s with
  | ok _ t =>
    rw [hrun] at hmove
    obtain ⟨_, hreads, hstate⟩ := run_writeVec hrun
    exact .passed p hmove (hQ t hreads hstate)
  | error e t =>
    rw [hrun] at hmove
    exact .sent p hmove

theorem Step.andReturn {x : Prog Error (Link × σ) Unit} (a : α)
    (h : Step message (fun p _ t => Q p a t) link (x.run s)) :
    Step message Q link ((do x; return a).run s) := by
  rw [EStateM.run_bind]
  generalize x.run s = r at h
  cases h with
  | stopped h => exact .stopped h
  | sent p h => exact .sent p h
  | passed p h hQ => exact .passed p h hQ

end Step

abbrev Quiet (s t : Link × σ) : Prop := Link.Sends [] s.1 t.1

instance : IsPreorder (Link × σ) Quiet where
  refl s := Link.Sends.refl s.1
  trans _ _ _ h h' := h.trans h'

theorem quiet_read (n : Nat) :
    Prog.Moves Quiet (onLink (Link.read n) : Prog Error (Link × σ) Bytes) :=
  (moves_onLink (Link.moves_read n)).imp fun _ _ h => h.1

theorem quiet_getPublicKey : Prog.Moves Quiet (getPublicKey der : Prog Error (Link × σ) Bytes) := by
  apply Prog.Moves.bind
  . exact (moves_onLink Link.moves_getPeerCertificate).imp fun _ _ h => h.1
  . intro certificate
    cases certificate with
    | none => apply Prog.Moves.throw
    | some certificate =>
      apply Prog.Moves.bind
      . apply Prog.Moves.lift
      . intro certificateDer
        apply Prog.Moves.lift

theorem run_getPublicKey {publicKey : Bytes} {s t : Link × σ}
    (h : (getPublicKey der).run s = .ok publicKey t) :
    ∃ certificate certificateDer, s.1.peer = some (.ok (some certificate)) ∧
      certificate.toDer = .ok certificateDer ∧ der.parseX509Der certificateDer = some publicKey ∧
      t = s := by
  obtain ⟨certificate, s₁, hget, h⟩ := Prog.run_bind_eq_ok h
  obtain ⟨hcertificate, hstate⟩ := run_onLink_eq_ok hget
  obtain ⟨hpeer, hlink⟩ := Link.run_getPeerCertificate hcertificate
  cases certificate with
  | none => cases h
  | some certificate =>
    obtain ⟨certificateDer, s₂, hder, hrest⟩ := Prog.run_bind_eq_ok h
    obtain ⟨hencode, rfl⟩ := Prog.run_lift_eq_ok hder
    obtain ⟨hkey, rfl⟩ := Prog.run_lift_eq_ok hrest
    refine ⟨certificate, certificateDer, hpeer, hencode, ?_, Prod.ext hlink hstate⟩
    unfold readPublicCertificate at hkey
    split at hkey
    next key hparse =>
      cases hkey
      exact hparse
    next => cases hkey

theorem quiet_receiveChallenge : Prog.Moves Quiet (receiveChallenge der auth) := by
  apply Prog.Moves.bind (quiet_read 0)
  intro reply
  apply Prog.Moves.bind
  . apply Prog.Moves.lift
  . intro challenge
    apply moves_onAuth

theorem step_sendNegotiate (link : Link) (s : σ) :
    Step (fun n : Negotiated auth s => n.message der)
      (fun n _ t => t.1.reads = link.reads ∧ t.2 = n.state) link
      ((sendNegotiate der auth).run (link, s)) := by
  apply Step.bind (Link.Sends.refl link) (moves_onAuth _)
  intro nego t hrun hsends
  obtain ⟨hnego, hlink⟩ := run_onAuth_eq_ok hrun
  let n : Negotiated auth s := ⟨nego, t.2, hnego⟩
  refine Step.write n hsends ?_
  intro u hreads hstate
  rw [hlink] at hreads
  exact ⟨hreads, hstate⟩

theorem step_sendAuthenticate (link : Link) (s : σ) :
    Step (fun a : Authenticated der auth link s => a.message der)
      (fun a (r : τ × Bytes) t => r = (a.securityInterface', a.publicKey) ∧ t.1.reads = a.left ∧
        t.2 = a.state) link
      ((sendAuthenticate der auth).run (link, s)) := by
  apply Step.bind (Link.Sends.refl link) (quiet_receiveChallenge der)
  intro clientChallenge s₁ hrun hsends
  obtain ⟨reply, s₂, hread, hrest⟩ := Prog.run_bind_eq_ok hrun
  obtain ⟨challenge, s₃, hparse, hauth⟩ := Prog.run_bind_eq_ok hrest
  obtain ⟨hreply, hs₂⟩ := run_onLink_eq_ok hread
  obtain ⟨left, harrives, hlink⟩ := Link.run_read_zero_eq_ok hreply
  obtain ⟨hchallenge, rfl⟩ := Prog.run_lift_eq_ok hparse
  obtain ⟨hanswer, hs₃⟩ := run_onAuth_eq_ok hauth
  rw [hs₂] at hanswer
  have hleft : s₁.1.reads = left := by rw [hs₃, hlink, Link.reads_withReads]
  apply Step.bind hsends Prog.Moves.get
  intro _ _ hget _
  cases hget
  apply Step.bind hsends (Prog.Moves.lift _)
  intro securityInterface s₄ hbuild _
  obtain ⟨hbuild, rfl⟩ := Prog.run_lift_eq_ok hbuild
  apply Step.bind hsends (quiet_getPublicKey der)
  intro publicKey s₅ hkey hsends₅
  obtain ⟨certificate, certificateDer, hpeer, hder, hx509, rfl⟩ := run_getPublicKey der hkey
  apply Step.bind hsends₅ (Prog.Moves.on _ _)
  intro r s₆ hwrap _
  obtain ⟨hwrapex, rfl⟩ := Prog.run_on_eq_ok hwrap
  let a : Authenticated der auth link s := {
    reply, left, challenge, clientChallenge, securityInterface, certificate, certificateDer, publicKey
    state := s₆.2
    pubKeyAuth := r.1
    securityInterface' := r.2
    read_reply := harrives
    read_challenge := hchallenge
    run_readChallenge := hanswer
    build := hbuild
    peer_eq := hsends.peer_eq ▸ hpeer
    toDer := hder
    parse := hx509
    wrap := hwrapex
  }
  apply Step.andReturn
  refine Step.write a hsends₅ ?_
  exact fun t hreads hstate => ⟨rfl, hreads.trans hleft, hstate⟩

theorem quiet_checkPublicKey (securityInterface : τ) (publicKey : Bytes) :
    Prog.Moves Quiet (checkPublicKey der auth securityInterface publicKey) := by
  apply Prog.Moves.bind (quiet_read 0)
  intro reply
  refine Prog.Moves.bind (Prog.Moves.lift _) ?_
  intro pubKeyAuth
  refine Prog.Moves.bind (Prog.Moves.on _ _) ?_
  rintro ⟨incPubKey, securityInterface'⟩
  simp only
  split
  . apply Prog.Moves.throw
  . apply Prog.Moves.pure

theorem run_checkPublicKey {securityInterface securityInterface' : τ} {publicKey : Bytes}
    {s t : Link × σ} {reads : List Arrival} (hreads : s.1.reads = reads)
    (h : (checkPublicKey der auth securityInterface publicKey).run s = .ok securityInterface' t) :
    ∃ c : Checked der auth reads securityInterface publicKey,
      c.securityInterface' = securityInterface' ∧ t.2 = s.2 := by
  obtain ⟨reply, s₁, hread, hparse⟩ := Prog.run_bind_eq_ok h
  obtain ⟨pubKeyAuth, s₂, hvalidate, hunwrap⟩ := Prog.run_bind_eq_ok hparse
  obtain ⟨⟨incPubKey, securityInterface₁⟩, s₃, hon, hrest⟩ := Prog.run_bind_eq_ok hunwrap
  obtain ⟨hreply, hs₁⟩ := run_onLink_eq_ok hread
  obtain ⟨left, harrives, _⟩ := Link.run_read_zero_eq_ok hreply
  rw [hreads] at harrives
  obtain ⟨hpubKeyAuth, rfl⟩ := Prog.run_lift_eq_ok hvalidate
  obtain ⟨hunwrapex, rfl⟩ := Prog.run_on_eq_ok hon
  simp only at hrest
  split at hrest
  next => cases hrest
  next hcheck =>
    cases hrest
    let c : Checked der auth reads securityInterface publicKey := {
      reply, left, pubKeyAuth, incPubKey, securityInterface'
      read_reply := harrives
      read_validate := hpubKeyAuth
      unwrap := hunwrapex
      check := not_not.mp hcheck
    }
    exact ⟨c, rfl, hs₁⟩

variable (auth) in
/--
What was sent by a run that started with this link and this state of the authentication protocol,
and what the run has to show for it. The replies of the server are the first two reads of the link.
-/
inductive Released (restrictedAdminMode : Bool) (link : Link) (s : σ) : List Bytes → Prop where
  | nothing : Released restrictedAdminMode link s []
  | negotiated (n : Negotiated auth s) : Released restrictedAdminMode link s [n.message der]
  | authenticated (n : Negotiated auth s) (a : Authenticated der auth link n.state) :
    Released restrictedAdminMode link s [n.message der, a.message der]
  | credentials (n : Negotiated auth s) (a : Authenticated der auth link n.state)
    (c : Checked der auth a.left a.securityInterface' a.publicKey)
    (w : Wrapped der auth restrictedAdminMode c.securityInterface' a.state) :
    Released restrictedAdminMode link s
      [n.message der, a.message der, w.message der]

theorem Authenticated.exists_of_eq {link link' : Link} {s : σ} (a : Authenticated der auth link' s)
    (hreads : link'.reads = link.reads) (hpeer : link'.peer = link.peer) :
    ∃ b : Authenticated der auth link s, b.message der = a.message der ∧ b.left = a.left ∧
      b.securityInterface' = a.securityInterface' ∧ b.publicKey = a.publicKey ∧ b.state = a.state :=
  ⟨{ a with
      read_reply := hreads ▸ a.read_reply
      peer_eq := hpeer ▸ a.peer_eq }, rfl, rfl, rfl, rfl, rfl⟩

theorem step_sendCredentials (restrictedAdminMode : Bool) (securityInterface : τ) (link : Link)
    (s : σ) :
    Step (fun w : Wrapped der auth restrictedAdminMode securityInterface s => w.message der)
      (fun _ _ _ => True) link
      ((sendCredentials der auth restrictedAdminMode securityInterface).run (link, s)) := by
  apply Step.bind (Link.Sends.refl link) Prog.Moves.get
  intro _ _ hget _
  cases hget
  apply Step.bind (Link.Sends.refl link) (Prog.Moves.on _ _)
  intro r t hwrap hsends
  obtain ⟨hwrapex, rfl⟩ := Prog.run_on_eq_ok hwrap
  let w : Wrapped der auth restrictedAdminMode securityInterface s := ⟨r.1, r.2, hwrapex⟩
  exact Step.write w hsends fun _ _ _ => trivial

theorem releases_of_checked (restrictedAdminMode : Bool) {link : Link} {s : σ} (n : Negotiated auth s)
    (a : Authenticated der auth link n.state) (c : Checked der auth a.left a.securityInterface' a.publicKey)
    {link₃ : Link} (hsends : Link.Sends [n.message der, a.message der] link link₃) :
    ∃ messages, Released der auth restrictedAdminMode link s messages ∧
      (Prog.finalState ((sendCredentials der auth restrictedAdminMode c.securityInterface').run
        (link₃, a.state))).1.sent = link.sent ++ messages := by
  have hcredentials :=
    @step_sendCredentials σ τ der auth restrictedAdminMode c.securityInterface' link₃ a.state
  generalize (sendCredentials der auth restrictedAdminMode c.securityInterface').run
    (link₃, a.state) = r at hcredentials
  cases hcredentials with
  | stopped h => exact ⟨_, .authenticated n a, (hsends.trans h).sent_eq⟩
  | sent w h => exact ⟨_, .credentials n a c w, (hsends.trans h).sent_eq⟩
  | passed w h _ => exact ⟨_, .credentials n a c w, (hsends.trans h).sent_eq⟩

theorem releases_of_negotiated (restrictedAdminMode : Bool) {link link₁ : Link} {s : σ}
    (n : Negotiated auth s) (h₁ : Link.Sends [n.message der] link link₁) (hreads : link₁.reads = link.reads) :
    ∃ messages, Released der auth restrictedAdminMode link s messages ∧
      (Prog.finalState ((do
        let (securityInterface, publicKey) ← sendAuthenticate der auth
        let securityInterface ← checkPublicKey der auth securityInterface publicKey
        sendCredentials der auth restrictedAdminMode securityInterface).run
          (link₁, n.state))).1.sent = link.sent ++ messages := by
  have hauthenticate := @step_sendAuthenticate σ τ der auth link₁ n.state
  rw [EStateM.run_bind]
  generalize (sendAuthenticate der auth).run (link₁, n.state) = r at hauthenticate
  cases hauthenticate with
  | stopped h => exact ⟨_, .negotiated n, (h₁.trans h).sent_eq⟩
  | sent a h =>
    obtain ⟨b, hmessage, _⟩ := a.exists_of_eq der hreads h₁.peer_eq
    rw [← hmessage] at h
    exact ⟨_, .authenticated n b, (h₁.trans h).sent_eq⟩
  | @passed _ t a h₂ hstate =>
    obtain ⟨link₂, s₂⟩ := t
    obtain ⟨rfl, hleft, rfl⟩ := hstate
    obtain ⟨b, hmessage, hleft', hinterface, hkey, hb⟩ := a.exists_of_eq der hreads h₁.peer_eq
    rw [← hmessage] at h₂
    rw [← hinterface, ← hkey, ← hb]
    have hquiet := @quiet_checkPublicKey σ τ der auth b.securityInterface' b.publicKey
      (link₂, b.state)
    simp only [EStateM.run_bind]
    cases hrun : (checkPublicKey der auth b.securityInterface' b.publicKey).run
        (link₂, b.state) with
    | error e t =>
      rw [hrun] at hquiet
      exact ⟨_, .authenticated n b, ((h₁.trans h₂).trans hquiet).sent_eq⟩
    | ok securityInterface t =>
      rw [hrun] at hquiet
      -- the reply that is checked is the read behind the challenge
      have hreads₂ : (link₂, b.state).1.reads = b.left := hleft.trans hleft'.symm
      obtain ⟨c, rfl, hstate⟩ := run_checkPublicKey der hreads₂ hrun
      obtain ⟨link₃, s₃⟩ := t
      cases hstate
      exact releases_of_checked der restrictedAdminMode n b c ((h₁.trans h₂).trans hquiet)

/--
The credentials are sent by no other run than one whose second read was a reply of the server that the
security interface accepted, with the public key of the peer incremented by one in it. Every other run
has sent at most the first two messages, and the second one only as an answer to its first read.
-/
theorem csspConnect_releases (auth : AuthenticationProtocol σ τ) (restrictedAdminMode : Bool)
    (link : Link) (s : σ) :
    ∃ messages, Released der auth restrictedAdminMode link s messages ∧
      (Prog.finalState ((csspConnect der auth restrictedAdminMode).run (link, s))).1.sent =
        link.sent ++ messages := by
  unfold csspConnect
  have hnegotiate := @step_sendNegotiate σ τ der auth link s
  rw [EStateM.run_bind]
  generalize (sendNegotiate der auth).run (link, s) = r at hnegotiate
  cases hnegotiate with
  | stopped h => exact ⟨_, .nothing, h.sent_eq⟩
  | sent n h => exact ⟨_, .negotiated n, h.sent_eq⟩
  | @passed _ t n h hstate =>
    obtain ⟨link₁, s₁⟩ := t
    obtain ⟨hreads, rfl⟩ := hstate
    exact releases_of_negotiated der restrictedAdminMode n h hreads

end Cssp

end Rdp
