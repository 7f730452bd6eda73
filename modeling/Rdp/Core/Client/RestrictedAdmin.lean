import Rdp.Core.Client.Authenticating
import Rdp.Lib.Same

/-!
This module contains what the restricted admin mode promises: of the password, nothing but its hash
has an influence on the connection.
-/

namespace Rdp

open Prog
open Nla (Hashes Rng)

namespace Cssp

variable {σ τ : Type}

/--
An authentication protocol whose messages and security interface do not tell related states apart.
-/
structure Respects (Q : σ → σ → Prop) (auth : AuthenticationProtocol σ τ) : Prop where
  createNegotiateMessage : Same Q auth.createNegotiateMessage
  readChallengeMessage : ∀ request, Same Q (auth.readChallengeMessage request)
  buildSecurityInterface : ∀ s t, Q s t → auth.buildSecurityInterface s = auth.buildSecurityInterface t

def SameLink (Q : σ → σ → Prop) (s t : Link × σ) : Prop := s.1 = t.1 ∧ Q s.2 t.2

section

variable {Q : σ → σ → Prop}

theorem same_onLink (x : Prog Error Link α) : Same (SameLink Q) (onLink x) := by
  apply Same.zoom (Same.of_eq x)
  . exact fun _ _ h => h.1
  . exact fun _ _ _ _ h hlink => ⟨hlink, h.2⟩

theorem same_onAuth {x : Prog Error σ α} (hx : Same Q x) : Same (SameLink Q) (onAuth x) := by
  apply Same.zoom hx
  . exact fun _ _ h => h.2
  . exact fun _ _ _ _ h hauth => ⟨h.1, hauth⟩

variable {auth : AuthenticationProtocol σ τ} (h : Respects Q auth) (der : Der)

include h

theorem same_sendNegotiate : Same (SameLink Q) (sendNegotiate der auth) := by
  apply (same_onAuth h.createNegotiateMessage).bind
  intro nego
  apply same_onLink

theorem same_receiveChallenge : Same (SameLink Q) (receiveChallenge der auth) := by
  apply (same_onLink _).bind
  intro reply
  apply (Same.lift _).bind
  intro serverChallenge
  exact same_onAuth (h.readChallengeMessage serverChallenge)

omit h in
theorem same_getPublicKey : Same (SameLink Q) (getPublicKey der) := by
  apply (same_onLink _).bind
  intro certificate
  cases certificate with
  | none => exact Same.throw _
  | some certificate =>
    apply (Same.lift _).bind
    intro certificateDer
    apply Same.lift

theorem same_sendAuthenticate : Same (SameLink Q) (sendAuthenticate der auth) := by
  apply (same_receiveChallenge h der).bind
  intro clientChallenge
  -- the security interface is all that is taken out of the state
  apply Same.get_bind
  . intro s t hst
    rw [h.buildSecurityInterface _ _ hst.2]
  intro s
  apply (Same.lift _).bind
  intro securityInterface
  apply (same_getPublicKey der).bind
  intro publicKey
  apply (Same.on _ _).bind
  intro wrapped
  apply (same_onLink _).bind
  intro _
  apply Same.pure

omit h in
theorem same_checkPublicKey (securityInterface : τ) (publicKey : Bytes) :
    Same (SameLink Q) (checkPublicKey der auth securityInterface publicKey) := by
  apply (same_onLink _).bind
  intro reply
  apply (Same.lift _).bind
  intro pubKeyAuth
  apply (Same.on _ _).bind
  intro unwrapped
  simp only
  split
  . exact Same.throw _
  . exact Same.pure _

omit h in
theorem same_sendCredentials (securityInterface : τ) :
    Same (SameLink Q) (sendCredentials der auth true securityInterface) := by
  apply Same.get_bind (fun _ _ _ => rfl)
  intro _
  apply (Same.on _ _).bind
  intro authInfo
  apply same_onLink

theorem same_csspConnect : Same (SameLink Q) (csspConnect der auth true) := by
  apply (same_sendNegotiate h der).bind
  intro _
  apply (same_sendAuthenticate h der).bind
  intro sent
  apply (same_checkPublicKey der _ _).bind
  intro securityInterface
  exact same_sendCredentials der securityInterface

end

end Cssp

namespace X224.Client

open Cssp

variable {σ τ : Type} {Q : σ → σ → Prop} {auth : AuthenticationProtocol σ τ}

theorem same_connect (h : Respects Q auth) (tls : Tls) (der : Der) (securityProtocols : UInt32)
    (checkCertificate blankCreds : Bool) :
    Same (SameLink Q)
      (connect tls der securityProtocols checkCertificate (some auth) true blankCreds) := by
  apply (same_onLink _).bind
  intro _
  apply (same_onLink _).bind
  intro protocol
  cases protocol with
  | protocolHybrid =>
    have hnla : Same (SameLink Q)
        (Tpkt.Client.startNla tls der checkCertificate (some auth) true) := by
      apply (same_onLink _).bind
      intro _
      exact same_csspConnect h der
    apply hnla.bind
    intro _
    apply Same.pure
  | protocolSSL =>
    apply (same_onLink _).bind
    intro _
    apply Same.pure
  | protocolRDP => exact Same.pure _
  | protocolHybridEx => exact Same.throw _

end X224.Client

namespace Ntlm

/--
Two states of the protocol that differ in the password only, with the same random numbers.
-/
def SameButPassword (s t : Ntlm × Rng) : Prop :=
  s.1 = { t.1 with password := s.1.password } ∧ s.2 = t.2

namespace SameButPassword

variable {s t : Ntlm × Rng}

theorem modifySelf {f : Ntlm → Ntlm} (hf : ∀ (n : Ntlm) (p : String),
    f { n with password := p } = { f n with password := p }) (hpassword : ∀ n, (f n).password = n.password) :
    Same SameButPassword (Ntlm.modifySelf f) := by
  apply Same.modify
  rintro ⟨n, rng⟩ ⟨n', rng'⟩ ⟨hn, hrng⟩
  refine ⟨?_, hrng⟩
  simp only at hn ⊢
  rw [hpassword]
  conv_lhs => rw [hn]
  exact hf _ _

theorem random (n : Nat) : Same SameButPassword (Ntlm.random n) := by
  rintro ⟨n, rng⟩ ⟨n', rng'⟩ ⟨hn, hrng⟩
  cases hrng
  exact .ok ⟨rfl, hn, rfl⟩

theorem eq_of_password {α : Type} {f : Ntlm × Rng → α}
    (hf : ∀ n p rng, f ({ n with password := p }, rng) = f (n, rng)) (h : SameButPassword s t) : f s = f t := by
  -- What does not look at the password is the same for both states.
  obtain ⟨n, rng⟩ := s
  obtain ⟨n', rng'⟩ := t
  obtain ⟨hn, hrng⟩ := h
  simp only at hn hrng
  rw [hrng, hn, hf]

end SameButPassword

theorem same_createNegotiateMessage : Same SameButPassword createNegotiateMessage := by
  apply (Same.lift _).bind
  intro buffer
  refine Same.bind (SameButPassword.modifySelf (fun _ _ => rfl) (fun _ => rfl)) ?_
  intro _
  apply Same.pure

theorem same_readChallengeMessage (hashes : Hashes) (request : Bytes) :
    Same SameButPassword (readChallengeMessage hashes request) := by
  apply (Same.lift _).bind
  intro challenge
  apply (SameButPassword.random 8).bind
  intro clientChallenge
  apply Same.get_bind (fun s t => SameButPassword.eq_of_password fun _ _ _ => rfl)
  intro s
  apply (SameButPassword.random 16).bind
  intro exportedSessionKey
  refine Same.bind (SameButPassword.modifySelf (fun _ _ => rfl) (fun _ => rfl)) ?_
  intro _
  apply (Same.lift _).bind
  intro encryptedRandomSessionKey
  refine Same.bind (SameButPassword.modifySelf (fun _ _ => rfl) (fun _ => rfl)) ?_
  intro _
  apply Same.get_bind (fun s t => SameButPassword.eq_of_password fun _ _ _ => rfl)
  intro s
  -- from here on the message is put together from what was read of the state
  apply (Same.lift _).bind
  intro fields
  apply (Same.lift _).bind
  intro header
  apply (Same.lift _).bind
  intro tmp
  apply (Same.lift _).bind
  intro negotiateMessage
  apply Same.lift

theorem respects_authenticationProtocol (hashes : Hashes) :
    Cssp.Respects SameButPassword (authenticationProtocol hashes) where
  createNegotiateMessage := same_createNegotiateMessage
  readChallengeMessage := same_readChallengeMessage hashes
  buildSecurityInterface _ _ := SameButPassword.eq_of_password fun _ _ _ => rfl

end Ntlm

namespace Connector

section Password

variable {a b : Connector} (env : Env)

/--
Two configurations that differ in the password only, which has the same hash where no other hash is
given.
-/
structure SameHash (hashes : Hashes) (a b : Connector) : Prop where
  rest_eq : a = { b with password := a.password }
  hash_eq : a.passwordHash = none →
    hashes.md4 (Nla.unicode a.password) = hashes.md4 (Nla.unicode b.password)

theorem SameHash.authentication {hashes : Hashes} (h : SameHash hashes a b) (rng : Rng) :
    Ntlm.SameButPassword (a.authentication hashes, rng) (b.authentication hashes, rng) := by
  have heq := h.rest_eq
  have hhash := h.hash_eq
  generalize a.password = password at heq hhash
  subst heq
  cases hpassword : b.passwordHash with
  | some hash =>
    simp only [Connector.authentication, hpassword]
    exact ⟨rfl, rfl⟩
  | none =>
    simp only [Connector.authentication, hpassword]
    refine ⟨?_, rfl⟩
    simp only [Ntlm.new, Nla.ntowfv2, Nla.lmowfv2, hhash hpassword]

theorem run_connectX224 (hadmin : b.restrictedAdminMode = true) (h : SameHash env.hashes a b)
    (s : Link × Rng) : (a.connectX224 env).run s = (b.connectX224 env).run s := by
  have hsame := X224.Client.same_connect (Ntlm.respects_authenticationProtocol env.hashes) env.tls
    env.der b.protocols b.checkCertificate b.blankCreds
  have hrelated := hsame (s.1, a.authentication env.hashes, s.2)
    (s.1, b.authentication env.hashes, s.2) ⟨rfl, h.authentication s.2⟩
  have ha : a.connectX224 env = Prog.zoom
      (fun s => (s.1, a.authentication env.hashes, s.2)) (fun t _ => (t.1, t.2.2))
      (X224.Client.connect env.tls env.der b.protocols b.checkCertificate
        (some (Ntlm.authenticationProtocol env.hashes)) true b.blankCreds) := by
    rw [connectX224, h.rest_eq, ← hadmin]
    rfl
  rw [ha, connectX224, hadmin]
  simp only [run_zoom]
  generalize EStateM.run _ (s.1, a.authentication env.hashes, s.2) = r at hrelated ⊢
  generalize EStateM.run _ (s.1, b.authentication env.hashes, s.2) = r' at hrelated ⊢
  cases hrelated with
  | ok h =>
    obtain ⟨rfl, hlink, hauth⟩ := h
    simp only [hlink, hauth.2]
  | error h =>
    obtain ⟨hlink, hauth⟩ := h
    simp only [hlink, hauth.2]

/--
In the restricted admin mode the two connections are the same run: what is handed to the link, in
whatever way it fails, the random numbers that are drawn, and the client that is returned.
-/
theorem connect_restrictedAdmin (hadmin : b.restrictedAdminMode = true)
    (h : SameHash env.hashes a b) (s : Link × Rng) :
    (a.connect env).run s = (b.connect env).run s := by
  have hmcs : a.connectMcs env = b.connectMcs env := by
    funext selectedProtocol
    rw [connectMcs, h.rest_eq, connectMcs, connectSec, connectSec]
    simp only [hadmin, if_true]
  have hglobal : a.globalClient = b.globalClient := by
    rw [h.rest_eq]
    rfl
  rw [connect, connect, EStateM.run_bind, EStateM.run_bind, run_connectX224 env hadmin h, hmcs, hglobal]

end Password

def withHash (password : String) : Connector :=
  { Connector.new with
    restrictedAdminMode := true
    domain := "domain"
    username := "user"
    password := password
    passwordHash := some [1, 2, 3] }

open Authenticated Cssp.Delegation NTLMv2SecurityInterface in
/--
Two pass-the-hash connections with different passwords beside the hash, to a server that knows the hash.
-/
theorem connect_restrictedAdmin_hash :
    ∃ reply first second third t interface interface',
      Cssp.Server.accept Duplex.hashes der
        ⟨((withHash "foo").authentication Duplex.hashes).responseKeyNt, [1, 2], Ntlm.Agrees.request⟩ first second =
          some interface ∧
      ((withHash "foo").connectX224 (env reply)).run (⟨.raw socket, []⟩, fun _ => 0) = .ok .protocolHybrid t ∧
      t.1.sent = [X224.Client.request 3 1, first, second, third] ∧
      Cssp.Server.receive Duplex.hashes der third interface' = some ([], [], []) ∧
      ((withHash "foo").connect (env reply)).run (⟨.raw socket, []⟩, fun _ => 0) =
        ((withHash "bar").connect (env reply)).run (⟨.raw socket, []⟩, fun _ => 0) := by
  obtain ⟨c, hc⟩ := exists_readChallenge
  have hnames (flags : UInt32) := @length_names_of (((withHash "foo").authentication Duplex.hashes).talking flags)
    rfl rfl
  obtain ⟨first, second, interface, haccept, hanswers, hruns⟩ :=
    @exists_run_connectX224 (withHash "foo") _ Standard.distinguished some Duplex.hashes
      Standard.followsDer.toFollowsX690 length_hmacMd5 length_md5 (fun flags => (hnames flags).1)
      (fun flags => (hnames flags).2) _ hc (by decide) (fun _ => 0) [1, 2]
  obtain ⟨reply, interface', hconfirm⟩ := hanswers [2, 2]
  obtain ⟨third, t, hrun, hsent, hreceive, _⟩ := hruns (tls reply) Admitted.libraries.place socket [2, 2] reply
    interface' (authenticating (withHash "foo") hconfirm) hconfirm (by decide)
  have hsame : SameHash (env reply).hashes (withHash "foo") (withHash "bar") := ⟨rfl, fun h => nomatch h⟩
  exact ⟨reply, first, second, third, t, interface, interface', haccept [1, 2], hrun, hsent, hreceive,
    connect_restrictedAdmin (env reply) rfl hsame _⟩

end Connector

end Rdp
