import Rdp.Core.Client.Connecting
import Rdp.Nla.Cssp.Delegation

/-!
This module contains the connection of a client that asks for NLA, from the raw socket on: the
negotiation, TLS, the handshake with a server that knows the response key of the user, and the layers
above.
-/

namespace Rdp

open Nla (Rng Hashes uint32At)

namespace X224.Client

theorem run_readConnectionConfirm_of_received {link : Link} {body : Bytes} {left : List Arrival} {v : UInt32}
    {p : Protocols} (hreceived : Tpkt.Received link.reads body left) (hselects : Selects body v)
    (hp : Protocols.tryFrom v = .ok p) : readConnectionConfirm.run link = .ok p (link.withReads left) := by
  have hread := Tpkt.Client.run_read_raw_iff.mpr ⟨left, hreceived, rfl⟩
  obtain ⟨m, rest, hm, hselected⟩ := reads_connectionPdu_iff.mpr ⟨v, hselects, hp⟩
  rw [readConnectionConfirm, Prog.run_bind_of_ok hread]
  change (Prog.on body (connectionPdu 14 0xE0 0 0 0 1 0 8 0).reader >>= _ :
    Prog Error Link Protocols).run _ = _
  rw [EStateM.run_bind, Prog.run_on, hm]
  simp only [hselected, Prog.run_lift_ok]

end X224.Client

open X224.Client (request)
open Cssp (createTsRequest leNat)

def Connector.mode (self : Connector) : UInt8 :=
  if self.restrictedAdminMode then X224.RequestMode.restrictedAdminModeRequired.toU8 else 0

/--
What the network brings to a client that asks for NLA: a connection confirm that selects it, a TLS stream
to a server with this public key, the challenge, and the answer to the public key of the client.
-/
structure Server.Authenticating (env : Env) (connector : Connector) (socket : Socket)
    (publicKey challengeMessage reply : Bytes) where
  body : Bytes
  behind : List Arrival
  stream : TlsStream
  challenged : List Arrival
  left : List Arrival
  writes_eq : socket.writes = []
  received : Tpkt.Received socket.reads body behind
  selects : X224.Selects body X224.Protocols.protocolHybrid.toU32
  build : env.tls.build connector.checkCertificate = .ok ()
  connect : env.tls.connect connector.checkCertificate
    ⟨behind, [], socket.received ++ request connector.protocols connector.mode⟩ = .ok stream
  stream_writes_eq : stream.socket.writes = []
  presents : (Link.mk (.ssl stream) []).Presents env.der publicKey
  challenges : Arrival.read 1500 stream.socket.reads = (.ok (createTsRequest env.der challengeMessage), challenged)
  replies : Arrival.read 1500 challenged = (.ok reply, left)

namespace Connector

section Connection

variable {env : Env} {self : Connector} {socket : Socket} {publicKey challengeMessage reply : Bytes} {rng : Rng}

def secured (self : Connector) (stream : TlsStream) : Link :=
  ⟨.ssl stream, [request self.protocols self.mode]⟩

theorem run_connectX224_of_cssp (server : Server.Authenticating env self socket publicKey challengeMessage reply)
    {t : Link × (Ntlm × Rng)}
    (h : (Cssp.csspConnect env.der (Ntlm.authenticationProtocol env.hashes)
      (self.restrictedAdminMode || self.blankCreds)).run
        (self.secured server.stream, (self.authentication env.hashes, rng)) = .ok () t) :
    (self.connectX224 env).run (⟨.raw socket, []⟩, rng) = .ok .protocolHybrid (t.1, t.2.2) := by
  obtain ⟨reads, writes, received⟩ := socket
  have hwrites : writes = [] := server.writes_eq
  subst hwrites
  let link : Link := ⟨.raw ⟨reads, [], received ++ request self.protocols self.mode⟩,
    [request self.protocols self.mode]⟩
  have hrequest : (X224.Client.writeConnectionRequest self.protocols (some self.mode)).run
      ⟨.raw ⟨reads, [], received⟩, []⟩ = .ok () link := by
    rw [X224.Client.run_writeConnectionRequest, Link.run_write (X224.Client.write_request _ _)]
    rfl
  have hconfirm : X224.Client.readConnectionConfirm.run link = .ok .protocolHybrid (link.withReads server.behind) :=
    X224.Client.run_readConnectionConfirm_of_received server.received server.selects rfl
  have hssl : (Link.startSsl env.tls self.checkCertificate).run (link.withReads server.behind) =
      .ok () (self.secured server.stream) := by
    have hconnect := server.connect
    rw [Link.startSsl, server.build, Prog.lift_ok, pure_bind, EStateM.run_bind, EStateM.run_get]
    change (Prog.lift (env.tls.connect self.checkCertificate
      ⟨server.behind, [], received ++ request self.protocols self.mode⟩) >>= _ : Prog Error Link Unit).run _ = _
    rw [hconnect]
    rfl
  have hnla : (Tpkt.Client.startNla env.tls env.der self.checkCertificate
      (some (Ntlm.authenticationProtocol env.hashes)) (self.restrictedAdminMode || self.blankCreds)).run
        (link.withReads server.behind, (self.authentication env.hashes, rng)) = .ok () t := by
    rw [Tpkt.Client.startNla, Prog.run_bind_of_ok (Cssp.run_onLink hssl _)]
    exact h
  have hx224 : (X224.Client.connect env.tls env.der self.protocols self.checkCertificate
      (some (Ntlm.authenticationProtocol env.hashes)) self.restrictedAdminMode self.blankCreds).run
        (⟨.raw ⟨reads, [], received⟩, []⟩, (self.authentication env.hashes, rng)) = .ok .protocolHybrid t := by
    refine Prog.run_bind_eq_ok_iff.mpr ⟨(), (link, self.authentication env.hashes, rng),
      Cssp.run_onLink hrequest _, ?_⟩
    rw [Prog.run_bind_of_ok (Cssp.run_onLink hconfirm _)]
    dsimp only
    rw [Prog.run_bind_of_ok hnla]
    rfl
  rw [connectX224, Prog.run_zoom]
  dsimp only
  rw [hx224]

theorem exists_run_connectX224 {y : Yasna} {parseX509Der : Bytes → Option Bytes} {hashes : Hashes}
    (hy : y.FollowsX690) (hmac : ∀ key data, (hashes.hmacMd5 key data).length = 16)
    (hmd5 : ∀ data, 1 ≤ (hashes.md5 data).length ∧ (hashes.md5 data).length ≤ 256)
    (hdomain : ∀ flags, ((self.authentication hashes).talking flags).getDomainName.length < 2 ^ 16)
    (huser : ∀ flags, ((self.authentication hashes).talking flags).getUserName.length < 2 ^ 16)
    {c : Ntlm.Challenge} (hchallenge : Ntlm.readChallenge challengeMessage = .ok c)
    (hlength : challengeMessage.length ≤ 1500) (rng : Rng) (publicKey : Bytes) :
    ∃ first second interface,
      (∀ key, Cssp.Server.accept hashes (y.der parseX509Der)
        ⟨(self.authentication hashes).responseKeyNt, key, challengeMessage⟩ first second =
          if publicKey = key then some interface else none) ∧
      (∀ text, ∃ reply interface',
        Cssp.Server.confirm hashes (y.der parseX509Der) text interface = some (reply, interface')) ∧
      ∀ (tls : Tls) (place : String → Nat) (socket : Socket) (text reply : Bytes)
        (interface' : NTLMv2SecurityInterface)
        (server : Server.Authenticating ⟨tls, y.der parseX509Der, hashes, place⟩ self socket publicKey
          challengeMessage reply),
        Cssp.Server.confirm hashes (y.der parseX509Der) text interface = some (reply, interface') →
        leNat text = leNat publicKey + 1 →
        ∃ third t,
          (self.connectX224 ⟨tls, y.der parseX509Der, hashes, place⟩).run (⟨.raw socket, []⟩, rng) =
            .ok .protocolHybrid t ∧
          t.1.sent = [request self.protocols self.mode, first, second, third] ∧
          Cssp.Server.receive hashes (y.der parseX509Der) third interface' =
            some ((self.authentication hashes).delegated (self.restrictedAdminMode || self.blankCreds)
              (uint32At challengeMessage 20)) ∧
          t.1.reads = server.left ∧ t.1.writes = [] := by
  have hmac8 := Cssp.eight_le_hmacMd5 hmac
  obtain ⟨n, ⟨a⟩⟩ := Cssp.exists_answer hmac hmd5 hchallenge hlength hdomain huser rng publicKey
  obtain ⟨interface, hto, hfrom, hseq, hseq', hnames, haccept⟩ :=
    Cssp.accept_of_answer hy hmac n.run_createNegotiate a hlength hdomain huser
  refine ⟨n.message (y.der parseX509Der), a.request (y.der parseX509Der), interface, haccept,
    Cssp.Server.exists_confirm hmac8 hseq', ?_⟩
  intro tls place socket text reply interface' server hconfirm htext
  have hpresents : (self.secured server.stream).Presents (y.der parseX509Der) publicKey := server.presents
  obtain ⟨pubKeyAuth, client', hunwrap, hreturns, _⟩ := Cssp.run_with_server hy hmac8 hfrom hseq hseq' hpresents
    server.stream_writes_eq server.challenges hconfirm server.replies
  obtain ⟨w, t, hrun, hsent, hreads, hwrites⟩ := hreturns htext
  exact ⟨_, _, run_connectX224_of_cssp server hrun, hsent,
    Cssp.receive_of_wrapped hy hmac8 hto hseq hseq' hunwrap hconfirm hnames w, hreads, hwrites⟩

/--
A connection with NLA, for every challenge that can be read. The first two messages of the handshake do not
depend on the server, and only the owner of the public key accepts them. If it answers with this key plus
one, it reads the credentials of the connector, or empty ones in the restricted admin mode and with blank
credentials; and the connection goes through exactly if the server then admits the client.
-/
theorem connect_with_server {y : Yasna} {parseX509Der : Bytes → Option Bytes} {hashes : Hashes}
    (hy : y.FollowsX690) (hmac : ∀ key data, (hashes.hmacMd5 key data).length = 16)
    (hmd5 : ∀ data, 1 ≤ (hashes.md5 data).length ∧ (hashes.md5 data).length ≤ 256)
    (hdomain : ∀ flags, ((self.authentication hashes).talking flags).getDomainName.length < 2 ^ 16)
    (huser : ∀ flags, ((self.authentication hashes).talking flags).getUserName.length < 2 ^ 16)
    {c : Ntlm.Challenge} (hchallenge : Ntlm.readChallenge challengeMessage = .ok c)
    (hlength : challengeMessage.length ≤ 1500) (rng : Rng) (publicKey : Bytes) :
    ∃ first second interface,
      (∀ key, Cssp.Server.accept hashes (y.der parseX509Der)
        ⟨(self.authentication hashes).responseKeyNt, key, challengeMessage⟩ first second =
          if publicKey = key then some interface else none) ∧
      (∀ text, ∃ reply interface',
        Cssp.Server.confirm hashes (y.der parseX509Der) text interface = some (reply, interface')) ∧
      ∀ (tls : Tls) (place : String → Nat) (socket : Socket) (text reply : Bytes)
        (interface' : NTLMv2SecurityInterface)
        (server : Server.Authenticating ⟨tls, y.der parseX509Der, hashes, place⟩ self socket publicKey
          challengeMessage reply),
        self.Fits ⟨tls, y.der parseX509Der, hashes, place⟩ .protocolHybrid →
        Cssp.Server.confirm hashes (y.der parseX509Der) text interface = some (reply, interface') →
        leNat text = leNat publicKey + 1 →
        (∃ third t,
          (self.connectX224 ⟨tls, y.der parseX509Der, hashes, place⟩).run (⟨.raw socket, []⟩, rng) =
            .ok .protocolHybrid t ∧
          t.1.sent = [request self.protocols self.mode, first, second, third] ∧
          Cssp.Server.receive hashes (y.der parseX509Der) third interface' =
            some ((self.authentication hashes).delegated (self.restrictedAdminMode || self.blankCreds)
              (uint32At challengeMessage 20))) ∧
        ((∃ client t, (self.connect ⟨tls, y.der parseX509Der, hashes, place⟩).run (⟨.raw socket, []⟩, rng) =
            .ok client t) ↔
          ∃ userId data left,
            Server.Admits ⟨tls, y.der parseX509Der, hashes, place⟩ server.left userId data left) := by
  obtain ⟨first, second, interface, haccept, hanswers, hruns⟩ :=
    exists_run_connectX224 hy hmac hmd5 hdomain huser hchallenge hlength rng publicKey
  refine ⟨first, second, interface, haccept, hanswers, ?_⟩
  intro tls place socket text reply interface' server hfits hconfirm htext
  obtain ⟨third, t, hx224, hsent, hreceive, hreads, hwrites⟩ :=
    hruns tls place socket text reply interface' server hconfirm htext
  refine ⟨⟨third, t, hx224, hsent, hreceive⟩, ?_⟩
  constructor
  . rintro ⟨client, t', hconnect⟩
    obtain ⟨userId, data, left, hadmits, _⟩ := connects_of_run_connect hx224 hconnect
    rw [hreads] at hadmits
    exact ⟨userId, data, left, hadmits⟩
  . rintro ⟨userId, data, left, hadmits⟩
    rw [← hreads] at hadmits
    obtain ⟨client, t', hconnect, _⟩ := exists_run_connect hx224 hwrites hfits hadmits
    exact ⟨client, t', hconnect⟩

end Connection

namespace Authenticated

open Cssp.Delegation Admitted NTLMv2SecurityInterface

def connector : Connector := { Connector.new with domain := "domain", username := "user", password := "foo" }

def hybrid : Bytes := [14, 0xD0, 0, 0, 0, 0, 0, 2, 0, 8, 0, 2, 0, 0, 0]

def stream (reply : Bytes) : TlsStream :=
  ⟨⟨Arrival.ofChunks [createTsRequest der Ntlm.Agrees.request, reply,
    (pdus ++ [indication]).flatMap Mcs.packet], [], []⟩, .ok (some ⟨.ok [1, 2]⟩)⟩

def tls (reply : Bytes) : Tls := ⟨fun _ => .ok (), fun _ _ => .ok (stream reply)⟩

def env (reply : Bytes) : Env := ⟨tls reply, der, Duplex.hashes, libraries.place⟩

def socket : Socket := ⟨([3, 0, 0, 19] ++ hybrid).map .byte, [], []⟩

theorem fits_connector (reply : Bytes) : connector.Fits (env reply) .protocolHybrid where
  name h := absurd h (by decide)
  initial request h := by
    have hshort : (Mcs.Client.conference .protocolHybrid 800 600 .us "rdp-rs").toOption.map (fun request =>
        decide ((der.toDer (Mcs.connectInitial (some request))).length + 7 < 2 ^ 16)) = some true := by
      decide +kernel
    have hrequest : Mcs.Client.conference .protocolHybrid 800 600 .us "rdp-rs" = .ok request := h
    rw [hrequest] at hshort
    exact of_decide_eq_true (Option.some.inj hshort)
  logon := by
    rw [show Sec.logonLength connector.domain connector.username connector.password =
      Sec.logonLength "domain" "user" "foo" from rfl]
    decide

theorem finds_der : Finds der := by
  unfold Finds
  decide +kernel

theorem admits_cut (reply : Bytes) :
    Server.Admits (env reply) (Arrival.ofChunks [(pdus ++ [indication]).flatMap Mcs.packet]) 1004 serverData
      [] := by
  refine ⟨pdus, indication, license, welcomes finds_der, ?_, indicates, licensed⟩
  cases replies_append (show ∀ pdu ∈ pdus ++ [indication], pdu.length < 249 by decide +kernel) [] with
  | cons head tail => exact .cons head tail

def authenticating (connector : Connector) {reply : Bytes} {interface interface' : NTLMv2SecurityInterface}
    (h : Cssp.Server.confirm Duplex.hashes der [2, 2] interface = some (reply, interface')) :
    Server.Authenticating (env reply) connector socket [1, 2] Ntlm.Agrees.request reply where
  body := hybrid
  behind := []
  stream := stream reply
  challenged := _
  left := _
  writes_eq := rfl
  received := ⟨0, 0, 19, _, _, rfl, rfl, by decide, rfl⟩
  selects := ⟨14, 0xD0, 0, 0, 0, 0, 0, 0, 2, 0, 0, 0, [], rfl, rfl⟩
  build := rfl
  connect := rfl
  stream_writes_eq := rfl
  presents := ⟨_, _, rfl, rfl, rfl⟩
  challenges := (read_messages h [(pdus ++ [indication]).flatMap Mcs.packet]).1
  replies := (read_messages h [(pdus ++ [indication]).flatMap Mcs.packet]).2

end Authenticated

open Authenticated Cssp.Delegation Admitted NTLMv2SecurityInterface in
theorem connect_with_server_user :
    ∃ reply first second third t client t' interface interface',
      Cssp.Server.accept Duplex.hashes der ⟨user.responseKeyNt, [1, 2], Ntlm.Agrees.request⟩ first second =
        some interface ∧
      Cssp.Server.confirm Duplex.hashes der [2, 2] interface = some (reply, interface') ∧
      (connector.connectX224 (env reply)).run (⟨.raw socket, []⟩, fun _ => 0) = .ok .protocolHybrid t ∧
      t.1.sent = [request 3 0, first, second, third] ∧
      Cssp.Server.receive Duplex.hashes der third interface' =
        some (user.delegated false (uint32At Ntlm.Agrees.request 20)) ∧
      (connector.connect (env reply)).run (⟨.raw socket, []⟩, fun _ => 0) = .ok client t' := by
  obtain ⟨c, hc⟩ := exists_readChallenge
  obtain ⟨first, second, interface, haccept, hanswers, hconnects⟩ :=
    @connect_with_server connector _ Standard.distinguished some Duplex.hashes
      Standard.followsDer.toFollowsX690 length_hmacMd5 length_md5 (fun flags => (length_names flags).1)
      (fun flags => (length_names flags).2) _ hc (by decide) (fun _ => 0) [1, 2]
  obtain ⟨reply, interface', hconfirm⟩ := hanswers [2, 2]
  obtain ⟨⟨third, t, hx224, hsent, hreceive⟩, hiff⟩ := hconnects (tls reply) libraries.place socket [2, 2] reply
    interface' (authenticating connector hconfirm) (fits_connector reply) hconfirm (by decide)
  obtain ⟨client, t', hconnect⟩ := hiff.mpr ⟨1004, serverData, [], admits_cut reply⟩
  exact ⟨reply, first, second, third, t, client, t', interface, interface', haccept [1, 2], hconfirm, hx224,
    hsent, hreceive, hconnect⟩

end Connector

end Rdp
