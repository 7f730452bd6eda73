import Rdp.Core.Client.Connecting
import Rdp.Core.Client.Traffic

/-!
This module contains what of a connection goes over the network in the clear: the request for a security
protocol, and nothing else, unless the server selects no security at all.
-/

namespace Rdp

open Prog
open Link (Traffic Through)
open Nla (Rng)

namespace Stream

theorem withSocket_withSocket (s : Stream) (a b : Socket) :
    (s.withSocket a).withSocket b = s.withSocket b := by
  cases s <;> rfl

theorem withSocket_socket (s : Stream) : s.withSocket s.socket = s := by
  cases s <;> rfl

end Stream

theorem Socket.received_write (buffer : Bytes) (s : Socket) :
    ∃ front, front <+: buffer ∧ (finalState ((write buffer).run s)).received = s.received ++ front := by
  change ∃ front, front <+: buffer ∧ (finalState (write buffer s)).received = _
  unfold write
  split
  . exact ⟨buffer, List.prefix_rfl, rfl⟩
  . exact ⟨_, List.take_prefix _ _, rfl⟩
  . exact ⟨[], List.nil_prefix, (List.append_nil _).symm⟩

namespace Link

def Continues (l l' : Link) : Prop :=
  l'.stream = l.stream.withSocket l'.stream.socket ∧ l.received <+: l'.received

theorem continues_onSocket {x : Prog Error Socket α}
    (h : Moves (fun s t : Socket => s.received <+: t.received) x) :
    Moves Continues (onStream (Prog.zoom Stream.socket Stream.withSocket x)) := by
  have hstream : Moves (fun s t : Stream => t = s.withSocket t.socket ∧ s.socket.received <+: t.socket.received)
      (Prog.zoom Stream.socket Stream.withSocket x) := by
    refine h.zoom ?_
    intro s t ht
    rw [Stream.socket_withSocket]
    exact ⟨rfl, ht⟩
  refine hstream.zoom ?_
  exact fun s stream ht => ht

instance : IsPreorder Link Continues where
  refl l := ⟨l.stream.withSocket_socket.symm, List.prefix_rfl⟩
  trans l l' l'' h h' := by
    refine ⟨?_, h.2.trans h'.2⟩
    rw [h'.1, h.1, Stream.withSocket_withSocket, Stream.socket_withSocket]

instance : Traffic Continues where
  moves_read n := by
    unfold read
    split
    . refine continues_onSocket ((Socket.listens_read 1500).imp ?_)
      intro s t ht
      rw [ht.1]
    . refine continues_onSocket ((Socket.listens_readExact n).imp ?_)
      intro s t ht
      rw [ht.1]
  moves_write m := by
    unfold write
    refine Moves.bind (Moves.lift _) ?_
    intro buffer
    refine Moves.bind (Moves.modify fun link => refl_of Continues link) ?_
    intro
    refine Moves.bind (continues_onSocket ?_) ?_
    . intro s
      obtain ⟨front, _, hreceived⟩ := Socket.received_write buffer s
      rw [hreceived]
      exact List.prefix_append _ _
    . exact fun _ => Moves.pure ()

/--
On the raw stream at most a front of this request has been sent since a state of its socket.
-/
def Asked (socket : Socket) (request : Bytes) (link : Link) : Prop :=
  ∃ raw front, link.stream = .raw raw ∧ front <+: request ∧ raw.received = socket.received ++ front

/--
At most a front of this request has been sent in the clear since a state of the raw socket. All that
was sent behind it went through the stream that the TLS library started on the socket.
-/
def Protected (tls : Tls) (checkCertificate : Bool) (socket : Socket) (request : Bytes) (link : Link) :
    Prop :=
  match link.stream with
  | .raw raw => ∃ front, front <+: request ∧ raw.received = socket.received ++ front
  | .ssl stream => ∃ raw front start, front <+: request ∧ raw.received = socket.received ++ front ∧
    tls.connect checkCertificate raw = .ok start ∧ stream.peerCertificate = start.peerCertificate ∧
    start.socket.received <+: stream.socket.received

def IsSecure (link : Link) : Prop := ∃ stream, link.stream = .ssl stream

section Protected

variable {tls : Tls} {checkCertificate : Bool} {socket : Socket} {request : Bytes} {l l' : Link}

theorem Asked.protected (h : Asked socket request l) : Protected tls checkCertificate socket request l := by
  obtain ⟨raw, front, hstream, hfront, hreceived⟩ := h
  unfold Protected
  rw [hstream]
  exact ⟨front, hfront, hreceived⟩

theorem Asked.listens (h : Asked socket request l) (hlistens : l.Listens l') (hc : Continues l l') :
    Asked socket request l' := by
  obtain ⟨raw, front, hstream, hfront, hreceived⟩ := h
  have hraw := hc.1
  have hsame := hlistens.2.1
  rw [hstream] at hraw hsame
  exact ⟨_, front, hraw, hfront, hsame.trans hreceived⟩

theorem IsSecure.continues (h : l.IsSecure) (hc : Continues l l') : l'.IsSecure := by
  obtain ⟨stream, hstream⟩ := h
  have hssl := hc.1
  rw [hstream] at hssl
  exact ⟨_, hssl⟩

theorem Protected.continues (h : Protected tls checkCertificate socket request l) (hsecure : l.IsSecure)
    (hc : Continues l l') : Protected tls checkCertificate socket request l' := by
  obtain ⟨stream, hstream⟩ := hsecure
  obtain ⟨hssl, hprefix⟩ := hc
  unfold Protected received at *
  rw [hstream] at h hssl hprefix
  obtain ⟨raw, front, start, hfront, hreceived, hconnect, hpeer, hstart⟩ := h
  rw [hssl]
  exact ⟨raw, front, start, hfront, hreceived, hconnect, hpeer, hstart.trans hprefix⟩

end Protected

theorem asked_write {m : Message} {buffer : Bytes} (h : m.write = .ok buffer) (socket : Socket)
    (sent : List Bytes) : Asked socket buffer (finalState ((write m).run ⟨.raw socket, sent⟩)) := by
  obtain ⟨front, hfront, hreceived⟩ := Socket.received_write buffer socket
  have hraw : (Stream.raw socket).socket = socket := rfl
  rw [run_write h]
  dsimp only
  rw [hraw]
  cases hrun : (Socket.write buffer).run socket with
  | ok n s =>
    rw [hrun] at hreceived
    exact ⟨s, front, rfl, hfront, hreceived⟩
  | error e s =>
    rw [hrun] at hreceived
    exact ⟨s, front, rfl, hfront, hreceived⟩

theorem run_startSsl (tls : Tls) (checkCertificate : Bool) (socket : Socket) (sent : List Bytes) :
    (startSsl tls checkCertificate).run ⟨.raw socket, sent⟩ =
      match tls.build checkCertificate with
      | .error e => .error e ⟨.raw socket, sent⟩
      | .ok _ =>
        match tls.connect checkCertificate socket with
        | .error e => .error e ⟨.raw socket, sent⟩
        | .ok stream => .ok () ⟨.ssl stream, sent⟩ := by
  unfold startSsl
  cases tls.build checkCertificate with
  | error e => rfl
  | ok u =>
    rw [lift_ok, pure_bind, EStateM.run_bind, EStateM.run_get]
    dsimp only
    cases tls.connect checkCertificate socket <;> rfl

end Link

/--
How a part of a connection ends: nothing but the request was sent in the clear, and it only succeeds
behind TLS.
-/
def Connector.Secures (tls : Tls) (checkCertificate : Bool) (socket : Socket) (request : Bytes)
    (r : EStateM.Result (Fault Error) (Link × σ) α) : Prop :=
  (finalState r).1.Protected tls checkCertificate socket request ∧
    ∀ a t, r = .ok a t → t.1.IsSecure

namespace Connector

section Secures

open Link (Asked Continues IsSecure)

variable {σ τ : Type} {tls : Tls} {checkCertificate : Bool} {socket : Socket} {request : Bytes}
  {x : Prog Error (Link × σ) α} {s : Link × σ}

theorem Secures.bind {f : α → Prog Error (Link × σ) β}
    (h : Secures tls checkCertificate socket request (x.run s))
    (hf : ∀ a, Moves (Through Continues Prod.fst) (f a)) :
    Secures tls checkCertificate socket request ((x >>= f).run s) := by
  obtain ⟨hprotected, hsecure⟩ := h
  rw [EStateM.run_bind]
  cases hrun : x.run s with
  | error e t =>
    rw [hrun] at hprotected
    exact ⟨hprotected, fun _ _ herror => by cases herror⟩
  | ok a t =>
    rw [hrun] at hprotected hsecure
    have hcontinues := hf a t
    have ht := hsecure a t rfl
    refine ⟨hprotected.continues ht hcontinues, ?_⟩
    intro b u hok
    change (f a).run t = .ok b u at hok
    rw [hok] at hcontinues
    exact ht.continues hcontinues

theorem secures_startSsl (h : Asked socket request s.1) : Secures tls checkCertificate socket request
    ((Cssp.onLink (Link.startSsl tls checkCertificate) : Prog Error (Link × σ) Unit).run s) := by
  obtain ⟨⟨stream, sent⟩, t⟩ := s
  have hprotected : Link.Protected tls checkCertificate socket request ⟨stream, sent⟩ := h.protected
  obtain ⟨raw, front, hstream, hfront, hreceived⟩ := h
  cases hstream
  rw [Cssp.onLink, run_zoom, Link.run_startSsl]
  cases tls.build checkCertificate with
  | error e => exact ⟨hprotected, fun _ _ herror => by cases herror⟩
  | ok u =>
    dsimp only
    cases hconnect : tls.connect checkCertificate raw with
    | error e => exact ⟨hprotected, fun _ _ herror => by cases herror⟩
    | ok start =>
      refine ⟨⟨raw, front, start, hfront, hreceived, hconnect, rfl, List.prefix_rfl⟩, ?_⟩
      intro _ _ hok
      cases hok
      exact ⟨start, rfl⟩

theorem secures_startNla (h : Asked socket request s.1) (der : Der) (auth : AuthenticationProtocol σ τ)
    (restrictedAdminMode : Bool) : Secures tls checkCertificate socket request
      ((Tpkt.Client.startNla tls der checkCertificate (some auth) restrictedAdminMode).run s) :=
  (secures_startSsl h).bind fun _ => Cssp.traffic_csspConnect der auth restrictedAdminMode

theorem Secures.of_asked {x : Prog Error Link β} {f : β → Prog Error (Link × σ) α}
    (h : Asked socket request (finalState (x.run s.1)))
    (hf : ∀ b link, x.run s.1 = .ok b link → Asked socket request link →
      Secures tls checkCertificate socket request ((f b).run (link, s.2))) :
    Secures tls checkCertificate socket request ((Cssp.onLink x >>= f).run s) := by
  rw [EStateM.run_bind, Cssp.onLink, run_zoom]
  cases hrun : x.run s.1 with
  | ok b link =>
    rw [hrun] at h
    exact hf b link hrun h
  | error e link =>
    rw [hrun] at h
    exact ⟨h.protected, fun _ _ herror => by cases herror⟩

theorem secures_connectX224 {der : Der} {auth : AuthenticationProtocol σ τ} {securityProtocols : UInt32}
    {restrictedAdminMode blankCreds : Bool} {sent : List Bytes} {t : σ}
    (h : ¬ ∃ body, Tpkt.Incoming socket.reads body ∧
      X224.Selects body X224.Protocols.protocolRDP.toU32) :
    Secures tls checkCertificate socket
      (X224.Client.request securityProtocols
        (if restrictedAdminMode then X224.RequestMode.restrictedAdminModeRequired.toU8 else 0))
      ((X224.Client.connect tls der securityProtocols checkCertificate (some auth) restrictedAdminMode
        blankCreds).run (⟨.raw socket, sent⟩, t)) := by
  -- A confirm that selects no security is the only way around TLS.
  unfold X224.Client.connect X224.Client.connectWith
  refine Secures.of_asked (Link.asked_write (X224.Client.write_request _ _) socket sent) ?_
  intro _ link hrequest hasked
  have hreads : link.reads = socket.reads := by
    have hspeaks := X224.Client.moves_writeConnectionRequest Link.speaks_write securityProtocols
      (some (if restrictedAdminMode then X224.RequestMode.restrictedAdminModeRequired.toU8 else 0))
      ⟨.raw socket, sent⟩
    rwa [hrequest] at hspeaks
  have hlistens := X224.Client.moves_readConnectionConfirm Link.listens_read link
  have hcontinues := X224.Client.moves_readConnectionConfirm (R := Continues) Traffic.moves_read link
  refine Secures.of_asked (hasked.listens hlistens hcontinues) ?_
  intro selected link' hconfirm hasked'
  -- What the server has selected decides whether the rest is behind TLS.
  cases selected with
  | protocolHybrid =>
    refine (secures_startNla hasked' der auth _).bind ?_
    exact fun _ => Moves.pure _
  | protocolSSL =>
    refine (secures_startSsl hasked').bind ?_
    exact fun _ => Moves.pure _
  | protocolRDP =>
    obtain ⟨body, v, hbody, hselects, hv⟩ := X224.Client.run_readConnectionConfirm_iff.mp ⟨link', hconfirm⟩
    rw [hreads] at hbody
    rw [← X224.Protocols.toU32_of_tryFrom hv] at hselects
    exact absurd ⟨body, hbody, hselects⟩ h
  -- `connect` refuses this selection, with nothing but the request sent.
  | protocolHybridEx => exact ⟨hasked'.protected, fun _ _ herror => by cases herror⟩

end Secures

open Link (Continues)

def connectionRequest (self : Connector) : Bytes :=
  X224.Client.request self.protocols
    (if self.restrictedAdminMode then X224.RequestMode.restrictedAdminModeRequired.toU8 else 0)

theorem traffic_connectMcs {R : Link → Link → Prop} [Traffic R] (env : Env) (self : Connector)
    (selectedProtocol : X224.Protocols) : Moves (Through R Prod.fst) (self.connectMcs env selectedProtocol) := by
  unfold connectMcs
  have hmcs : Moves (Through R Mcs.Client.link) (do
      Mcs.Client.connect env.der self.name self.width self.height self.layout
      self.connectSec
      get) := by
    refine Moves.bind (Mcs.Client.traffic_connect env.der _ _ _ _) ?_
    intro
    refine Moves.bind ?_ ?_
    . unfold connectSec
      split <;> exact Sec.traffic_connect _ _ _ _
    . exact fun _ => Moves.get
  exact hmcs.zoom fun _ _ hlink => hlink

theorem secures_connect (env : Env) (self : Connector) {socket : Socket} (sent : List Bytes) (rng : Rng)
    (h : ¬ ∃ body, Tpkt.Incoming socket.reads body ∧
      X224.Selects body X224.Protocols.protocolRDP.toU32) :
    Secures env.tls self.checkCertificate socket self.connectionRequest
      ((self.connect env).run (⟨.raw socket, sent⟩, rng)) := by
  have hx224 : Secures env.tls self.checkCertificate socket self.connectionRequest
      ((self.connectX224 env).run (⟨.raw socket, sent⟩, rng)) := by
    have hsecures := @secures_connectX224 _ _ env.tls self.checkCertificate socket env.der
      (Ntlm.authenticationProtocol env.hashes) self.protocols self.restrictedAdminMode self.blankCreds sent
      (self.authentication env.hashes, rng) h
    unfold Secures at hsecures ⊢
    rw [connectX224, run_zoom]
    split
    next hrun =>
      rw [hrun] at hsecures
      refine ⟨hsecures.1, ?_⟩
      intro _ _ hok
      cases hok
      exact hsecures.2 _ _ rfl
    next hrun =>
      rw [hrun] at hsecures
      exact ⟨hsecures.1, fun _ _ herror => by cases herror⟩
  refine hx224.bind ?_
  intro selectedProtocol
  refine Moves.bind (traffic_connectMcs env self selectedProtocol) ?_
  intro mcs
  refine Moves.bind (Moves.lift _) ?_
  exact fun global => Moves.pure _

theorem link_of_run_connect {env : Env} {self : Connector} {s t : Link × Rng} {client : RdpClient}
    (h : (self.connect env).run s = .ok client t) : client.mcs.link = t.1 := by
  obtain ⟨selectedProtocol, s₁, _, hconnect⟩ := run_bind_eq_ok h
  obtain ⟨mcs, s₂, hmcs, hglobal⟩ := run_bind_eq_ok hconnect
  obtain ⟨global, _, hpure⟩ := run_lift_bind_eq_ok hglobal
  cases hpure
  obtain ⟨mcs', hrun, rfl⟩ := run_zoom_eq_ok hmcs
  obtain ⟨_, _, _, hsec⟩ := run_bind_eq_ok hrun
  obtain ⟨_, _, _, hget⟩ := run_bind_eq_ok hsec
  cases hget
  rfl

/--
Whatever the server does: of a connection that fails nothing but the request for a security protocol
went over the network in the clear, and everything else went through TLS, which is started with the
setting of the connector. A connection that succeeds is behind TLS, and so is all that its user does
with it. The one exception is a server whose first packet selects no security.
-/
theorem connect_protects (env : Env) (self : Connector) (socket : Socket) (sent : List Bytes) (rng : Rng) :
    (∃ body, Tpkt.Incoming socket.reads body ∧
      X224.Selects body X224.Protocols.protocolRDP.toU32) ∨
    match (self.connect env).run (⟨.raw socket, sent⟩, rng) with
    | .error _ t => t.1.Protected env.tls self.checkCertificate socket self.connectionRequest
    | .ok client _ => ∀ uses, (RdpClient.Use.after uses client.session).mcs.link.IsSecure ∧
      (RdpClient.Use.after uses client.session).mcs.link.Protected env.tls self.checkCertificate socket
        self.connectionRequest := by
  by_cases hselects : ∃ body, Tpkt.Incoming socket.reads body ∧
      X224.Selects body X224.Protocols.protocolRDP.toU32
  . exact .inl hselects
  . refine .inr ?_
    obtain ⟨hprotected, hsecure⟩ := secures_connect env self sent rng hselects
    split
    next hrun =>
      rw [hrun] at hprotected
      exact hprotected
    next client t hrun =>
      rw [hrun] at hprotected
      have ht := hsecure client t hrun
      intro uses
      have hcontinues := RdpClient.Use.traffic_after (R := Continues) uses client.session
      have hsession : client.session.link = t.1 := link_of_run_connect hrun
      rw [Through, hsession] at hcontinues
      exact ⟨ht.continues hcontinues, hprotected.continues ht hcontinues⟩

end Connector

end Rdp
