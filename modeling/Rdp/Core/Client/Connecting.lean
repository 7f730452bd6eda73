import Rdp.Core.Client.Course
import Rdp.Core.Sec.Logon

/-!
This module contains the connection of a client behind the security layer, on a transport that takes all
that is written: it goes through exactly with a server that admits the client, and the client is then ready
to follow the frames of the server.
-/

namespace Rdp

open Prog
open Global (Session ClientState)
open Mcs (Frame Injective encodeAll Replies joined)
open Mcs.Client (Cuts conference welcomed)
open Server (Serves stateAfter eventsOf)
open Nla (Rng)
open Cursor (elements)

section Channels

variable {place : String → Nat} {userId : UInt16}

theorem Mcs.joined_eq : joined place userId =
    if place "user" < place "global" then
      [("user", userId), ("global", 1003)]
    else
      [("global", 1003), ("user", userId)] := Mcs.insertChannel_user place userId

theorem Mcs.lookup_joined : (joined place userId).lookup "global" = some 1003 := by
  rw [Mcs.joined_eq]
  split <;> rfl

theorem Mcs.injective_joined (h : userId ≠ 1003) : Injective (joined place userId) := by
  rw [Mcs.joined_eq]
  split
  . simp [Injective, h, h.symm]
  . simp [Injective, h, h.symm]

end Channels

/--
What a server sends that lets a client connect: the PDUs for the MCS layer, and on one of the channels a
license.
-/
def Server.Admits (env : Env) (reads : List Arrival) (userId : UInt16) (data : Gcc.ServerData)
    (left : List Arrival) : Prop :=
  ∃ pdus license stream, Mcs.Welcomes env.der env.place pdus userId data ∧
    Replies reads (pdus ++ [license]) left ∧ Mcs.Indicates (joined env.place userId) license stream ∧
    Sec.Licensed stream

open Server (Admits)

namespace Connector

/--
What the connector sends fits the packets it is sent in.
-/
structure Fits (env : Env) (connector : Connector) (selectedProtocol : X224.Protocols) : Prop where
  name : Cuts connector.name
  initial : ∀ request,
    conference selectedProtocol connector.width connector.height connector.layout connector.name =
      .ok request →
    (env.der.toDer (Mcs.connectInitial (some request))).length + 7 < 2 ^ 16
  logon : Sec.logonLength connector.domain connector.username connector.password < 2 ^ 15

variable {env : Env} {self : Connector} {selectedProtocol : X224.Protocols} {link : Link} {rng : Rng}
  {userId : UInt16} {data : Gcc.ServerData} {left : List Arrival}

theorem exists_run_connectSec {s : Mcs.Client} (hdata : s.serverData = some data)
    (huser : s.userId = some userId) (hle : 1001 ≤ userId.toNat)
    (hchannel : s.channelIds.lookup "global" = some 1003)
    (hshort : Sec.logonLength self.domain self.username self.password < 2 ^ 15)
    (hwrites : s.link.writes = []) {license stream : Bytes}
    (hindicates : Mcs.Indicates s.channelIds license stream) (hlicensed : Sec.Licensed stream)
    (hreply : Mcs.Reply s.link.reads license left) :
    ∃ link', self.connectSec.run s = .ok () { s with link := link' } ∧ link'.reads = left ∧
      link'.writes = [] := by
  unfold connectSec
  split
  . exact Sec.exists_run_connect "" "" "" self.autoLogon hdata huser hle hchannel (by decide) hwrites
      hindicates hlicensed hreply
  . exact Sec.exists_run_connect self.domain self.username self.password self.autoLogon hdata huser hle
      hchannel hshort hwrites hindicates hlicensed hreply

theorem licensed_of_run_connectSec {s s' : Mcs.Client} {u : Unit} (h : self.connectSec.run s = .ok u s') :
    ∃ license stream, Mcs.Advances [license] s s' ∧ Mcs.Indicates s.channelIds license stream ∧
      Sec.Licensed stream := by
  unfold connectSec at h
  split at h
  . exact Sec.licensed_of_run_connect _ _ _ _ h
  . exact Sec.licensed_of_run_connect _ _ _ _ h

theorem exists_run_connectMcs (hfits : Fits env self selectedProtocol) (hwrites : link.writes = [])
    (h : Admits env link.reads userId data left) :
    ∃ link', (self.connectMcs env selectedProtocol).run (link, rng) =
        .ok (welcomed (.new link selectedProtocol env.place) link' userId data) (link', rng) ∧
      link'.reads = left ∧ link'.writes = [] := by
  obtain ⟨pdus, license, stream, hwelcomes, hreplies, hindicates, hlicensed⟩ := h
  obtain ⟨next, hpdus, hlicense⟩ := hreplies.exists_of_append
  cases hlicense with
  | cons hreply hnil =>
    cases hnil
    obtain ⟨_, _, request, _, _, _, hrequest, _⟩ :=
      Mcs.Client.exists_conference selectedProtocol self.width self.height self.layout hfits.name
    obtain ⟨link₁, hconnect, hreads, hnil₁⟩ := @Mcs.Client.exists_run_connect
      (.new link selectedProtocol env.place) _ _ _ _ _ _ hrequest (hfits.initial request hrequest) hwrites rfl
      _ _ _ hwelcomes _ hpdus
    rw [← hreads] at hreply
    obtain ⟨link₂, hsec, hleft, hnil₂⟩ := @exists_run_connectSec self _ _ _
      (welcomed (.new link selectedProtocol env.place) link₁ userId data) rfl rfl hwelcomes.le
      Mcs.lookup_joined hfits.logon hnil₁ _ _ hindicates hlicensed hreply
    refine ⟨link₂, ?_, hleft, hnil₂⟩
    rw [connectMcs, run_zoom, EStateM.run_bind, hconnect]
    dsimp only
    rw [EStateM.run_bind, hsec]
    rfl

theorem admits_of_run_connectMcs {mcs : Mcs.Client} {t : Link × Rng}
    (h : (self.connectMcs env selectedProtocol).run (link, rng) = .ok mcs t) :
    ∃ userId data, Admits env link.reads userId data mcs.link.reads ∧
      mcs = welcomed (.new link selectedProtocol env.place) mcs.link userId data := by
  obtain ⟨s, h, _⟩ := run_zoom_eq_ok h
  obtain ⟨_, s₁, hconnect, h⟩ := run_bind_eq_ok h
  obtain ⟨_, s₂, hsec, hget⟩ := run_bind_eq_ok h
  cases hget
  obtain ⟨pdus, userId, data, hwelcomes, hreplies, hframe⟩ :=
    Mcs.Client.welcomes_of_run_connect rfl hconnect
  obtain ⟨license, stream, hadvances, hindicates, hlicensed⟩ := licensed_of_run_connectSec hsec
  have hchannels : s₁.channelIds = joined env.place userId := by
    rw [hframe]
    rfl
  rw [hchannels] at hindicates
  refine ⟨userId, data, ⟨pdus, license, stream, hwelcomes, ?_, hindicates, hlicensed⟩, ?_⟩
  . exact hreplies.append hadvances.replies
  . rw [hadvances.frame, hframe]
    rfl

theorem globalClient_welcomed (s : Mcs.Client) (link : Link) (hplace : s.place = env.place) :
    self.globalClient (welcomed s link userId data) =
      .ok (.new userId 1003 self.width self.height self.layout self.name) := by
  have hlookup : (welcomed s link userId data).channelIds.lookup "global" = some 1003 := by
    rw [welcomed, hplace]
    exact Mcs.lookup_joined
  rw [globalClient, Mcs.Client.getGlobalChannelId, Mcs.channelId, hlookup]
  rfl

/--
The client after a connection: it has what the server gave it, and waits for the first PDU of the
connection sequence.
-/
structure Connects (env : Env) (connector : Connector) (client : RdpClient) (userId : UInt16)
    (left : List Arrival) : Prop where
  user : client.mcs.userId = some userId
  channelIds : client.mcs.channelIds = joined env.place userId
  reads : client.mcs.link.reads = left
  global : client.global =
    .new userId 1003 connector.width connector.height connector.layout connector.name

section Connect

variable {s t : Link × Rng}

theorem connects_of_run_connect (hx224 : (self.connectX224 env).run s = .ok selectedProtocol t)
    {client : RdpClient} {t' : Link × Rng} (h : (self.connect env).run s = .ok client t') :
    ∃ userId data left, Admits env t.1.reads userId data left ∧
      Connects env self client userId left := by
  obtain ⟨protocol, t₁, hprotocol, h⟩ := run_bind_eq_ok h
  cases hprotocol.symm.trans hx224
  obtain ⟨mcs, t₂, hmcs, h⟩ := run_bind_eq_ok h
  obtain ⟨global, hglobal, h⟩ := run_lift_bind_eq_ok h
  cases h
  obtain ⟨userId, data, hadmits, hframe⟩ := @admits_of_run_connectMcs env self _ t.1 t.2 _ _ hmcs
  rw [hframe, globalClient_welcomed _ _ rfl] at hglobal
  cases hglobal
  refine ⟨userId, data, _, hadmits, ?_, ?_, rfl, rfl⟩
  . exact (congrArg Mcs.Client.userId hframe).trans rfl
  . exact (congrArg Mcs.Client.channelIds hframe).trans rfl

theorem exists_run_connect (hx224 : (self.connectX224 env).run s = .ok selectedProtocol t)
    (hwrites : t.1.writes = []) (hfits : Fits env self selectedProtocol)
    (h : Admits env t.1.reads userId data left) :
    ∃ client t', (self.connect env).run s = .ok client t' ∧ Connects env self client userId left ∧
      client.mcs.link.writes = [] := by
  obtain ⟨link', hmcs, hleft, hnil⟩ := @exists_run_connectMcs env self _ t.1 t.2 _ _ _ hfits hwrites h
  refine ⟨⟨welcomed (.new t.1 selectedProtocol env.place) link' userId data, _⟩, (link', t.2), ?_,
    ⟨rfl, rfl, hleft, rfl⟩, hnil⟩
  refine run_bind_eq_ok_iff.mpr ⟨_, t, hx224, ?_⟩
  refine run_bind_eq_ok_iff.mpr ⟨_, (link', t.2), hmcs, ?_⟩
  rw [globalClient_welcomed _ _ rfl]
  rfl

/--
Behind the security layer the connection goes through exactly with a server that admits the client.
-/
theorem connect_iff (hx224 : (self.connectX224 env).run s = .ok selectedProtocol t)
    (hwrites : t.1.writes = []) (hfits : Fits env self selectedProtocol) :
    ((∃ client t', (self.connect env).run s = .ok client t') ↔
      ∃ userId data left, Admits env t.1.reads userId data left) ∧
    ∀ client t', (self.connect env).run s = .ok client t' →
      ∃ userId data left, Admits env t.1.reads userId data left ∧ Connects env self client userId left := by
  refine ⟨⟨?_, ?_⟩, fun client t' h => connects_of_run_connect hx224 h⟩
  . rintro ⟨client, t', h⟩
    obtain ⟨userId, data, left, hadmits, _⟩ := connects_of_run_connect hx224 h
    exact ⟨userId, data, left, hadmits⟩
  . rintro ⟨userId, data, left, hadmits⟩
    obtain ⟨client, t', h, _⟩ := exists_run_connect hx224 hwrites hfits hadmits
    exact ⟨client, t', h⟩

namespace Admitted

open X224.Client (request)

def libraries : Env where
  tls := ⟨fun _ => .ok (), fun _ socket => .ok ⟨socket, .ok none⟩⟩
  der := Mcs.der
  hashes := ⟨id, id, fun key data => key ++ data, id⟩
  place := fun _ => 0

def plain : Connector := { Connector.new with useNla := false }

def confirm : Bytes := [14, 0xD0, 0, 0, 0, 0, 0, 2, 0, 8, 0, 1, 0, 0, 0]

def raw (reads : List Arrival) : Link := ⟨.raw ⟨reads, [], []⟩, []⟩

def asked (reads : List Arrival) : Link := ⟨.raw ⟨reads, [], request 1 0⟩, [request 1 0]⟩

def secured (reads : List Arrival) : Link :=
  ⟨.ssl ⟨⟨reads, [], request 1 0⟩, .ok none⟩, [request 1 0]⟩

def arrives (rest : List Arrival) : List Arrival := ([3, 0, 0, 19] ++ confirm).map .byte ++ rest

theorem run_writeConnectionRequest (reads : List Arrival) :
    (X224.Client.writeConnectionRequest 1 (some 0)).run (raw reads) = .ok () (asked reads) := by
  rw [X224.Client.run_writeConnectionRequest, Link.run_write (X224.Client.write_request 1 0)]
  rfl

theorem run_readConnectionConfirm (rest : List Arrival) :
    X224.Client.readConnectionConfirm.run (asked (arrives rest)) = .ok .protocolSSL (asked rest) := by
  have hread : Tpkt.Client.read.run (asked (arrives rest)) = .ok (.raw confirm) (asked rest) := by
    have hlength : (le16 19 0).toNat = 19 := by decide
    refine Tpkt.Client.run_read_raw_iff.mpr ⟨rest, ⟨0, 0, 19, _, _, rfl, rfl, by omega, ?_⟩, rfl⟩
    rw [Tpkt.content, hlength, if_neg (by omega)]
    exact Mcs.readExact_map_byte confirm rest
  rw [X224.Client.readConnectionConfirm, EStateM.run_bind, hread]
  rfl

theorem run_connect {σ τ : Type} (auth : Option (AuthenticationProtocol σ τ)) (rest : List Arrival) (s : σ) :
    (X224.Client.connect libraries.tls libraries.der 1 false auth false false).run (raw (arrives rest), s) =
      .ok .protocolSSL (secured rest, s) := by
  refine run_bind_eq_ok_iff.mpr ⟨(), (asked (arrives rest), s), ?_, ?_⟩
  . rw [if_neg Bool.false_ne_true, Cssp.onLink, run_zoom, run_writeConnectionRequest]
  . refine run_bind_eq_ok_iff.mpr ⟨.protocolSSL, (asked rest, s), ?_, rfl⟩
    rw [Cssp.onLink, run_zoom, run_readConnectionConfirm]

theorem run_plain_connectX224 (rest : List Arrival) (rng : Rng) :
    (plain.connectX224 libraries).run (raw (arrives rest), rng) = .ok .protocolSSL (secured rest, rng) := by
  have hrun := run_connect (some (Ntlm.authenticationProtocol libraries.hashes)) rest
    (plain.authentication libraries.hashes, rng)
  have hprotocols : plain.protocols = 1 := rfl
  rw [connectX224, run_zoom, hprotocols]
  dsimp only [plain, new] at hrun ⊢
  rw [hrun]

theorem fits_plain : plain.Fits libraries .protocolSSL where
  name h := absurd h (by decide)
  initial request h := by
    have hshort : (conference .protocolSSL 800 600 .us "rdp-rs").toOption.map (fun request =>
        decide ((Mcs.der.toDer (Mcs.connectInitial (some request))).length + 7 < 2 ^ 16)) = some true := by
      decide +kernel
    have hrequest : conference .protocolSSL 800 600 .us "rdp-rs" = .ok request := h
    rw [hrequest] at hshort
    exact of_decide_eq_true (Option.some.inj hshort)
  logon := by decide

def serverData : Gcc.ServerData := ⟨[1004], .ofU32 0x00080004⟩

def valid : License.ErrorMessage := ⟨7, 2, 4, 0, []⟩

def alert : License.Preamble := ⟨0xFF, 3, 16, valid.encode⟩

def license : Bytes := Endian.le.encode16 0x0080 ++ (Endian.le.encode16 0 ++ alert.encode)

def pdus : List Bytes := [
  Mcs.der.toDer (Mcs.connectResponse (some Sec.response)),
  [0x2E, 0, 0, 3],
  [0x3E, 0, 0, 3, 3, 0xEB],
  [0x3E, 0, 0, 3, 3, 0xEC]
]

theorem twenty_lt : (20 : UInt8).toNat < 2 ^ 7 := by
  decide

def indication : Bytes :=
  (Mcs.ServerPdu.sendDataIndication 0x68 RdpClient.Following.shift_header 1
    RdpClient.Following.initiator_le 1003 0x70 (.short 20 twenty_lt) license).encode

def Finds (der : Der) : Prop :=
  (Mcs.ccResponse der (Mcs.der.toDer (Mcs.connectResponse (some Sec.response)))).toOption = some Sec.response

theorem welcomes {der : Der} (h : Finds der) : Mcs.Welcomes der libraries.place pdus 1004 serverData := by
  have hresponds : Mcs.Responds der (Mcs.der.toDer (Mcs.connectResponse (some Sec.response))) serverData := by
    refine ⟨Sec.response, Gcc.responseHeader, Gcc.responseBlocks, [], [1004], 0x00080004, ?_,
      Sec.carries_response, Nat.succ_pos 3, Sec.lastIds_responseBlocks, Sec.lastVersion_responseBlocks, rfl⟩
    unfold Finds at h
    cases hresponse : Mcs.ccResponse der (Mcs.der.toDer (Mcs.connectResponse (some Sec.response))) with
    | error e =>
      rw [hresponse] at h
      cases h
    | ok bytes =>
      rw [hresponse] at h
      rw [Option.some.inj h]
  refine .connects hresponds ⟨0x2E, 3, [], by decide, rfl, by decide⟩ (.cons ?_ (.cons ?_ .nil))
  . exact ⟨0x3E, 0, 3, [], by decide, rfl, by decide⟩
  . exact ⟨0x3E, 0, 3, [], by decide, rfl, by decide⟩

theorem finds : Finds libraries.der := by
  unfold Finds
  decide +kernel

theorem licensed : Sec.Licensed license :=
  ⟨0x0080, 0, _, rfl, by decide, alert, [], ⟨rfl, by decide⟩,
    .errorAlert 3 16 valid [] rfl ⟨rfl, rfl⟩, (List.append_nil _).symm⟩

theorem indicates : Mcs.Indicates (joined libraries.place 1004) indication license :=
  ⟨0x68, by decide, 1, by decide, 1003, 0x70, .short 20 (by decide), rfl, "global", by decide⟩

def served (rest : List Arrival) : List Arrival :=
  ((pdus ++ [indication]).flatMap Mcs.packet).map .byte ++ rest

theorem replies_append {pdus : List Bytes} (h : ∀ pdu ∈ pdus, pdu.length < 249) (rest : List Arrival) :
    Replies ((pdus.flatMap Mcs.packet).map .byte ++ rest) pdus rest := by
  induction pdus with
  | nil => exact .nil rest
  | cons pdu pdus ih =>
    rw [List.forall_mem_cons] at h
    rw [List.flatMap_cons, List.map_append, List.append_assoc]
    exact .cons (Mcs.reply_packet h.1 _) (ih h.2)

theorem admits (rest : List Arrival) : Admits libraries (served rest) 1004 serverData rest :=
  ⟨pdus, indication, license, welcomes finds, replies_append (by decide +kernel) rest, indicates, licensed⟩

end Admitted

open Admitted in
theorem connect_iff_admitted :
    ∃ client t', (plain.connect libraries).run (raw (arrives (served [])), fun _ => 0) = .ok client t' :=
  (connect_iff (run_plain_connectX224 (served []) fun _ => 0) rfl fits_plain).1.mpr
    ⟨1004, serverData, [], admits []⟩

end Connect

end Connector

namespace RdpClient

def session (self : RdpClient) : Session := ⟨self.global, self.mcs, [], []⟩

variable {env : Env} {connector : Connector} {client : RdpClient} {userId : UInt16} {left : List Arrival}

theorem follows_of_connects (h : connector.Connects env client userId left)
    (hwrites : client.mcs.link.writes = []) (hle : 1001 ≤ userId.toNat)
    (hname : 396 + (Nla.asBytes connector.name).length < 2 ^ 15) {frames : List Frame}
    {course : List (ClientState × List RdpEvent)}
    (hserves : Serves (joined env.place userId) .demandActivePDU frames course)
    (hleft : Arrival.Delivers (encodeAll frames) left) :
    Follows userId 1003 (joined env.place userId) frames course client.session := by
  have hstate : client.session.client.state = .demandActivePDU := by rw [session, h.global]; rfl
  have hlookup : client.session.mcs.channelIds.lookup "global" = some 1003 := by
    rw [session, h.channelIds]
    exact Mcs.lookup_joined
  have hnameOf : client.session.client.name = connector.name := by rw [session, h.global]; rfl
  refine ⟨⟨⟨h.user, hle, hlookup, by rwa [hnameOf]⟩, hwrites⟩, h.channelIds, by rwa [hstate], ?_⟩
  rw [Link.Delivers, session, h.reads]
  exact hleft

/--
The event is for the server, and comes when the connection sequence is complete.
-/
def heardIn (state : ClientState) (event : RdpEvent) : List RdpEvent :=
  match event with
  | .bitmap _ => []
  | _ => if state = .data then [event] else []

/--
The events of some calls that a server hears which sends these frames.
-/
def Use.heard (uses : List Use) (state : ClientState) (course : List (ClientState × List RdpEvent)) :
    List RdpEvent :=
  match uses with
  | [] => []
  | .read :: uses => heard uses (stateAfter state (course.take 1)) course.tail
  | .write event :: uses | .tryWrite event :: uses => heardIn state event ++ heard uses state course

theorem Use.tells_eq_heard {channel : UInt16} {channels : List (String × UInt16)} {frames : List Frame}
    {course : List (ClientState × List RdpEvent)} {s : Session} (hinj : Injective channels)
    (h : Follows userId channel channels frames course s) (uses : List Use) :
    tells uses s = heard uses s.client.state course := by
  induction uses generalizing s frames course with
  | nil => rfl
  | cons use uses ih =>
    have hwrite (event : RdpEvent) : told event s ++ tells uses (finalState ((RdpClient.write event).run s)) =
        heardIn s.client.state event ++ heard uses s.client.state course := by
      have hrest := ih (h.write event)
      rw [(speaks_write event s).2.1] at hrest
      rw [hrest]
      rfl
    cases use with
    | read =>
      obtain ⟨hread, hstate, _⟩ := h.read hinj
      rw [tells, ih hread, hstate]
      rfl
    | write event => exact hwrite event
    | tryWrite event =>
      rw [tells, finalState_tryWrite]
      exact hwrite event

/--
A whole session behind the security layer. With a server that admits the client and then sends these frames
the connection goes through, and whatever the user calls after it, the client delivers the events of the
frames that were read, and the server reads one message of each packet, and of all of them the events that
were written when the connection sequence was complete.
-/
theorem session_follows_server {s t : Link × Rng} {selectedProtocol : X224.Protocols}
    (hx224 : (connector.connectX224 env).run s = .ok selectedProtocol t) (hwrites : t.1.writes = [])
    (hfits : connector.Fits env selectedProtocol)
    (hname : 396 + (Nla.asBytes connector.name).length < 2 ^ 15) {data : Gcc.ServerData}
    (hadmits : Admits env t.1.reads userId data left) (hne : userId ≠ 1003) {frames : List Frame}
    {course : List (ClientState × List RdpEvent)}
    (hserves : Serves (joined env.place userId) .demandActivePDU frames course)
    (hleft : Arrival.Delivers (encodeAll frames) left) (uses : List Use) :
    ∃ client t', (connector.connect env).run s = .ok client t' ∧
      (Use.after uses client.session).client.state =
        stateAfter .demandActivePDU (course.take (Use.reads uses)) ∧
      (Use.after uses client.session).events = eventsOf (course.take (Use.reads uses)) ∧
      ∃ (packets : List Bytes) (inputs : List (List RdpEvent)),
        (Use.after uses client.session).mcs.link.sent = client.mcs.link.sent ++ packets ∧
        (Use.after uses client.session).mcs.link.received = client.mcs.link.received ++ packets.flatten ∧
        (elements (Server.readMessage (.ofNat (userId.toNat - 1001)) 1003)).run packets.flatten =
          .ok inputs [] ∧
        inputs.length = packets.length ∧ inputs.flatten = Use.heard uses .demandActivePDU course := by
  obtain ⟨client, t', hrun, hconnects, hnil⟩ := Connector.exists_run_connect hx224 hwrites hfits hadmits
  have hle : 1001 ≤ userId.toNat := by
    obtain ⟨_, _, _, hwelcomes, _⟩ := hadmits
    exact hwelcomes.le
  have hinj := @Mcs.injective_joined env.place userId hne
  have hfollows := follows_of_connects hconnects hnil hle hname hserves hleft
  have hstate : client.session.client.state = .demandActivePDU := by
    rw [session, hconnects.global]
    rfl
  obtain ⟨_, hafter, hevents⟩ := Use.follows_after hinj hfollows uses
  have htells := Use.tells_after uses hfollows.isOpen.toJoined
  rw [Use.tells_eq_heard hinj hfollows, hstate] at htells
  rw [hstate] at hafter
  obtain ⟨packets, inputs, hsent, hreceived, hinputs, hlength, hheard⟩ := htells.reads
  exact ⟨client, t', hrun, hafter, hevents, packets, inputs, hsent, hreceived hnil, hinputs, hlength,
    hheard⟩

open Connector.Admitted Following in
/--
The server draws one rectangle behind the connection sequence, and the user presses a key once before its
end and once after it.
-/
theorem session_follows_server_drawing :
    ∃ client t' packets inputs,
      (plain.connect libraries).run
        (raw (arrives (served (Tpkt.Client.Framing.link (encodeAll frames)).reads)), fun _ => 0) =
          .ok client t' ∧
      (elements (Server.readMessage 3 1003)).run packets = .ok inputs [] ∧
      inputs.flatten = [Told.key] ∧
      (Use.after [.read, .read, .tryWrite Told.key, .read, .read, .read, .read, .write Told.key]
        client.session).events = [rectangle.event] := by
  obtain ⟨client, t', hrun, _, hevents, packets, inputs, _, _, hinputs, _, hheard⟩ :=
    session_follows_server (run_plain_connectX224 _ fun _ => 0) rfl fits_plain (by decide) (admits _)
      (by decide) serves_frames (Tpkt.Client.Framing.delivers_link (encodeAll frames))
      [.read, .read, .tryWrite Told.key, .read, .read, .read, .read, .write Told.key]
  exact ⟨client, t', packets.flatten, inputs, hrun, hinputs, hheard, hevents⟩

end RdpClient

end Rdp
