import Rdp.Core.Global.Step
import Rdp.Core.Mcs.Listening
import Rdp.Core.Server.Inputs

/-!
This module contains what a server reads of the packets that a client sends: the input events of its
user, and no events in any other packet.
-/

namespace Rdp

open Prog Cursor
open Global (Session PDU DataPDU ShareData PDUType2 InputEventType TSInputEvent)

namespace Link

variable {m : Message} {buffer : Bytes}

theorem received_write (h : m.write = .ok buffer) (link : Link) (hwrites : link.writes = []) :
    (finalState ((write m).run link)).writes = [] ∧
      (finalState ((write m).run link)).received = link.received ++ buffer := by
  have hsocket : (Socket.write buffer).run link.stream.socket =
      .ok buffer.length { link.stream.socket with
        received := link.stream.socket.received ++ buffer } := by
    change Socket.write buffer link.stream.socket = _
    unfold Socket.write
    split
    next => rfl
    next h' => cases hwrites.symm.trans h'
    next h' => cases hwrites.symm.trans h'
  rw [run_write h, hsocket, finalState_ok]
  simp only [writes, received, Stream.socket_withSocket]
  exact ⟨hwrites, trivial⟩

end Link

namespace Mcs.Client

variable {client : Client} {name : String} {userId channel : UInt16} {m : Message} {bytes : Bytes}

theorem exists_packet (huser : client.userId = some userId) (hle : 1001 ≤ userId.toNat)
    (hchannel : client.channelIds.lookup name = some channel) (h : m.write = .ok bytes)
    (hshort : bytes.length < 2 ^ 15) :
    ∃ (packet : Bytes) (node : Message), IsPacket (.ofNat (userId.toNat - 1001)) channel bytes packet ∧
      node.write = .ok packet ∧
      (finalState ((write name m).run client)).link = finalState ((Link.write node).run client.link) := by
  obtain ⟨length, hlength, hcount⟩ := Per.exists_encodeLength (.ofNat bytes.length)
  obtain ⟨node, hnode, hrun⟩ := X224.Client.run_write_eq
    (write_request h bytes.length hlength (.ofNat (userId.toNat - 1001)) channel)
    (by rw [length_requestBytes]; split at hcount <;> omega) client.link
  refine ⟨_, node, isPacket_of_lt hshort hlength _ _, hnode, ?_⟩
  rw [run_write huser hle hchannel, m.length_of_write h]
  simp only [onX224, Prog.run_zoom, hrun]
  cases (Link.write node).run client.link <;> rfl

end Mcs.Client

namespace Global

/--
The client is on the channel of its PDUs as this user, and its name leaves room in a packet for the
Confirm Active.
-/
structure Session.Joined (userId channel : UInt16) (s : Session) : Prop where
  user : s.mcs.userId = some userId
  le : 1001 ≤ userId.toNat
  channel : s.mcs.channelIds.lookup "global" = some channel
  name : 396 + (Nla.asBytes s.client.name).length < 2 ^ 15

/--
Packets were sent, and of each of them the server reads the events it has with it. The transport has
all of their bytes, unless one of its writes was short or failed.
-/
structure Session.Sent (user channel : UInt16) (packets : List (Bytes × List RdpEvent)) (s t : Session) :
    Prop where
  sent : t.mcs.link.sent = s.mcs.link.sent ++ packets.map (·.1)
  received : s.mcs.link.writes = [] →
    t.mcs.link.writes = [] ∧ t.mcs.link.received = s.mcs.link.received ++ packets.flatMap (·.1)
  reads : ∀ packet ∈ packets, ∀ rest,
    (Server.readMessage user channel).run (packet.1 ++ rest) = .ok packet.2 rest

/--
A server reads these events of the packets between two sessions.
-/
structure Session.Tells (userId channel : UInt16) (events : List RdpEvent) (s t : Session) : Prop where
  joined : t.Joined userId channel
  packets : ∃ packets, Session.Sent (.ofNat (userId.toNat - 1001)) channel packets s t ∧
    packets.flatMap (·.2) = events

namespace Session

variable {userId channel : UInt16} {s t u : Session}

theorem Sent.trans {packets packets' : List (Bytes × List RdpEvent)} (h : Sent userId channel packets s t)
    (h' : Sent userId channel packets' t u) : Sent userId channel (packets ++ packets') s u where
  sent := by
    rw [h'.sent, h.sent, List.map_append, List.append_assoc]
  received hwrites := by
    obtain ⟨hwrites', hreceived⟩ := h.received hwrites
    obtain ⟨hwrites'', hreceived'⟩ := h'.received hwrites'
    refine ⟨hwrites'', ?_⟩
    rw [hreceived', hreceived, List.flatMap_append, List.append_assoc]
  reads := by
    intro packet hpacket
    rcases List.mem_append.mp hpacket with hpacket | hpacket
    . exact h.reads packet hpacket
    . exact h'.reads packet hpacket

theorem Tells.trans {events events' : List RdpEvent} (h : Tells userId channel events s t)
    (h' : Tells userId channel events' t u) : Tells userId channel (events ++ events') s u := by
  obtain ⟨packets, hsent, rfl⟩ := h.packets
  obtain ⟨packets', hsent', rfl⟩ := h'.packets
  exact ⟨h'.joined, packets ++ packets', hsent.trans hsent', List.flatMap_append⟩

theorem Tells.reads {events : List RdpEvent} (h : Tells userId channel events s t) :
    ∃ (packets : List Bytes) (inputs : List (List RdpEvent)),
      t.mcs.link.sent = s.mcs.link.sent ++ packets ∧
      (s.mcs.link.writes = [] → t.mcs.link.received = s.mcs.link.received ++ packets.flatten) ∧
      (elements (Server.readMessage (.ofNat (userId.toNat - 1001)) channel)).run packets.flatten =
        .ok inputs [] ∧
      inputs.length = packets.length ∧ inputs.flatten = events := by
  obtain ⟨packets, ⟨hsent, hreceived, hreads⟩, hevents⟩ := h.packets
  have hread := run_elements_flatMap (Server.consumes_readMessage _ channel) hreads rfl
  refine ⟨packets.map (·.1), packets.map (·.2), hsent, ?_, ?_, ?_, ?_⟩
  . intro hwrites
    exact (hreceived hwrites).2
  . exact hread
  . rw [List.length_map, List.length_map]
  . exact hevents

theorem Joined.tells_of_listens (h : s.Joined userId channel) (hname : t.client.name = s.client.name)
    (hlistens : s.mcs.Listens t.mcs) : Tells userId channel [] s t := by
  obtain ⟨⟨hsent, hreceived, hwrites⟩, huser, hchannels⟩ := hlistens
  refine ⟨⟨huser.trans h.user, h.le, ?_, ?_⟩, [], ⟨?_, ?_, by simp⟩, rfl⟩
  . rw [hchannels, h.channel]
  . rw [hname]
    exact h.name
  . rw [hsent, List.map_nil, List.append_nil]
  . intro hnil
    refine ⟨hwrites.trans hnil, ?_⟩
    exact hreceived.trans (List.append_nil _).symm

theorem Joined.refl (h : s.Joined userId channel) : Tells userId channel [] s s :=
  h.tells_of_listens rfl (refl_of Mcs.Client.Listens s.mcs)

end Session

theorem PDU.length_wire {pdu : PDU} {userId : UInt16} {wire bytes : Bytes} (h : pdu.wire userId = .ok wire)
    (hbytes : (Message.component pdu.message).write = .ok bytes) (hlt : bytes.length + 6 < 2 ^ 16) :
    wire.length = bytes.length + 6 := by
  have hmod : bytes.length % 2 ^ 16 = bytes.length := Nat.mod_eq_of_lt (by omega)
  have hlength : bytes.length + 6 = (UInt16.ofNat (bytes.length + 6)).toNat :=
    (UInt16.toNat_ofNat_of_lt' hlt).symm
  have hheader := @Client.shareControlHeader_of_lt bytes pdu.pduType userId (by rwa [hmod])
  rw [hmod] at hheader
  rw [PDU.wire, toVec, hbytes, Except.ok_bind, hheader, Except.ok_bind, toVec, write_frame hlength] at h
  cases h
  simp [Frame.encode, Endian.length_encode16]
  omega

namespace Client

variable {userId channel : UInt16} {s : Session} {pdu pdu' : PDU} {events : List RdpEvent}

theorem tells_writePdu {wire : Bytes} (hwire : pdu.wire s.client.userId = .ok wire)
    (hshort : wire.length < 2 ^ 15) (hpdu : PDU.fromStream.run wire = .ok pdu' [])
    (hevents : Server.inputsOf pdu' = .ok events) (h : s.Joined userId channel) :
    Session.Tells userId channel events s (finalState ((writePdu pdu).run s)) := by
  obtain ⟨bytes, hbytes, hheader⟩ := Except.bind_eq_ok hwire
  obtain ⟨header, hcontrol, hwrite⟩ := Except.bind_eq_ok hheader
  by_cases hlt : bytes.length % 2 ^ 16 + 6 < 2 ^ 16
  . rw [shareControlHeader_of_lt _ _ hlt] at hcontrol
    cases hcontrol
    have hnode : (Message.component (frameOf pdu s.client.userId bytes).node).write = .ok wire :=
      toVec_eq_ok_iff.mp hwrite
    obtain ⟨packet, node, hpacket, hbuffer, hlink⟩ :=
      Mcs.Client.exists_packet h.user h.le h.channel hnode hshort
    have hchannels := Mcs.Client.moves_write "global"
      (.component (frameOf pdu s.client.userId bytes).node) s.mcs
    have hfinal : finalState ((writePdu pdu).run s) = wrote [pdu] (finalState ((Mcs.Client.write "global"
        (.component (frameOf pdu s.client.userId bytes).node)).run s.mcs)) s := by
      rw [run_writePdu hbytes hlt]
      cases (Mcs.Client.write "global"
        (.component (frameOf pdu s.client.userId bytes).node)).run s.mcs <;> rfl
    rw [hfinal]
    generalize finalState ((Mcs.Client.write "global"
      (.component (frameOf pdu s.client.userId bytes).node)).run s.mcs) = mcs at hlink hchannels
    refine ⟨⟨hchannels.1.trans h.user, h.le, ?_, h.name⟩, [(packet, events)], ⟨?_, ?_, ?_⟩, ?_⟩
    . change mcs.channelIds.lookup "global" = some channel
      rw [hchannels.2, h.channel]
    . change mcs.link.sent = _
      rw [hlink, Link.sent_write hbuffer]
      rfl
    . intro hwrites
      change mcs.link.writes = [] ∧ mcs.link.received = _
      rw [hlink]
      simpa using Link.received_write hbuffer s.mcs.link hwrites
    . simpa using Server.run_readMessage hpacket hpdu hevents
    . simp
  . rw [shareControlHeader_of_le _ _ (by omega)] at hcontrol
    cases hcontrol

theorem exists_wire_dataPdu {message : DataPDU} {payload : Bytes}
    (h : (Message.component message.message).write = .ok payload) (hshort : payload.length < 2 ^ 14)
    (shareId : Option UInt32) (userId : UInt16) :
    ∃ pdu wire, ∃ data : ShareData, dataPdu shareId message = .ok pdu ∧ pdu.wire userId = .ok wire ∧
      wire.length < 2 ^ 15 ∧ PDU.fromStream.run wire = .ok ⟨.pdutypeDatapdu, data.node⟩ [] ∧
      data.pduType2 = message.pduType.toU8 ∧ data.payload = payload := by
  obtain ⟨pdu, bytes, hpdu, hbytes, hlength⟩ := dataPdu_of_write h (by omega) shareId
  have hlt : payload.length + 18 < 2 ^ 16 := by omega
  obtain ⟨wire, hwire, hread⟩ := exists_dataWire (shareId.getD 0) userId message.pduType hlt
  have hheader : dataPdu shareId message =
      shareDataHeader (some (shareId.getD 0)) (some message.pduType) (some payload) := by
    rw [dataPdu, toVec, h]
    rfl
  have hpduWire : pdu.wire userId = .ok wire := by
    rw [dataWire, ← hheader, hpdu, Except.ok_bind] at hwire
    exact hwire
  have hcount := PDU.length_wire hpduWire hbytes (by omega)
  have hstream := hread []
  rw [List.append_nil] at hstream
  exact ⟨pdu, wire, _, hpdu, hpduWire, by omega, hstream, rfl, rfl⟩

theorem tells_writeDataPdu {message : DataPDU} {payload : Bytes} {n : Nat}
    (hpayload : (Message.component message.message).write = .ok payload)
    (hlength : payload.length = n) (hshort : n < 2 ^ 14)
    (hevents : (if message.pduType.toU8 = PDUType2.pdutype2Input.toU8 then
      parse Server.readInputData payload else .ok []) = .ok events) (h : s.Joined userId channel) :
    Session.Tells userId channel events s (finalState ((writeDataPdu message).run s)) := by
  obtain ⟨pdu, wire, data, hpdu, hwire, hwireShort, hread, htype, rfl⟩ :=
    exists_wire_dataPdu hpayload (by omega) s.client.shareId s.client.userId
  rw [run_writeDataPdu hpdu rfl]
  apply tells_writePdu hwire hwireShort hread ?_ h
  rw [Server.inputsOf_node, htype]
  exact hevents

theorem writtenAs_of_lengths {capabilities : List Capability} {lengths : List Nat}
    (h : List.Forall₂ (fun capability n => ∃ bytes,
      (Message.component capability.message).write = .ok bytes ∧ bytes.length = n) capabilities lengths) :
    ∃ bodies, WrittenAs capabilities bodies ∧ lengthOfSets bodies = (lengths.map (· + 4)).sum := by
  induction h with
  | nil => exact ⟨[], .nil, rfl⟩
  | @cons capability n capabilities lengths hbytes _ ih =>
    obtain ⟨body, hwrite, rfl⟩ := hbytes
    obtain ⟨bodies, hbodies, hlength⟩ := ih
    refine ⟨body :: bodies, .cons hwrite hbodies, ?_⟩
    rw [List.map_cons, List.sum_cons, ← hlength]
    rfl

theorem tsConfirmActivePdu_getD (shareId : Option UInt32) (source : Option Bytes)
    (capabilitySets : Option Trame) : tsConfirmActivePdu shareId source capabilitySets =
      tsConfirmActivePdu (some (shareId.getD 0)) source capabilitySets := rfl

theorem exists_wire_confirmActivePdu (client : Client)
    (hname : 396 + (Nla.asBytes client.name).length < 2 ^ 15) (userId : UInt16) :
    ∃ pdu wire message, client.confirmActivePdu = .ok pdu ∧ pdu.wire userId = .ok wire ∧
      wire.length < 2 ^ 15 ∧ PDU.fromStream.run wire = .ok ⟨.pdutypeConfirmactivepdu, message⟩ [] := by
  obtain ⟨bodies, hbodies, hsum⟩ := writtenAs_of_lengths client.lengths_capabilities
  have hlength : lengthOfSets bodies = 376 := hsum
  have hlt : 20 + (Nla.asBytes client.name).length + lengthOfSets bodies < 2 ^ 16 := by omega
  obtain ⟨wire, hwire, hcount, hread⟩ :=
    exists_confirmActiveWire (client.shareId.getD 0) userId hbodies hlt
  obtain ⟨pdu, hpdu⟩ := client.exists_confirmActivePdu
  have hconfirm : confirmActiveWire (client.shareId.getD 0) userId (Nla.asBytes client.name)
      client.capabilities = pdu.wire userId := by
    rw [confirmActivePdu] at hpdu
    obtain ⟨sets, hsets, hpdu⟩ := Except.bind_eq_ok hpdu
    rw [tsConfirmActivePdu_getD] at hpdu
    rw [confirmActiveWire, hsets, Except.ok_bind, hpdu, Except.ok_bind]
  have hstream := hread []
  rw [List.append_nil] at hstream
  exact ⟨pdu, wire, _, hpdu, hconfirm.symm.trans hwire, by omega, hstream⟩

theorem tells_writeConfirmActivePdu (h : s.Joined userId channel) :
    Session.Tells userId channel [] s (finalState (writeConfirmActivePdu.run s)) := by
  obtain ⟨pdu, wire, message, hpdu, hwire, hshort, hread⟩ :=
    exists_wire_confirmActivePdu s.client h.name s.client.userId
  have hrun : writeConfirmActivePdu.run s = (writePdu pdu).run s := by
    unfold writeConfirmActivePdu
    rw [EStateM.run_bind, EStateM.run_get]
    simp only [hpdu, lift_ok, pure_bind]
  rw [hrun]
  exact tells_writePdu hwire hshort hread rfl h

/--
What a server reads of the packets between two sessions are no events.
-/
def Silent (userId channel : UInt16) (s t : Session) : Prop :=
  s.Joined userId channel → Session.Tells userId channel [] s t

instance : IsPreorder Session (Silent userId channel) where
  refl _ h := h.refl
  trans _ _ _ h h' hs := (h hs).trans (h' (h hs).joined)

theorem silent_modifyClient {f : Client → Client} (h : ∀ client, (f client).name = client.name) :
    Moves (Silent userId channel) (modifyClient f) :=
  Moves.modify fun s hs => hs.tells_of_listens (h s.client) (refl_of Mcs.Client.Listens s.mcs)

theorem silent_readCapabilities (capabilitySets : List DataType) :
    Moves (Silent userId channel) (readCapabilities capabilitySets) := by
  induction capabilitySets with
  | nil => exact Moves.pure ()
  | cons capabilitySet capabilitySets ih =>
    rw [readCapabilities]
    refine Moves.bind (Moves.lift _) ?_
    intro capability
    cases capability with
    | none => exact ih
    | some capability =>
      refine Moves.bind (silent_modifyClient fun _ => rfl) ?_
      exact fun _ => ih

theorem silent_readDemandActivePdu (stream : Bytes) :
    Moves (Silent userId channel) (readDemandActivePdu stream) := by
  unfold readDemandActivePdu
  refine Moves.bind (Moves.lift _) ?_
  intro pdu
  split
  . refine Moves.bind (Moves.lift _) ?_
    intro capabilitySets
    refine Moves.bind (silent_readCapabilities _) ?_
    intro
    refine Moves.bind (Moves.lift _) ?_
    intro shareId
    refine Moves.bind (silent_modifyClient fun _ => rfl) ?_
    exact fun _ => Moves.pure _
  . exact Moves.pure _

theorem silent_writeClientFinalize : Moves (Silent userId channel) writeClientFinalize := by
  -- The data PDUs of the connection sequence are no input.
  unfold writeClientFinalize
  refine Moves.bind Moves.get ?_
  intro s
  refine Moves.bind (fun _ => tells_writeDataPdu (n := 4) rfl rfl (by decide) rfl) ?_
  intro
  refine Moves.bind (fun _ => tells_writeDataPdu (n := 8) rfl rfl (by decide) rfl) ?_
  intro
  refine Moves.bind (fun _ => tells_writeDataPdu (n := 8) rfl rfl (by decide) rfl) ?_
  intro
  exact fun _ => tells_writeDataPdu (n := 8) rfl rfl (by decide) rfl

theorem silent_expectPdu (read : Bytes → RdpResult Bool) (next : ClientState) (payload : Tpkt.Payload) :
    Moves (Silent userId channel) (expectPdu read next payload) := by
  unfold expectPdu
  refine Moves.bind (Moves.lift _) ?_
  intro found
  split
  . exact silent_modifyClient fun _ => rfl
  . exact Moves.pure ()

theorem silent_expectDemandActivePdu (payload : Tpkt.Payload) :
    Moves (Silent userId channel) (expectDemandActivePdu payload) := by
  unfold expectDemandActivePdu
  refine Moves.bind (Moves.lift _) ?_
  intro stream
  refine Moves.bind (silent_readDemandActivePdu stream) ?_
  intro found
  cases found with
  | false => exact Moves.pure ()
  | true =>
    refine Moves.bind (fun s => tells_writeConfirmActivePdu) ?_
    intro
    refine Moves.bind silent_writeClientFinalize ?_
    intro
    exact silent_modifyClient fun _ => rfl

theorem silent_readDataPdu (stream : Bytes) : Moves (Silent userId channel) (readDataPdu stream) := by
  intro s hs
  have hfinal := finalState_readDataPdu stream s
  by_cases hdeactivates : Deactivates stream
  . rw [hfinal.1 hdeactivates]
    exact hs.tells_of_listens rfl (refl_of Mcs.Client.Listens s.mcs)
  . rw [hfinal.2 hdeactivates]
    exact hs.refl

theorem silent_read (payload : Tpkt.Payload) : Moves (Silent userId channel) (read payload) := by
  unfold read
  refine Moves.bind Moves.get ?_
  intro s
  cases s.client.state with
  | demandActivePDU => exact silent_expectDemandActivePdu payload
  | data =>
    cases payload with
    | raw stream => exact silent_readDataPdu stream
    | fastPath secFlag stream =>
      refine (moves_readFastPath stream).imp ?_
      intro s t hkept hs
      apply hs.tells_of_listens (congrArg name hkept.1)
      rw [hkept.2.1]
      exact refl_of Mcs.Client.Listens s.mcs
  | _ => exact silent_expectPdu _ _ payload

section Input

open Endian (length_encode16 length_encode32)

variable (eventType : InputEventType) (data : Bytes)

def inputBytes : Bytes :=
  Endian.le.encode16 1 ++ (Endian.le.encode16 0 ++ (Endian.le.encode32 0 ++
    (Endian.le.encode16 eventType.toU16 ++ data)))

theorem length_inputBytes : (inputBytes eventType data).length = 10 + data.length := by
  simp only [inputBytes, List.length_append, length_encode16, length_encode32]
  omega

theorem write_tsInputPduData : (Message.component (tsInputPduData (some [.component
    (tsInputEvent (some eventType) (some data))])).message).write = .ok (inputBytes eventType data) := by
  simp [tsInputPduData, tsInputEvent, inputBytes, Leaf.write, Message.write]

theorem parse_inputBytes {eventType : InputEventType} {data : Bytes} {event : RdpEvent}
    (h : Server.readInput.run (Endian.le.encode32 0 ++ (Endian.le.encode16 eventType.toU16 ++ data)) =
      .ok event []) : parse Server.readInputData (inputBytes eventType data) = .ok [event] := by
  rw [parse_eq_ok]
  refine ⟨[], ?_⟩
  refine run_bind_eq_ok_iff.mpr ⟨_, _, run_readU16_encode16 _ _ _, ?_⟩
  refine run_bind_eq_ok_iff.mpr ⟨_, _, run_readU16_encode16 _ _ _, ?_⟩
  exact run_bind_eq_ok_iff.mpr ⟨_, _, h, rfl⟩

end Input

theorem tells_writeInputEvent {event : TSInputEvent} {data : Bytes} {input : RdpEvent}
    (hstate : s.client.state = .data) (hdata : (Message.component event.message).write = .ok data)
    (hlength : data.length = 6)
    (hread : Server.readInput.run (Endian.le.encode32 0 ++
      (Endian.le.encode16 event.eventType.toU16 ++ data)) = .ok input [])
    (h : s.Joined userId channel) :
    Session.Tells userId channel [input] s (finalState ((writeInputEvent event).run s)) := by
  rw [run_writeInputEvent_of_data event hstate, toVec_eq_ok_iff.mpr hdata, lift_ok, pure_bind]
  apply tells_writeDataPdu (write_tsInputPduData event.eventType data) (length_inputBytes _ _) ?_ ?_ h
  . omega
  . exact parse_inputBytes hread

end Client

end Global

namespace RdpClient

open Global Global.Client

variable {userId channel : UInt16} {s : Session}

theorem silent_read : Moves (Silent userId channel) read := by
  unfold read
  refine Moves.bind ?_ ?_
  . refine Moves.zoom Mcs.Client.listens_read ?_
    exact fun s mcs hlistens hs => hs.tells_of_listens rfl hlistens
  rintro ⟨channelName, message⟩
  dsimp only
  split
  . exact Client.silent_read message
  . exact Moves.throw _

/--
The event is sent, if it is one for the server and the connection sequence is complete.
-/
def told (event : RdpEvent) (s : Session) : List RdpEvent :=
  match event with
  | .bitmap _ => []
  | _ => if s.client.state = .data then [event] else []

theorem tells_writeInputEvent_of_ne (event : TSInputEvent) (hstate : s.client.state ≠ .data)
    (h : s.Joined userId channel) :
    Session.Tells userId channel [] s (finalState ((writeInputEvent event).run s)) := by
  rw [run_writeInputEvent_of_ne event hstate, finalState_error]
  exact h.refl

theorem tells_write (event : RdpEvent) (h : s.Joined userId channel) :
    Session.Tells userId channel (told event s) s (finalState ((write event).run s)) := by
  unfold told
  cases event with
  | bitmap event => exact h.refl
  | pointer pointer =>
    dsimp only
    split
    next hstate =>
      have hread := Server.run_readInput_pointer pointer []
      exact tells_writeInputEvent hstate (Message.write_component _) rfl hread h
    next hstate => exact tells_writeInputEvent_of_ne _ hstate h
  | key key =>
    dsimp only
    split
    next hstate =>
      have hread := Server.run_readInput_key key []
      exact tells_writeInputEvent hstate (Message.write_component _) rfl hread h
    next hstate => exact tells_writeInputEvent_of_ne _ hstate h

theorem told_of_run_write {event : RdpEvent} {u : Unit} {t : Session}
    (h : (write event).run s = .ok u t) : told event s = [event] := by
  by_cases hstate : s.client.state = .data
  . cases event with
    | bitmap bitmap => cases h
    | _ => exact if_pos hstate
  . cases event with
    | bitmap bitmap => cases h
    | pointer pointer => cases (run_writeInputEvent_of_ne _ hstate).symm.trans h
    | key key => cases (run_writeInputEvent_of_ne _ hstate).symm.trans h

theorem tells_of_run_write {event : RdpEvent} {u : Unit} {t : Session} (h : s.Joined userId channel)
    (hrun : (write event).run s = .ok u t) : Session.Tells userId channel [event] s t := by
  have htells := tells_write event h
  rwa [told_of_run_write hrun, hrun, finalState_ok] at htells

theorem finalState_tryWrite (event : RdpEvent) (s : Session) :
    finalState ((tryWrite event).run s) = finalState ((write event).run s) := by
  change finalState (tryWrite event s) = finalState (write event s)
  unfold tryWrite
  split
  next hrun => rw [hrun]; rfl
  next => rfl

/--
What the user of a client calls.
-/
inductive Use where
  | read
  | write (event : RdpEvent)
  | tryWrite (event : RdpEvent)

namespace Use

def program (use : Use) : Prog Error Session Unit :=
  match use with
  | .read => RdpClient.read
  | .write event => RdpClient.write event
  | .tryWrite event => RdpClient.tryWrite event

def after (uses : List Use) (s : Session) : Session :=
  match uses with
  | [] => s
  | use :: uses => after uses (finalState (use.program.run s))

/--
The events of some calls that are for the server and found the connection sequence complete.
-/
def tells (uses : List Use) (s : Session) : List RdpEvent :=
  match uses with
  | [] => []
  | .read :: uses => tells uses (finalState (RdpClient.read.run s))
  | .write event :: uses => told event s ++ tells uses (finalState ((RdpClient.write event).run s))
  | .tryWrite event :: uses =>
    told event s ++ tells uses (finalState ((RdpClient.tryWrite event).run s))

theorem tells_after (uses : List Use) (h : s.Joined userId channel) :
    Session.Tells userId channel (tells uses s) s (after uses s) := by
  induction uses generalizing s with
  | nil => exact h.refl
  | cons use uses ih =>
    cases use with
    | read =>
      have hread := silent_read s h
      exact hread.trans (ih hread.joined)
    | write event =>
      have hwrite := tells_write event h
      exact hwrite.trans (ih hwrite.joined)
    | tryWrite event =>
      have hwrite := tells_write event h
      rw [← finalState_tryWrite] at hwrite
      exact hwrite.trans (ih hwrite.joined)

end Use

/--
Whatever a user calls, whatever arrives, and whichever calls fail, a server reads one message of each
packet that is sent, and of all of them together the events that found the connection sequence
complete, unchanged, in order and once each. The transport has all of the packets, unless one of its
writes was short or failed.
-/
theorem inputs_reach_server (h : s.Joined userId channel) (uses : List Use) :
    ∃ (packets : List Bytes) (inputs : List (List RdpEvent)),
      (Use.after uses s).mcs.link.sent = s.mcs.link.sent ++ packets ∧
      (s.mcs.link.writes = [] →
        (Use.after uses s).mcs.link.received = s.mcs.link.received ++ packets.flatten) ∧
      (elements (Server.readMessage (.ofNat (userId.toNat - 1001)) channel)).run packets.flatten =
        .ok inputs [] ∧
      inputs.length = packets.length ∧ inputs.flatten = Use.tells uses s := by
  exact (Use.tells_after uses h).reads

namespace Told

def session : Session where
  client := { Client.new 1004 1003 800 600 .us "mstsc-rs" with state := .data, shareId := some 1 }
  mcs := Mcs.Client.WriteAgrees.connected
  written := []
  events := []

def key : RdpEvent := .key ⟨0x1E, true⟩

def button : RdpEvent := .pointer ⟨10, 20, .left, true⟩

end Told

open Told in
theorem inputs_reach_server_two : ∃ (packets : List Bytes) (inputs : List (List RdpEvent)),
    (elements (Server.readMessage 3 1003)).run packets.flatten = .ok inputs [] ∧
      inputs.flatten = [key, button] := by
  have hjoined : session.Joined 1004 1003 := ⟨rfl, by decide, rfl, by decide⟩
  obtain ⟨packets, inputs, _, _, hread, _, hinputs⟩ :=
    inputs_reach_server hjoined [.write key, .tryWrite button]
  exact ⟨packets, inputs, hread, hinputs⟩

end RdpClient

end Rdp
