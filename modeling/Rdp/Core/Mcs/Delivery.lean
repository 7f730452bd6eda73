import Rdp.Core.Mcs.Impl
import Rdp.Core.Per.Length

/-!
This module contains the delivery of what a server sends to the MCS layer: one result for every
frame, in the order of the stream.
-/

namespace Rdp.Mcs

open Prog Cursor

/--
A PER length of one or of two bytes. The reader skips its value.
-/
inductive PerLength where
  | short (a : UInt8) (h : a.toNat < 2 ^ 7)
  | long (a b : UInt8) (h : 2 ^ 7 ≤ a.toNat)

def PerLength.encode (length : PerLength) : Bytes :=
  match length with
  | short a _ => [a]
  | long a b _ => [a, b]

/--
What the server sends behind the X.224 header. The initiator is counted from 1001.
-/
inductive ServerPdu where
  | sendDataIndication (header : UInt8)
    (hheader : header >>> 2 = DomainMCSPDU.sendDataIndication.toU8) (initiator : UInt16)
    (hinitiator : initiator.toNat ≤ 64534) (channelId : UInt16) (flags : UInt8) (length : PerLength)
    (data : Bytes)
  | other (header : UInt8) (hheader : header >>> 2 ≠ DomainMCSPDU.sendDataIndication.toU8)
    (rest : Bytes)

namespace ServerPdu

def encode (pdu : ServerPdu) : Bytes :=
  match pdu with
  | sendDataIndication header _ initiator _ channelId flags length data =>
    header :: (Endian.be.encode16 initiator ++ (Endian.be.encode16 channelId ++
      (flags :: (length.encode ++ data))))
  | other header _ rest => header :: rest

inductive Yields (channels : List (String × UInt16)) : ServerPdu → RdpResult (String × Bytes) → Prop where
  | data {header hheader initiator hinitiator channelId flags length data} {name : String}
    (hchannel : (name, channelId) ∈ channels) :
    Yields channels (sendDataIndication header hheader initiator hinitiator channelId flags length data)
      (.ok (name, data))
  | unknown {header hheader initiator hinitiator channelId flags length data}
    (hchannel : ∀ name, (name, channelId) ∉ channels) :
    Yields channels (sendDataIndication header hheader initiator hinitiator channelId flags length data)
      (.error (.error (.new .unknown "MCS: unknown channel")))
  | disconnect {header : UInt8} {hheader rest}
    (hdisconnect : header >>> 2 = DomainMCSPDU.disconnectProviderUltimatum.toU8) :
    Yields channels (other header hheader rest)
      (.error (.error (.new .disconnect "MCS: Disconnect Provider Ultimatum")))
  | invalid {header : UInt8} {hheader rest}
    (hdisconnect : header >>> 2 ≠ DomainMCSPDU.disconnectProviderUltimatum.toU8) :
    Yields channels (other header hheader rest)
      (.error (.error (.new .invalidData "MCS: Invalid opcode")))

end ServerPdu

/--
Every id belongs to one channel.
-/
def Injective (channels : List (String × UInt16)) : Prop :=
  ∀ a ∈ channels, ∀ b ∈ channels, a.2 = b.2 → a = b

theorem find?_of_mem {channels : List (String × UInt16)} (hinj : Injective channels) {name : String}
    {id : UInt16} (h : (name, id) ∈ channels) :
    channels.find? (fun channel => channel.2 = id) = some (name, id) := by
  obtain ⟨channel, hfind⟩ : ∃ channel, channels.find? (fun channel => channel.2 = id) = some channel := by
    rw [← Option.isSome_iff_exists, List.find?_isSome]
    exact ⟨(name, id), h, decide_eq_true rfl⟩
  have hid : channel.2 = id := by simpa using List.find?_some hfind
  rw [hfind, hinj channel (List.mem_of_find?_eq_some hfind) (name, id) h hid]

theorem find?_of_not_mem {channels : List (String × UInt16)} {id : UInt16}
    (h : ∀ name, (name, id) ∉ channels) : channels.find? (fun channel => channel.2 = id) = none := by
  rw [List.find?_eq_none]
  rintro ⟨name, id'⟩ hmem hid
  cases of_decide_eq_true hid
  exact h name hmem

theorem PerLength.run_readLength (length : PerLength) (rest : Bytes) :
    ∃ v, Per.readLength.run (length.encode ++ rest) = .ok v rest := by
  cases length with
  | short a h => exact ⟨_, Per.run_readLength_short h rest⟩
  | long a b h => exact ⟨_, Per.run_readLength_long h rest⟩

theorem run_readInteger16 {minimum v : UInt16} (h : v.toNat + minimum.toNat < 2 ^ 16) (rest : Bytes) :
    (Per.readInteger16 minimum).run (Endian.be.encode16 v ++ rest) =
      .ok (.ofNat (v.toNat + minimum.toNat)) rest := by
  refine run_bind_eq_ok_iff.mpr ⟨v, rest, run_readU16_encode16 _ _ _, ?_⟩
  rw [checkedAdd_of_lt h]
  rfl

theorem run_readIndication {channels : List (String × UInt16)} {header flags : UInt8}
    (hheader : header >>> 2 = DomainMCSPDU.sendDataIndication.toU8) {initiator : UInt16}
    (hinitiator : initiator.toNat ≤ 64534) (channelId : UInt16) (length : PerLength) (data : Bytes) :
    (readIndication channels).run (header :: (Endian.be.encode16 initiator ++
        (Endian.be.encode16 channelId ++ (flags :: (length.encode ++ data))))) =
      match channels.find? (fun channel => channel.2 = channelId) with
      | some channel => .ok channel.1 data
      | none => .error (.error (.new .unknown "MCS: unknown channel"))
          (flags :: (length.encode ++ data)) := by
  have hne : ¬ header >>> 2 = DomainMCSPDU.disconnectProviderUltimatum.toU8 := by
    rw [hheader]
    decide
  have hid : UInt16.ofNat (channelId.toNat + (0 : UInt16).toNat) = channelId := UInt16.ofNat_toNat
  have hinit : initiator.toNat + (1001 : UInt16).toNat < 2 ^ 16 := Nat.lt_succ_of_le
    (Nat.add_le_add_right hinitiator 1001)
  have hchannel : channelId.toNat + (0 : UInt16).toNat < 2 ^ 16 := channelId.toNat_lt
  rw [readIndication, EStateM.run_bind, run_readU8_cons]
  dsimp only
  rw [if_neg hne, if_neg (not_not.mpr hheader), EStateM.run_bind, run_readInteger16 hinit]
  dsimp only
  rw [EStateM.run_bind, run_readInteger16 hchannel, hid]
  dsimp only
  cases channels.find? (fun channel => channel.2 = channelId) with
  | none => rfl
  | some channel =>
    obtain ⟨v, hlength⟩ := length.run_readLength data
    refine run_bind_eq_ok_iff.mpr ⟨flags, _, rfl, ?_⟩
    exact run_bind_eq_ok_iff.mpr ⟨v, data, hlength, rfl⟩

theorem run_readIndication_of_ne {channels : List (String × UInt16)} {header : UInt8}
    (hheader : header >>> 2 ≠ DomainMCSPDU.sendDataIndication.toU8) (rest : Bytes) :
    (readIndication channels).run (header :: rest) =
      if header >>> 2 = DomainMCSPDU.disconnectProviderUltimatum.toU8 then
        .error (.error (.new .disconnect "MCS: Disconnect Provider Ultimatum")) rest
      else
        .error (.error (.new .invalidData "MCS: Invalid opcode")) rest := by
  rw [readIndication, EStateM.run_bind, run_readU8_cons]
  dsimp only
  rw [if_pos hheader]
  split <;> rfl

theorem run_readIndication_of_yields {channels : List (String × UInt16)} (hinj : Injective channels)
    {pdu : ServerPdu} {r : RdpResult (String × Bytes)} (h : pdu.Yields channels r) (s : Client) :
    (Prog.on pdu.encode (readIndication channels)).run s = (Prog.lift r).run s := by
  cases h with
  | data hchannel =>
    rw [ServerPdu.encode, run_on, run_readIndication ‹_› ‹_›, find?_of_mem hinj hchannel]
    rfl
  | unknown hchannel =>
    rw [ServerPdu.encode, run_on, run_readIndication ‹_› ‹_›, find?_of_not_mem hchannel]
    rfl
  | disconnect hdisconnect =>
    rw [ServerPdu.encode, run_on, run_readIndication_of_ne ‹_›, if_pos hdisconnect]
    rfl
  | invalid hdisconnect =>
    rw [ServerPdu.encode, run_on, run_readIndication_of_ne ‹_›, if_neg hdisconnect]
    rfl

/--
A frame of the server: a fast path packet that has a body, or a slow path packet with an X.224 header
of which only the third byte is fixed.
-/
inductive Frame where
  | fastPath (packet : Tpkt.Packet) (secFlag : UInt8)
    (hpayload : packet.payload = .fastPath secFlag packet.body) (hbody : packet.body ≠ [])
  | slowPath (flag header messageType : UInt8) (pdu : ServerPdu)
    (h : 4 + (header :: messageType :: 0x80 :: pdu.encode).length < 2 ^ 16)

namespace Frame

def packet (frame : Frame) : Tpkt.Packet :=
  match frame with
  | fastPath packet _ _ _ => packet
  | slowPath flag header messageType pdu h =>
    .slowPath flag (header :: messageType :: 0x80 :: pdu.encode) h

theorem body_packet_ne_nil (frame : Frame) : frame.packet.body ≠ [] := by
  cases frame with
  | fastPath packet secFlag hpayload hbody => exact hbody
  | slowPath flag header messageType pdu h => exact List.cons_ne_nil _ _

inductive Yields (channels : List (String × UInt16)) :
    Frame → RdpResult (String × Tpkt.Payload) → Prop where
  | fastPath {packet secFlag hpayload hbody} :
    Yields channels (fastPath packet secFlag hpayload hbody) (.ok ("global", .fastPath secFlag packet.body))
  | slowPath {flag header messageType pdu h} {r : RdpResult (String × Bytes)}
    (hpdu : pdu.Yields channels r) :
    Yields channels (slowPath flag header messageType pdu h)
      ((fun indication => (indication.1, .raw indication.2)) <$> r)

theorem exists_yields (channels : List (String × UInt16)) (frame : Frame) :
    ∃ r, frame.Yields channels r := by
  cases frame with
  | fastPath packet secFlag hpayload hbody => exact ⟨_, .fastPath⟩
  | slowPath flag header messageType pdu h =>
    cases pdu with
    | sendDataIndication opcode hheader initiator hinitiator channelId flags length data =>
      by_cases hchannel : ∃ name, (name, channelId) ∈ channels
      . obtain ⟨name, hname⟩ := hchannel
        exact ⟨_, .slowPath (.data hname)⟩
      . exact ⟨_, .slowPath (.unknown (not_exists.mp hchannel))⟩
    | other opcode hheader rest =>
      by_cases hdisconnect : opcode >>> 2 = DomainMCSPDU.disconnectProviderUltimatum.toU8
      . exact ⟨_, .slowPath (.disconnect hdisconnect)⟩
      . exact ⟨_, .slowPath (.invalid hdisconnect)⟩

theorem exists_yields_all (channels : List (String × UInt16)) (frames : List Frame) :
    ∃ results, List.Forall₂ (Yields channels) frames results := by
  induction frames with
  | nil => exact ⟨[], .nil⟩
  | cons frame frames ih =>
    obtain ⟨r, hr⟩ := frame.exists_yields channels
    obtain ⟨results, hresults⟩ := ih
    exact ⟨r :: results, .cons hr hresults⟩

end Frame

def encodeAll (frames : List Frame) : Bytes := frames.flatMap fun frame => frame.packet.encode

theorem run_x224Header (header messageType : UInt8) (rest : Bytes) :
    ∃ node, (Message.component X224.x224Header).reader.run (header :: messageType :: 0x80 :: rest) =
      .ok node rest := ⟨_, rfl⟩

theorem run_x224_read {frame : Frame} {rest : Bytes} {link : Link}
    (h : link.Delivers (frame.packet.encode ++ rest)) :
    ∃ link', link'.Delivers rest ∧ X224.Client.read.run link =
      match frame with
      | .fastPath packet secFlag _ _ => .ok (.fastPath secFlag packet.body) link'
      | .slowPath _ _ _ pdu _ => .ok (.raw pdu.encode) link' := by
  obtain ⟨link', hread, hleft⟩ :=
    Tpkt.Client.run_read_of_body frame.body_packet_ne_nil (Arrival.brings_nil_iff.mpr h)
  refine ⟨link', Arrival.brings_nil_iff.mp hleft, ?_⟩
  rw [X224.Client.read, EStateM.run_bind]
  cases frame with
  | fastPath packet secFlag hpayload hbody =>
    have hpacket : Tpkt.Client.read.run link = .ok (packet.payloadOf packet.body) link' := hread
    rw [hpacket, show packet.payloadOf packet.body = _ from hpayload]
    rfl
  | slowPath flag header messageType pdu hlength =>
    obtain ⟨node, hnode⟩ := run_x224Header header messageType pdu.encode
    rw [hread]
    refine run_bind_eq_ok_iff.mpr ⟨(node, pdu.encode), link', ?_, rfl⟩
    change (Prog.on (header :: messageType :: 0x80 :: pdu.encode)
      (Message.component X224.x224Header).reader).run link' = _
    rw [run_on, hnode]

namespace Client

theorem run_read {client : Client} (hinj : Injective client.channelIds) {frame : Frame} {rest : Bytes}
    (h : client.link.Delivers (frame.packet.encode ++ rest)) :
    ∃ link', link'.Delivers rest ∧ ∀ r, frame.Yields client.channelIds r →
      read.run client = (Prog.lift r).run { client with link := link' } := by
  obtain ⟨link', hleft, hread⟩ := run_x224_read h
  refine ⟨link', hleft, ?_⟩
  intro r hr
  rw [read, EStateM.run_bind, onX224, run_zoom, hread]
  cases hr with
  | fastPath => rfl
  | @slowPath flag header messageType pdu hlength r hpdu =>
    have hindication := run_readIndication_of_yields hinj hpdu { client with link := link' }
    change EStateM.run (_ >>= _) { client with link := link' } = _
    rw [EStateM.run_bind, EStateM.run_get]
    dsimp only
    rw [EStateM.run_bind, hindication]
    cases r <;> rfl

/--
Successive calls of `read` return these results in this order, and leave this stream.
-/
def ReadsInOrder (results : List (RdpResult (String × Tpkt.Payload))) (rest : Bytes) (client : Client) :
    Prop :=
  match results with
  | [] => client.link.Delivers rest
  | r :: results =>
    ∃ link', read.run client = (Prog.lift r).run { client with link := link' } ∧
      ReadsInOrder results rest { client with link := link' }

theorem readsInOrder_of_yields {client : Client} (hinj : Injective client.channelIds) {frames : List Frame}
    {results : List (RdpResult (String × Tpkt.Payload))}
    (hyields : List.Forall₂ (Frame.Yields client.channelIds) frames results) {rest : Bytes}
    (h : client.link.Delivers (encodeAll frames ++ rest)) : ReadsInOrder results rest client := by
  obtain ⟨link, selectedProtocol, serverData, userId, channelIds, place⟩ := client
  dsimp only at hinj hyields h
  induction hyields generalizing link with
  | nil => exact h
  | cons hframe _ ih =>
    rw [encodeAll, List.flatMap_cons, List.append_assoc] at h
    obtain ⟨link', hleft, hread⟩ :=
      @run_read ⟨link, selectedProtocol, serverData, userId, channelIds, place⟩ hinj _ _ h
    exact ⟨link', hread _ hframe, ih link' hleft⟩

/--
However the transport cuts the frames of a server, every call of `read` returns what the next one of
them yields.
-/
theorem read_in_order {client : Client} (hinj : Injective client.channelIds) (frames : List Frame)
    (rest : Bytes) (h : client.link.Delivers (encodeAll frames ++ rest)) :
    (∃ results, List.Forall₂ (Frame.Yields client.channelIds) frames results) ∧
    ∀ results, List.Forall₂ (Frame.Yields client.channelIds) frames results →
      ReadsInOrder results rest client := by
  refine ⟨Frame.exists_yields_all client.channelIds frames, ?_⟩
  intro results hyields
  exact readsInOrder_of_yields hinj hyields h

namespace Delivery

def indication : Frame :=
  .slowPath 0 2 0xF0 (.sendDataIndication 0x68 (by decide) 1 (by decide) 1003 0x70
    (.short 1 (by decide)) [7]) (by decide)

def disconnect : Frame := .slowPath 0 2 0xF0 (.other 0x21 (by decide) [0x80]) (by decide)

theorem update_action : (0x40 : UInt8) ≠ 3 := by decide

def update : Frame := .fastPath (.fastPathShort 0x40 [9] update_action (by decide)) 1 rfl
  (List.cons_ne_nil 9 [])

def frames : List Frame := [indication, update, disconnect]

def client : Client := ⟨Tpkt.Client.Framing.link (encodeAll frames), .protocolSSL, none, some 1004,
  [("global", 1003), ("user", 1004)], fun _ => 0⟩

theorem injective_client : Injective client.channelIds := by
  simp [Injective, client]

theorem delivers_client : client.link.Delivers (encodeAll frames ++ []) := by
  rw [List.append_nil]
  exact Tpkt.Client.Framing.delivers_link _

end Delivery

open Delivery in
theorem read_in_order_three :
    ReadsInOrder [.ok ("global", .raw [7]), .ok ("global", .fastPath 1 [9]),
      .error (.error (.new .disconnect "MCS: Disconnect Provider Ultimatum"))] [] client := by
  apply (read_in_order injective_client frames [] delivers_client).2
  refine .cons ?_ (.cons .fastPath (.cons ?_ .nil))
  . exact .slowPath (.data (by simp [client]))
  . exact .slowPath (.disconnect (by decide))

end Client

end Rdp.Mcs
