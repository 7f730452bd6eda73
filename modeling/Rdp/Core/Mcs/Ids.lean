import Rdp.Core.Mcs.Framing
import Rdp.Core.Per.Read
import Rdp.Core.X224.Negotiation

/-!
This module contains the user ids of the MCS layer, which are counted from 1001 and stand on the wire
without that minimum: what is accepted as an id, and on which offsets reading one aborts.
-/

namespace Rdp.Mcs

open Prog Cursor

/--
The streams with an offset that leaves no room for the minimum, where the id is read.
-/
def AttachOverflows (stream : Bytes) : Prop :=
  ∃ (header : UInt8) (offset : UInt16) (rest : Bytes),
    stream = header :: 0 :: (Endian.be.encode16 offset ++ rest) ∧
    header >>> 2 = DomainMCSPDU.attachUserConfirm.toU8 ∧ 64534 < offset.toNat

def JoinOverflows (stream : Bytes) : Prop :=
  ∃ (header result : UInt8) (offset : UInt16) (rest : Bytes),
    stream = header :: result :: (Endian.be.encode16 offset ++ rest) ∧
    header >>> 2 = DomainMCSPDU.channelJoinConfirm.toU8 ∧ 64534 < offset.toNat

def IndicationOverflows (stream : Bytes) : Prop :=
  ∃ (header : UInt8) (offset : UInt16) (rest : Bytes),
    stream = header :: (Endian.be.encode16 offset ++ rest) ∧
    header >>> 2 = DomainMCSPDU.sendDataIndication.toU8 ∧ 64534 < offset.toNat

section Readers

theorem readAttachUserConfirm_eq : readAttachUserConfirm = (do
    let header ← readU8
    let request ← readToEnd
    if header >>> 2 ≠ DomainMCSPDU.attachUserConfirm.toU8 then
      Prog.fail (.new .invalidData "MCS: unexpected header on recv_attach_user_confirm")
    else
      let (result, request) ← Prog.on request Per.readEnumerates
      if result ≠ 0 then
        Prog.fail (.new .rejectedByServer "MCS: recv_attach_user_confirm user rejected by server")
      else
        let (userId, _) ← Prog.on request (Per.readInteger16 1001)
        return userId) := by
  funext stream
  cases stream <;> rfl

theorem readChannelJoinConfirm_eq (userId channelId : UInt16) :
    readChannelJoinConfirm userId channelId = (do
      let header ← readU8
      let request ← readToEnd
      if header >>> 2 ≠ DomainMCSPDU.channelJoinConfirm.toU8 then
        Prog.fail (.new .invalidData "MCS: unexpected header on read_channel_join_confirm")
      else
        let ((confirm, confirmUserId, confirmChannelId), _) ← Prog.on request readConfirmBody
        if userId ≠ confirmUserId then
          Prog.fail (.new .invalidData "MCS: read_channel_join_confirm invalid user id")
        else if channelId ≠ confirmChannelId then
          Prog.fail (.new .invalidData "MCS: read_channel_join_confirm invalid channel_id")
        else
          return confirm = 0) := by
  funext stream
  cases stream <;> rfl

theorem not_aborts_readInteger16_zero (stream : Bytes) : ¬ (Per.readInteger16 0).Aborts stream := by
  rw [Per.aborts_readInteger16]
  rintro ⟨offset, rest, _, h⟩
  have hlt := offset.toNat_lt
  rw [show (0 : UInt16).toNat = 0 from rfl] at h
  omega

theorem aborts_readAttachUserConfirm {stream : Bytes} :
    readAttachUserConfirm.Aborts stream ↔ AttachOverflows stream := by
  rw [readAttachUserConfirm_eq]
  simp only [aborts_readU8_bind, aborts_readToEnd_bind]
  constructor
  . rintro ⟨header, request, rfl, h⟩
    split at h
    next => exact absurd h (not_aborts_fail _ _)
    next hheader =>
      rcases aborts_on_bind.mp h with h | ⟨result, request', hresult, hrest⟩
      . exact absurd h (returns_readU8 _)
      . cases run_readU8_eq_ok.mp hresult
        split at hrest
        next => exact absurd hrest (not_aborts_fail _ _)
        next hzero =>
          rcases aborts_on_bind.mp hrest with h | ⟨_, _, _, h⟩
          . obtain ⟨offset, rest, rfl, hlt⟩ := Per.aborts_readInteger16_1001.mp h
            have hresult : result = 0 := not_not.mp hzero
            rw [hresult]
            exact ⟨header, offset, rest, rfl, not_not.mp hheader, hlt⟩
          . exact absurd h (not_aborts_pure _ _)
  . rintro ⟨header, offset, rest, rfl, hheader, hlt⟩
    refine ⟨header, _, rfl, ?_⟩
    rw [if_neg (not_not.mpr hheader)]
    refine aborts_on_bind.mpr (.inr ⟨0, _, rfl, ?_⟩)
    exact aborts_on_bind.mpr (.inl (Per.aborts_readInteger16_1001.mpr ⟨offset, rest, rfl, hlt⟩))

theorem aborts_readConfirmBody {request : Bytes} :
    readConfirmBody.Aborts request ↔
      ∃ (result : UInt8) (offset : UInt16) (rest : Bytes),
        request = result :: (Endian.be.encode16 offset ++ rest) ∧ 64534 < offset.toNat := by
  unfold readConfirmBody Per.readEnumerates
  simp only [aborts_readU8_bind]
  constructor
  . rintro ⟨result, request, rfl, h⟩
    rcases aborts_bind.mp h with h | ⟨userId, request', _, h⟩
    . obtain ⟨offset, rest, rfl, hlt⟩ := Per.aborts_readInteger16_1001.mp h
      exact ⟨result, offset, rest, rfl, hlt⟩
    . rcases aborts_bind.mp h with h | ⟨_, _, _, h⟩
      . exact absurd h (not_aborts_readInteger16_zero _)
      . exact absurd h (not_aborts_pure _ _)
  . rintro ⟨result, offset, rest, rfl, hlt⟩
    refine ⟨result, _, rfl, aborts_bind.mpr (.inl ?_)⟩
    exact Per.aborts_readInteger16_1001.mpr ⟨offset, rest, rfl, hlt⟩

theorem aborts_readChannelJoinConfirm {userId channelId : UInt16} {stream : Bytes} :
    (readChannelJoinConfirm userId channelId).Aborts stream ↔ JoinOverflows stream := by
  rw [readChannelJoinConfirm_eq]
  simp only [aborts_readU8_bind, aborts_readToEnd_bind]
  constructor
  . rintro ⟨header, request, rfl, h⟩
    split at h
    next => exact absurd h (not_aborts_fail _ _)
    next hheader =>
      rcases aborts_on_bind.mp h with h | ⟨body, request', _, h⟩
      . obtain ⟨result, offset, rest, rfl, hlt⟩ := aborts_readConfirmBody.mp h
        exact ⟨header, result, offset, rest, rfl, not_not.mp hheader, hlt⟩
      . exfalso
        revert h
        dsimp only
        split
        . exact not_aborts_fail _ _
        . split
          . exact not_aborts_fail _ _
          . exact not_aborts_pure _ _
  . rintro ⟨header, result, offset, rest, rfl, hheader, hlt⟩
    refine ⟨header, _, rfl, ?_⟩
    rw [if_neg (not_not.mpr hheader)]
    exact aborts_on_bind.mpr (.inl (aborts_readConfirmBody.mpr ⟨result, offset, rest, rfl, hlt⟩))

theorem aborts_readIndication {channels : List (String × UInt16)} {stream : Bytes} :
    (readIndication channels).Aborts stream ↔ IndicationOverflows stream := by
  have hne {header : UInt8} (h : header >>> 2 = DomainMCSPDU.sendDataIndication.toU8) :
      ¬ header >>> 2 = DomainMCSPDU.disconnectProviderUltimatum.toU8 := by
    rw [h]
    decide
  unfold readIndication
  simp only [aborts_readU8_bind]
  constructor
  . rintro ⟨header, request, rfl, h⟩
    split at h
    next => exact absurd h (not_aborts_fail _ _)
    next =>
      split at h
      next => exact absurd h (not_aborts_fail _ _)
      next hheader =>
        rcases aborts_bind.mp h with h | ⟨_, request₁, _, h⟩
        . obtain ⟨offset, rest, rfl, hlt⟩ := Per.aborts_readInteger16_1001.mp h
          exact ⟨header, offset, rest, rfl, not_not.mp hheader, hlt⟩
        . rcases aborts_bind.mp h with h | ⟨channelId, request₂, _, h⟩
          . exact absurd h (not_aborts_readInteger16_zero _)
          . exfalso
            revert h
            cases channels.find? (fun channel => channel.2 = channelId) with
            | none => exact not_aborts_fail _ _
            | some channel =>
              exact returns_readU8.bind (fun _ => Per.returns_readLength.bind_pure _) _
  . rintro ⟨header, offset, rest, rfl, hheader, hlt⟩
    refine ⟨header, _, rfl, ?_⟩
    rw [if_neg (hne hheader), if_neg (not_not.mpr hheader)]
    exact aborts_bind.mpr (.inl (Per.aborts_readInteger16_1001.mpr ⟨offset, rest, rfl, hlt⟩))

end Readers

/--
The requests of a user with this id carry this offset.
-/
structure EncodesBack (userId offset : UInt16) : Prop where
  join : ∀ channelId, ∃ message, channelJoinRequest (some userId) channelId = .ok message ∧
    message.write = .ok (mcsPduHeader (some .channelJoinRequest) none ::
      (Endian.be.encode16 offset ++ Endian.be.encode16 (channelId.getD 0)))
  write : ∀ (client : Client) (name : String) (channel : UInt16) (m : Message) (n : Nat),
    client.userId = some userId → client.channelIds.lookup name = some channel → m.length = .ok n →
    (Client.write name m).run client =
      (Client.onX224 (X224.Client.write (Client.request offset channel n m))).run client

theorem encodesBack_of_eq {userId offset : UInt16} (h : userId.toNat = offset.toNat + 1001) :
    EncodesBack userId offset := by
  have hle : 1001 ≤ userId.toNat := by omega
  have hsub : userId.toNat - 1001 = offset.toNat := by omega
  constructor
  . intro channelId
    refine ⟨_, by rw [channelJoinRequest, Option.getD_some, checkedSub_of_le hle, hsub]; rfl, ?_⟩
    simp [Leaf.write]
  . intro client name channel m n huser hchannel hlength
    rw [Client.run_write huser hle hchannel, hlength, hsub, UInt16.ofNat_toNat]

/--
No run on the stream aborts, and an id that is accepted is the one that was received.
-/
structure AttachSafe (stream : Bytes) : Prop where
  returns : (∃ userId rest, readAttachUserConfirm.run stream = .ok userId rest) ∨
    ∃ e rest, readAttachUserConfirm.run stream = .error (.error e) rest
  accepted : ∀ userId rest, readAttachUserConfirm.run stream = .ok userId rest →
    ∃ (header : UInt8) (offset : UInt16) (tail : Bytes),
      stream = header :: 0 :: (Endian.be.encode16 offset ++ tail) ∧
      1001 ≤ userId.toNat ∧ userId.toNat ≤ 65535 ∧ EncodesBack userId offset

structure JoinSafe (userId channelId : UInt16) (stream : Bytes) : Prop where
  returns : (∃ joined rest, (readChannelJoinConfirm userId channelId).run stream = .ok joined rest) ∨
    ∃ e rest, (readChannelJoinConfirm userId channelId).run stream = .error (.error e) rest
  accepted : ∀ joined rest, (readChannelJoinConfirm userId channelId).run stream = .ok joined rest →
    ∃ (header result : UInt8) (offset : UInt16) (tail : Bytes),
      stream = header :: result :: (Endian.be.encode16 offset ++ tail) ∧
      1001 ≤ userId.toNat ∧ userId.toNat ≤ 65535 ∧ EncodesBack userId offset

def ReadSafe (client : Client) : Prop :=
  (∃ r client', Client.read.run client = .ok r client') ∨
    ∃ e client', Client.read.run client = .error (.error e) client'

theorem accepted_of_offset {userId offset : UInt16} (h : userId.toNat = offset.toNat + 1001) :
    1001 ≤ userId.toNat ∧ userId.toNat ≤ 65535 ∧ EncodesBack userId offset := by
  have hlt := userId.toNat_lt
  exact ⟨by omega, by omega, encodesBack_of_eq h⟩

theorem run_readInteger16_zero_iff {input rest : Bytes} {v : UInt16} :
    (Per.readInteger16 0).run input = .ok v rest ↔ input = Endian.be.encode16 v ++ rest := by
  rw [Per.run_readInteger16_iff]
  constructor
  . rintro ⟨offset, h, hv⟩
    rw [UInt16.toNat_inj.mp hv]
    exact h
  . intro h
    exact ⟨v, h, rfl⟩

theorem run_readAttachUserConfirm_eq_ok {stream rest : Bytes} {userId : UInt16} :
    readAttachUserConfirm.run stream = .ok userId rest ↔
      ∃ (header : UInt8) (offset : UInt16) (tail : Bytes),
        stream = header :: 0 :: (Endian.be.encode16 offset ++ tail) ∧
        header >>> 2 = DomainMCSPDU.attachUserConfirm.toU8 ∧
        userId.toNat = offset.toNat + 1001 ∧ rest = [] := by
  rw [readAttachUserConfirm_eq]
  constructor
  . intro h
    obtain ⟨header, _, hheader, h⟩ := run_bind_eq_ok h
    obtain ⟨request, _, hrequest, h⟩ := run_bind_eq_ok h
    obtain ⟨rfl, rfl⟩ := run_readToEnd_eq_ok.mp hrequest
    split at h
    next => cases h
    next hopcode =>
      obtain ⟨result, request', hresult, h⟩ := run_on_bind_eq_ok h
      dsimp only at h
      split at h
      next => cases h
      next hzero =>
        obtain ⟨_, tail, hid, h⟩ := run_on_bind_eq_ok h
        cases h
        obtain ⟨offset, hoffset, huser⟩ := Per.run_readInteger16_iff.mp hid
        refine ⟨header, offset, tail, ?_, not_not.mp hopcode, huser, rfl⟩
        rw [run_readU8_eq_ok.mp hheader, run_readU8_eq_ok.mp hresult, not_not.mp hzero]
        exact congrArg (header :: 0 :: ·) hoffset
  . rintro ⟨header, offset, tail, rfl, hopcode, huser, rfl⟩
    refine run_bind_eq_ok_iff.mpr ⟨header, _, rfl, ?_⟩
    refine run_bind_eq_ok_iff.mpr ⟨_, _, rfl, ?_⟩
    rw [if_neg (not_not.mpr hopcode)]
    refine run_bind_eq_ok_iff.mpr ⟨(0, _), [], rfl, ?_⟩
    have hid : (Per.readInteger16 1001).run (Endian.be.encode16 offset ++ tail) = .ok userId tail :=
      Per.run_readInteger16_iff.mpr ⟨offset, rfl, huser⟩
    refine run_bind_eq_ok_iff.mpr ⟨(userId, tail), [], ?_, rfl⟩
    rw [run_on, hid]

theorem run_readConfirmBody_eq_ok {request rest : Bytes} {result : UInt8} {userId channelId : UInt16} :
    readConfirmBody.run request = .ok (result, userId, channelId) rest ↔
      ∃ offset : UInt16, request = result :: (Endian.be.encode16 offset ++
        (Endian.be.encode16 channelId ++ rest)) ∧ userId.toNat = offset.toNat + 1001 := by
  constructor
  . intro h
    obtain ⟨_, _, hresult, h⟩ := run_bind_eq_ok h
    obtain ⟨_, _, huser, h⟩ := run_bind_eq_ok h
    obtain ⟨_, _, hchannel, h⟩ := run_bind_eq_ok h
    cases h
    obtain ⟨offset, rfl, hid⟩ := Per.run_readInteger16_iff.mp huser
    refine ⟨offset, ?_, hid⟩
    rw [run_readU8_eq_ok.mp hresult, run_readInteger16_zero_iff.mp hchannel]
  . rintro ⟨offset, rfl, huser⟩
    refine run_bind_eq_ok_iff.mpr ⟨result, _, rfl, ?_⟩
    refine run_bind_eq_ok_iff.mpr ⟨_, _, Per.run_readInteger16_iff.mpr ⟨offset, rfl, huser⟩, ?_⟩
    exact run_bind_eq_ok_iff.mpr ⟨_, _, run_readInteger16_zero_iff.mpr rfl, rfl⟩

theorem run_readChannelJoinConfirm_eq_ok {userId channelId : UInt16} {stream rest : Bytes}
    {joined : Bool} :
    (readChannelJoinConfirm userId channelId).run stream = .ok joined rest ↔
      ∃ (header result : UInt8) (offset : UInt16) (tail : Bytes),
        stream = header :: result :: (Endian.be.encode16 offset ++
          (Endian.be.encode16 channelId ++ tail)) ∧
        header >>> 2 = DomainMCSPDU.channelJoinConfirm.toU8 ∧
        userId.toNat = offset.toNat + 1001 ∧ joined = decide (result = 0) ∧ rest = [] := by
  rw [readChannelJoinConfirm_eq]
  constructor
  . intro h
    obtain ⟨header, _, hheader, h⟩ := run_bind_eq_ok h
    obtain ⟨request, _, hrequest, h⟩ := run_bind_eq_ok h
    obtain ⟨rfl, rfl⟩ := run_readToEnd_eq_ok.mp hrequest
    split at h
    next => cases h
    next hopcode =>
      obtain ⟨⟨result, confirmUserId, confirmChannelId⟩, tail, hbody, h⟩ := run_on_bind_eq_ok h
      dsimp only at h
      split at h
      next => cases h
      next huser =>
        split at h
        next => cases h
        next hchannel =>
          cases h
          obtain ⟨offset, hfields, hid⟩ := run_readConfirmBody_eq_ok.mp hbody
          rw [← not_not.mp huser] at hid
          refine ⟨header, result, offset, tail, ?_, not_not.mp hopcode, hid, rfl, rfl⟩
          rw [run_readU8_eq_ok.mp hheader, hfields, not_not.mp hchannel]
  . rintro ⟨header, result, offset, tail, rfl, hopcode, huser, rfl, rfl⟩
    refine run_bind_eq_ok_iff.mpr ⟨header, _, rfl, ?_⟩
    refine run_bind_eq_ok_iff.mpr ⟨_, _, rfl, ?_⟩
    rw [if_neg (not_not.mpr hopcode)]
    have hbody : readConfirmBody.run (result :: (Endian.be.encode16 offset ++
        (Endian.be.encode16 channelId ++ tail))) = .ok (result, userId, channelId) tail :=
      run_readConfirmBody_eq_ok.mpr ⟨offset, rfl, huser⟩
    refine run_bind_eq_ok_iff.mpr ⟨((result, userId, channelId), tail), [], ?_, ?_⟩
    . rw [run_on, hbody]
    . dsimp only
      rw [if_neg (not_not.mpr rfl), if_neg (not_not.mpr rfl)]
      rfl

section Read

theorem reader_x224Header : (Message.component X224.x224Header).reader = (do
    let header ← readU8
    let messageType ← readU8
    let separator ← readU8
    expect (0x80 = separator)
    return .component [("header", .leaf (.u8 header)), ("messageType", .leaf (.u8 messageType)),
      ("separator", .check (.u8 separator))]) := by
  simp [X224.x224Header]

theorem exists_run_x224Header {body rest : Bytes} :
    (∃ node, (Message.component X224.x224Header).reader.run body = .ok node rest) ↔
      ∃ header messageType, body = header :: messageType :: 0x80 :: rest := by
  rw [reader_x224Header]
  constructor
  . rintro ⟨node, h⟩
    obtain ⟨header, _, hheader, h⟩ := run_bind_eq_ok h
    obtain ⟨messageType, _, htype, h⟩ := run_bind_eq_ok h
    obtain ⟨separator, _, hseparator, h⟩ := run_bind_eq_ok h
    obtain ⟨_, _, hexpect, h⟩ := run_bind_eq_ok h
    cases h
    obtain ⟨heq, rfl⟩ := run_expect_eq_ok.mp hexpect
    refine ⟨header, messageType, ?_⟩
    rw [run_readU8_eq_ok.mp hheader, run_readU8_eq_ok.mp htype, run_readU8_eq_ok.mp hseparator,
      of_decide_eq_true heq]
  . rintro ⟨header, messageType, rfl⟩
    exact ⟨_, rfl⟩

theorem returns_x224Header : Returns (Message.component X224.x224Header).reader :=
  (Message.total_component (by simp [X224.x224Header])).1

/--
The next packet of a stream carries this PDU behind an X.224 header, of which only the last byte is
fixed.
-/
def Reply (reads : List Arrival) (pdu : Bytes) (left : List Arrival) : Prop :=
  ∃ header messageType, Tpkt.Received reads (header :: messageType :: 0x80 :: pdu) left

theorem run_x224_read_raw_iff {link link' : Link} {pdu : Bytes} :
    X224.Client.read.run link = .ok (.raw pdu) link' ↔
      ∃ left, Reply link.reads pdu left ∧ link' = link.withReads left := by
  constructor
  . intro h
    obtain ⟨payload, link₁, hread, h⟩ := run_bind_eq_ok h
    cases payload with
    | fastPath flag payload => cases h
    | raw body =>
      obtain ⟨⟨node, rest⟩, _, hon, hpure⟩ := run_bind_eq_ok h
      obtain ⟨hnode, rfl⟩ := run_on_eq_ok hon
      cases hpure
      obtain ⟨header, messageType, rfl⟩ := exists_run_x224Header.mp ⟨node, hnode⟩
      obtain ⟨left, hreceived, rfl⟩ := Tpkt.Client.run_read_raw_iff.mp hread
      exact ⟨left, ⟨header, messageType, hreceived⟩, rfl⟩
  . rintro ⟨left, ⟨header, messageType, hreceived⟩, rfl⟩
    obtain ⟨node, hnode⟩ := exists_run_x224Header.mpr ⟨header, messageType, rfl⟩
    apply run_bind_eq_ok_iff.mpr ⟨_, _, Tpkt.Client.run_read_raw_iff.mpr ⟨left, hreceived, rfl⟩, ?_⟩
    refine run_bind_eq_ok_iff.mpr ⟨(node, pdu), link.withReads left, ?_, rfl⟩
    rw [run_on, hnode]

theorem x224_read_raw_iff (link : Link) (pdu : Bytes) :
    (∃ link', X224.Client.read.run link = .ok (.raw pdu) link') ↔
      ∃ header messageType, Tpkt.Incoming link.reads (header :: messageType :: 0x80 :: pdu) := by
  simp only [Tpkt.incoming_iff, run_x224_read_raw_iff]
  constructor
  . rintro ⟨link', left, ⟨header, messageType, hreceived⟩, _⟩
    exact ⟨header, messageType, left, hreceived⟩
  . rintro ⟨header, messageType, left, hreceived⟩
    exact ⟨_, left, ⟨header, messageType, hreceived⟩, rfl⟩

theorem not_aborts_x224_read (link : Link) : ¬ X224.Client.read.Aborts link := by
  unfold X224.Client.read
  rw [aborts_bind]
  rintro (⟨e, link', hrun, hnot⟩ | ⟨payload, link', _, h⟩)
  . obtain ⟨err, rfl⟩ := Tpkt.Client.faults_read link e link' hrun
    exact hnot (Fault.isError_error err)
  . cases payload with
    | fastPath flag payload => exact not_aborts_pure _ _ h
    | raw body =>
      rcases aborts_on_bind.mp h with h | ⟨_, _, _, h⟩
      . exact returns_x224Header body h
      . exact not_aborts_pure _ _ h

/--
The next packet of the server is an indication whose initiator leaves no room for the minimum.
-/
def ReadOverflows (client : Client) : Prop :=
  ∃ header messageType pdu,
    Tpkt.Incoming client.link.reads (header :: messageType :: 0x80 :: pdu) ∧ IndicationOverflows pdu

theorem aborts_read {client : Client} : Client.read.Aborts client ↔ ReadOverflows client := by
  have hoverflows : ReadOverflows client ↔
      ∃ pdu, (∃ link', X224.Client.read.run client.link = .ok (.raw pdu) link') ∧
        IndicationOverflows pdu := by
    simp only [x224_read_raw_iff, ReadOverflows]
    constructor
    . rintro ⟨header, messageType, pdu, hincoming, h⟩
      exact ⟨pdu, ⟨header, messageType, hincoming⟩, h⟩
    . rintro ⟨pdu, ⟨header, messageType, hincoming⟩, h⟩
      exact ⟨header, messageType, pdu, hincoming, h⟩
  rw [hoverflows]
  unfold Client.read Client.onX224
  rw [aborts_bind, aborts_zoom]
  constructor
  . rintro (h | ⟨payload, client', hread, h⟩)
    . exact absurd h (not_aborts_x224_read client.link)
    . obtain ⟨link', hpayload, rfl⟩ := run_zoom_eq_ok hread
      cases payload with
      | fastPath flag payload => exact absurd h (not_aborts_pure _ _)
      | raw pdu =>
        rw [aborts_get_bind] at h
        rcases aborts_on_bind.mp h with h | ⟨_, _, _, h⟩
        . exact ⟨pdu, ⟨link', hpayload⟩, aborts_readIndication.mp h⟩
        . exact absurd h (not_aborts_pure _ _)
  . rintro ⟨pdu, ⟨link', hread⟩, h⟩
    refine .inr ⟨.raw pdu, { client with link := link' }, ?_, ?_⟩
    . rw [run_zoom, hread]
    . rw [aborts_get_bind]
      exact aborts_on_bind.mpr (.inl (aborts_readIndication.mpr h))

end Read

theorem attachSafe_iff {stream : Bytes} : AttachSafe stream ↔ ¬ AttachOverflows stream := by
  rw [← aborts_readAttachUserConfirm, not_aborts_iff]
  constructor
  . exact AttachSafe.returns
  . intro h
    refine ⟨h, ?_⟩
    intro userId rest hrun
    obtain ⟨header, offset, tail, hstream, _, huser, _⟩ := run_readAttachUserConfirm_eq_ok.mp hrun
    exact ⟨header, offset, tail, hstream, accepted_of_offset huser⟩

theorem joinSafe_iff {userId channelId : UInt16} {stream : Bytes} :
    JoinSafe userId channelId stream ↔ ¬ JoinOverflows stream := by
  rw [← @aborts_readChannelJoinConfirm userId channelId, not_aborts_iff]
  constructor
  . exact JoinSafe.returns
  . intro h
    refine ⟨h, ?_⟩
    intro joined rest hrun
    obtain ⟨header, result, offset, tail, hstream, _, huser, _⟩ :=
      run_readChannelJoinConfirm_eq_ok.mp hrun
    exact ⟨header, result, offset, _, hstream, accepted_of_offset huser⟩

theorem readSafe_iff {client : Client} : ReadSafe client ↔ ¬ ReadOverflows client := by
  rw [← aborts_read, not_aborts_iff, ReadSafe]

/--
The three receive functions are safe exactly where no offset above 64534 is read as an id.
-/
theorem ids_safe_iff (stream : Bytes) (userId channelId : UInt16) (client : Client) :
    (AttachSafe stream ↔ ¬ AttachOverflows stream) ∧
    (JoinSafe userId channelId stream ↔ ¬ JoinOverflows stream) ∧
    (ReadSafe client ↔ ¬ ReadOverflows client) :=
  ⟨attachSafe_iff, joinSafe_iff, readSafe_iff⟩

theorem not_attachSafe_high : ¬ AttachSafe [0x2E, 0x00, 0xFC, 0x17] := by
  rw [attachSafe_iff, not_not]
  exact ⟨0x2E, 0xFC17, [], rfl, by decide, by decide⟩

end Rdp.Mcs
