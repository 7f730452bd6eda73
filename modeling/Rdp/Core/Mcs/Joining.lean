import Rdp.Core.Mcs.Channels
import Rdp.Core.Mcs.Request
import Rdp.Model.Link.Receive

/-!
This module contains the connection of the MCS layer on a transport that takes all that is written: which
PDUs the server has to send for it to go through, and the client after it.
-/

namespace Rdp.Mcs

open Prog Cursor
open Ntlm (unwrapOption)

def Attached (attach : Bytes) (userId : UInt16) : Prop :=
  ∃ (header : UInt8) (offset : UInt16) (tail : Bytes),
    header >>> 2 = DomainMCSPDU.attachUserConfirm.toU8 ∧
    attach = header :: 0 :: (Endian.be.encode16 offset ++ tail) ∧ userId.toNat = offset.toNat + 1001

def Confirms (userId id : UInt16) (join : Bytes) : Prop :=
  ∃ (header result : UInt8) (offset : UInt16) (tail : Bytes),
    header >>> 2 = DomainMCSPDU.channelJoinConfirm.toU8 ∧
    join = header :: result :: (Endian.be.encode16 offset ++ (Endian.be.encode16 id ++ tail)) ∧
    userId.toNat = offset.toNat + 1001

def ccResponse (der : Der) (response : Bytes) : RdpResult Bytes := do
  let connectResponse ← der.fromBer (connectResponse none) response
  (← connectResponse.visit.field "userData").castOctetString

def Responds (der : Der) (response : Bytes) (data : Gcc.ServerData) : Prop :=
  ∃ bytes header blocks tail ids version, ccResponse der response = .ok bytes ∧
    Gcc.Carries bytes header blocks tail ∧ tail.length < 4 ∧ Gcc.LastIds blocks ids ∧
    Gcc.LastVersion blocks version ∧ data = ⟨ids, .ofU32 version⟩

theorem Attached.le {attach : Bytes} {userId : UInt16} (h : Attached attach userId) :
    1001 ≤ userId.toNat := by
  obtain ⟨_, offset, _, _, _, huser⟩ := h
  omega

theorem Replies.exists_of_append {reads left : List Arrival} {pdus pdus' : List Bytes}
    (h : Replies reads (pdus ++ pdus') left) :
    ∃ next, Replies reads pdus next ∧ Replies next pdus' left := by
  induction pdus generalizing reads with
  | nil => exact ⟨reads, .nil reads, h⟩
  | cons pdu pdus ih =>
    cases h with
    | cons head tail =>
      obtain ⟨next, hfront, hback⟩ := ih tail
      exact ⟨next, .cons head hfront, hback⟩

theorem attached_iff {attach : Bytes} {userId : UInt16} :
    Attached attach userId ↔ ∃ rest, readAttachUserConfirm.run attach = .ok userId rest := by
  simp only [run_readAttachUserConfirm_eq_ok]
  constructor
  . rintro ⟨header, offset, tail, hheader, rfl, hoffset⟩
    exact ⟨[], header, offset, tail, rfl, hheader, hoffset, rfl⟩
  . rintro ⟨rest, header, offset, tail, rfl, hheader, hoffset, _⟩
    exact ⟨header, offset, tail, hheader, rfl, hoffset⟩

theorem confirms_iff {userId id : UInt16} {join : Bytes} :
    Confirms userId id join ↔
      ∃ joined rest, (readChannelJoinConfirm userId id).run join = .ok joined rest := by
  simp only [run_readChannelJoinConfirm_eq_ok]
  constructor
  . rintro ⟨header, result, offset, tail, hheader, rfl, hoffset⟩
    exact ⟨_, [], header, result, offset, tail, rfl, hheader, hoffset, rfl, rfl⟩
  . rintro ⟨_, _, header, result, offset, tail, rfl, hheader, hoffset, _⟩
    exact ⟨header, result, offset, tail, hheader, rfl, hoffset⟩

theorem responds_iff {der : Der} {response : Bytes} {data : Gcc.ServerData} :
    Responds der response data ↔ ∃ bytes rest, ccResponse der response = .ok bytes ∧
      Gcc.readConferenceCreateResponse.run bytes = .ok data rest := by
  constructor
  . rintro ⟨bytes, header, blocks, tail, ids, version, hbytes, hcarries, htail, hids, hversion, rfl⟩
    obtain ⟨rest, hrun⟩ := Gcc.run_of_carries hcarries htail hids hversion
    exact ⟨bytes, rest, hbytes, hrun⟩
  . rintro ⟨bytes, rest, hbytes, hrun⟩
    obtain ⟨header, userData, rfl, hdata⟩ := Gcc.run_readConferenceCreateResponse_eq_ok.mp hrun
    obtain ⟨n, size, body, blocks, tail, ids, version, hsize, rfl, hblocks, htake, htail, hids, hversion,
      rfl, _⟩ := Gcc.run_readUserData_eq_ok.mp hdata
    have hcarries : Gcc.Carries (header.encode ++ (size ++ body)) header blocks tail :=
      ⟨hblocks, n, size, body, hsize, rfl, htake⟩
    exact ⟨_, header, blocks, tail, ids, version, hbytes, hcarries, htail, hids, hversion, rfl⟩

def joined (place : String → Nat) (userId : UInt16) : List (String × UInt16) :=
  insertChannel place "user" userId (insertChannel place "global" 1003 [])

/--
The PDUs with which a server lets a client connect: its settings, the id of the user, and one answer for
each channel in the order of the map.
-/
inductive Welcomes (der : Der) (place : String → Nat) : List Bytes → UInt16 → Gcc.ServerData → Prop where
  | connects {response attach : Bytes} {joins : List Bytes} {userId : UInt16} {data : Gcc.ServerData}
    (hresponse : Responds der response data) (hattach : Attached attach userId)
    (hjoins : List.Forall₂ (Confirms userId) ((joined place userId).map (·.2)) joins) :
    Welcomes der place (response :: attach :: joins) userId data

theorem Welcomes.le {der : Der} {place : String → Nat} {pdus : List Bytes} {userId : UInt16}
    {data : Gcc.ServerData} (h : Welcomes der place pdus userId data) : 1001 ≤ userId.toNat := by
  cases h with
  | connects _ hattach _ => exact hattach.le

section Indication

def Indicates (channels : List (String × UInt16)) (pdu data : Bytes) : Prop :=
  ∃ header hheader initiator hinitiator id flags length,
    pdu = (ServerPdu.sendDataIndication header hheader initiator hinitiator id flags length data).encode ∧
    ∃ name, (name, id) ∈ channels

theorem exists_perLength {n : Nat} {bytes : Bytes} (h : Per.LengthCode n bytes) :
    ∃ length : PerLength, length.encode = bytes := by
  cases h with
  | @short a ha => exact ⟨.short a ha, rfl⟩
  | @long a b ha => exact ⟨.long a b ha, rfl⟩

theorem indicates_iff {channels : List (String × UInt16)} {pdu data : Bytes} :
    Indicates channels pdu data ↔ ∃ name, (readIndication channels).run pdu = .ok name data := by
  constructor
  . rintro ⟨header, hheader, initiator, hinitiator, id, flags, length, rfl, name, hmem⟩
    obtain ⟨channel, hfind⟩ : ∃ channel, channels.find? (fun channel => channel.2 = id) = some channel := by
      rw [← Option.isSome_iff_exists, List.find?_isSome]
      exact ⟨(name, id), hmem, decide_eq_true rfl⟩
    refine ⟨channel.1, ?_⟩
    rw [ServerPdu.encode, run_readIndication hheader hinitiator, hfind]
  . rintro ⟨name, h⟩
    obtain ⟨header, _, hheader, h⟩ := run_bind_eq_ok h
    split at h
    next => cases h
    next =>
      split at h
      next => cases h
      next hopcode =>
        obtain ⟨initiator, _, hinitiator, h⟩ := run_bind_eq_ok h
        obtain ⟨id, _, hid, h⟩ := run_bind_eq_ok h
        split at h
        next => cases h
        next channel hfind =>
          obtain ⟨flags, _, hflags, h⟩ := run_bind_eq_ok h
          obtain ⟨n, _, hn, h⟩ := run_bind_eq_ok h
          cases h
          obtain ⟨offset, hoffset, huser⟩ := Per.run_readInteger16_iff.mp hinitiator
          obtain ⟨bytes, hbytes, hlength⟩ := Per.run_readLength_iff.mp hn
          obtain ⟨length, rfl⟩ := exists_perLength hbytes
          have hle : offset.toNat ≤ 64534 := by
            have hlt := initiator.toNat_lt
            rw [show (1001 : UInt16).toNat = 1001 from rfl] at huser
            omega
          have hmem := List.mem_of_find?_eq_some hfind
          have hsame : channel.2 = id := by simpa using List.find?_some hfind
          refine ⟨header, not_not.mp hopcode, offset, hle, id, flags, length, ?_, channel.1, ?_⟩
          . rw [run_readU8_eq_ok.mp hheader, hoffset, run_readInteger16_zero_iff.mp hid,
              run_readU8_eq_ok.mp hflags, hlength, ServerPdu.encode]
          . rw [← hsame]
            exact hmem

end Indication

namespace Client

section Runs

variable {s s' : Client}

theorem run_write_of_nil {name : String} {userId channel : UInt16} {m : Message} {bytes : Bytes}
    (huser : s.userId = some userId) (hle : 1001 ≤ userId.toNat)
    (hchannel : s.channelIds.lookup name = some channel) (h : m.write = .ok bytes)
    (hshort : bytes.length < 2 ^ 15) (hwrites : s.link.writes = []) :
    ∃ link', (write name m).run s = .ok () { s with link := link' } ∧
      link'.reads = s.link.reads ∧ link'.writes = [] := by
  obtain ⟨length, hlength, hcount⟩ := Per.exists_encodeLength (.ofNat bytes.length)
  obtain ⟨node, hnode, hrun⟩ := X224.Client.run_write_eq
    (write_request h bytes.length hlength (.ofNat (userId.toNat - 1001)) channel)
    (by rw [length_requestBytes]; split at hcount <;> omega) s.link
  obtain ⟨link', hlink, hreads, hnil⟩ := Link.run_write_of_nil hnode hwrites
  refine ⟨link', ?_, hreads, hnil⟩
  rw [run_write huser hle hchannel, m.length_of_write h]
  simp only [onX224, Prog.run_zoom, hrun, hlink]

theorem run_onX224_write {m : Message} {bytes : Bytes} (h : m.write = .ok bytes)
    (hshort : bytes.length + 7 < 2 ^ 16) (hwrites : s.link.writes = []) :
    ∃ link', (onX224 (X224.Client.write m)).run s = .ok () { s with link := link' } ∧
      link'.reads = s.link.reads ∧ link'.writes = [] := by
  obtain ⟨node, hnode, hrun⟩ := X224.Client.run_write_eq h (by omega) s.link
  obtain ⟨link', hlink, hreads, hnil⟩ := Link.run_write_of_nil hnode hwrites
  refine ⟨link', ?_, hreads, hnil⟩
  simp only [onX224, Prog.run_zoom, hrun, hlink]

theorem run_onX224_read {pdu : Bytes} {left : List Arrival} (h : Reply s.link.reads pdu left) :
    (onX224 X224.Client.read).run s = .ok (.raw pdu) { s with link := s.link.withReads left } := by
  have hread := run_x224_read_raw_iff.mpr ⟨left, h, rfl⟩
  simp only [onX224, Prog.run_zoom, hread]

theorem run_writeJoinRequest {userId : UInt16} (hle : 1001 ≤ userId.toNat) (id : UInt16)
    (hwrites : s.link.writes = []) : ∃ request, channelJoinRequest (some userId) (some id) = .ok request ∧
      ∃ link', (onX224 (X224.Client.write request)).run s = .ok () { s with link := link' } ∧
        link'.reads = s.link.reads ∧ link'.writes = [] := by
  have huser : userId.toNat = (UInt16.ofNat (userId.toNat - 1001)).toNat + 1001 := by
    have hlt := userId.toNat_lt
    rw [UInt16.toNat_ofNat']
    omega
  obtain ⟨request, hrequest, hbytes⟩ := (encodesBack_of_eq huser).join (some id)
  refine ⟨request, hrequest, run_onX224_write hbytes ?_ hwrites⟩
  simp only [List.length_cons, List.length_append, Endian.length_encode16]
  omega

theorem exists_run_joinChannels {userId : UInt16} {ids : List UInt16} {joins : List Bytes}
    {left : List Arrival} (huser : s.userId = some userId) (hle : 1001 ≤ userId.toNat)
    (hwrites : s.link.writes = []) (hjoins : List.Forall₂ (Confirms userId) ids joins)
    (hreplies : Replies s.link.reads joins left) :
    ∃ link', (joinChannels ids).run s = .ok () { s with link := link' } ∧ link'.reads = left ∧
      link'.writes = [] := by
  induction hjoins generalizing s with
  | nil =>
    cases hreplies
    exact ⟨s.link, rfl, rfl, hwrites⟩
  | @cons id join ids joins hjoin _ ih =>
    cases hreplies with
    | cons hreply hreplies =>
      obtain ⟨request, hrequest, link₁, hwrite, hreads, hnil⟩ := run_writeJoinRequest hle id hwrites
      rw [← hreads] at hreply
      obtain ⟨joined, rest, hconfirm⟩ := confirms_iff.mp hjoin
      obtain ⟨link', hrun, hleft, hnil'⟩ := @ih { s with link := link₁.withReads _ } huser
        ((Link.writes_withReads _ _).trans hnil) (by rwa [Link.reads_withReads])
      refine ⟨link', ?_, hleft, hnil'⟩
      refine run_bind_eq_ok_iff.mpr ⟨s, s, rfl, ?_⟩
      refine run_bind_eq_ok_iff.mpr ⟨request, s, by rw [huser, hrequest]; rfl, ?_⟩
      refine run_bind_eq_ok_iff.mpr ⟨(), _, hwrite, ?_⟩
      refine run_bind_eq_ok_iff.mpr ⟨userId, { s with link := link₁ }, by rw [huser]; rfl, ?_⟩
      refine run_bind_eq_ok_iff.mpr ⟨_, _, run_onX224_read hreply, ?_⟩
      refine run_bind_eq_ok_iff.mpr ⟨_, _, rfl, ?_⟩
      refine run_bind_eq_ok_iff.mpr ⟨(joined, rest), _, ?_, hrun⟩
      rw [run_on, hconfirm]

theorem exists_run_attachUser {userId : UInt16} {attach : Bytes} {left : List Arrival}
    (hwrites : s.link.writes = []) (hattach : Attached attach userId)
    (hreply : Reply s.link.reads attach left) :
    ∃ link', attachUser.run s = .ok userId { s with link := link' } ∧ link'.reads = left ∧
      link'.writes = [] := by
  obtain ⟨request, hrequest, bytes, hbytes, hshort⟩ : ∃ request, erectDomainRequest = .ok request ∧
      ∃ bytes, request.write = .ok bytes ∧ bytes.length + 7 < 2 ^ 16 := ⟨_, rfl, _, rfl, by decide⟩
  obtain ⟨link₁, herect, hreads₁, hnil₁⟩ := run_onX224_write hbytes hshort hwrites
  have huser : (Message.leaf (.u8 attachUserRequest)).write = .ok [attachUserRequest] := rfl
  obtain ⟨link₂, hwrite, hreads₂, hnil₂⟩ :=
    @run_onX224_write { s with link := link₁ } _ _ huser (by decide) hnil₁
  have hreads : link₂.reads = s.link.reads := hreads₂.trans hreads₁
  rw [← hreads] at hreply
  obtain ⟨rest, hconfirm⟩ := attached_iff.mp hattach
  refine ⟨link₂.withReads left, ?_, Link.reads_withReads _ _, (Link.writes_withReads _ _).trans hnil₂⟩
  refine run_bind_eq_ok_iff.mpr ⟨request, s, by rw [hrequest]; rfl, ?_⟩
  refine run_bind_eq_ok_iff.mpr ⟨(), _, herect, ?_⟩
  refine run_bind_eq_ok_iff.mpr ⟨(), _, hwrite, ?_⟩
  refine run_bind_eq_ok_iff.mpr ⟨_, _, run_onX224_read hreply, ?_⟩
  refine run_bind_eq_ok_iff.mpr ⟨_, _, rfl, ?_⟩
  refine run_bind_eq_ok_iff.mpr ⟨(userId, rest), _, ?_, rfl⟩
  rw [run_on, hconfirm]

theorem exists_run_readConnectResponse {der : Der} {response : Bytes} {data : Gcc.ServerData}
    {left : List Arrival} (hresponse : Responds der response data)
    (hreply : Reply s.link.reads response left) :
    (readConnectResponse der).run s =
      .ok () { s with link := s.link.withReads left, serverData := some data } := by
  obtain ⟨bytes, rest, hbytes, hrun⟩ := responds_iff.mp hresponse
  obtain ⟨tree, htree, hbytes⟩ := Except.bind_eq_ok hbytes
  obtain ⟨node, hnode, hbytes⟩ := Except.bind_eq_ok hbytes
  refine run_bind_eq_ok_iff.mpr ⟨_, _, run_onX224_read hreply, ?_⟩
  refine run_bind_eq_ok_iff.mpr ⟨response, _, rfl, ?_⟩
  refine run_bind_eq_ok_iff.mpr ⟨tree, { s with link := s.link.withReads left }, by rw [htree]; rfl, ?_⟩
  refine run_bind_eq_ok_iff.mpr ⟨node, { s with link := s.link.withReads left }, by rw [hnode]; rfl, ?_⟩
  refine run_bind_eq_ok_iff.mpr ⟨bytes, { s with link := s.link.withReads left }, by rw [hbytes]; rfl, ?_⟩
  refine run_bind_eq_ok_iff.mpr ⟨(data, rest), { s with link := s.link.withReads left }, ?_, rfl⟩
  rw [run_on, hrun]

theorem exists_run_writeConnectInitial {der : Der} {width height : UInt16} {layout : Gcc.KeyboardLayout}
    {name : String} {bytes : Bytes}
    (hconference : conference s.selectedProtocol width height layout name = .ok bytes)
    (hshort : (der.toDer (connectInitial (some bytes))).length + 7 < 2 ^ 16)
    (hwrites : s.link.writes = []) :
    ∃ link', (writeConnectInitial der width height layout name).run s = .ok () { s with link := link' } ∧
      link'.reads = s.link.reads ∧ link'.writes = [] := by
  obtain ⟨settings, hsettings, hbytes⟩ := Except.bind_eq_ok hconference
  have hwrite : (Message.leaf (.bytes (der.toDer (connectInitial (some bytes))))).write =
    .ok (der.toDer (connectInitial (some bytes))) := rfl
  obtain ⟨link', hrun, hlink⟩ := run_onX224_write hwrite hshort hwrites
  refine ⟨link', ?_, hlink⟩
  refine run_bind_eq_ok_iff.mpr ⟨s, s, rfl, ?_⟩
  refine run_bind_eq_ok_iff.mpr ⟨settings, s, by rw [hsettings]; rfl, ?_⟩
  exact run_bind_eq_ok_iff.mpr ⟨bytes, s, by rw [hbytes]; rfl, hrun⟩

def welcomed (s : Client) (link : Link) (userId : UInt16) (data : Gcc.ServerData) : Client :=
  { s with link, serverData := some data, userId := some userId, channelIds := joined s.place userId }

section Connect

variable {der : Der} {width height : UInt16} {layout : Gcc.KeyboardLayout} {name : String}

theorem exists_run_connect {bytes : Bytes}
    (hconference : conference s.selectedProtocol width height layout name = .ok bytes)
    (hshort : (der.toDer (connectInitial (some bytes))).length + 7 < 2 ^ 16)
    (hwrites : s.link.writes = []) (hnew : s.channelIds = []) {pdus : List Bytes} {userId : UInt16}
    {data : Gcc.ServerData} (h : Welcomes der s.place pdus userId data) {left : List Arrival}
    (hreplies : Replies s.link.reads pdus left) :
    ∃ link', (connect der name width height layout).run s = .ok () (welcomed s link' userId data) ∧
      link'.reads = left ∧ link'.writes = [] := by
  cases h with
  | connects hresponse hattach hjoins =>
    cases hreplies with
    | cons hreply hreplies =>
      cases hreplies with
      | cons hreply' hreplies =>
        obtain ⟨link₁, hwrite, hreads₁, hnil₁⟩ :=
          exists_run_writeConnectInitial hconference hshort hwrites
        rw [← hreads₁] at hreply
        have hread := @exists_run_readConnectResponse { s with link := link₁ } _ _ _ _ hresponse hreply
        obtain ⟨link₂, hattached, hreads₂, hnil₂⟩ := @exists_run_attachUser
          { s with link := link₁.withReads _, serverData := some data } _ _ _
          ((Link.writes_withReads _ _).trans hnil₁) hattach (by rwa [Link.reads_withReads])
        rw [← hreads₂] at hreplies
        obtain ⟨link₃, hjoined, hreads₃, hnil₃⟩ := @exists_run_joinChannels
          (welcomed s link₂ userId data) userId _ _ _ rfl hattach.le hnil₂ hjoins hreplies
        refine ⟨link₃, ?_, hreads₃, hnil₃⟩
        refine run_bind_eq_ok_iff.mpr ⟨(), _, hwrite, ?_⟩
        refine run_bind_eq_ok_iff.mpr ⟨(), _, hread, ?_⟩
        refine run_bind_eq_ok_iff.mpr ⟨userId, _, hattached, ?_⟩
        refine run_bind_eq_ok_iff.mpr ⟨(), welcomed s link₂ userId data, ?_, hjoined⟩
        rw [welcomed, joined, ← hnew]
        rfl

theorem confirms_of_run_joinChannels {userId : UInt16} {ids : List UInt16} {u : Unit}
    (h : (joinChannels ids).run s = .ok u s') (huser : s.userId = some userId) :
    ∃ joins, Advances joins s s' ∧ List.Forall₂ (Confirms userId) ids joins := by
  induction ids generalizing s with
  | nil =>
    cases h
    exact ⟨[], ⟨.nil _, rfl⟩, .nil⟩
  | cons id ids ih =>
    obtain ⟨request, _, h⟩ := run_lift_bind_eq_ok (run_get_bind_eq_ok h)
    obtain ⟨_, s₁, hwrite, h⟩ := run_bind_eq_ok h
    obtain ⟨userId', huserId, h⟩ := run_lift_bind_eq_ok h
    rw [huser] at huserId
    cases huserId
    obtain ⟨payload, s₂, hread, h⟩ := run_bind_eq_ok h
    obtain ⟨join, hraw, h⟩ := run_lift_bind_eq_ok h
    obtain ⟨_, rest, hconfirm, h⟩ := run_on_bind_eq_ok h
    have hadvances := (advances_write hwrite).trans (advances_read hread hraw)
    have huser₂ : s₂.userId = some userId := by
      rw [hadvances.frame]
      exact huser
    obtain ⟨joins, hadvances', hjoins⟩ := ih h huser₂
    exact ⟨join :: joins, hadvances.trans hadvances', .cons (confirms_iff.mpr ⟨_, _, hconfirm⟩) hjoins⟩

theorem attached_of_run_attachUser {userId : UInt16} (h : attachUser.run s = .ok userId s') :
    ∃ attach, Advances [attach] s s' ∧ Attached attach userId := by
  obtain ⟨request, _, h⟩ := run_lift_bind_eq_ok h
  obtain ⟨_, s₁, herect, h⟩ := run_bind_eq_ok h
  obtain ⟨_, s₂, hwrite, h⟩ := run_bind_eq_ok h
  obtain ⟨payload, s₃, hread, h⟩ := run_bind_eq_ok h
  obtain ⟨attach, hraw, h⟩ := run_lift_bind_eq_ok h
  obtain ⟨_, rest, hconfirm, hpure⟩ := run_on_bind_eq_ok h
  cases hpure
  have hwrites := (advances_write herect).trans (advances_write hwrite)
  exact ⟨attach, hwrites.trans (advances_read hread hraw), attached_iff.mpr ⟨rest, hconfirm⟩⟩

theorem responds_of_run_readConnectResponse {u : Unit}
    (h : (readConnectResponse der).run s = .ok u s') :
    ∃ response s₁ data, Advances [response] s s₁ ∧ s' = { s₁ with serverData := some data } ∧
      Responds der response data := by
  obtain ⟨payload, s₁, hread, h⟩ := run_bind_eq_ok h
  obtain ⟨response, hraw, h⟩ := run_lift_bind_eq_ok h
  obtain ⟨tree, htree, h⟩ := run_lift_bind_eq_ok h
  obtain ⟨node, hnode, h⟩ := run_lift_bind_eq_ok h
  obtain ⟨bytes, hbytes, h⟩ := run_lift_bind_eq_ok h
  obtain ⟨data, rest, hdata, hmodify⟩ := run_on_bind_eq_ok h
  cases hmodify
  refine ⟨response, s₁, data, advances_read hread hraw, rfl, responds_iff.mpr ⟨bytes, rest, ?_, hdata⟩⟩
  rw [ccResponse, htree, Except.ok_bind, hnode, Except.ok_bind, hbytes]

theorem welcomes_of_run_connect {u : Unit} (hnew : s.channelIds = [])
    (h : (connect der name width height layout).run s = .ok u s') :
    ∃ pdus userId data, Welcomes der s.place pdus userId data ∧
      Replies s.link.reads pdus s'.link.reads ∧ s' = welcomed s s'.link userId data := by
  obtain ⟨_, s₁, hwrite, h⟩ := run_bind_eq_ok h
  obtain ⟨_, s₂, hresponse, h⟩ := run_bind_eq_ok h
  obtain ⟨userId, s₃, hattach, h⟩ := run_bind_eq_ok h
  obtain ⟨_, _, hmodify, h⟩ := run_bind_eq_ok h
  cases hmodify
  have hjoins := run_get_bind_eq_ok h
  have hinitial := writeConnectInitial_eq_ok hwrite
  obtain ⟨response, t, data, hadvances, rfl, hresponds⟩ := responds_of_run_readConnectResponse hresponse
  obtain ⟨attach, hadvances', hattached⟩ := attached_of_run_attachUser hattach
  obtain ⟨joins, hadvances'', hconfirms⟩ := confirms_of_run_joinChannels hjoins rfl
  have hfront := (hinitial.trans hadvances).replies
  have hframe : s₃ = { s with link := s₃.link, serverData := some data } := by
    rw [hadvances'.frame, hadvances.frame, hinitial.frame]
  have hchannels : insertChannel s₃.place "user" userId
      (insertChannel s₃.place "global" 1003 s₃.channelIds) = joined s.place userId := by
    rw [hframe, hnew]
    rfl
  refine ⟨response :: attach :: joins, userId, data, .connects hresponds hattached ?_,
    hfront.append (hadvances'.replies.append hadvances''.replies), ?_⟩
  . rw [← hchannels]
    exact hconfirms
  . rw [hadvances''.frame, welcomed, ← hchannels, hframe]

end Connect

section Read

theorem run_read_indication {pdu data : Bytes} {name : String} {left : List Arrival}
    (hreply : Reply s.link.reads pdu left) (h : (readIndication s.channelIds).run pdu = .ok name data) :
    read.run s = .ok (name, .raw data) { s with link := s.link.withReads left } := by
  refine run_bind_eq_ok_iff.mpr ⟨_, _, run_onX224_read hreply, ?_⟩
  refine run_bind_eq_ok_iff.mpr ⟨_, _, rfl, run_bind_eq_ok_iff.mpr ⟨(name, data), _, ?_, rfl⟩⟩
  rw [run_on, h]

theorem indicates_of_run_read {name : String} {payload : Tpkt.Payload} {data : Bytes}
    (h : read.run s = .ok (name, payload) s') (hraw : rawPayload payload = .ok data) :
    ∃ pdu, Advances [pdu] s s' ∧ Indicates s.channelIds pdu data := by
  obtain ⟨payload', s₁, hread, h⟩ := run_bind_eq_ok h
  cases payload' with
  | fastPath flag bytes =>
    cases h
    cases hraw
  | raw pdu =>
    have hadvances := advances_read hread rfl
    have hchannels : s₁.channelIds = s.channelIds := by rw [hadvances.frame]
    obtain ⟨name', data', hindication, h⟩ := run_on_bind_eq_ok (run_get_bind_eq_ok h)
    cases h
    cases hraw
    rw [hchannels] at hindication
    exact ⟨pdu, hadvances, indicates_iff.mpr ⟨_, hindication⟩⟩

theorem advances_of_run_write {name : String} {m : Message} {u : Unit}
    (h : (write name m).run s = .ok u s') : Advances [] s s' := by
  obtain ⟨userId, _, h⟩ := run_lift_bind_eq_ok (run_get_bind_eq_ok h)
  obtain ⟨user, _, h⟩ := run_lift_bind_eq_ok h
  obtain ⟨channel, _, h⟩ := run_lift_bind_eq_ok h
  obtain ⟨length, _, h⟩ := run_lift_bind_eq_ok h
  exact advances_write h

end Read

end Runs

end Client

end Rdp.Mcs
