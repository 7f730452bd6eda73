import Rdp.Core.Gcc.Response
import Rdp.Core.Mcs.Delivery
import Rdp.Core.Mcs.Ids
import Rdp.Nla.Asn1.Der

/-!
This module contains the channels of the MCS layer after its connection: for which replies of the
server every channel has an id of its own and was joined.
-/

namespace Rdp.Mcs

open Prog Cursor
open Ntlm (unwrapOption)

theorem Reply.unique {reads left left' : List Arrival} {pdu pdu' : Bytes} (h : Reply reads pdu left)
    (h' : Reply reads pdu' left') : pdu = pdu' ∧ left = left' := by
  let link : Link := ⟨.raw ⟨reads, [], []⟩, []⟩
  have hrun := (@run_x224_read_raw_iff link _ pdu).mpr ⟨left, h, rfl⟩
  have hrun' := (@run_x224_read_raw_iff link _ pdu').mpr ⟨left', h', rfl⟩
  have hsame := hrun.symm.trans hrun'
  injection hsame with hpayload hlink
  injection hpayload with hpdu
  have hreads := congrArg Link.reads hlink
  rw [Link.reads_withReads, Link.reads_withReads] at hreads
  exact ⟨hpdu, hreads⟩

inductive Replies : List Arrival → List Bytes → List Arrival → Prop where
  | nil (reads : List Arrival) : Replies reads [] reads
  | cons {reads next left : List Arrival} {pdu : Bytes} {pdus : List Bytes}
    (head : Reply reads pdu next) (tail : Replies next pdus left) : Replies reads (pdu :: pdus) left

theorem Replies.append {reads next left : List Arrival} {pdus pdus' : List Bytes}
    (h : Replies reads pdus next) (h' : Replies next pdus' left) : Replies reads (pdus ++ pdus') left := by
  induction h with
  | nil => exact h'
  | cons head _ ih => exact .cons head (ih h')

theorem Replies.unique {reads left left' : List Arrival} {pdus pdus' : List Bytes}
    (h : Replies reads pdus left) (h' : Replies reads pdus' left') (hlength : pdus.length = pdus'.length) :
    pdus = pdus' := by
  induction h generalizing pdus' with
  | nil => exact (List.length_eq_zero_iff.mp hlength.symm).symm
  | cons head _ ih =>
    cases h' with
    | nil => cases hlength
    | cons head' tail' =>
      obtain ⟨rfl, rfl⟩ := head.unique head'
      rw [ih tail' (Nat.succ.inj hlength)]

section Frame

structure Advances (pdus : List Bytes) (s s' : Client) : Prop where
  replies : Replies s.link.reads pdus s'.link.reads
  frame : s' = { s with link := s'.link }

variable {s s' s'' : Client} {pdus pdus' : List Bytes}

theorem Advances.trans (h : Advances pdus s s') (h' : Advances pdus' s' s'') :
    Advances (pdus ++ pdus') s s'' where
  replies := h.replies.append h'.replies
  frame := by
    rw [h'.frame, h.frame]

theorem reads_of_run_write {m : Message} {link link' : Link} {u : Unit}
    (h : (Link.write m).run link = .ok u link') : link'.reads = link.reads := by
  cases hm : m.write with
  | error e =>
    unfold Link.write at h
    rw [hm] at h
    cases h
  | ok buffer => exact (Link.writable_of_run_write hm h).2

theorem advances_write {m : Message} {u : Unit}
    (h : (Client.onX224 (X224.Client.write m)).run s = .ok u s') : Advances [] s s' := by
  obtain ⟨link', hwrite, rfl⟩ := run_zoom_eq_ok h
  obtain ⟨length, _, hwrite⟩ := run_lift_bind_eq_ok hwrite
  obtain ⟨header, _, hwrite⟩ := run_lift_bind_eq_ok hwrite
  refine ⟨?_, rfl⟩
  rw [reads_of_run_write hwrite]
  exact .nil _

theorem advances_read {payload : Tpkt.Payload} {pdu : Bytes}
    (h : (Client.onX224 X224.Client.read).run s = .ok payload s') (hraw : rawPayload payload = .ok pdu) :
    Advances [pdu] s s' := by
  obtain ⟨link', hlink, rfl⟩ := run_zoom_eq_ok h
  cases payload with
  | fastPath flag payload => cases hraw
  | raw payload =>
    cases hraw
    obtain ⟨left, hreply, rfl⟩ := run_x224_read_raw_iff.mp hlink
    refine ⟨.cons hreply ?_, rfl⟩
    rw [Link.reads_withReads]
    exact .nil left

def Answers (join : Bytes) (id : UInt16) (result : UInt8) : Prop :=
  ∃ (header : UInt8) (user : UInt16) (tail : Bytes),
    header >>> 2 = DomainMCSPDU.channelJoinConfirm.toU8 ∧
    join = header :: result :: (Endian.be.encode16 user ++ (Endian.be.encode16 id ++ tail))

theorem joinChannels_eq_ok {ids : List UInt16} {u : Unit}
    (h : (Client.joinChannels ids).run s = .ok u s') :
    ∃ joins, Advances joins s s' ∧ List.Forall₂ (fun id join => ∃ result, Answers join id result) ids joins := by
  induction ids generalizing s with
  | nil =>
    cases h
    exact ⟨[], ⟨.nil _, rfl⟩, .nil⟩
  | cons id ids ih =>
    obtain ⟨request, _, h⟩ := run_lift_bind_eq_ok (run_get_bind_eq_ok h)
    obtain ⟨_, s₁, hwrite, h⟩ := run_bind_eq_ok h
    obtain ⟨userId, _, h⟩ := run_lift_bind_eq_ok h
    obtain ⟨payload, s₂, hread, h⟩ := run_bind_eq_ok h
    obtain ⟨join, hraw, h⟩ := run_lift_bind_eq_ok h
    obtain ⟨joined, rest, hconfirm, h⟩ := run_on_bind_eq_ok h
    obtain ⟨joins, hadvances, hanswers⟩ := ih h
    obtain ⟨header, result, user, tail, hbytes, hheader, _⟩ :=
      run_readChannelJoinConfirm_eq_ok.mp hconfirm
    refine ⟨join :: joins, ?_, .cons ⟨result, header, user, tail, hheader, hbytes⟩ hanswers⟩
    exact ((advances_write hwrite).trans (advances_read hread hraw)).trans hadvances

def Attaches (attach : Bytes) (userId : UInt16) : Prop :=
  ∃ (header : UInt8) (offset : UInt16) (tail : Bytes),
    attach = header :: 0 :: (Endian.be.encode16 offset ++ tail) ∧ userId.toNat = offset.toNat + 1001

theorem attachUser_eq_ok {userId : UInt16} (h : Client.attachUser.run s = .ok userId s') :
    ∃ attach, Advances [attach] s s' ∧ Attaches attach userId := by
  obtain ⟨request, _, h⟩ := run_lift_bind_eq_ok h
  obtain ⟨_, s₁, herect, h⟩ := run_bind_eq_ok h
  obtain ⟨_, s₂, hwrite, h⟩ := run_bind_eq_ok h
  obtain ⟨payload, s₃, hread, h⟩ := run_bind_eq_ok h
  obtain ⟨attach, hraw, h⟩ := run_lift_bind_eq_ok h
  obtain ⟨_, rest, hconfirm, hpure⟩ := run_on_bind_eq_ok h
  cases hpure
  obtain ⟨header, offset, tail, hbytes, _, huser, _⟩ := run_readAttachUserConfirm_eq_ok.mp hconfirm
  have hwrites := (advances_write herect).trans (advances_write hwrite)
  exact ⟨attach, hwrites.trans (advances_read hread hraw), header, offset, tail, hbytes, huser⟩

theorem writeConnectInitial_eq_ok {der : Der} {width height : UInt16} {layout : Gcc.KeyboardLayout}
    {name : String} {u : Unit}
    (h : (Client.writeConnectInitial der width height layout name).run s = .ok u s') :
    Advances [] s s' := by
  obtain ⟨userData, _, h⟩ := run_lift_bind_eq_ok (run_get_bind_eq_ok h)
  obtain ⟨conference, _, h⟩ := run_lift_bind_eq_ok h
  exact advances_write h

theorem readConnectResponse_eq_ok {der : Der} {u : Unit}
    (h : (Client.readConnectResponse der).run s = .ok u s') :
    ∃ response s₁ data, Advances [response] s s₁ ∧ s' = { s₁ with serverData := some data } ∧
      ∃ ccResponse rest, Gcc.readConferenceCreateResponse.run ccResponse = .ok data rest := by
  obtain ⟨payload, s₁, hread, h⟩ := run_bind_eq_ok h
  obtain ⟨response, hraw, h⟩ := run_lift_bind_eq_ok h
  obtain ⟨tree, _, h⟩ := run_lift_bind_eq_ok h
  obtain ⟨node, _, h⟩ := run_lift_bind_eq_ok h
  obtain ⟨ccResponse, _, h⟩ := run_lift_bind_eq_ok h
  obtain ⟨data, rest, hdata, hmodify⟩ := run_on_bind_eq_ok h
  cases hmodify
  exact ⟨response, s₁, data, advances_read hread hraw, rfl, ccResponse, rest, hdata⟩

/--
What is known after `connect`: the server has sent these replies, and the two channels stand in the
map.
-/
structure Connected (s s' : Client) (response attach : Bytes) (joins : List Bytes)
    (userId : UInt16) (data : Gcc.ServerData) : Prop where
  replies : Replies s.link.reads (response :: attach :: joins) s'.link.reads
  frame : s' = { s with
    link := s'.link
    serverData := some data
    userId := some userId
    channelIds := insertChannel s.place "user" userId (insertChannel s.place "global" 1003 s.channelIds) }
  accepted : ∃ ccResponse rest, Gcc.readConferenceCreateResponse.run ccResponse = .ok data rest
  attaches : Attaches attach userId
  answers : List.Forall₂ (fun id join => ∃ result, Answers join id result) (s'.channelIds.map (·.2)) joins

theorem connect_eq_ok {der : Der} {name : String} {width height : UInt16}
    {layout : Gcc.KeyboardLayout} {u : Unit}
    (h : (Client.connect der name width height layout).run s = .ok u s') :
    ∃ response attach joins userId data, Connected s s' response attach joins userId data := by
  obtain ⟨_, s₁, hwrite, h⟩ := run_bind_eq_ok h
  obtain ⟨_, s₂, hresponse, h⟩ := run_bind_eq_ok h
  obtain ⟨userId, s₃, hattach, h⟩ := run_bind_eq_ok h
  obtain ⟨_, _, hmodify, h⟩ := run_bind_eq_ok h
  cases hmodify
  have hjoins := run_get_bind_eq_ok h
  have hinitial := writeConnectInitial_eq_ok hwrite
  obtain ⟨response, t, data, hadvances, rfl, haccepted⟩ := readConnectResponse_eq_ok hresponse
  obtain ⟨attach, hadvances', hattaches⟩ := attachUser_eq_ok hattach
  obtain ⟨joins, hadvances'', hanswers⟩ := joinChannels_eq_ok hjoins
  refine ⟨response, attach, joins, userId, data, ?_, ?_, haccepted, hattaches, ?_⟩
  . have hreplies := (hinitial.trans hadvances).replies
    exact hreplies.append (hadvances'.replies.append hadvances''.replies)
  . rw [hadvances''.frame, hadvances'.frame, hadvances.frame, hinitial.frame]
  . rw [hadvances''.frame]
    exact hanswers

end Frame

/--
Every channel in the map has an id of its own and was joined: data on its id is delivered under its
name, and nothing is sent on a channel that was not joined.
-/
structure ChannelMap (client : Client) (joins : List Bytes) : Prop where
  distinct : ∀ name name' id, (name, id) ∈ client.channelIds → (name', id) ∈ client.channelIds →
    name = name'
  confirmed : ∀ name id, (name, id) ∈ client.channelIds → ∃ join ∈ joins, Answers join id 0
  delivered : ∀ name id, (name, id) ∈ client.channelIds →
    ∀ header hheader initiator hinitiator flags length data link link',
      X224.Client.read.run link = .ok (.raw (ServerPdu.sendDataIndication header hheader initiator
        hinitiator id flags length data).encode) link' →
      Client.read.run { client with link } = .ok (name, .raw data) { client with link := link' }
  written : ∀ name message link state, (Client.write name message).run { client with link } = .ok () state →
    ∃ id, (name, id) ∈ client.channelIds ∧ (∃ join ∈ joins, Answers join id 0) ∧
      ∃ user n, (Client.onX224 (X224.Client.write (Client.request user id n message))).run
        { client with link } = .ok () state

section Map

variable {client : Client} {joins : List Bytes}

theorem run_read_indication (hinj : Injective client.channelIds) {name : String} {id : UInt16}
    (h : (name, id) ∈ client.channelIds) {header : UInt8}
    (hheader : header >>> 2 = DomainMCSPDU.sendDataIndication.toU8) {initiator : UInt16}
    (hinitiator : initiator.toNat ≤ 64534) {flags : UInt8} {length : PerLength} {data : Bytes}
    {link link' : Link}
    (hread : X224.Client.read.run link = .ok (.raw (ServerPdu.sendDataIndication header hheader
      initiator hinitiator id flags length data).encode) link') :
    Client.read.run { client with link } = .ok (name, .raw data) { client with link := link' } := by
  have hpayload : (Client.onX224 X224.Client.read).run { client with link } =
      .ok (.raw (ServerPdu.sendDataIndication header hheader initiator hinitiator id flags length data).encode)
        { client with link := link' } := by
    rw [Client.onX224, run_zoom, hread]
  refine run_bind_eq_ok_iff.mpr ⟨_, _, hpayload, ?_⟩
  refine run_bind_eq_ok_iff.mpr ⟨_, _, rfl, run_bind_eq_ok_iff.mpr ⟨(name, data), _, ?_, rfl⟩⟩
  rw [ServerPdu.encode, run_on, run_readIndication hheader hinitiator, find?_of_mem hinj h]

theorem exists_channel_of_write {name : String} {message : Message} {link : Link} {state : Client}
    (h : (Client.write name message).run { client with link } = .ok () state) :
    ∃ id, (name, id) ∈ client.channelIds ∧ ∃ user n,
      (Client.onX224 (X224.Client.write (Client.request user id n message))).run { client with link } =
        .ok () state := by
  obtain ⟨userId, _, h⟩ := run_lift_bind_eq_ok (run_get_bind_eq_ok h)
  obtain ⟨user, _, h⟩ := run_lift_bind_eq_ok h
  obtain ⟨id, hid, h⟩ := run_lift_bind_eq_ok h
  obtain ⟨n, _, h⟩ := run_lift_bind_eq_ok h
  refine ⟨id, ?_, .ofNat user, n, h⟩
  unfold channelId at hid
  split at hid
  next hlookup =>
    cases hid
    obtain ⟨before, behind, hchannels, _⟩ := List.lookup_eq_some_iff.mp hlookup
    change client.channelIds = _ at hchannels
    rw [hchannels]
    simp
  next => cases hid

theorem channelMap_of_confirmed (hinj : Injective client.channelIds)
    (h : ∀ name id, (name, id) ∈ client.channelIds → ∃ join ∈ joins, Answers join id 0) :
    ChannelMap client joins where
  distinct name name' id hname hname' := congrArg Prod.fst (hinj (name, id) hname (name', id) hname' rfl)
  confirmed := h
  delivered _ _ hname _ _ _ _ _ _ _ _ _ hread := run_read_indication hinj hname _ _ hread
  written name message link state hwrite := by
    obtain ⟨id, hname, hrequest⟩ := exists_channel_of_write hwrite
    exact ⟨id, hname, h name id hname, hrequest⟩

theorem encode16_cancel {e : Endian} {v v' : UInt16} {rest rest' : Bytes}
    (h : e.encode16 v ++ rest = e.encode16 v' ++ rest') : v = v' ∧ rest = rest' := by
  have hrun := run_readU16_encode16 e rest v
  rw [h, run_readU16_encode16] at hrun
  injection hrun with hv hrest
  exact ⟨hv.symm, hrest.symm⟩

theorem Answers.unique {join : Bytes} {id id' : UInt16} {result result' : UInt8}
    (h : Answers join id result) (h' : Answers join id' result') : id = id' ∧ result = result' := by
  obtain ⟨header, user, tail, _, rfl⟩ := h
  obtain ⟨header', user', tail', _, heq⟩ := h'
  injection heq with _ hbody
  injection hbody with hresult hids
  exact ⟨(encode16_cancel (encode16_cancel hids).2).1, hresult⟩

theorem channelMap_iff_of_two {name₁ name₂ : String} (hne : name₁ ≠ name₂) {id₁ id₂ : UInt16}
    (hchannels : client.channelIds = [(name₁, id₁), (name₂, id₂)]) {join₁ join₂ : Bytes}
    {result₁ result₂ : UInt8} (h₁ : Answers join₁ id₁ result₁) (h₂ : Answers join₂ id₂ result₂) :
    ChannelMap client [join₁, join₂] ↔ id₁ ≠ id₂ ∧ result₁ = 0 ∧ result₂ = 0 := by
  have hmem₁ : (name₁, id₁) ∈ client.channelIds := by simp [hchannels]
  have hmem₂ : (name₂, id₂) ∈ client.channelIds := by simp [hchannels]
  constructor
  . intro hmap
    have hids : id₁ ≠ id₂ := by
      rintro rfl
      exact hne (hmap.distinct name₁ name₂ id₁ hmem₁ hmem₂)
    refine ⟨hids, ?_, ?_⟩
    . obtain ⟨join, hjoin, hanswers⟩ := hmap.confirmed name₁ id₁ hmem₁
      rcases List.mem_pair.mp hjoin with rfl | rfl
      . exact (h₁.unique hanswers).2
      . exact absurd (h₂.unique hanswers).1.symm hids
    . obtain ⟨join, hjoin, hanswers⟩ := hmap.confirmed name₂ id₂ hmem₂
      rcases List.mem_pair.mp hjoin with rfl | rfl
      . exact absurd (h₁.unique hanswers).1 hids
      . exact (h₂.unique hanswers).2
  . rintro ⟨hids, rfl, rfl⟩
    apply channelMap_of_confirmed
    . rw [hchannels]
      intro a ha b hb hab
      rcases List.mem_pair.mp ha with rfl | rfl <;> rcases List.mem_pair.mp hb with rfl | rfl
      . rfl
      . exact absurd hab hids
      . exact absurd hab.symm hids
      . rfl
    . intro name id hmem
      rw [hchannels] at hmem
      rcases List.mem_pair.mp hmem with h | h <;> cases h
      . exact ⟨join₁, by simp, h₁⟩
      . exact ⟨join₂, by simp, h₂⟩

def Accepts (join : Bytes) : Prop := ∃ header rest, join = header :: 0 :: rest

theorem Answers.accepts_iff {join : Bytes} {id : UInt16} {result : UInt8} (h : Answers join id result) :
    Accepts join ↔ result = 0 := by
  obtain ⟨header, user, tail, _, rfl⟩ := h
  constructor
  . rintro ⟨header', rest, heq⟩
    injection heq with _ hbody
    injection hbody
  . rintro rfl
    exact ⟨header, _, rfl⟩

theorem Attaches.unique {attach : Bytes} {userId userId' : UInt16} (h : Attaches attach userId)
    (h' : Attaches attach userId') : userId = userId' := by
  obtain ⟨header, offset, tail, rfl, huser⟩ := h
  obtain ⟨header', offset', tail', heq, huser'⟩ := h'
  injection heq with _ hbody
  injection hbody with _ hoffset
  rw [(encode16_cancel hoffset).1] at huser
  exact UInt16.toNat_inj.mp (huser.trans huser'.symm)

theorem forall₂_pair {R : UInt16 → Bytes → Prop} {id₁ id₂ : UInt16} {joins : List Bytes}
    (h : List.Forall₂ R [id₁, id₂] joins) :
    ∃ join₁ join₂, R id₁ join₁ ∧ R id₂ join₂ ∧ joins = [join₁, join₂] := by
  cases h with
  | cons h₁ h =>
    cases h with
    | cons h₂ h =>
      cases h
      exact ⟨_, _, h₁, h₂, rfl⟩

theorem insertChannel_user (place : String → Nat) (userId : UInt16) :
    insertChannel place "user" userId (insertChannel place "global" 1003 []) =
      if place "user" < place "global" then
        [("user", userId), ("global", 1003)]
      else
        [("global", 1003), ("user", userId)] := by
  have hne : ¬ "global" = "user" := by decide
  simp only [insertChannel, if_neg hne]

/--
A connection takes four replies of the server. After it the map of the channels is right exactly if
the server has not given the id of the global channel to the user and has accepted both requests to
join.
-/
theorem channelMap_iff {der : Der} {name : String} {width height : UInt16}
    {layout : Gcc.KeyboardLayout} {link : Link} {protocol : X224.Protocols} {place : String → Nat}
    (hrun : (Client.connect der name width height layout).run (Client.new link protocol place) =
      .ok () client) :
    ∃ response attach join₁ join₂,
      Replies link.reads [response, attach, join₁, join₂] client.link.reads ∧
      (ChannelMap client [join₁, join₂] ↔
        ¬ Attaches attach 1003 ∧ Accepts join₁ ∧ Accepts join₂) := by
  obtain ⟨response, attach, joins, userId, data, hconnected⟩ := connect_eq_ok hrun
  have hchannels : client.channelIds = _ :=
    (congrArg Client.channelIds hconnected.frame).trans (insertChannel_user place userId)
  have hanswers := hconnected.answers
  have hreplies := hconnected.replies
  have hattaches : Attaches attach 1003 ↔ userId = 1003 := by
    constructor
    . exact fun h => hconnected.attaches.unique h
    . rintro rfl
      exact hconnected.attaches
  split at hchannels
  . rw [hchannels] at hanswers
    obtain ⟨join₁, join₂, ⟨_, huser⟩, ⟨_, hglobal⟩, rfl⟩ := forall₂_pair hanswers
    refine ⟨response, attach, join₁, join₂, hreplies, ?_⟩
    rw [hattaches, huser.accepts_iff, hglobal.accepts_iff]
    exact channelMap_iff_of_two (by decide) hchannels huser hglobal
  . rw [hchannels] at hanswers
    obtain ⟨join₁, join₂, ⟨_, hglobal⟩, ⟨_, huser⟩, rfl⟩ := forall₂_pair hanswers
    refine ⟨response, attach, join₁, join₂, hreplies, ?_⟩
    rw [hattaches, hglobal.accepts_iff, huser.accepts_iff, eq_comm]
    exact channelMap_iff_of_two (by decide) hchannels hglobal huser

end Map

section Runs

theorem readExact_map_byte (bytes : Bytes) (reads : List Arrival) :
    Arrival.readExact bytes.length (bytes.map .byte ++ reads) = (.ok bytes, reads) := by
  induction bytes with
  | nil => rw [List.length_nil, List.map_nil, List.nil_append, Arrival.readExact]
  | cons b bytes ih => simp only [List.length_cons, List.map_cons, List.cons_append, Arrival.readExact, ih]

def packet (pdu : Bytes) : Bytes := [3, 0, 0, .ofNat (pdu.length + 7), 2, 0xF0, 0x80] ++ pdu

theorem reply_packet {pdu : Bytes} (h : pdu.length < 249) (reads : List Arrival) :
    Reply ((packet pdu).map .byte ++ reads) pdu reads := by
  have hlength : (le16 (.ofNat (pdu.length + 7)) 0).toNat = pdu.length + 7 := by
    simp [le16]
    omega
  refine ⟨2, 0xF0, 0, 0, .ofNat (pdu.length + 7), _, _, rfl, rfl, by omega, ?_⟩
  rw [Tpkt.content, hlength, if_neg (by omega)]
  exact readExact_map_byte (2 :: 0xF0 :: 0x80 :: pdu) reads

theorem replies_packets {pdus : List Bytes} (h : ∀ pdu ∈ pdus, pdu.length < 249) :
    Replies ((pdus.flatMap packet).map .byte) pdus [] := by
  induction pdus with
  | nil => exact .nil []
  | cons pdu pdus ih =>
    rw [List.flatMap_cons, List.map_append]
    exact .cons (reply_packet (h pdu List.mem_cons_self) _) (ih fun pdu hpdu => h pdu (List.mem_cons_of_mem _ hpdu))

def der : Der := Standard.yasna.der fun _ => none

/--
The replies of a server that gives the user the id 1001 + `offset` and answers the requests for the
two channels, the global one first, with these results.
-/
def replies (offset : UInt8) (results : UInt8 × UInt8) : List Bytes :=
  let ccResponse := Gcc.responseHeader.encode ++ 25 :: Gcc.responseBlocks.flatMap Gcc.Block.encode
  [ der.toDer (connectResponse (some ccResponse)),
    [0x2E, 0, 0, offset],
    [0x3E, results.1, 0, offset, 3, 0xEB],
    [0x3E, results.2, 0, offset, 3, 0xE9 + offset] ]

def link (offset : UInt8) (results : UInt8 × UInt8) : Link :=
  ⟨.raw ⟨((replies offset results).flatMap packet).map .byte, [], []⟩, []⟩

def connected : Prog Error Client Unit := Client.connect der "mstsc-rs" 800 600 .us

theorem channelMap_iff_accepted :
    ∃ client, connected.run (Client.new (link 3 (0, 0)) .protocolSSL fun _ => 0) = .ok () client ∧
      ∃ response attach join₁ join₂,
        Replies (link 3 (0, 0)).reads [response, attach, join₁, join₂] client.link.reads ∧
        (ChannelMap client [join₁, join₂] ↔
          ¬ Attaches attach 1003 ∧ Accepts join₁ ∧ Accepts join₂) := by
  have hfinal : (connected.final (Client.new (link 3 (0, 0)) .protocolSSL fun _ => 0)).map
      Client.channelIds = some [("global", 1003), ("user", 1004)] := by
    decide +kernel
  obtain ⟨_, client, hrun, _⟩ := exists_run_of_final hfinal
  exact ⟨client, hrun, channelMap_iff hrun⟩

/--
The server gives the user the id of the global channel.
-/
theorem not_channelMap_collision :
    ∃ client, connected.run (Client.new (link 2 (0, 0)) .protocolSSL fun _ => 0) = .ok () client ∧
      Replies (link 2 (0, 0)).reads (replies 2 (0, 0)) [] ∧
      ¬ ChannelMap client [[0x3E, 0, 0, 2, 3, 0xEB], [0x3E, 0, 0, 2, 3, 0xEB]] := by
  have hfinal : (connected.final (Client.new (link 2 (0, 0)) .protocolSSL fun _ => 0)).map
      Client.channelIds = some [("global", 1003), ("user", 1003)] := by
    decide +kernel
  obtain ⟨_, client, hrun, hchannels⟩ := exists_run_of_final hfinal
  refine ⟨client, hrun, replies_packets (by decide +kernel), ?_⟩
  intro hmap
  have hsame : "global" = "user" :=
    hmap.distinct "global" "user" 1003 (by simp [hchannels]) (by simp [hchannels])
  exact absurd hsame (by decide)

end Runs

end Rdp.Mcs
