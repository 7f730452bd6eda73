import Rdp.Core.Mcs.Impl
import Rdp.Core.Per.Length
import Rdp.Core.Tpkt.Write

/-!
This module contains the lengths of the packets that the MCS layer sends: where they say what
follows them.
-/

namespace Rdp.Mcs

open Prog

/--
A packet with the bytes of a message from this user, counted from 1001, on this channel. The header
of the packet announces its size, and the length before the message is read back as the number of
its bytes.
-/
def IsPacket (user channel : UInt16) (bytes packet : Bytes) : Prop :=
  ∃ (size v : UInt16) (length : Bytes),
    packet = [0x03, 0x00] ++ (Endian.be.encode16 size ++ ([0x02, 0xF0, 0x80] ++ ([0x64] ++
      (Endian.be.encode16 user ++ (Endian.be.encode16 channel ++ ([0x70] ++ (length ++ bytes))))))) ∧
    size.toNat = packet.length ∧
    Per.readLength.run (length ++ bytes) = .ok v bytes ∧ v.toNat = bytes.length

def requestBytes (user channel : UInt16) (length bytes : Bytes) : Bytes :=
  [0x64] ++ (Endian.be.encode16 user ++ (Endian.be.encode16 channel ++ ([0x70] ++ (length ++ bytes))))

theorem length_requestBytes (user channel : UInt16) (length bytes : Bytes) :
    (requestBytes user channel length bytes).length = 6 + length.length + bytes.length := by
  simp [requestBytes, Endian.encode16, Endian.order]
  omega

namespace Client

variable {client : Client} {name : String} {userId channel : UInt16} {m : Message} {bytes : Bytes}

theorem write_request {length : Bytes} (h : m.write = .ok bytes) (n : Nat)
    (hlength : Per.encodeLength (.ofNat n) = .ok length) (user channel : UInt16) :
    (request user channel n m).write = .ok (requestBytes user channel length bytes) := by
  have hwrite : Message.writeTrame (Per.writeLength (.ofNat n)) = .ok length := hlength
  simp [request, requestBytes, h, hwrite, Leaf.write, mcsPduHeader, DomainMCSPDU.toU8]
  rfl

theorem run_write (huser : client.userId = some userId) (hle : 1001 ≤ userId.toNat)
    (hchannel : client.channelIds.lookup name = some channel) (m : Message) :
    (write name m).run client =
      match m.length with
      | .ok n =>
        (onX224 (X224.Client.write (request (.ofNat (userId.toNat - 1001)) channel n m))).run client
      | .error e => .error e client := by
  have hid : channelId client.channelIds name = .ok channel := by
    rw [channelId, hchannel]
  change EStateM.run (_ >>= _) client = _
  rw [EStateM.run_bind, EStateM.run_get]
  simp only [huser, Ntlm.unwrapOption, lift_ok, pure_bind, checkedSub_of_le hle, hid]
  cases m.length <;> rfl

theorem sent_write (huser : client.userId = some userId) (hle : 1001 ≤ userId.toNat)
    (hchannel : client.channelIds.lookup name = some channel) {length : Bytes} (h : m.write = .ok bytes)
    (hlength : Per.encodeLength (.ofNat bytes.length) = .ok length)
    (hsize : (9 + length.length + bytes.length) % 2 ^ 16 + 4 < 2 ^ 16) :
    (finalState ((write name m).run client)).link.sent = client.link.sent ++
      [Tpkt.packet ([0x02, 0xF0, 0x80] ++
        requestBytes (.ofNat (userId.toNat - 1001)) channel length bytes)] := by
  obtain ⟨node, hnode, hrun⟩ := X224.Client.run_write_eq
    (write_request h bytes.length hlength (.ofNat (userId.toNat - 1001)) channel)
    (by rw [length_requestBytes]; omega) client.link
  rw [run_write huser hle hchannel, m.length_of_write h]
  simp only [onX224, Prog.run_zoom, hrun]
  rw [← Link.sent_write hnode]
  cases (Link.write node).run client.link <;> rfl

theorem run_write_of_le (huser : client.userId = some userId) (hle : 1001 ≤ userId.toNat)
    (hchannel : client.channelIds.lookup name = some channel) {length : Bytes} (h : m.write = .ok bytes)
    (hlength : Per.encodeLength (.ofNat bytes.length) = .ok length)
    (hsize : 2 ^ 16 ≤ (9 + length.length + bytes.length) % 2 ^ 16 + 4) :
    (write name m).run client = .error (.panic "attempt to add with overflow") client := by
  have hrun := X224.Client.run_write_of_le
    (write_request h bytes.length hlength (.ofNat (userId.toNat - 1001)) channel)
    (by rw [length_requestBytes]; omega) client.link
  rw [run_write huser hle hchannel, m.length_of_write h]
  simp only [onX224, Prog.run_zoom, hrun]

theorem isPacket_of_lt {length : Bytes} (h : bytes.length < 2 ^ 15)
    (hlength : Per.encodeLength (.ofNat bytes.length) = .ok length) (user channel : UInt16) :
    IsPacket user channel bytes
      (Tpkt.packet ([0x02, 0xF0, 0x80] ++ requestBytes user channel length bytes)) := by
  have htoNat : (UInt16.ofNat bytes.length).toNat = bytes.length := by
    rw [UInt16.toNat_ofNat']
    omega
  obtain ⟨v, hread, hv⟩ := Per.run_readLength_encodeLength hlength bytes
  obtain ⟨_, hlength', hcount⟩ := Per.exists_encodeLength (.ofNat bytes.length)
  cases hlength.symm.trans hlength'
  refine ⟨_, v, length, rfl, ?_, hread, ?_⟩
  . simp only [Tpkt.packet, List.length_append, length_requestBytes, List.length_cons, List.length_nil,
      Endian.encode16, Endian.length_order]
    rw [UInt16.toNat_ofNat']
    split at hcount <;> omega
  . rw [hv, htoNat]
    omega

theorem not_isPacket_of_le {length : Bytes} (h : 2 ^ 15 ≤ bytes.length)
    (hlength : Per.encodeLength (.ofNat bytes.length) = .ok length) (user channel : UInt16) :
    ¬ IsPacket user channel bytes
      (Tpkt.packet ([0x02, 0xF0, 0x80] ++ requestBytes user channel length bytes)) := by
  rintro ⟨size, v, length', hpacket, _, hread, hv⟩
  obtain ⟨v', hread', hv'⟩ := Per.run_readLength_encodeLength hlength bytes
  have hrest : length ++ bytes = length' ++ bytes := by
    have hcons := congrArg (List.drop 13) hpacket
    simpa [Tpkt.packet, requestBytes, Endian.encode16, Endian.order] using hcons
  rw [← hrest, hread'] at hread
  cases hread
  omega

/--
Nothing is handed to the link together with an error, or one packet that agrees with its message.
-/
def WriteAgrees (client : Client) (name : String) (userId channel : UInt16) (m : Message) : Prop :=
  (∃ e client', (write name m).run client = .error (.error e) client' ∧
    client'.link.sent = client.link.sent) ∨
  ∃ bytes packet, m.write = .ok bytes ∧
    IsPacket (.ofNat (userId.toNat - 1001)) channel bytes packet ∧
    (finalState ((write name m).run client)).link.sent = client.link.sent ++ [packet]

theorem not_writeAgrees_of_le (huser : client.userId = some userId) (hle : 1001 ≤ userId.toNat)
    (hchannel : client.channelIds.lookup name = some channel) (h : m.write = .ok bytes)
    (hlong : 2 ^ 15 ≤ bytes.length) : ¬ WriteAgrees client name userId channel m := by
  obtain ⟨length, hlength, _⟩ := Per.exists_encodeLength (.ofNat bytes.length)
  by_cases hsize : (9 + length.length + bytes.length) % 2 ^ 16 + 4 < 2 ^ 16
  . have hsent := sent_write huser hle hchannel h hlength hsize
    rintro (⟨e, client', hrun, hnothing⟩ | ⟨bytes', packet, hbytes', hpacket, hone⟩)
    . rw [hrun, finalState_error, hnothing] at hsent
      simp at hsent
    . cases h.symm.trans hbytes'
      rw [hsent] at hone
      cases List.append_cancel_left hone
      exact not_isPacket_of_le hlong hlength _ _ hpacket
  . have hrun := run_write_of_le huser hle hchannel h hlength (by omega)
    rintro (⟨e, client', herror, _⟩ | ⟨bytes', packet, _, _, hone⟩)
    . cases hrun.symm.trans herror
    . rw [hrun, finalState_error] at hone
      simp at hone

theorem writeAgrees_of_lt (huser : client.userId = some userId) (hle : 1001 ≤ userId.toNat)
    (hchannel : client.channelIds.lookup name = some channel) (h : m.write = .ok bytes)
    (hshort : bytes.length < 2 ^ 15) : WriteAgrees client name userId channel m := by
  obtain ⟨length, hlength, hcount⟩ := Per.exists_encodeLength (.ofNat bytes.length)
  refine .inr ⟨bytes, _, h, isPacket_of_lt hshort hlength _ _, ?_⟩
  apply sent_write huser hle hchannel h hlength
  rw [hcount]
  split <;> omega

theorem writeAgrees_iff_of_error (huser : client.userId = some userId) (hle : 1001 ≤ userId.toNat)
    (hchannel : client.channelIds.lookup name = some channel) {e e' : Fault Error}
    (h : m.write = .error e) (hlength : m.length = .error e') :
    WriteAgrees client name userId channel m ↔ ∃ err, e' = .error err := by
  have hrun : (write name m).run client = .error e' client := by
    rw [run_write huser hle hchannel, hlength]
  constructor
  . rintro (⟨err, client', herror, _⟩ | ⟨bytes, packet, hbytes, _⟩)
    . cases hrun.symm.trans herror
      exact ⟨_, rfl⟩
    . cases h.symm.trans hbytes
  . rintro ⟨err, rfl⟩
    exact .inl ⟨err, client, hrun, rfl⟩

/--
What the layers send agrees with the message up to a length of 2^15: from there on the flag of the
length covers its highest bit, or the message does not fit its packet and the call aborts.
-/
theorem writeAgrees_iff (huser : client.userId = some userId) (hle : 1001 ≤ userId.toNat)
    (hchannel : client.channelIds.lookup name = some channel) (m : Message) :
    WriteAgrees client name userId channel m ↔
      (∃ n, m.length = .ok n ∧ n < 2 ^ 15) ∨ ∃ e, m.length = .error (.error e) := by
  rcases m.measures.cases_on with ⟨bytes, hwrite, hlength⟩ | ⟨e, e', hwrite, hlength⟩
  . constructor
    . intro h
      refine .inl ⟨_, hlength, ?_⟩
      by_contra hlong
      exact not_writeAgrees_of_le huser hle hchannel hwrite (by omega) h
    . rintro (⟨n, hn, hshort⟩ | ⟨e, he⟩)
      . cases hlength.symm.trans hn
        exact writeAgrees_of_lt huser hle hchannel hwrite hshort
      . cases hlength.symm.trans he
  . rw [writeAgrees_iff_of_error huser hle hchannel hwrite hlength, hlength]
    simp

def Connected (client : Client) (name : String) : Prop :=
  (∃ userId, client.userId = some userId ∧ 1001 ≤ userId.toNat) ∧
    ∃ channel, client.channelIds.lookup name = some channel

theorem aborts_write_of_not_connected (h : ¬ Connected client name) (m : Message) :
    (write name m).Aborts client := by
  unfold write
  rw [aborts_get_bind, aborts_lift_bind]
  cases huser : client.userId with
  | none => simp [Ntlm.unwrapOption]
  | some userId =>
    refine .inr ⟨userId, rfl, ?_⟩
    rw [aborts_lift_bind, Except.aborts_checkedSub]
    by_cases hle : 1001 ≤ userId.toNat
    . refine .inr ⟨_, checkedSub_of_le hle, ?_⟩
      have hchannel : client.channelIds.lookup name = none := by
        cases hlookup : client.channelIds.lookup name with
        | none => rfl
        | some channel => exact absurd ⟨⟨userId, huser, hle⟩, channel, hlookup⟩ h
      rw [aborts_lift_bind, channelId, hchannel]
      simp
    . exact .inl (by omega)

theorem aborts_write_iff (hconnected : Connected client name) (h : m.write = .ok bytes) :
    (write name m).Aborts client ↔ 2 ^ 16 ≤ (bytes.length + 11) % 2 ^ 16 + 4 := by
  obtain ⟨⟨userId, huser, hle⟩, channel, hchannel⟩ := hconnected
  obtain ⟨length, hlength, hcount⟩ := Per.exists_encodeLength (.ofNat bytes.length)
  have htoNat : (UInt16.ofNat bytes.length).toNat = bytes.length % 2 ^ 16 := UInt16.toNat_ofNat'
  rw [htoNat] at hcount
  by_cases hsize : (9 + length.length + bytes.length) % 2 ^ 16 + 4 < 2 ^ 16
  . obtain ⟨node, hnode, hrun⟩ := X224.Client.run_write_eq
      (write_request h bytes.length hlength (.ofNat (userId.toNat - 1001)) channel)
      (by rw [length_requestBytes]; omega) client.link
    have hnot : ¬ (write name m).Aborts client := by
      unfold Aborts
      rw [run_write huser hle hchannel, m.length_of_write h]
      simp only [onX224, Prog.run_zoom, hrun]
      have hreturns := Link.returns_write hnode client.link
      rcases cases_of_not_aborts hreturns with ⟨u, link, hlink⟩ | ⟨e, link, hlink⟩ <;> simp [hlink]
    simp only [hnot, false_iff]
    split at hcount <;> omega
  . have hrun := run_write_of_le huser hle hchannel h hlength (by omega)
    rw [aborts_of_run_error hrun]
    simp only [Fault.not_isError_panic, not_false_eq_true, true_iff]
    split at hcount <;> omega

def SameChannels (s t : Client) : Prop := t.userId = s.userId ∧ t.channelIds = s.channelIds

instance : IsPreorder Client SameChannels where
  refl _ := ⟨rfl, rfl⟩
  trans _ _ _ h h' := ⟨h'.1.trans h.1, h'.2.trans h.2⟩

theorem moves_write (name : String) (m : Message) : Moves SameChannels (write name m) := by
  unfold write
  refine Moves.bind Moves.get ?_
  intro client
  refine Moves.bind (Moves.lift _) ?_
  intro userId
  refine Moves.bind (Moves.lift _) ?_
  intro user
  refine Moves.bind (Moves.lift _) ?_
  intro channel
  refine Moves.bind (Moves.lift _) ?_
  intro length s
  rw [onX224, Prog.run_zoom]
  split <;> exact ⟨rfl, rfl⟩

theorem Connected.of_run_write {t : Client} {name' : String} {u : Unit}
    (h : Connected client name) (hrun : (write name' m).run client = .ok u t) : Connected t name := by
  have hmoves := moves_write name' m client
  rw [hrun, finalState_ok] at hmoves
  unfold Connected
  rwa [hmoves.1, hmoves.2]

namespace WriteAgrees

def link : Link := ⟨.raw ⟨[], [], []⟩, []⟩

def connected : Client where
  link := link
  selectedProtocol := .protocolSSL
  serverData := none
  userId := some 1004
  channelIds := [("global", 1003), ("user", 1004)]
  place _ := 0

end WriteAgrees

theorem writeAgrees_three :
    WriteAgrees WriteAgrees.connected "global" 1004 1003 (.leaf (.bytes [1, 2, 3])) := by
  apply (writeAgrees_iff rfl (by decide) rfl _).mpr
  exact .inl ⟨3, rfl, by decide⟩

/--
A message of 2^15 bytes: its length is sent with the bytes `80 00`, which say zero.
-/
theorem not_writeAgrees_long :
    ¬ WriteAgrees WriteAgrees.connected "global" 1004 1003
      (.leaf (.bytes (List.replicate (2 ^ 15) 0))) := by
  apply not_writeAgrees_of_le rfl (by decide) rfl (Message.write_leaf _)
  exact Nat.le_of_eq List.length_replicate.symm

end Client

end Rdp.Mcs
