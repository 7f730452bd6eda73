import Rdp.Core.Client.Inputs
import Rdp.Core.Mcs.Joining

/-!
This module contains the end of a session: the packet with which the client says that it goes, and what
the MCS layer of the other side makes of it.
-/

namespace Rdp

open Prog

namespace Link

variable {close : TlsStream → RdpResult Unit} {link link' : Link}

theorem run_shutdown_eq_ok {u : Unit} (h : (shutdown close).run link = .ok u link') : link' = link := by
  obtain ⟨_, _, hget, hclose⟩ := run_bind_eq_ok h
  cases hget
  split at hclose
  next => exact (run_lift_eq_ok hclose).2
  next =>
    cases hclose
    rfl

theorem run_shutdown_of_ok (h : ∀ stream, close stream = .ok ()) (link : Link) :
    (shutdown close).run link = .ok () link := by
  unfold shutdown
  rw [EStateM.run_bind, EStateM.run_get]
  dsimp only
  split
  next stream _ => rw [h stream, run_lift_ok]
  next => rfl

end Link

namespace Mcs

theorem ultimatum_header : (0x21 : UInt8) >>> 2 ≠ DomainMCSPDU.sendDataIndication.toU8 := by decide

theorem ultimatum_length :
    4 + (2 :: 0xF0 :: 0x80 :: (ServerPdu.other 0x21 ultimatum_header [0x80, 0, 0, 0, 0, 0, 0]).encode).length <
      2 ^ 16 := by
  decide

def ultimatum : Frame :=
  .slowPath 0 2 0xF0 (.other 0x21 ultimatum_header [0x80, 0, 0, 0, 0, 0, 0]) ultimatum_length

theorem yields_ultimatum (channels : List (String × UInt16)) : ultimatum.Yields channels
    (.error (.error (.new .disconnect "MCS: Disconnect Provider Ultimatum"))) :=
  .slowPath (.disconnect (by decide))

namespace Client

variable {client client' : Client} {close : TlsStream → RdpResult Unit}

theorem run_read_ultimatum (hinj : Injective client.channelIds) {rest : Bytes}
    (h : client.link.Delivers (ultimatum.packet.encode ++ rest)) :
    ∃ link', link'.Delivers rest ∧ read.run client =
      .error (.error (.new .disconnect "MCS: Disconnect Provider Ultimatum")) { client with link := link' } := by
  obtain ⟨link', hrest, hread⟩ := run_read hinj h
  exact ⟨link', hrest, hread _ (yields_ultimatum client.channelIds)⟩

def farewell : Message := .trame [
  .leaf (.u8 (mcsPduHeader (some .disconnectProviderUltimatum) (some 1))),
  .leaf (.u8 (Per.writeEnumerates 0x80)),
  .leaf (.bytes [0, 0, 0, 0, 0, 0])
]

theorem run_shutdown_eq_ok {u : Unit} (h : (shutdown close).run client = .ok u client') :
    SameChannels client client' ∧
      client'.link.sent = client.link.sent ++ [ultimatum.packet.encode] ∧
      (client.link.writes = [] → client'.link.writes = [] ∧
        client'.link.received = client.link.received ++ ultimatum.packet.encode) := by
  obtain ⟨_, s, hwrite, hclose⟩ := run_bind_eq_ok h
  obtain ⟨link, hlink, rfl⟩ := run_zoom_eq_ok hwrite
  obtain ⟨link', hshutdown, rfl⟩ := run_zoom_eq_ok hclose
  cases Link.run_shutdown_eq_ok hshutdown
  obtain ⟨node, hnode, hrun⟩ := @X224.Client.run_write_eq farewell _ rfl (by decide) client.link
  have hpacket : node.write = .ok ultimatum.packet.encode := hnode
  rw [← farewell, hrun] at hlink
  have hsent := Link.sent_write hpacket client.link
  have hreceived := Link.received_write hpacket client.link
  rw [hlink, finalState_ok] at hsent hreceived
  exact ⟨⟨rfl, rfl⟩, hsent, hreceived⟩

theorem exists_run_shutdown (hwrites : client.link.writes = []) (hclose : ∀ stream, close stream = .ok ()) :
    ∃ client', (shutdown close).run client = .ok () client' := by
  obtain ⟨link, hwrite, _⟩ := @run_onX224_write client farewell _ rfl (by decide) hwrites
  refine ⟨{ client with link }, run_bind_eq_ok_iff.mpr ⟨(), _, hwrite, ?_⟩⟩
  have hshutdown : (X224.Client.shutdown close).run link = .ok () link := Link.run_shutdown_of_ok hclose link
  simp only [onX224, run_zoom, hshutdown]

end Client

end Mcs

namespace RdpClient

open Global (Session)

structure Leaves (s t : Session) : Prop where
  name : t.client.name = s.client.name
  channels : s.mcs.SameChannels t.mcs
  sent : t.mcs.link.sent = s.mcs.link.sent ++ [Mcs.ultimatum.packet.encode]
  received : s.mcs.link.writes = [] → t.mcs.link.writes = [] ∧
    t.mcs.link.received = s.mcs.link.received ++ Mcs.ultimatum.packet.encode

theorem leaves_of_run_shutdown {close : TlsStream → RdpResult Unit} {s t : Session} {u : Unit}
    (h : (shutdown close).run s = .ok u t) : Leaves s t := by
  obtain ⟨mcs, hmcs, rfl⟩ := run_zoom_eq_ok h
  obtain ⟨hchannels, hsent, hreceived⟩ := Mcs.Client.run_shutdown_eq_ok hmcs
  exact ⟨rfl, hchannels, hsent, hreceived⟩

theorem exists_run_shutdown {close : TlsStream → RdpResult Unit} {s : Session}
    (hwrites : s.mcs.link.writes = []) (hclose : ∀ stream, close stream = .ok ()) :
    ∃ t, (shutdown close).run s = .ok () t := by
  obtain ⟨mcs, hmcs⟩ := Mcs.Client.exists_run_shutdown hwrites hclose
  refine ⟨{ s with mcs }, ?_⟩
  rw [shutdown, Global.Client.onMcs, run_zoom, hmcs]

theorem Leaves.joined {s t : Session} {userId channel : UInt16} (h : Leaves s t)
    (hjoined : s.Joined userId channel) : t.Joined userId channel where
  user := h.channels.1.trans hjoined.user
  le := hjoined.le
  channel := by
    rw [h.channels.2, hjoined.channel]
  name := by
    rw [h.name]
    exact hjoined.name

end RdpClient

end Rdp
