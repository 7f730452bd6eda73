import Rdp.Bin.Mstsc.Remote
import Rdp.Core.Client.Shutdown

/-!
This module contains how the client program ends: what its server has read when the window is closed, and
what may still come behind it from the other thread.
-/

namespace Rdp.Mstsc.Program

open Global (Session)
open Global.Client (Silent)
open Mcs (ultimatum)
open RdpClient (Leaves)
open Prog Cursor

/--
When the window's thread has ended, the server has read the events of the inputs, then the end of the
session, and no more events after it.
-/
def Parted (userId channel : UInt16) (client : Session) (inputs : List Input) (p : Program) : Prop :=
  p.loop = .ended → ∃ events s t, Session.Tells userId channel events client s ∧
    inputEvents inputs .none [] = .ok events ∧ Leaves s t ∧ Session.Tells userId channel [] t p.client

section Parted

variable {userId channel : UInt16} {client : Session} {inputs : List Input} {width : Nat} {p q : Program}

theorem Parted.silent (h : Parted userId channel client inputs p) (hloop : q.loop = p.loop)
    (hclient : Silent userId channel p.client q.client) :
    Parted userId channel client (inputs ++ finished p q) q := by
  rw [finished_of_loop hloop, List.append_nil]
  intro hq
  obtain ⟨events, s, t, htells, hevents, hleaves, hsilent⟩ := h (hloop.symm.trans hq)
  exact ⟨events, s, t, htells, hevents, hleaves, hsilent.trans (hclient hsilent.joined)⟩

theorem Parted.same (h : Parted userId channel client inputs p) (hloop : q.loop = p.loop)
    (hclient : q.client = p.client) : Parted userId channel client (inputs ++ finished p q) q := by
  apply h.silent hloop
  rw [hclient]
  exact refl_of (Silent userId channel) _

theorem Parted.read (h : Parted userId channel client inputs p) :
    Parted userId channel client (inputs ++ finished p p.afterRead) p.afterRead := by
  refine h.silent rfl ?_
  intro hjoined
  have hevents : Session.Tells userId channel [] p.client { p.client with events := [] } :=
    hjoined.tells_of_listens rfl (refl_of Mcs.Client.Listens _)
  exact hevents.trans (RdpClient.silent_read _ hevents.joined)

theorem parted_of_ne (h : q.loop ≠ .ended) : Parted userId channel client inputs q :=
  fun hended => absurd hended h

theorem parted_shutdown {close : TlsStream → RdpResult Unit} (h : Told userId channel client inputs p)
    (hloop : p.loop = .closing) :
    Parted userId channel client (inputs ++ finished p (p.afterShutdown close)) (p.afterShutdown close) := by
  have hfinished : finished p (p.afterShutdown close) = [] := by
    rw [finished, hloop]
  rw [hfinished, List.append_nil]
  unfold afterShutdown
  split
  next u t hrun =>
    intro _
    obtain ⟨events, htells, hevents, _, _⟩ := h (by simp [Loop.Alive, hloop])
    have hleaves := RdpClient.leaves_of_run_shutdown hrun
    exact ⟨events, _, t, htells, hevents, hleaves, (hleaves.joined htells.joined).refl⟩
  next => exact parted_of_ne (by simp)

theorem parted_step (htold : Told userId channel client inputs p) (h : Parted userId channel client inputs p)
    (hstep : Step width p q) : Parted userId channel client (inputs ++ finished p q) q := by
  cases hstep with
  -- The reader goes on behind the end of the window, but nothing it answers is an event.
  | read hreader => exact h.read
  | shutdown close hloop hlock => exact parted_shutdown htold hloop
  | paint hloop hchannel =>
    apply parted_of_ne
    unfold afterPaint
    dsimp only
    split <;> simp
  | mouse hloop hlock =>
    apply parted_of_ne
    unfold afterMouse
    split <;> simp
  | keyboard hloop hlock =>
    apply parted_of_ne
    unfold afterKeyboard
    split <;> simp
  | fail hloop => exact parted_of_ne (by simp)
  | enter window hloop hsync => exact parted_of_ne (by simp)
  | exit hloop => exact parted_of_ne (by simp)
  | drained hloop => exact parted_of_ne (by simp)
  | disconnected hloop hchannel hreader => exact parted_of_ne (by simp)
  | updated hloop => exact parted_of_ne (by simp)
  | _ => exact h.same rfl rfl

theorem parted_of_runs {height : Nat} (hjoined : client.Joined userId channel)
    (h : Runs width (start client width height) inputs p) : Parted userId channel client inputs p := by
  induction h with
  | start => exact parted_of_ne (by simp [start])
  | step hruns hstep ih => exact parted_step (told_of_runs hjoined hruns) ih hstep

end Parted

/--
Whatever arrives, and however the two threads are mixed: when the window has been closed, a server has
read exactly the events of its turns, in order and once each, and then the packet that ends the session,
which the layers of the client themselves read as a disconnect. What the other thread still answers
behind it has no events.
-/
theorem threads_end_session {userId channel : UInt16} {client : Session}
    (hjoined : client.Joined userId channel) {width height : Nat} {inputs : List Input} {p : Program}
    (h : Runs width (start client width height) inputs p) (hended : p.loop = .ended) :
    ∃ (packets behind : List Bytes) (messages silent : List (List RdpEvent)),
      p.client.mcs.link.sent =
        client.mcs.link.sent ++ (packets ++ ultimatum.packet.encode :: behind) ∧
      (client.mcs.link.writes = [] → p.client.mcs.link.received =
        client.mcs.link.received ++ (packets.flatten ++ (ultimatum.packet.encode ++ behind.flatten))) ∧
      (elements (Server.readMessage (.ofNat (userId.toNat - 1001)) channel)).run packets.flatten =
        .ok messages [] ∧
      inputEvents inputs .none [] = .ok messages.flatten ∧
      (∀ (peer : Mcs.Client) (rest : Bytes), Mcs.Injective peer.channelIds →
        peer.link.Delivers (ultimatum.packet.encode ++ rest) →
        ∃ link', link'.Delivers rest ∧ Mcs.Client.read.run peer =
          .error (.error (.new .disconnect "MCS: Disconnect Provider Ultimatum")) { peer with link := link' }) ∧
      (elements (Server.readMessage (.ofNat (userId.toNat - 1001)) channel)).run behind.flatten =
        .ok silent [] ∧
      silent.flatten = [] := by
  obtain ⟨events, s, t, htells, hevents, hleaves, hsilent⟩ := parted_of_runs hjoined h hended
  obtain ⟨packets, messages, hsent, hreceived, hread, _, rfl⟩ := htells.reads
  obtain ⟨behind, silent, hsent', hreceived', hread', _, hnothing⟩ := hsilent.reads
  refine ⟨packets, behind, messages, silent, ?_, ?_, hread, hevents, ?_, hread', hnothing⟩
  . rw [hsent', hleaves.sent, hsent, List.append_assoc, List.append_assoc]
    rfl
  . intro hwrites
    obtain ⟨_, htaken, _⟩ := htells.packets
    obtain ⟨hnil, hultimatum⟩ := hleaves.received (htaken.received hwrites).1
    rw [hreceived' hnil, hultimatum, hreceived hwrites, List.append_assoc, List.append_assoc]
  . exact fun peer rest hinj hdelivers => Mcs.Client.run_read_ultimatum hinj hdelivers

namespace Click

theorem exists_runs_ended : ∃ p, Runs 4 (start RdpClient.Told.session 4 3)
    [.mouse window, .keyboard window] p ∧ p.loop = .ended := by
  obtain ⟨p, hruns, hloop, hreader⟩ := exists_runs
  have hjoined : RdpClient.Told.session.Joined 1004 1003 := ⟨rfl, by decide, rfl, by decide⟩
  obtain ⟨_, htells, _⟩ := told_of_runs hjoined hruns (by simp [Loop.Alive, hloop])
  obtain ⟨_, hsent, _⟩ := htells.packets
  have hunlocked : p.Unlocked := by simp [Unlocked, hreader]
  have hupdated := hruns.step (.updated hloop)
  have hexit := hupdated.step (.exit rfl)
  have hshutdown := hexit.step (.shutdown (fun _ => .ok ()) rfl (unlocked_of_reader hunlocked rfl))
  obtain ⟨client, hclient⟩ := @RdpClient.exists_run_shutdown (fun _ => .ok ()) p.client
    (hsent.received rfl).1 (fun _ => rfl)
  rw [afterShutdown, hclient] at hshutdown
  refine ⟨{ p with client, sync := false, loop := .ended }, ?_, rfl⟩
  simpa [finished, hloop] using hshutdown

end Click

open Click in
/--
The server of the turn with a click and a key, of which the window is then closed.
-/
theorem threads_end_session_click : ∃ (packets behind : List Bytes) (messages silent : List (List RdpEvent)),
    (elements (Server.readMessage 3 1003)).run packets.flatten = .ok messages [] ∧
      messages.flatten = [.pointer ⟨10, 20, .left, true⟩, .key ⟨0x1E, true⟩] ∧
      (elements (Server.readMessage 3 1003)).run behind.flatten = .ok silent [] ∧ silent.flatten = [] := by
  obtain ⟨p, hruns, hended⟩ := exists_runs_ended
  have hjoined : RdpClient.Told.session.Joined 1004 1003 := ⟨rfl, by decide, rfl, by decide⟩
  obtain ⟨packets, behind, messages, silent, _, _, hread, hevents, _, hbehind, hsilent⟩ :=
    threads_end_session hjoined hruns hended
  exact ⟨packets, behind, messages, silent, hread, (Except.ok.inj hevents).symm, hbehind, hsilent⟩

end Rdp.Mstsc.Program
