import Rdp.Bin.Mstsc.Display
import Rdp.Bin.Mstsc.Remote
import Rdp.Core.Client.Connecting

/-!
This module contains the client program as a whole: the connection, and the two threads behind it.
-/

namespace Rdp.Mstsc.Program

open Global (Session ClientState)
open Mcs (Frame encodeAll joined)
open Nla (Rng)
open Server (Serves Admits eventsOf)
open Prog Cursor

theorem reachable_of_runs {width : Nat} {inputs : List Input} {p q : Program} (h : Runs width p inputs q) :
    Relation.ReflTransGen (Step width) p q := by
  induction h with
  | start => exact .refl
  | step _ hstep ih => exact ih.tail hstep

/--
The program from the first packet to the last. With a server that admits the client and then sends these
frames the connection goes through. However the two threads are mixed behind it, as long as the window has
its thread, every cell of the window is the pixel of the server that was drawn over it last by the drawings
that were painted, which are the first of the server and in the end all of them, and the server reads
exactly the events of the turns of the window.
-/
theorem main_follows_server {env : Env} {connector : Connector} {s t : Link × Rng}
    {selectedProtocol : X224.Protocols} (hx224 : (connector.connectX224 env).run s = .ok selectedProtocol t)
    (hwrites : t.1.writes = []) (hfits : connector.Fits env selectedProtocol)
    (hname : 396 + (Nla.asBytes connector.name).length < 2 ^ 15) {userId : UInt16} {data : Gcc.ServerData}
    {left : List Arrival} (hadmits : Admits env t.1.reads userId data left) (hne : userId ≠ 1003)
    {frames : List Frame} {course : List (ClientState × List RdpEvent)}
    (hserves : Serves (joined env.place userId) .demandActivePDU frames course)
    (hleft : Arrival.Delivers (encodeAll frames) left) {drawings : List Drawing}
    (hdrawings : eventsOf course = drawings.map fun drawing => .bitmap drawing.event)
    (hplaced : ∀ drawing ∈ drawings, Screen.Placed connector.width.toNat drawing.event) :
    ∃ client t', (connector.connect env).run s = .ok client t' ∧
      ∀ inputs p, Runs connector.width.toNat
          (start client.session connector.width.toNat connector.height.toNat) inputs p → p.loop.Alive →
        (∃ n m, p.received = eventsOf (course.take n) ∧ p.painted = (drawings.take m).map Drawing.event ∧
          (∀ x y, x < connector.width.toNat → y < connector.height.toNat →
            p.screen.buffer[y * connector.width.toNat + x]? =
              some ((Painting.topmost ((drawings.take m).map Drawing.picture) (x, y)).getD 0)) ∧
          (frames.drop n = [] → p.channel = [] → p.reader.pending = [] → drawings.drop m = [])) ∧
        ∃ (packets : List Bytes) (messages : List (List RdpEvent)),
          p.client.mcs.link.received = client.mcs.link.received ++ packets.flatten ∧
          (elements (Server.readMessage (.ofNat (userId.toNat - 1001)) 1003)).run packets.flatten =
            .ok messages [] ∧
          inputEvents inputs .none [] = .ok messages.flatten := by
  obtain ⟨client, t', hrun, hconnects, hnil⟩ := Connector.exists_run_connect hx224 hwrites hfits hadmits
  have hle : 1001 ≤ userId.toNat := by
    obtain ⟨_, _, _, hwelcomes, _⟩ := hadmits
    exact hwelcomes.le
  have hinj := @Mcs.injective_joined env.place userId hne
  have hfollows := RdpClient.follows_of_connects hconnects hnil hle hname hserves hleft
  have hsize : connector.width.toNat * connector.height.toNat < 2 ^ 63 :=
    calc connector.width.toNat * connector.height.toNat
        < 2 ^ 16 * 2 ^ 16 := Nat.mul_lt_mul'' connector.width.toNat_lt connector.height.toNat_lt
      _ < 2 ^ 63 := by decide
  refine ⟨client, t', hrun, ?_⟩
  -- The same run is seen twice: by the window, and by the server.
  intro inputs p hruns halive
  obtain ⟨n, m, _, hshown⟩ :=
    shown_of_follows hinj hfollows hdrawings hsize hplaced (reachable_of_runs hruns) halive
  obtain ⟨events, htells, hevents, _⟩ := told_of_runs hfollows.isOpen.toJoined hruns halive
  obtain ⟨packets, messages, _, hreceived, hmessages, _, rfl⟩ := htells.reads
  exact ⟨⟨n, m, hshown⟩, packets, messages, hreceived hnil, hmessages, hevents⟩

open Connector.Admitted RdpClient.Following Following in
/--
The server draws one rectangle behind the connection sequence.
-/
theorem main_follows_server_drawing : ∃ client t',
    (plain.connect libraries).run
        (raw (arrives (served (Tpkt.Client.Framing.link (encodeAll RdpClient.Following.frames)).reads)),
          fun _ => 0) = .ok client t' ∧
      ∀ inputs p, Runs 800 (start client.session 800 600) inputs p → p.loop.Alive → p.painted ≠ [] →
        p.screen.buffer[1 * 800 + 1]? = some ((Painting.topmost [drawing.picture] (1, 1)).getD 0) := by
  have hplaced : ∀ d ∈ [drawing], Screen.Placed plain.width.toNat d.event := by
    rw [List.forall_mem_singleton]
    exact ⟨by decide, by decide, by decide⟩
  obtain ⟨client, t', hrun, hruns⟩ := @main_follows_server _ _ _ _ _ (run_plain_connectX224 _ fun _ => 0) rfl
    fits_plain (by decide) _ _ _ (admits _) (by decide) _ _ serves_frames
    (Tpkt.Client.Framing.delivers_link _) [drawing] rfl hplaced
  refine ⟨client, t', hrun, ?_⟩
  intro inputs p hp halive hpainted
  obtain ⟨⟨n, m, _, htake, hshows, _⟩, _⟩ := hruns inputs p hp halive
  have hall : [drawing].take m = [drawing] := by
    cases m with
    | zero => exact absurd htake hpainted
    | succ m => simp
  have hcell := hshows 1 1 (by decide) (by decide)
  rw [hall] at hcell
  exact hcell

end Rdp.Mstsc.Program
