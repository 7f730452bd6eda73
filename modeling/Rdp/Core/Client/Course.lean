import Rdp.Core.Client.Answering
import Rdp.Core.Global.Delivery
import Rdp.Core.Mcs.Delivery

/-!
This module contains what the frames of a server make of a client, from the connection sequence on: the
states it goes through and the events it delivers, while its user writes.
-/

namespace Rdp

open Prog
open Global (Session Sent ClientState)
open Global.Client (Finds next)

/--
The frames of a server that leave a client behind the connection sequence, with the events they cause:
complete updates in a fast path packet, and anything in a slow path packet that does not take the client
back to the start.
-/
inductive Server.Shows (channels : List (String × UInt16)) : Mcs.Frame → List RdpEvent → Prop where
  | updates {packet : Tpkt.Packet} {secFlag : UInt8} {hpayload hbody} (payload : List Sent)
    (h : packet.body = payload.flatMap Sent.encode) :
    Shows channels (.fastPath packet secFlag hpayload hbody) (payload.flatMap Sent.events)
  | data {frame : Mcs.Frame} {name : String} {stream : Bytes}
    (h : frame.Yields channels (.ok (name, .raw stream))) (hnot : ¬ Finds .data stream) :
    Shows channels frame []
  | refused {frame : Mcs.Frame} {e : Fault Error} (h : frame.Yields channels (.error e)) :
    Shows channels frame []

/--
What a frame makes of a client in this state. In the connection sequence only the PDU that is waited for
does something.
-/
inductive Server.Leads (channels : List (String × UInt16)) :
    ClientState → Mcs.Frame → ClientState → List RdpEvent → Prop where
  | finds {state : ClientState} {frame : Mcs.Frame} {stream : Bytes}
    (h : frame.Yields channels (.ok ("global", .raw stream))) (hfinds : Finds state stream) :
    Leads channels state frame (next state) []
  | waits {state : ClientState} {frame : Mcs.Frame} (hstate : state ≠ .data)
    (h : ∀ stream, frame.Yields channels (.ok ("global", .raw stream)) → ¬ Finds state stream) :
    Leads channels state frame state []
  | shows {frame : Mcs.Frame} {events : List RdpEvent} (h : Shows channels frame events) :
    Leads channels .data frame .data events

/--
The states behind the frames of a server, with the events each of them causes.
-/
inductive Server.Serves (channels : List (String × UInt16)) :
    ClientState → List Mcs.Frame → List (ClientState × List RdpEvent) → Prop where
  | nil {state : ClientState} : Serves channels state [] []
  | cons {state state' : ClientState} {frame : Mcs.Frame} {events : List RdpEvent}
    {frames : List Mcs.Frame} {course : List (ClientState × List RdpEvent)}
    (head : Leads channels state frame state' events) (tail : Serves channels state' frames course) :
    Serves channels state (frame :: frames) ((state', events) :: course)

theorem Server.Serves.eq_nil {channels : List (String × UInt16)} {state : ClientState}
    {course : List (ClientState × List RdpEvent)} (h : Serves channels state [] course) : course = [] := by
  cases h
  rfl

namespace Server

def stateAfter (state : ClientState) (course : List (ClientState × List RdpEvent)) : ClientState :=
  course.foldl (fun _ step => step.1) state

def eventsOf (course : List (ClientState × List RdpEvent)) : List RdpEvent := course.flatMap (·.2)

end Server

def Global.Session.Speaks (s t : Session) : Prop :=
  s.mcs.Speaks t.mcs ∧ t.client = s.client ∧ t.events = s.events

instance : IsPreorder Session Session.Speaks where
  refl _ := ⟨refl_of Mcs.Client.Speaks _, rfl, rfl⟩
  trans _ _ _ h h' := ⟨trans_of Mcs.Client.Speaks h.1 h'.1, h'.2.1.trans h.2.1, h'.2.2.trans h.2.2⟩

namespace Global.Client

open Session (Speaks)

theorem speaks_writePdu (message : PDU) : Moves Speaks (writePdu message) := by
  unfold writePdu
  refine Moves.bind Moves.get ?_
  intro s
  refine Moves.bind (Moves.lift _) ?_
  intro bytes
  refine Moves.bind (Moves.lift _) ?_
  intro header
  refine Moves.bind (Moves.modify fun s => ⟨refl_of Mcs.Client.Speaks s.mcs, rfl, rfl⟩) ?_
  intro
  refine Moves.zoom (Mcs.Client.speaks_write _ _) ?_
  exact fun s mcs h => ⟨h, rfl, rfl⟩

theorem speaks_writeInputEvent (event : TSInputEvent) : Moves Speaks (writeInputEvent event) := by
  unfold writeInputEvent writeDataPdu
  refine Moves.bind Moves.get ?_
  intro s
  split
  . refine Moves.bind (Moves.lift _) ?_
    intro data
    refine Moves.bind Moves.get ?_
    intro s
    refine Moves.bind (Moves.lift _) ?_
    exact speaks_writePdu
  . exact Moves.throw _

theorem run_readFastPath_sent {body : Bytes} {payload : List Sent} (h : body = payload.flatMap Sent.encode)
    (s : Session) :
    (readFastPath body).run s = .ok () { s with events := s.events ++ payload.flatMap Sent.events } := by
  have hupdates := @Update.readArray_encode (payload.map Sent.update)
    (by simpa using fun sent _ => Sent.header_agrees sent)
  rw [List.flatMap_map, List.map_map] at hupdates
  unfold readFastPath
  rw [h, show readArray tsFpUpdate (payload.flatMap Sent.encode) = _ from hupdates, lift_ok, pure_bind]
  exact run_deliverUpdates payload s

end Global.Client

namespace RdpClient

open Mcs (Frame Injective encodeAll)
open Server (Shows Leads Serves stateAfter eventsOf)

theorem speaks_write (event : RdpEvent) : Moves Session.Speaks (write event) := by
  cases event with
  | bitmap event => exact Moves.throw _
  | pointer pointer => exact Global.Client.speaks_writeInputEvent _
  | key key => exact Global.Client.speaks_writeInputEvent _

section Read

variable {userId channel : UInt16} {s : Session} {frame : Frame} {rest : Bytes}

theorem run_read_of_yields (hinj : Injective s.mcs.channelIds)
    (h : s.mcs.link.Delivers (frame.packet.encode ++ rest)) :
    ∃ link', link'.Delivers rest ∧ link'.writes = s.mcs.link.writes ∧
      ∀ r, frame.Yields s.mcs.channelIds r →
        read.run s = (do
          let (channelName, message) ← Prog.lift r
          if channelName = "global" then
            Global.Client.read message
          else
            Prog.fail (.new .unexpectedType ("Invalid channel name " ++ channelName.quote)) :
            Prog Error Session Unit).run { s with mcs := { s.mcs with link := link' } } := by
  obtain ⟨link', hleft, hread⟩ := Mcs.Client.run_read hinj h
  refine ⟨link', hleft, ?_, ?_⟩
  . obtain ⟨r, hr⟩ := frame.exists_yields s.mcs.channelIds
    have hlistens := Mcs.Client.listens_read s.mcs
    rw [hread r hr] at hlistens
    cases r <;> exact hlistens.1.2.2
  . intro r hr
    rw [read, EStateM.run_bind, Global.Client.onMcs, run_zoom, hread r hr]
    cases r <;> rfl

theorem finalState_read_nil (h : s.mcs.link.Delivers []) :
    finalState (read.run s) = { s with mcs := { s.mcs with link := s.mcs.link.withReads [] } } := by
  -- At the end of the stream the first two bytes of a packet cannot be read.
  have hlink := Link.run_read_pos s.mcs.link 1
  rw [Arrival.readExact_of_delivers_nil h 1] at hlink
  have hmcs : Mcs.Client.read.run s.mcs =
      .error (.error (.io .unexpectedEof)) { s.mcs with link := s.mcs.link.withReads [] } := by
    unfold Mcs.Client.read X224.Client.read Tpkt.Client.read
    rw [EStateM.run_bind, Mcs.Client.onX224, run_zoom, EStateM.run_bind, EStateM.run_bind, hlink]
  rw [read, EStateM.run_bind, Global.Client.onMcs, run_zoom, hmcs]
  rfl

end Read

/--
A session after a read: the rest of the stream is to be read, and the client is still on its channel.
-/
structure After (userId channel : UInt16) (rest : Bytes) (state : ClientState) (events : List RdpEvent)
    (s t : Session) : Prop where
  isOpen : t.Open userId channel
  channelIds : t.mcs.channelIds = s.mcs.channelIds
  delivers : t.mcs.link.Delivers rest
  state_eq : t.client.state = state
  events_eq : t.events = s.events ++ events

section Leads

variable {userId channel : UInt16} {s t : Session} {frame : Frame} {rest : Bytes} {link : Link}

theorem open_withLink (h : s.Open userId channel) (hwrites : link.writes = s.mcs.link.writes) :
    Session.Open userId channel { s with mcs := { s.mcs with link } } :=
  ⟨⟨h.user, h.le, h.channel, h.name⟩, hwrites.trans h.writes⟩

theorem after_of_answers {state : ClientState} (h : s.Open userId channel) (hleft : link.Delivers rest)
    (hwrites : link.writes = s.mcs.link.writes)
    (ht : Session.Answers { s with mcs := { s.mcs with link } } t) (hstate : t.client.state = state) :
    After userId channel rest state [] s t := by
  obtain ⟨link', hmcs, hreads, _⟩ := ht.mcs
  refine ⟨(open_withLink h hwrites).answers ht, ?_, ?_, hstate, ?_⟩
  . rw [hmcs]
  . rw [hmcs, Link.Delivers, hreads]
    exact hleft
  . rw [List.append_nil]
    exact ht.events

theorem after_withLink {events : List RdpEvent} (h : s.Open userId channel) (hleft : link.Delivers rest)
    (hwrites : link.writes = s.mcs.link.writes) :
    After userId channel rest s.client.state events s
      { s with mcs := { s.mcs with link }, events := s.events ++ events } :=
  ⟨⟨⟨h.user, h.le, h.channel, h.name⟩, hwrites.trans h.writes⟩, rfl, hleft, rfl, rfl⟩

theorem after_same (h : s.Open userId channel) (hleft : link.Delivers rest)
    (hwrites : link.writes = s.mcs.link.writes) :
    After userId channel rest s.client.state [] s { s with mcs := { s.mcs with link } } :=
  after_of_answers h hleft hwrites ((open_withLink h hwrites).answers_client rfl) rfl

theorem after_read_of_not_finds {stream : Bytes} (h : s.Open userId channel) (hleft : link.Delivers rest)
    (hwrites : link.writes = s.mcs.link.writes) (hnot : ¬ Finds s.client.state stream) :
    After userId channel rest s.client.state [] s
      (finalState ((Global.Client.read (.raw stream)).run { s with mcs := { s.mcs with link } })) := by
  rw [Global.Client.finalState_read_of_not_finds (s := { s with mcs := { s.mcs with link } }) hnot]
  exact after_same h hleft hwrites

theorem after_read_of_leads {state : ClientState} {events : List RdpEvent}
    (hinj : Injective s.mcs.channelIds) (h : s.Open userId channel)
    (hleads : Leads s.mcs.channelIds s.client.state frame state events)
    (hdelivers : s.mcs.link.Delivers (frame.packet.encode ++ rest)) :
    After userId channel rest state events s (finalState (read.run s)) := by
  obtain ⟨link', hleft, hwrites, hread⟩ := run_read_of_yields hinj hdelivers
  generalize hstate : s.client.state = before at hleads
  cases hleads with
  | @finds _ _ stream hyields hfinds =>
    rw [hread _ hyields, lift_ok, pure_bind]
    dsimp only
    rw [if_pos rfl]
    rw [← hstate] at hfinds ⊢
    obtain ⟨t, hfinal, hnext, hanswers⟩ :=
      Global.Client.finalState_read_of_finds (open_withLink h hwrites) hfinds
    rw [hfinal]
    exact after_of_answers h hleft hwrites hanswers hnext
  | waits hne hnot =>
    obtain ⟨r, hr⟩ := frame.exists_yields s.mcs.channelIds
    have hsame := after_same h hleft hwrites
    rw [hstate] at hsame
    rw [hread r hr]
    match r with
    | .error e => exact hsame
    | .ok (name, payload) =>
      rw [lift_ok, pure_bind]
      dsimp only
      split
      next hname =>
        subst hname
        cases payload with
        | raw stream =>
          have hfinds := hnot stream hr
          rw [← hstate] at hfinds ⊢
          exact after_read_of_not_finds h hleft hwrites hfinds
        | fastPath secFlag body =>
          rw [Global.Client.finalState_read_fastPath (by rwa [hstate])]
          exact hsame
      next => exact hsame
  | shows hshows =>
    have hsame := after_same h hleft hwrites
    rw [hstate] at hsame
    cases hshows with
    | @updates packet secFlag hpayload hbody payload hpacket =>
      have hafter := @after_withLink _ _ s _ _ (payload.flatMap Sent.events) h hleft hwrites
      rw [hstate] at hafter
      rw [hread _ .fastPath, lift_ok, pure_bind]
      dsimp only
      rw [if_pos rfl, Global.Client.run_read]
      simp only [hstate, Global.Client.run_readFastPath_sent hpacket]
      exact hafter
    | @data _ name stream hyields hnot =>
      rw [hread _ hyields, lift_ok, pure_bind]
      dsimp only
      split
      . rw [← hstate] at hnot ⊢
        exact after_read_of_not_finds h hleft hwrites hnot
      . exact hsame
    | refused hyields =>
      rw [hread _ hyields]
      exact hsame

end Leads

/--
The client is on its channel, and these frames are still to be read.
-/
structure Follows (userId channel : UInt16) (channels : List (String × UInt16)) (frames : List Frame)
    (course : List (ClientState × List RdpEvent)) (s : Session) : Prop where
  isOpen : s.Open userId channel
  channelIds : s.mcs.channelIds = channels
  serves : Serves channels s.client.state frames course
  delivers : s.mcs.link.Delivers (encodeAll frames)

section Follows

variable {userId channel : UInt16} {channels : List (String × UInt16)} {frames : List Frame}
  {course : List (ClientState × List RdpEvent)} {s t : Session}

theorem Follows.write (h : Follows userId channel channels frames course s) (event : RdpEvent) :
    Follows userId channel channels frames course (finalState ((RdpClient.write event).run s)) := by
  have hspeaks := speaks_write event s
  have htells := tells_write event h.isOpen.toJoined
  obtain ⟨packets, hsent, _⟩ := htells.packets
  refine ⟨⟨htells.joined, (hsent.received h.isOpen.writes).1⟩, hspeaks.1.2.2.trans h.channelIds, ?_, ?_⟩
  . rw [hspeaks.2.1]
    exact h.serves
  . rw [Link.Delivers, hspeaks.1.1]
    exact h.delivers

theorem Follows.withEvents (h : Follows userId channel channels frames course s) (events : List RdpEvent) :
    Follows userId channel channels frames course { s with events } :=
  ⟨⟨⟨h.isOpen.user, h.isOpen.le, h.isOpen.channel, h.isOpen.name⟩, h.isOpen.writes⟩, h.channelIds,
    h.serves, h.delivers⟩

theorem Follows.read (hinj : Injective channels) (h : Follows userId channel channels frames course s) :
    Follows userId channel channels frames.tail course.tail (finalState (RdpClient.read.run s)) ∧
      (finalState (RdpClient.read.run s)).client.state = stateAfter s.client.state (course.take 1) ∧
      (finalState (RdpClient.read.run s)).events = s.events ++ eventsOf (course.take 1) := by
  obtain ⟨hopen, rfl, hserves, hdelivers⟩ := h
  generalize hstate : s.client.state = state at hserves
  cases hserves with
  | nil =>
    have hwrites : (s.mcs.link.withReads []).writes = s.mcs.link.writes := Link.writes_withReads [] _
    have hopen' := open_withLink hopen hwrites
    rw [finalState_read_nil hdelivers]
    refine ⟨⟨hopen', rfl, ?_, ?_⟩, hstate, (List.append_nil _).symm⟩
    . exact .nil
    . rw [Link.Delivers, Link.reads_withReads]
      rfl
  | cons hleads hrest =>
    rw [encodeAll, List.flatMap_cons] at hdelivers
    rw [← hstate] at hleads
    have hafter := after_read_of_leads hinj hopen hleads hdelivers
    refine ⟨⟨hafter.isOpen, hafter.channelIds, ?_, hafter.delivers⟩, hafter.state_eq, ?_⟩
    . rw [hafter.state_eq]
      exact hrest
    . rw [hafter.events_eq]
      simp [eventsOf]

end Follows

namespace Use

def reads (uses : List Use) : Nat :=
  match uses with
  | [] => 0
  | .read :: uses => reads uses + 1
  | _ :: uses => reads uses

section After

variable {userId channel : UInt16} {channels : List (String × UInt16)} {frames : List Frame}
  {course : List (ClientState × List RdpEvent)} {s : Session}

theorem take_succ_tail (course : List (ClientState × List RdpEvent)) (n : Nat) :
    course.take (n + 1) = course.take 1 ++ course.tail.take n := by
  cases course <;> simp

theorem follows_after (hinj : Injective channels) (h : Follows userId channel channels frames course s)
    (uses : List Use) :
    Follows userId channel channels (frames.drop (reads uses)) (course.drop (reads uses)) (after uses s) ∧
      (after uses s).client.state = stateAfter s.client.state (course.take (reads uses)) ∧
      (after uses s).events = s.events ++ eventsOf (course.take (reads uses)) := by
  induction uses generalizing s frames course with
  | nil => exact ⟨h, rfl, (List.append_nil _).symm⟩
  | cons use uses ih =>
    have hwrite {event : RdpEvent} {t : Session} (ht : t = finalState ((RdpClient.write event).run s)) :
        Follows userId channel channels (frames.drop (reads uses)) (course.drop (reads uses)) (after uses t) ∧
          (after uses t).client.state = stateAfter s.client.state (course.take (reads uses)) ∧
          (after uses t).events = s.events ++ eventsOf (course.take (reads uses)) := by
      have hspeaks := speaks_write event s
      have hfollows := h.write event
      rw [← ht] at hspeaks hfollows
      have hrest := ih hfollows
      rwa [hspeaks.2.1, hspeaks.2.2] at hrest
    cases use with
    | read =>
      obtain ⟨hread, hstate, hevents⟩ := h.read hinj
      obtain ⟨hrest, hrestState, hrestEvents⟩ := ih hread
      rw [List.drop_tail, List.drop_tail] at hrest
      refine ⟨hrest, ?_, ?_⟩
      . rw [reads, take_succ_tail, stateAfter, List.foldl_append]
        rw [hstate] at hrestState
        exact hrestState
      . rw [reads, take_succ_tail, eventsOf, List.flatMap_append, ← List.append_assoc]
        rw [hevents] at hrestEvents
        exact hrestEvents
    | write event => exact hwrite rfl
    | tryWrite event => exact hwrite (finalState_tryWrite event s)

end After

end Use

/--
The client follows the server: whatever its user calls, and whichever calls fail, every call of `read`
makes of the client what the next frame makes of it, from the first Demand Active through any number of
deactivations, however the transport cuts the frames. The events of the frames are delivered in order and
once each, and the frames behind them are still to be read.
-/
theorem client_follows_server {userId channel : UInt16} {s : Session} (hopen : s.Open userId channel)
    (hinj : Injective s.mcs.channelIds) {frames : List Frame}
    {course : List (ClientState × List RdpEvent)}
    (hserves : Serves s.mcs.channelIds s.client.state frames course)
    (h : s.mcs.link.Delivers (encodeAll frames)) (uses : List Use) :
    (Use.after uses s).client.state = stateAfter s.client.state (course.take (Use.reads uses)) ∧
      (Use.after uses s).events = s.events ++ eventsOf (course.take (Use.reads uses)) ∧
      (Use.after uses s).mcs.link.Delivers (encodeAll (frames.drop (Use.reads uses))) := by
  have hfollows : Follows userId channel s.mcs.channelIds frames course s := ⟨hopen, rfl, hserves, h⟩
  obtain ⟨hafter, hstate, hevents⟩ := Use.follows_after hinj hfollows uses
  exact ⟨hstate, hevents, hafter.delivers⟩

namespace Following

open Global.Client

def channels : List (String × UInt16) := [("global", 1003), ("user", 1004)]

theorem shift_header : (0x68 : UInt8) >>> 2 = Mcs.DomainMCSPDU.sendDataIndication.toU8 := by
  decide

theorem initiator_le : (1 : UInt16).toNat ≤ 64534 := by
  decide

theorem one_lt : (1 : UInt8).toNat < 2 ^ 7 := by
  decide

def onGlobal (stream : Bytes) : Mcs.ServerPdu :=
  .sendDataIndication 0x68 shift_header 1 initiator_le 1003 0x70 (.short 1 one_lt) stream

theorem length_onGlobal {stream : Bytes} (h : stream.length < 2 ^ 7) :
    4 + (2 :: 0xF0 :: 0x80 :: (onGlobal stream).encode).length < 2 ^ 16 := by
  simp only [onGlobal, Mcs.ServerPdu.encode, Mcs.PerLength.encode, List.length_cons, List.length_append,
    List.length_nil, Endian.length_encode16]
  omega

def indication (stream : Bytes) (h : stream.length < 2 ^ 7) : Frame :=
  .slowPath 0 2 0xF0 (onGlobal stream) (length_onGlobal h)

theorem yields_indication (stream : Bytes) (h : stream.length < 2 ^ 7) :
    (indication stream h).Yields channels (.ok ("global", .raw stream)) :=
  .slowPath (.data (by simp [channels]))

def demandActive : Bytes :=
  [22, 0, 17, 0, 234, 3, 234, 3, 1, 0, 0, 0, 4, 0, 0, 0, 0, 0, 0, 0, 0, 0]

def synchronize : Bytes :=
  [22, 0, 23, 0, 234, 3, 234, 3, 1, 0, 0, 2, 22, 0, 31, 0, 0, 0, 1, 0, 0, 0]

def cooperate : Bytes :=
  [26, 0, 23, 0, 234, 3, 234, 3, 1, 0, 0, 2, 26, 0, 20, 0, 0, 0, 4, 0, 0, 0, 0, 0, 0, 0]

def granted : Bytes :=
  [26, 0, 23, 0, 234, 3, 234, 3, 1, 0, 0, 2, 26, 0, 20, 0, 0, 0, 2, 0, 236, 3, 234, 3, 0, 0]

def fontMap : Bytes :=
  [26, 0, 23, 0, 234, 3, 234, 3, 1, 0, 0, 2, 26, 0, 40, 0, 0, 0, 0, 0, 0, 0, 3, 0, 4, 0]

theorem finds_demandActive : Finds .demandActivePDU demandActive := by
  have h : ((readPdu demandActive).map fun pdu => decide (pdu.pduType = .pdutypeDemandactivepdu)) =
      .ok true := by
    decide +kernel
  obtain ⟨pdu, hpdu, htype⟩ := Except.map_eq_ok h
  exact ⟨pdu, hpdu, of_decide_eq_true htype⟩

theorem finds_synchronize : Finds .synchronizePDU synchronize :=
  readSynchronizePdu_eq_true.mp (by decide +kernel)

theorem finds_cooperate : Finds .controlCooperate cooperate :=
  readControlPdu_eq_true.mp (by decide +kernel)

theorem finds_granted : Finds .controlGranted granted := readControlPdu_eq_true.mp (by decide +kernel)

theorem finds_fontMap : Finds .fontMap fontMap := readFontMapPdu_eq_true.mp (by decide +kernel)

def rectangle : Global.Rectangle := ⟨1, 1, 1, 1, 1, 1, 32, 0, [9, 8, 7, 6], 0, 0⟩

def sent : Sent := .bitmap 1 [rectangle] (by decide)

theorem sent_action : (0 : UInt8) ≠ 3 := by decide

def packet : Tpkt.Packet := .fastPathShort 0 sent.encode sent_action (by decide)

def update : Frame := .fastPath packet 0 rfl (List.cons_ne_nil _ _)

def frames : List Frame := [
  indication demandActive (by decide),
  indication synchronize (by decide),
  indication cooperate (by decide),
  indication granted (by decide),
  indication fontMap (by decide),
  update
]

def course : List (ClientState × List RdpEvent) := [
  (.synchronizePDU, []),
  (.controlCooperate, []),
  (.controlGranted, []),
  (.fontMap, []),
  (.data, []),
  (.data, [rectangle.event])
]

theorem serves_frames : Serves channels .demandActivePDU frames course := by
  refine .cons (.finds (yields_indication _ _) finds_demandActive) ?_
  refine .cons (.finds (yields_indication _ _) finds_synchronize) ?_
  refine .cons (.finds (yields_indication _ _) finds_cooperate) ?_
  refine .cons (.finds (yields_indication _ _) finds_granted) ?_
  refine .cons (.finds (yields_indication _ _) finds_fontMap) ?_
  exact .cons (.shows (.updates [sent] (List.append_nil _).symm)) .nil

def session : Session where
  client := Global.Client.new 1004 1003 800 600 .us "mstsc-rs"
  mcs := ⟨Tpkt.Client.Framing.link (encodeAll frames), .protocolSSL, none, some 1004, channels, fun _ => 0⟩
  written := []
  events := []

theorem open_session : session.Open 1004 1003 := ⟨⟨rfl, by decide, rfl, by decide⟩, rfl⟩

theorem injective_session : Injective session.mcs.channelIds := by
  simp [Injective, session, channels]

theorem delivers_session : session.mcs.link.Delivers (encodeAll frames) :=
  Tpkt.Client.Framing.delivers_link _

end Following

open Following in
theorem client_follows_server_drawing :
    (Use.after [.read, .read, .tryWrite Told.key, .read, .read, .read, .read] session).events =
      [rectangle.event] :=
  (client_follows_server open_session injective_session serves_frames delivers_session
    [.read, .read, .tryWrite Told.key, .read, .read, .read, .read]).2.1

end RdpClient

end Rdp
