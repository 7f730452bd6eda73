import Rdp.Core.Global.Answer

/-!
This module contains what a call of `read` or `write_input_event` can do to a session: the PDU each
state of the connection sequence waits for, and what becomes of the session when it is found and
when it is not.
-/

namespace Rdp.Global

open Prog Cursor

namespace Client

def ReadsData (stream : Bytes) (pduType : PDUType2) : Prop :=
  ∃ dataPdu, readData stream = .ok (some dataPdu) ∧ dataPdu.pduType = pduType

def ReadsControl (stream : Bytes) (action : Action) : Prop :=
  ∃ dataPdu, readData stream = .ok (some dataPdu) ∧ dataPdu.pduType = .pdutype2Control ∧
    field dataPdu.fields "action" = .ok (.u16 action.toU16)

/--
A Deactivate All is among these PDUs, behind PDUs that can be parsed.
-/
def DeactivatesFrames (frames : List Frame) : Prop :=
  ∃ front frame rest pdu, frames = front ++ frame :: rest ∧
    (∀ g ∈ front, ∃ pdu, g.toPdu = .ok pdu) ∧ frame.toPdu = .ok pdu ∧
    pdu.pduType = .pdutypeDeactivateallpdu

/--
A Deactivate All is among the PDUs of the payload, behind PDUs that can be parsed.
-/
def Deactivates (stream : Bytes) : Prop :=
  ∃ frames, parse (elements Frame.reader) stream = .ok frames ∧ DeactivatesFrames frames

/--
The payload has the PDU that a state waits for.
-/
def Finds (state : ClientState) (stream : Bytes) : Prop :=
  match state with
  | .demandActivePDU =>
    ∃ pdu, readPdu stream = .ok pdu ∧ pdu.pduType = .pdutypeDemandactivepdu
  | .synchronizePDU => ReadsData stream .pdutype2Synchronize
  | .controlCooperate => ReadsControl stream .ctrlactionCooperate
  | .controlGranted => ReadsControl stream .ctrlactionGrantedControl
  | .fontMap => ReadsData stream .pdutype2Fontmap
  | .data => Deactivates stream

def next (state : ClientState) : ClientState :=
  match state with
  | .demandActivePDU => .synchronizePDU
  | .synchronizePDU => .controlCooperate
  | .controlCooperate => .controlGranted
  | .controlGranted => .fontMap
  | .fontMap => .data
  | .data => .demandActivePDU

def withState (state : ClientState) (s : Session) : Session :=
  { s with client := { s.client with state } }

section Readers

variable {stream : Bytes}

theorem readSynchronizePdu_eq_true :
    readSynchronizePdu stream = .ok true ↔ ReadsData stream .pdutype2Synchronize := by
  unfold readSynchronizePdu ReadsData
  match readData stream with
  | .error e => simp
  | .ok none => simp [pure, Except.pure]
  | .ok (some dataPdu) => simp [pure, Except.pure]

theorem readFontMapPdu_eq_true :
    readFontMapPdu stream = .ok true ↔ ReadsData stream .pdutype2Fontmap := by
  unfold readFontMapPdu ReadsData
  match readData stream with
  | .error e => simp
  | .ok none => simp [pure, Except.pure]
  | .ok (some dataPdu) => simp [pure, Except.pure]

theorem readControlPdu_eq_true {action : Action} :
    readControlPdu stream action = .ok true ↔ ReadsControl stream action := by
  constructor
  . intro h
    obtain ⟨read, hread, h⟩ := Except.bind_eq_ok h
    match read with
    | none => cases h
    | some dataPdu =>
      dsimp only at h
      split at h
      next => cases h
      next htype =>
        obtain ⟨d, hd, h⟩ := Except.bind_eq_ok h
        obtain ⟨v, hv, h⟩ := Except.bind_eq_ok h
        split at h
        next => cases h
        next haction =>
          rw [ne_eq, not_not] at htype haction
          rw [castU16_eq_ok.mp hv, haction] at hd
          exact ⟨dataPdu, hread, htype, hd⟩
  . rintro ⟨dataPdu, hread, htype, haction⟩
    simp only [readControlPdu, hread, Except.ok_bind, htype, ne_eq, not_true_eq_false, if_false,
      haction, castU16]
    rfl

end Readers

section Expect

variable {read : Bytes → RdpResult Bool} {stream : Bytes} (next : ClientState) (s : Session)

theorem run_expectPdu_of_true (h : read stream = .ok true) :
    (expectPdu read next (.raw stream)).run s = .ok () (withState next s) := by
  unfold expectPdu
  change (Prog.lift (read stream) >>= _).run s = _
  rw [h, lift_ok, pure_bind]
  rfl

theorem run_expectPdu_of_ne {payload : Tpkt.Payload}
    (h : ∀ stream, payload = .raw stream → read stream ≠ .ok true) :
    (expectPdu read next payload).run s = .ok () s ∨
      ∃ e, (expectPdu read next payload).run s = .error e s := by
  unfold expectPdu
  cases payload with
  | fastPath secFlag stream => exact .inr ⟨_, rfl⟩
  | raw stream =>
    have hne := h stream rfl
    change (Prog.lift (read stream) >>= _).run s = _ ∨ ∃ e, (Prog.lift (read stream) >>= _).run s = _
    match hread : read stream with
    | .error e => exact .inr ⟨e, rfl⟩
    | .ok false => exact .inl rfl
    | .ok true => exact absurd hread hne

end Expect

section Frames

variable {frame : Frame} {frames : List Frame} {pdu : PDU}

theorem deactivatesFrames_cons (h : frame.toPdu = .ok pdu) :
    DeactivatesFrames (frame :: frames) ↔
      pdu.pduType = .pdutypeDeactivateallpdu ∨ DeactivatesFrames frames := by
  constructor
  . rintro ⟨front, last, rest, pdu', hframes, hfront, hlast, htype⟩
    cases front with
    | nil =>
      cases hframes
      cases h.symm.trans hlast
      exact .inl htype
    | cons first front =>
      cases hframes
      rw [List.forall_mem_cons] at hfront
      exact .inr ⟨front, last, rest, pdu', rfl, hfront.2, hlast, htype⟩
  . rintro (htype | ⟨front, last, rest, pdu', rfl, hfront, hlast, htype⟩)
    . exact ⟨[], frame, frames, pdu, rfl, by simp, h, htype⟩
    . refine ⟨frame :: front, last, rest, pdu', rfl, ?_, hlast, htype⟩
      rw [List.forall_mem_cons]
      exact ⟨⟨pdu, h⟩, hfront⟩

theorem not_deactivatesFrames_cons {e : Fault Error} (h : frame.toPdu = .error e) :
    ¬ DeactivatesFrames (frame :: frames) := by
  rintro ⟨front, last, rest, pdu, hframes, hfront, hlast, _⟩
  cases front with
  | nil =>
    cases hframes
    cases h.symm.trans hlast
  | cons first front =>
    cases hframes
    obtain ⟨pdu', hpdu'⟩ := hfront frame List.mem_cons_self
    cases h.symm.trans hpdu'

theorem not_deactivatesFrames_nil : ¬ DeactivatesFrames [] := by
  rintro ⟨front, last, rest, pdu, hframes, _⟩
  simp at hframes

theorem finalState_receiveFrames (frames : List Frame) (s : Session) :
    (DeactivatesFrames frames →
      finalState ((receiveFrames frames).run s) = withState .demandActivePDU s) ∧
    (¬ DeactivatesFrames frames → finalState ((receiveFrames frames).run s) = s) := by
  induction frames generalizing s with
  | nil => exact ⟨fun h => absurd h not_deactivatesFrames_nil, fun _ => rfl⟩
  | cons frame frames ih =>
    rw [run_receiveFrames_cons]
    cases h : frame.toPdu with
    | error e => exact ⟨fun hd => absurd hd (not_deactivatesFrames_cons h), fun _ => rfl⟩
    | ok pdu =>
      rw [deactivatesFrames_cons h]
      by_cases htype : pdu.pduType = .pdutypeDeactivateallpdu
      . have hafter : after pdu s = withState .demandActivePDU s := if_pos htype
        simp only [hafter, htype, true_or, not_true, false_implies, and_true, forall_const]
        by_cases hrest : DeactivatesFrames frames
        . exact (ih _).1 hrest
        . exact (ih _).2 hrest
      . have hafter : after pdu s = s := if_neg htype
        simp only [hafter, htype, false_or]
        exact ih s

theorem finalState_readDataPdu (stream : Bytes) (s : Session) :
    (Deactivates stream →
      finalState ((readDataPdu stream).run s) = withState .demandActivePDU s) ∧
    (¬ Deactivates stream → finalState ((readDataPdu stream).run s) = s) := by
  rw [readDataPdu_eq]
  unfold Deactivates
  cases hframes : parse (elements Frame.reader) stream with
  | error e =>
    refine ⟨?_, fun _ => rfl⟩
    rintro ⟨frames, h, _⟩
    cases h
  | ok frames =>
    rw [lift_ok, pure_bind]
    have h := finalState_receiveFrames frames s
    refine ⟨?_, ?_⟩
    . rintro ⟨frames', hparse, hd⟩
      cases hparse
      exact h.1 hd
    . intro hnot
      exact h.2 fun hd => hnot ⟨frames, rfl, hd⟩

end Frames

def Kept (s t : Session) : Prop := t.client = s.client ∧ t.mcs = s.mcs ∧ t.written = s.written

instance : IsPreorder Session Kept where
  refl _ := ⟨rfl, rfl, rfl⟩
  trans _ _ _ h h' := ⟨h'.1.trans h.1, h'.2.1.trans h.2.1, h'.2.2.trans h.2.2⟩

theorem moves_callback (event : RdpEvent) : Moves Kept (callback event) :=
  Moves.modify fun _ => ⟨rfl, rfl, rfl⟩

theorem moves_deliverRectangles (rectangles : List DataType) :
    Moves Kept (deliverRectangles rectangles) := by
  induction rectangles with
  | nil => exact Moves.pure ()
  | cons rectangle rectangles ih =>
    rw [deliverRectangles]
    refine Moves.bind (Moves.lift _) ?_
    intro event
    refine Moves.bind (moves_callback _) ?_
    exact fun _ => ih

theorem moves_deliverUpdate (order : FastPathUpdate) : Moves Kept (deliverUpdate order) := by
  unfold deliverUpdate
  split
  . refine Moves.bind (Moves.lift _) ?_
    exact moves_deliverRectangles
  . exact Moves.pure ()

theorem moves_deliverUpdates (fpMessages : List DataType) :
    Moves Kept (deliverUpdates fpMessages) := by
  induction fpMessages with
  | nil => exact Moves.pure ()
  | cons fpMessage fpMessages ih =>
    rw [deliverUpdates]
    refine Moves.bind (Moves.lift _) ?_
    intro order
    cases order with
    | none => exact ih
    | some order =>
      refine Moves.bind (moves_deliverUpdate order) ?_
      exact fun _ => ih

theorem moves_readFastPath (stream : Bytes) : Moves Kept (readFastPath stream) := by
  unfold readFastPath
  refine Moves.bind (Moves.lift _) ?_
  exact moves_deliverUpdates

inductive Call where
  | read (payload : Tpkt.Payload)
  | writeInputEvent (event : TSInputEvent)

def Call.program (call : Call) : Prog Error Session Unit :=
  match call with
  | .read payload => Client.read payload
  | .writeInputEvent event => Client.writeInputEvent event

/--
The call returns, with this error or without one.
-/
def Call.Leads (call : Call) (s : Session) (failure : Option Error) (t : Session) : Prop :=
  match failure with
  | none => call.program.run s = .ok () t
  | some e => call.program.run s = .error (.error e) t

def notConnected : Error := .new .invalidAutomata "You cannot send data once it's not connected"

/--
All that a call can do to a session when it returns.
-/
inductive Effect (s : Session) : Call → Option Error → Session → Prop where
  | refused (event : TSInputEvent) (hstate : s.client.state ≠ .data) :
    Effect s (.writeInputEvent event) (some notConnected) s
  | sent (event : TSInputEvent) (failure : Option Error) (pdu : PDU) (mcs : Mcs.Client)
    (hstate : s.client.state = .data) (hpdu : Carries (s.client.shareId.getD 0) pdu)
    (hmcs : Hands s.client.userId [pdu] s.mcs mcs) :
    Effect s (.writeInputEvent event) failure (wrote [pdu] mcs s)
  | unfound (payload : Tpkt.Payload) (failure : Option Error) (t : Session)
    (h : ∀ stream, payload = .raw stream → ¬ Finds s.client.state stream) (hkept : Kept s t) :
    Effect s (.read payload) failure t
  | advanced (stream : Bytes) (failure : Option Error) (hstate : s.client.state ≠ .demandActivePDU)
    (h : Finds s.client.state stream) :
    Effect s (.read (.raw stream)) failure (withState (next s.client.state) s)
  | answered (stream : Bytes) (d : DemandActive) (pdus : List PDU) (mcs : Mcs.Client)
    (hstate : s.client.state = .demandActivePDU)
    (h : readPdu stream = .ok ⟨.pdutypeDemandactivepdu, d.node⟩)
    (hpdus : answer (s.client.accept d) = .ok pdus) (hmcs : Hands s.client.userId pdus s.mcs mcs) :
    Effect s (.read (.raw stream)) none
      (withState .synchronizePDU (wrote pdus mcs { s with client := s.client.accept d }))
  | interrupted (stream : Bytes) (d : DemandActive) (front rest : List PDU) (last : PDU)
    (mcs : Mcs.Client) (e : Error) (hstate : s.client.state = .demandActivePDU)
    (h : readPdu stream = .ok ⟨.pdutypeDemandactivepdu, d.node⟩)
    (hpdus : answer (s.client.accept d) = .ok (front ++ last :: rest))
    (hmcs : Hands s.client.userId (front ++ [last]) s.mcs mcs) :
    Effect s (.read (.raw stream)) (some e)
      (wrote (front ++ [last]) mcs { s with client := s.client.accept d })

theorem dataPdu_ne_error {shareId : Option UInt32} {message : DataPDU} {e : Error} :
    dataPdu shareId message ≠ .error (.error e) := by
  intro h
  rw [dataPdu] at h
  cases hvec : toVec (.component message.message) with
  | error e' =>
    rw [hvec] at h
    cases h
    exact toVec_ne_error hvec
  | ok bytes =>
    rw [hvec, Except.ok_bind, shareDataHeader, headedLength, checkedAdd] at h
    split at h <;> cases h

section Effect

variable {s t : Session} {failure : Option Error}

theorem Call.finalState_of_leads {call : Call} (h : call.Leads s failure t) :
    finalState (call.program.run s) = t := by
  cases failure with
  | none => rw [show call.program.run s = _ from h, finalState_ok]
  | some e => rw [show call.program.run s = _ from h, finalState_error]

theorem Call.not_aborts_of_leads {call : Call} (h : call.Leads s failure t) :
    ¬ call.program.Aborts s := by
  cases failure with
  | none => exact not_aborts_of_run_ok h
  | some e =>
    rw [aborts_of_run_error h]
    simp

theorem run_writeInputEvent_of_ne (event : TSInputEvent) (h : s.client.state ≠ .data) :
    (writeInputEvent event).run s = .error (.error notConnected) s := by
  unfold writeInputEvent
  rw [EStateM.run_bind, EStateM.run_get]
  cases hstate : s.client.state with
  | data => exact absurd hstate h
  | _ =>
    simp only [hstate]
    rfl

theorem run_writeInputEvent_of_data (event : TSInputEvent) (h : s.client.state = .data) :
    (writeInputEvent event).run s = (do
      let data ← Prog.lift (toVec (.component event.message))
      writeDataPdu (tsInputPduData (some [.component (tsInputEvent (some event.eventType)
        (some data))])) : Prog Error Session Unit).run s := by
  unfold writeInputEvent
  rw [EStateM.run_bind, EStateM.run_get]
  simp only [h]

theorem finalState_writeInputEvent {event : TSInputEvent} (hstate : s.client.state = .data)
    (h : ¬ (writeInputEvent event).Aborts s) :
    ∃ pdu mcs, Carries (s.client.shareId.getD 0) pdu ∧ Hands s.client.userId [pdu] s.mcs mcs ∧
      finalState ((writeInputEvent event).run s) = wrote [pdu] mcs s := by
  have hrun := run_writeInputEvent_of_data event hstate
  cases hvec : toVec (.component event.message) with
  | error e =>
    rw [hvec] at hrun
    rw [aborts_of_run_error hrun, not_not] at h
    match e with
    | .error e => exact absurd hvec toVec_ne_error
  | ok data =>
    rw [hvec, lift_ok, pure_bind] at hrun
    cases hpdu : dataPdu s.client.shareId (tsInputPduData (some [.component
        (tsInputEvent (some event.eventType) (some data))])) with
    | error e =>
      have hfail : (writeInputEvent event).run s = .error e s := by
        rw [hrun, writeDataPdu, EStateM.run_bind, EStateM.run_get]
        simp only [hpdu]
        rfl
      rw [aborts_of_run_error hfail, not_not] at h
      match e with
      | .error e => exact absurd hpdu dataPdu_ne_error
    | ok pdu =>
      have hwrite := hrun.trans (run_writeDataPdu hpdu rfl)
      have hnot : ¬ (writePdu pdu).Aborts s := by
        unfold Aborts at h ⊢
        rwa [← hwrite]
      obtain ⟨mcs, hhands, hok | ⟨e, herror⟩⟩ := run_writePdu_of_not_aborts hnot
      . exact ⟨pdu, mcs, carries_dataPdu hpdu, hhands, by rw [hwrite, hok, finalState_ok]⟩
      . exact ⟨pdu, mcs, carries_dataPdu hpdu, hhands, by rw [hwrite, herror, finalState_error]⟩

theorem effect_writeInputEvent {event : TSInputEvent}
    (h : (Call.writeInputEvent event).Leads s failure t) :
    Effect s (.writeInputEvent event) failure t := by
  by_cases hstate : s.client.state = .data
  . obtain ⟨pdu, mcs, hpdu, hhands, hfinal⟩ := finalState_writeInputEvent hstate (Call.not_aborts_of_leads h)
    rw [← Call.finalState_of_leads h]
    change Effect s _ failure (finalState ((writeInputEvent event).run s))
    rw [hfinal]
    exact .sent event failure pdu mcs hstate hpdu hhands
  . have hrun := run_writeInputEvent_of_ne event hstate
    cases failure with
    | none => cases hrun.symm.trans h
    | some e =>
      cases hrun.symm.trans h
      exact .refused event hstate

theorem run_read (payload : Tpkt.Payload) :
    (read payload).run s = (match s.client.state with
      | .demandActivePDU => expectDemandActivePdu payload
      | .synchronizePDU => expectPdu readSynchronizePdu .controlCooperate payload
      | .controlCooperate =>
        expectPdu (readControlPdu · .ctrlactionCooperate) .controlGranted payload
      | .controlGranted => expectPdu (readControlPdu · .ctrlactionGrantedControl) .fontMap payload
      | .fontMap => expectPdu readFontMapPdu .data payload
      | .data =>
        match payload with
        | .raw stream => readDataPdu stream
        | .fastPath _ stream => readFastPath stream : Prog Error Session Unit).run s := rfl

theorem finalState_expectPdu {read : Bytes → RdpResult Bool} {P : Bytes → Prop}
    (hread : ∀ stream, read stream = .ok true ↔ P stream) (next : ClientState)
    (payload : Tpkt.Payload) (s : Session) :
    (∃ stream, payload = .raw stream ∧ P stream ∧
      finalState ((expectPdu read next payload).run s) = withState next s) ∨
    (∀ stream, payload = .raw stream → ¬ P stream) ∧
      finalState ((expectPdu read next payload).run s) = s := by
  by_cases hfound : ∃ stream, payload = .raw stream ∧ P stream
  . obtain ⟨stream, rfl, hstream⟩ := hfound
    refine .inl ⟨stream, rfl, hstream, ?_⟩
    rw [run_expectPdu_of_true next s ((hread stream).mpr hstream), finalState_ok]
  . have hne (stream : Bytes) (hpayload : payload = .raw stream) : ¬ P stream :=
      fun hstream => hfound ⟨stream, hpayload, hstream⟩
    refine .inr ⟨hne, ?_⟩
    rcases run_expectPdu_of_ne next s (fun stream hpayload htrue =>
      hne stream hpayload ((hread stream).mp htrue)) with hok | ⟨e, herror⟩
    . rw [hok, finalState_ok]
    . rw [herror, finalState_error]

theorem effect_expectPdu (read : Bytes → RdpResult Bool) {payload : Tpkt.Payload}
    (h : (Call.read payload).Leads s failure t) (hstate : s.client.state ≠ .demandActivePDU)
    (hread : ∀ stream, read stream = .ok true ↔ Finds s.client.state stream)
    (hrun : (Client.read payload).run s = (expectPdu read (next s.client.state) payload).run s) :
    Effect s (.read payload) failure t := by
  have hfinal := Call.finalState_of_leads h
  change finalState ((Client.read payload).run s) = t at hfinal
  rw [hrun] at hfinal
  rcases finalState_expectPdu hread (next s.client.state) payload s
    with ⟨stream, rfl, hstream, hadvanced⟩ | ⟨hne, hkept⟩
  . rw [← hfinal, hadvanced]
    exact .advanced stream failure hstate hstream
  . rw [← hfinal, hkept]
    exact .unfound payload failure s hne (refl_of Kept s)

theorem effect_of_accepted {stream : Bytes} {d : DemandActive}
    (h : (Call.read (.raw stream)).Leads s failure t) (hstate : s.client.state = .demandActivePDU)
    (hpdu : readPdu stream = .ok ⟨.pdutypeDemandactivepdu, d.node⟩) :
    Effect s (.read (.raw stream)) failure t := by
  obtain ⟨confirm, rest, _, hpdus, _⟩ := exists_answer (s.client.accept d)
  have hread : (Client.read (.raw stream)).run s = (expectDemandActivePdu (.raw stream)).run s := by
    rw [run_read, hstate]
  have hrun := hread.trans (run_expectDemandActivePdu hpdu hpdus)
  have hnot : ¬ (writePdus (confirm :: rest)).Aborts { s with client := s.client.accept d } := by
    rintro ⟨e, u, hwrites, herror⟩
    rw [hwrites] at hrun
    exact Call.not_aborts_of_leads h ⟨e, u, hrun, herror⟩
  obtain ⟨mcs, ⟨hhands, hwrites⟩ | ⟨e, front, last, unsent, hfront, hhands, hwrites⟩⟩ :=
    run_writePdus_of_not_aborts hnot
  . rw [hwrites] at hrun
    cases failure with
    | none =>
      cases hrun.symm.trans h
      exact .answered stream d _ mcs hstate hpdu hpdus hhands
    | some e => cases hrun.symm.trans h
  . rw [hwrites] at hrun
    cases failure with
    | none => cases hrun.symm.trans h
    | some e =>
      cases hrun.symm.trans h
      rw [hfront] at hpdus
      exact .interrupted stream d front unsent last mcs e hstate hpdu hpdus hhands

theorem effect_expectDemandActivePdu {payload : Tpkt.Payload}
    (h : (Call.read payload).Leads s failure t) (hstate : s.client.state = .demandActivePDU) :
    Effect s (.read payload) failure t := by
  have hfinal := Call.finalState_of_leads h
  have hnot := Call.not_aborts_of_leads h
  have hread : (Client.read payload).run s = (expectDemandActivePdu payload).run s := by
    rw [run_read, hstate]
  change finalState ((Client.read payload).run s) = t at hfinal
  have hunfound (hne : ∀ stream, payload = .raw stream → ¬ Finds s.client.state stream)
      (hkept : finalState ((expectDemandActivePdu payload).run s) = s) :
      Effect s (.read payload) failure t := by
    rw [← hfinal, hread, hkept]
    exact .unfound payload failure s hne (refl_of Kept s)
  cases payload with
  | fastPath secFlag stream => exact hunfound (by simp) rfl
  | raw stream =>
    rw [hstate] at hunfound
    cases hpdu : readPdu stream with
    | error e =>
      apply hunfound
      . rintro _ ⟨⟩ ⟨pdu, hpdu', _⟩
        cases hpdu.symm.trans hpdu'
      . rw [run_expectDemandActivePdu_of_error hpdu, finalState_error]
    | ok pdu =>
      by_cases htype : pdu.pduType = .pdutypeDemandactivepdu
      . obtain ⟨frame, _, hframe⟩ := readPdu_eq_ok hpdu
        obtain ⟨d, rfl⟩ := Frame.exists_demandActive hframe htype
        exact effect_of_accepted h hstate hpdu
      . apply hunfound
        . rintro _ ⟨⟩ ⟨pdu', hpdu', htype'⟩
          cases hpdu.symm.trans hpdu'
          exact htype htype'
        . rw [run_expectDemandActivePdu_of_ne hpdu htype, finalState_ok]

theorem effect_readData {payload : Tpkt.Payload} (h : (Call.read payload).Leads s failure t)
    (hstate : s.client.state = .data) : Effect s (.read payload) failure t := by
  have hfinal := Call.finalState_of_leads h
  change finalState ((Client.read payload).run s) = t at hfinal
  rw [run_read, hstate] at hfinal
  cases payload with
  | fastPath secFlag stream =>
    apply Effect.unfound _ _ _ (by simp)
    have hmoves := moves_readFastPath stream s
    rwa [hfinal] at hmoves
  | raw stream =>
    have hdata := finalState_readDataPdu stream s
    change finalState ((readDataPdu stream).run s) = t at hfinal
    by_cases hd : Deactivates stream
    . rw [hdata.1 hd] at hfinal
      have hadvanced : Effect s (.read (.raw stream)) failure (withState (next s.client.state) s) := by
        apply Effect.advanced
        . simp [hstate]
        . rwa [hstate]
      rw [hstate] at hadvanced
      rwa [← hfinal]
    . rw [hdata.2 hd] at hfinal
      rw [← hfinal]
      apply Effect.unfound _ _ _ ?_ (refl_of Kept s)
      rintro _ ⟨⟩
      rwa [hstate]

theorem effect_of_leads {call : Call} (h : call.Leads s failure t) : Effect s call failure t := by
  cases call with
  | writeInputEvent event => exact effect_writeInputEvent h
  | read payload =>
    cases hstate : s.client.state with
    | demandActivePDU => exact effect_expectDemandActivePdu h hstate
    | data => exact effect_readData h hstate
    | synchronizePDU =>
      apply effect_expectPdu readSynchronizePdu h
      . simp [hstate]
      . simp only [hstate]
        exact fun _ => readSynchronizePdu_eq_true
      . rw [run_read, hstate]
        rfl
    | controlCooperate =>
      apply effect_expectPdu (readControlPdu · .ctrlactionCooperate) h
      . simp [hstate]
      . simp only [hstate]
        exact fun _ => readControlPdu_eq_true
      . rw [run_read, hstate]
        rfl
    | controlGranted =>
      apply effect_expectPdu (readControlPdu · .ctrlactionGrantedControl) h
      . simp [hstate]
      . simp only [hstate]
        exact fun _ => readControlPdu_eq_true
      . rw [run_read, hstate]
        rfl
    | fontMap =>
      apply effect_expectPdu readFontMapPdu h
      . simp [hstate]
      . simp only [hstate]
        exact fun _ => readFontMapPdu_eq_true
      . rw [run_read, hstate]
        rfl

end Effect

end Client

end Rdp.Global
