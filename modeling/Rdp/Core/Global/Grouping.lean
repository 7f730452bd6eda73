import Rdp.Core.Global.Underflow

/-!
This module compares a client that receives every PDU in a payload of its own with one that receives
several of them in one payload: which groupings lose nothing.
-/

namespace Rdp.Global

open Prog Cursor

/--
The total length in the header of this PDU is its own length.
-/
def WellFramed (pdu : Bytes) : Prop :=
  ∃ a b c d e f message, pdu = a :: b :: c :: d :: e :: f :: message ∧ (le16 a b).toNat = pdu.length

theorem exists_starts {pdu : Bytes} (h : WellFramed pdu) :
    ∃ frame : Frame, ∀ rest, frame.Starts (pdu ++ rest) rest := by
  obtain ⟨a, b, c, d, e, f, message, rfl, hlength⟩ := h
  refine ⟨⟨le16 a b, le16 c d, some (le16 e f), message⟩, ?_⟩
  intro rest
  simp only [List.length_cons] at hlength
  refine ⟨a, b, c, d, e, f, rfl, rfl, by omega, ?_⟩
  change message.length = _
  omega

namespace Client

def returned (r : EStateM.Result (Fault Error) Session Unit) : Option Session :=
  match r with
  | .ok _ t => some t
  | .error (.error _) t => some t
  | .error _ _ => none

def readAll (s : Session) (payloads : List Bytes) : Option Session :=
  match payloads with
  | [] => some s
  | payload :: payloads =>
    match returned ((read (.raw payload)).run s) with
    | some t => readAll t payloads
    | none => none

/--
The state, the share id and the PDUs that were written.
-/
def observe (s : Session) : ClientState × Option UInt32 × List PDU :=
  (s.client.state, s.client.shareId, s.written)

/--
None of these PDUs is waited for and none aborts the client.
-/
def Quiet (s : Session) (pdus : List Bytes) : Prop :=
  ∀ pdu ∈ pdus, ¬ Finds s.client.state pdu ∧ ¬ Underflows s (.raw pdu)

/--
A payload of these PDUs loses nothing behind the handshake: the PDUs up to a Deactivate All are
accepted, and behind it there is nothing that is waited for.
-/
inductive LosslessData (s : Session) : List Bytes → Prop where
  | nil : LosslessData s []
  | aborted {pdu : Bytes} {pdus : List Bytes} (h : (readPdu pdu).Aborts) :
    LosslessData s (pdu :: pdus)
  | rejected {pdu : Bytes} {pdus : List Bytes} {e : Error} (h : readPdu pdu = .error (.error e))
    (hrest : Quiet s pdus) : LosslessData s (pdu :: pdus)
  | ignored {pdu : Bytes} {pdus : List Bytes} {parsed : PDU} (h : readPdu pdu = .ok parsed)
    (htype : parsed.pduType ≠ .pdutypeDeactivateallpdu) (hrest : LosslessData s pdus) :
    LosslessData s (pdu :: pdus)
  | deactivated {pdu : Bytes} {pdus : List Bytes} {parsed : PDU} (h : readPdu pdu = .ok parsed)
    (htype : parsed.pduType = .pdutypeDeactivateallpdu)
    (hrest : Quiet (withState .demandActivePDU s) pdus ∨ ReachesMessage pdus.flatten) :
    LosslessData s (pdu :: pdus)

/--
A payload of these PDUs loses nothing: in the handshake only its first PDU is one that is waited for
when it arrives.
-/
def Lossless (s : Session) (pdus : List Bytes) : Prop :=
  match s.client.state with
  | .data => LosslessData s pdus
  | _ =>
    match pdus with
    | [] => True
    | pdu :: pdus => ∀ t, readAll s [pdu] = some t → Quiet t pdus

section Returned

variable {x : Prog Error Session Unit} {s t : Session}

theorem returned_of_aborts (h : x.Aborts s) : returned (x.run s) = none := by
  obtain ⟨e, t, hrun, hnot⟩ := h
  rw [hrun]
  cases e with
  | error e => exact absurd (Fault.isError_error e) hnot
  | panic msg => rfl
  | diverge => rfl

theorem returned_of_not_aborts (h : ¬ x.Aborts s) :
    returned (x.run s) = some (finalState (x.run s)) := by
  rcases cases_of_not_aborts h with ⟨_, t, hrun⟩ | ⟨e, t, hrun⟩
  . rw [hrun, finalState_ok]
    rfl
  . rw [hrun, finalState_error]
    rfl

theorem leads_of_returned {payload : Tpkt.Payload}
    (h : returned ((read payload).run s) = some t) :
    ∃ failure, (Call.read payload).Leads s failure t := by
  match hrun : (read payload).run s with
  | .ok _ u =>
    rw [hrun] at h
    cases h
    exact ⟨none, hrun⟩
  | .error (.error e) u =>
    rw [hrun] at h
    cases h
    exact ⟨some e, hrun⟩
  | .error (.panic msg) u =>
    rw [hrun] at h
    cases h
  | .error .diverge u =>
    rw [hrun] at h
    cases h

theorem readAll_cons (payload : Bytes) (payloads : List Bytes) :
    readAll s (payload :: payloads) =
      (returned ((read (.raw payload)).run s)).bind fun t => readAll t payloads := by
  rw [readAll]
  cases returned ((read (.raw payload)).run s) <;> rfl

theorem readAll_append (front rest : List Bytes) :
    readAll s (front ++ rest) = (readAll s front).bind fun t => readAll t rest := by
  induction front generalizing s with
  | nil => rfl
  | cons payload front ih =>
    rw [List.cons_append, readAll_cons, readAll_cons]
    cases returned ((read (.raw payload)).run s) with
    | none => rfl
    | some t => exact ih

end Returned

section Quiet

variable {s t : Session} {stream : Bytes}

theorem finalState_read_of_not_finds (h : ¬ Finds s.client.state stream) :
    finalState ((read (.raw stream)).run s) = s := by
  have hexpect {read : Bytes → RdpResult Bool} {P : Bytes → Prop} (next : ClientState)
      (hread : ∀ stream, read stream = .ok true ↔ P stream) (hnot : ¬ P stream) :
      finalState ((expectPdu read next (.raw stream)).run s) = s := by
    rcases finalState_expectPdu hread next (.raw stream) s with ⟨_, ⟨⟩, hstream, _⟩ | ⟨_, hkept⟩
    . exact absurd hstream hnot
    . exact hkept
  rw [run_read]
  cases hstate : s.client.state with
  | demandActivePDU =>
    rw [hstate] at h
    cases hpdu : readPdu stream with
    | error e =>
      change finalState ((expectDemandActivePdu _).run s) = s
      rw [run_expectDemandActivePdu_of_error hpdu, finalState_error]
    | ok pdu =>
      have htype : pdu.pduType ≠ .pdutypeDemandactivepdu := fun htype => h ⟨pdu, hpdu, htype⟩
      change finalState ((expectDemandActivePdu _).run s) = s
      rw [run_expectDemandActivePdu_of_ne hpdu htype, finalState_ok]
  | data =>
    rw [hstate] at h
    exact (finalState_readDataPdu stream s).2 h
  | synchronizePDU =>
    rw [hstate] at h
    exact hexpect _ (fun _ => readSynchronizePdu_eq_true) h
  | controlCooperate =>
    rw [hstate] at h
    exact hexpect _ (fun _ => readControlPdu_eq_true) h
  | controlGranted =>
    rw [hstate] at h
    exact hexpect _ (fun _ => readControlPdu_eq_true) h
  | fontMap =>
    rw [hstate] at h
    exact hexpect _ (fun _ => readFontMapPdu_eq_true) h

theorem returned_read_of_not_finds (h : ¬ Finds s.client.state stream)
    (hnot : ¬ Underflows s (.raw stream)) : returned ((read (.raw stream)).run s) = some s := by
  rw [returned_of_not_aborts (mt (aborts_read s _).mp hnot), finalState_read_of_not_finds h]

theorem readAll_of_quiet {pdus : List Bytes} (h : Quiet s pdus) : readAll s pdus = some s := by
  induction pdus with
  | nil => rfl
  | cons pdu pdus ih =>
    rw [Quiet, List.forall_mem_cons] at h
    rw [readAll_cons, returned_read_of_not_finds h.1.1 h.1.2]
    exact ih h.2

def phase (state : ClientState) : Nat :=
  match state with
  | .synchronizePDU => 0
  | .controlCooperate => 1
  | .controlGranted => 2
  | .fontMap => 3
  | .data => 4
  | .demandActivePDU => 5

/--
How far a session has come: an answer to a Demand Active counts more than all states before it.
-/
def rank (s : Session) : Nat := 6 * s.written.length + phase s.client.state

theorem rank_of_observe (h : observe s = observe t) : rank s = rank t := by
  simp only [observe, Prod.mk.injEq] at h
  rw [rank, rank, h.1, h.2.2]

theorem phase_next {state : ClientState} (h : state ≠ .demandActivePDU) :
    phase (next state) = phase state + 1 := by
  cases state with
  | demandActivePDU => exact absurd rfl h
  | _ => rfl

theorem phase_le (state : ClientState) : phase state ≤ 5 := by
  cases state <;> decide

theorem rank_of_returned (h : returned ((read (.raw stream)).run s) = some t) :
    rank s ≤ rank t ∧ (Finds s.client.state stream → rank s < rank t) := by
  obtain ⟨failure, hleads⟩ := leads_of_returned h
  have hphase := phase_le s.client.state
  have heffect := effect_of_leads hleads
  cases heffect with
  | unfound _ _ _ hunfound hkept =>
    have hrank : rank s = rank t := by rw [rank, rank, hkept.1, hkept.2.2]
    exact ⟨Nat.le_of_eq hrank, fun hfinds => absurd hfinds (hunfound stream rfl)⟩
  | advanced _ _ hstate =>
    have hrank : rank (withState (next s.client.state) s) = rank s + 1 := by
      change 6 * s.written.length + phase (next s.client.state) = _
      rw [phase_next hstate]
      rfl
    omega
  | answered _ d pdus mcs _ _ hpdus =>
    obtain ⟨confirm, rest, _, hanswer, _⟩ := exists_answer (s.client.accept d)
    cases hanswer.symm.trans hpdus
    have hrank : rank (withState .synchronizePDU (wrote (confirm :: rest) mcs
        { s with client := s.client.accept d })) = 6 * (s.written ++ confirm :: rest).length := rfl
    have hstart : rank s = 6 * s.written.length + phase s.client.state := rfl
    simp only [List.length_append, List.length_cons] at hrank
    omega
  | interrupted _ d front rest last mcs e =>
    have hrank : rank (wrote (front ++ [last]) mcs { s with client := s.client.accept d }) =
      6 * (s.written ++ (front ++ [last])).length + phase s.client.state := rfl
    have hstart : rank s = 6 * s.written.length + phase s.client.state := rfl
    simp only [List.length_append, List.length_cons] at hrank
    omega

theorem rank_of_readAll {pdus : List Bytes} (h : readAll s pdus = some t) : rank s ≤ rank t := by
  induction pdus generalizing s with
  | nil =>
    cases h
    exact Nat.le_refl _
  | cons pdu pdus ih =>
    rw [readAll_cons] at h
    obtain ⟨u, hu, hrest⟩ := Option.bind_eq_some_iff.mp h
    exact Nat.le_trans (rank_of_returned hu).1 (ih hrest)

theorem quiet_of_readAll {pdus : List Bytes}
    (h : (readAll s pdus).map observe = some (observe s)) : Quiet s pdus := by
  induction pdus with
  | nil => simp [Quiet]
  | cons pdu pdus ih =>
    obtain ⟨t, hread, hobserve⟩ := Option.map_eq_some_iff.mp h
    rw [readAll_cons] at hread
    obtain ⟨u, hu, hrest⟩ := Option.bind_eq_some_iff.mp hread
    have hnot : ¬ Underflows s (.raw pdu) := by
      intro hunderflows
      rw [returned_of_aborts ((aborts_read s _).mpr hunderflows)] at hu
      cases hu
    have hfinds : ¬ Finds s.client.state pdu := by
      intro hfinds
      have hlt := (rank_of_returned hu).2 hfinds
      have hle := rank_of_readAll hrest
      have heq := rank_of_observe hobserve
      omega
    rw [readAll_cons, returned_read_of_not_finds hfinds hnot] at h
    rw [Quiet, List.forall_mem_cons]
    exact ⟨⟨hfinds, hnot⟩, ih h⟩

end Quiet

section Handshake

variable {s : Session} {pdu : Bytes}

theorem readPdu_append (h : WellFramed pdu) (rest : Bytes) : readPdu (pdu ++ rest) = readPdu pdu := by
  obtain ⟨frame, hframe⟩ := exists_starts h
  have hparse (rest : Bytes) : parse Frame.reader (pdu ++ rest) = .ok frame :=
    parse_eq_ok.mpr ⟨rest, Frame.run_reader_of_starts (hframe rest)⟩
  have hpdu := hparse []
  rw [List.append_nil] at hpdu
  rw [readPdu_eq, readPdu_eq, hparse, hpdu]

theorem run_read_append (h : WellFramed pdu) (hstate : s.client.state ≠ .data) (rest : Bytes) :
    (read (.raw (pdu ++ rest))).run s = (read (.raw pdu)).run s := by
  -- In the handshake only the first PDU of a payload is looked at.
  have hpdu := readPdu_append h rest
  have hdata : readData (pdu ++ rest) = readData pdu := by
    rw [readData, readData, hpdu]
  rw [run_read, run_read]
  cases hs : s.client.state with
  | data => exact absurd hs hstate
  | demandActivePDU =>
    change (readDemandActivePdu (pdu ++ rest) >>= _ : Prog Error Session Unit).run s =
      (readDemandActivePdu pdu >>= _ : Prog Error Session Unit).run s
    rw [readDemandActivePdu, hpdu]
    rfl
  | synchronizePDU =>
    change (Prog.lift (readSynchronizePdu (pdu ++ rest)) >>= _ : Prog Error Session Unit).run s = _
    rw [readSynchronizePdu, hdata]
    rfl
  | controlCooperate =>
    change (Prog.lift (readControlPdu (pdu ++ rest) _) >>= _ : Prog Error Session Unit).run s = _
    rw [readControlPdu, hdata]
    rfl
  | controlGranted =>
    change (Prog.lift (readControlPdu (pdu ++ rest) _) >>= _ : Prog Error Session Unit).run s = _
    rw [readControlPdu, hdata]
    rfl
  | fontMap =>
    change (Prog.lift (readFontMapPdu (pdu ++ rest)) >>= _ : Prog Error Session Unit).run s = _
    rw [readFontMapPdu, hdata]
    rfl

theorem returned_read_nil (hstate : s.client.state ≠ .data) :
    returned ((read (.raw [])).run s) = some s := by
  rw [run_read]
  cases hs : s.client.state with
  | data => exact absurd hs hstate
  | _ => rfl

end Handshake

section Data

variable {s : Session} {pdus : List Bytes} {frames : List Frame}

def Framed (pdus : List Bytes) (frames : List Frame) : Prop :=
  List.Forall₂ (fun pdu frame => ∀ rest, Frame.Starts frame (pdu ++ rest) rest) pdus frames

theorem exists_framed (h : ∀ pdu ∈ pdus, WellFramed pdu) : ∃ frames, Framed pdus frames := by
  induction pdus with
  | nil => exact ⟨[], .nil⟩
  | cons pdu pdus ih =>
    rw [List.forall_mem_cons] at h
    obtain ⟨frame, hframe⟩ := exists_starts h.1
    obtain ⟨frames, hframes⟩ := ih h.2
    exact ⟨frame :: frames, .cons hframe hframes⟩

theorem run_elements_flatten (h : Framed pdus frames) :
    (elements Frame.reader).run pdus.flatten = .ok frames [] := by
  induction h with
  | nil => rfl
  | @cons pdu frame pdus frames hframe _ ih =>
    have hrun := Frame.run_reader_of_starts (hframe pdus.flatten)
    rw [List.flatten_cons, run_elements_of_ok Frame.consumes_reader hrun, EStateM.run_bind, ih]
    rfl

theorem readDataPdu_flatten (h : Framed pdus frames) :
    readDataPdu pdus.flatten = receiveFrames frames := by
  rw [readDataPdu_eq, parse_eq_ok.mpr ⟨[], run_elements_flatten h⟩, lift_ok, pure_bind]

theorem returned_receiveFrames_cons (frame : Frame) (frames : List Frame) (s : Session) :
    returned ((receiveFrames (frame :: frames)).run s) =
      match frame.toPdu with
      | .ok pdu => returned ((receiveFrames frames).run (after pdu s))
      | .error (.error _) => some s
      | .error _ => none := by
  rw [run_receiveFrames_cons]
  match frame.toPdu with
  | .ok pdu => rfl
  | .error (.error e) => rfl
  | .error (.panic msg) => rfl
  | .error .diverge => rfl

theorem readPdu_of_starts {frame : Frame} {pdu : Bytes}
    (h : ∀ rest, Frame.Starts frame (pdu ++ rest) rest) : readPdu pdu = frame.toPdu := by
  have hstarts := h []
  rw [List.append_nil] at hstarts
  rw [readPdu_eq, parse_eq_ok.mpr ⟨[], Frame.run_reader_of_starts hstarts⟩, Except.ok_bind]

theorem underflows_of_aborts {frame : Frame} {pdu : Bytes}
    (h : ∀ rest, Frame.Starts frame (pdu ++ rest) rest) (habort : frame.toPdu.Aborts) (s : Session) :
    Underflows s (.raw pdu) := by
  -- A PDU that aborts the client on its own does so in every state.
  have hstarts := h []
  rw [List.append_nil] at hstarts
  rw [Frame.aborts_toPdu] at habort
  have hfirst : FirstUnderflows pdu := .inr ⟨frame, [], hstarts, habort⟩
  unfold Underflows
  cases s.client.state with
  | data => exact .inr (.here hstarts habort)
  | demandActivePDU => exact .inl hfirst
  | _ => exact hfirst

theorem readAll_of_aborts (h : Framed pdus frames) {s' : Session}
    (habort : (receiveFrames frames).Aborts s') (s : Session) : readAll s pdus = none := by
  induction h generalizing s s' with
  | nil => exact absurd habort (not_aborts_pure _ s')
  | @cons pdu frame pdus frames hframe _ ih =>
    rw [readAll_cons]
    rcases (aborts_receiveFrames_cons frame frames s').mp habort with habort | ⟨parsed, _, habort⟩
    . have hunderflows := underflows_of_aborts hframe habort s
      rw [returned_of_aborts ((aborts_read s _).mpr hunderflows)]
      rfl
    . cases returned ((read (.raw pdu)).run s) with
      | none => rfl
      | some t => exact ih habort t

theorem returned_read_data (hstate : s.client.state = .data) {frame : Frame} {pdu : Bytes}
    (h : ∀ rest, Frame.Starts frame (pdu ++ rest) rest) :
    returned ((read (.raw pdu)).run s) =
      match readPdu pdu with
      | .ok parsed => some (after parsed s)
      | .error (.error _) => some s
      | .error _ => none := by
  have hframed : Framed [pdu] [frame] := .cons h .nil
  have hread := readDataPdu_flatten hframed
  rw [List.flatten_singleton] at hread
  rw [run_read, hstate]
  change returned ((readDataPdu pdu).run s) = _
  rw [hread, returned_receiveFrames_cons, readPdu_of_starts h]
  rfl

theorem returned_receiveFrames (frames : List Frame) (s : Session)
    (h : ¬ (receiveFrames frames).Aborts (withState .demandActivePDU s)) :
    returned ((receiveFrames frames).run (withState .demandActivePDU s)) =
      some (withState .demandActivePDU s) := by
  -- Behind a Deactivate All the rest of its payload can only abort.
  have hfinal := finalState_receiveFrames frames (withState .demandActivePDU s)
  rw [returned_of_not_aborts h]
  by_cases hd : DeactivatesFrames frames
  . rw [hfinal.1 hd]
    rfl
  . rw [hfinal.2 hd]

theorem aborts_receiveFrames_flatten (h : Framed pdus frames) (s : Session) :
    (receiveFrames frames).Aborts s ↔ ReachesMessage pdus.flatten :=
  aborts_receiveFrames (run_elements_flatten h) s

theorem readAll_of_losslessData (h : Framed pdus frames) (hstate : s.client.state = .data)
    (hlossless : LosslessData s pdus) :
    readAll s pdus = returned ((receiveFrames frames).run s) := by
  induction h with
  | nil => rfl
  | @cons pdu frame pdus frames hframe hframes ih =>
    have hframed : Framed pdus frames := hframes
    rw [readAll_cons, returned_read_data hstate hframe, returned_receiveFrames_cons,
      ← readPdu_of_starts hframe]
    cases hlossless with
    | aborted habort =>
      obtain ⟨e, he, hnot⟩ := habort
      rw [he]
      cases e with
      | error e => exact absurd (Fault.isError_error e) hnot
      | _ => rfl
    | rejected hpdu hrest =>
      rw [hpdu]
      exact readAll_of_quiet hrest
    | ignored hpdu htype hrest =>
      rw [hpdu]
      dsimp only
      rw [after, if_neg htype]
      exact ih hrest
    | deactivated hpdu htype hrest =>
      rw [hpdu]
      dsimp only
      rw [after, if_pos htype]
      change readAll (withState .demandActivePDU s) pdus =
        returned ((receiveFrames frames).run (withState .demandActivePDU s))
      by_cases habort : (receiveFrames frames).Aborts (withState .demandActivePDU s)
      . rw [readAll_of_aborts hframed habort, returned_of_aborts habort]
      . have hquiet := hrest.resolve_right
          (mt (aborts_receiveFrames_flatten hframed (withState .demandActivePDU s)).mpr habort)
        rw [readAll_of_quiet hquiet, returned_receiveFrames frames s habort]

theorem losslessData_of_observe (h : Framed pdus frames) (hstate : s.client.state = .data)
    (hobserve : (readAll s pdus).map observe =
      (returned ((receiveFrames frames).run s)).map observe) : LosslessData s pdus := by
  induction h with
  | nil => exact .nil
  | @cons pdu frame pdus frames hframe hframes ih =>
    have hframed : Framed pdus frames := hframes
    rw [readAll_cons, returned_read_data hstate hframe, returned_receiveFrames_cons,
      ← readPdu_of_starts hframe] at hobserve
    cases hpdu : readPdu pdu with
    | error e =>
      cases e with
      | error e =>
        rw [hpdu] at hobserve
        exact .rejected hpdu (quiet_of_readAll hobserve)
      | panic msg => exact .aborted ⟨_, hpdu, Fault.not_isError_panic msg⟩
      | diverge => exact .aborted ⟨_, hpdu, Fault.not_isError_diverge⟩
    | ok parsed =>
      rw [hpdu] at hobserve
      dsimp only at hobserve
      by_cases htype : parsed.pduType = .pdutypeDeactivateallpdu
      . apply LosslessData.deactivated hpdu htype
        rw [after, if_pos htype] at hobserve
        change (readAll (withState .demandActivePDU s) pdus).map observe =
          (returned ((receiveFrames frames).run (withState .demandActivePDU s))).map observe at hobserve
        by_cases habort : (receiveFrames frames).Aborts (withState .demandActivePDU s)
        . exact .inr ((aborts_receiveFrames_flatten hframed _).mp habort)
        . rw [returned_receiveFrames frames s habort] at hobserve
          exact .inl (quiet_of_readAll hobserve)
      . rw [after, if_neg htype] at hobserve
        exact .ignored hpdu htype (ih hobserve)

end Data

section Grouping

variable {s : Session} {pdus : List Bytes}

theorem readAll_singleton (payload : Bytes) :
    readAll s [payload] = returned ((read (.raw payload)).run s) := by
  rw [readAll_cons]
  cases returned ((read (.raw payload)).run s) <;> rfl

theorem readAll_flatten_data (hstate : s.client.state = .data) {frames : List Frame}
    (h : Framed pdus frames) :
    readAll s [pdus.flatten] = returned ((receiveFrames frames).run s) := by
  rw [readAll_singleton, run_read, hstate]
  change returned ((readDataPdu pdus.flatten).run s) = _
  rw [readDataPdu_flatten h]

theorem readAll_flatten_handshake {pdu : Bytes} (hstate : s.client.state ≠ .data)
    (h : WellFramed pdu) : readAll s [(pdu :: pdus).flatten] = readAll s [pdu] := by
  rw [readAll_singleton, readAll_singleton, List.flatten_cons, run_read_append h hstate]

theorem lossless_data (hstate : s.client.state = .data) :
    Lossless s pdus ↔ LosslessData s pdus := by
  unfold Lossless
  rw [hstate]

theorem lossless_handshake {pdu : Bytes} (hstate : s.client.state ≠ .data) :
    Lossless s (pdu :: pdus) ↔ ∀ t, readAll s [pdu] = some t → Quiet t pdus := by
  unfold Lossless
  cases hs : s.client.state with
  | data => exact absurd hs hstate
  | _ => rfl

theorem readAll_of_lossless (h : ∀ pdu ∈ pdus, WellFramed pdu) (hlossless : Lossless s pdus) :
    readAll s [pdus.flatten] = readAll s pdus := by
  by_cases hstate : s.client.state = .data
  . obtain ⟨frames, hframes⟩ := exists_framed h
    rw [readAll_flatten_data hstate hframes]
    exact (readAll_of_losslessData hframes hstate ((lossless_data hstate).mp hlossless)).symm
  . cases pdus with
    | nil => rw [List.flatten_nil, readAll_singleton, returned_read_nil hstate, readAll]
    | cons pdu pdus =>
      rw [List.forall_mem_cons] at h
      rw [lossless_handshake hstate] at hlossless
      have happend : readAll s (pdu :: pdus) = (readAll s [pdu]).bind fun t => readAll t pdus :=
        readAll_append [pdu] pdus
      rw [readAll_flatten_handshake hstate h.1, happend]
      cases hread : readAll s [pdu] with
      | none => rfl
      | some t => exact (readAll_of_quiet (hlossless t hread)).symm

theorem lossless_of_observe (h : ∀ pdu ∈ pdus, WellFramed pdu)
    (hobserve : (readAll s [pdus.flatten]).map observe = (readAll s pdus).map observe) :
    Lossless s pdus := by
  by_cases hstate : s.client.state = .data
  . obtain ⟨frames, hframes⟩ := exists_framed h
    rw [readAll_flatten_data hstate hframes] at hobserve
    exact (lossless_data hstate).mpr (losslessData_of_observe hframes hstate hobserve.symm)
  . cases pdus with
    | nil =>
      unfold Lossless
      cases hs : s.client.state with
      | data => exact absurd hs hstate
      | _ => trivial
    | cons pdu pdus =>
      rw [List.forall_mem_cons] at h
      rw [lossless_handshake hstate]
      intro t hread
      have happend : readAll s (pdu :: pdus) = (readAll s [pdu]).bind fun t => readAll t pdus :=
        readAll_append [pdu] pdus
      rw [readAll_flatten_handshake hstate h.1, happend, hread] at hobserve
      exact quiet_of_readAll hobserve.symm

/--
After every payload of this list the client is where it is when the PDUs come one by one.
-/
def Agree (s : Session) (groups : List (List Bytes)) : Prop :=
  ∀ k, (readAll s ((groups.take k).map List.flatten)).map observe =
    (readAll s (groups.take k).flatten).map observe

/--
Groupings lose nothing exactly if every payload loses nothing in the state in which it arrives when
the PDUs before it come one by one.
-/
theorem grouping_agrees_iff {groups : List (List Bytes)}
    (h : ∀ group ∈ groups, ∀ pdu ∈ group, WellFramed pdu) (s : Session) :
    Agree s groups ↔ ∀ front group rest t, groups = front ++ group :: rest →
      readAll s front.flatten = some t → Lossless t group := by
  induction groups generalizing s with
  | nil => simp [Agree]
  | cons group groups ih =>
    rw [List.forall_mem_cons] at h
    -- the first payload decides whether the others start in the same session
    have hstep (hlossless : Lossless s group) (k : Nat) :
        readAll s (((group :: groups).take (k + 1)).map List.flatten) =
          (readAll s group).bind fun t => readAll t ((groups.take k).map List.flatten) := by
      rw [← readAll_of_lossless h.1 hlossless]
      exact readAll_append [group.flatten] _
    have hone (k : Nat) : readAll s ((group :: groups).take (k + 1)).flatten =
        (readAll s group).bind fun t => readAll t (groups.take k).flatten :=
      readAll_append group _
    constructor
    . intro hagree front group' rest t hgroups hread
      have hfirst := hagree 1
      simp only [List.take_succ_cons, List.take_zero, List.map_cons, List.map_nil, List.flatten_cons,
        List.flatten_nil, List.append_nil] at hfirst
      have hlossless := lossless_of_observe h.1 hfirst
      cases front with
      | nil =>
        cases hgroups
        cases hread
        exact hlossless
      | cons front₀ front =>
        cases hgroups
        rw [List.flatten_cons, readAll_append] at hread
        obtain ⟨u, hu, hread⟩ := Option.bind_eq_some_iff.mp hread
        refine (ih h.2 u).mp ?_ front group' rest t rfl hread
        intro k
        have hk := hagree (k + 1)
        rwa [hstep hlossless, hone, hu] at hk
    . intro hall k
      have hlossless := hall [] group groups s rfl rfl
      cases k with
      | zero => rfl
      | succ k =>
        rw [hstep hlossless, hone]
        cases hread : readAll s group with
        | none => rfl
        | some u =>
          refine (ih h.2 u).mpr ?_ k
          intro front group' rest t hgroups hfront
          refine hall (group :: front) group' rest t ?_ ?_
          . rw [hgroups]
            rfl
          . rw [List.flatten_cons, readAll_append, hread]
            exact hfront

end Grouping

namespace Grouping

def synchronize : Bytes :=
  [22, 0, 23, 0, 234, 3, 234, 3, 1, 0, 0, 2, 22, 0, 31, 0, 0, 0, 1, 0, 0, 0]

def cooperate : Bytes :=
  [26, 0, 23, 0, 234, 3, 234, 3, 1, 0, 0, 2, 26, 0, 20, 0, 0, 0, 4, 0, 0, 0, 0, 0, 0, 0]

def session (state : ClientState) : Session :=
  ⟨{ Handshake.client with state, shareId := some 0x000103EA }, Mcs.Client.WriteAgrees.connected, [], []⟩

theorem wellFramed_synchronize : WellFramed synchronize :=
  ⟨22, 0, 23, 0, 234, 3, _, rfl, by decide⟩

theorem wellFramed_cooperate : WellFramed cooperate :=
  ⟨26, 0, 23, 0, 234, 3, _, rfl, by decide⟩

theorem wellFramed_groups : ∀ group ∈ [[synchronize, cooperate]], ∀ pdu ∈ group, WellFramed pdu := by
  simp [wellFramed_synchronize, wellFramed_cooperate]

end Grouping

open Grouping in
/--
Behind the handshake both PDUs are only reported.
-/
theorem grouping_agrees_data : Agree (session .data) [[synchronize, cooperate]] := by
  apply (grouping_agrees_iff wellFramed_groups (session .data)).mpr
  intro front group rest t hgroups hread
  cases front with
  | nil =>
    cases hgroups
    cases hread
    rw [lossless_data rfl]
    exact .ignored rfl (by decide) (.ignored rfl (by decide) .nil)
  | cons front₀ front => simp at hgroups

open Grouping in
/--
In the handshake the second PDU of the payload is lost.
-/
theorem not_grouping_agrees_handshake :
    (∀ group ∈ [[synchronize, cooperate]], ∀ pdu ∈ group, WellFramed pdu) ∧
      ¬ Agree (session .synchronizePDU) [[synchronize, cooperate]] := by
  refine ⟨wellFramed_groups, ?_⟩
  intro h
  have hstate := congrArg (Option.map Prod.fst) (h 1)
  rw [Option.map_map, Option.map_map] at hstate
  revert hstate
  decide +kernel

end Client

end Rdp.Global
