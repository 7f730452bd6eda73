import Rdp.Core.Client.Inputs
import Rdp.Core.Global.Grouping
import Rdp.Core.Mcs.Joining

/-!
This module contains the reads of a client whose transport takes all that is written: the client answers
every Demand Active, and every PDU that is waited for leads to the next state.
-/

namespace Rdp

open Prog

namespace Global

/--
The client is on the channel of its PDUs, and its transport takes all that is written.
-/
structure Session.Open (userId channel : UInt16) (s : Session) : Prop extends s.Joined userId channel where
  writes : s.mcs.link.writes = []

/--
Nothing is read and no event is delivered, and the client is still on its channel.
-/
structure Session.Answers (s t : Session) : Prop where
  mcs : ∃ link, t.mcs = { s.mcs with link } ∧ link.reads = s.mcs.link.reads ∧ link.writes = []
  name : t.client.name = s.client.name
  events : t.events = s.events

namespace Session

variable {userId channel : UInt16} {s t u : Session}

theorem Answers.trans (h : s.Answers t) (h' : t.Answers u) : s.Answers u where
  mcs := by
    obtain ⟨link, hmcs, hreads, _⟩ := h.mcs
    obtain ⟨link', hmcs', hreads', hwrites⟩ := h'.mcs
    rw [hmcs] at hmcs' hreads'
    exact ⟨link', hmcs', hreads'.trans hreads, hwrites⟩
  name := h'.name.trans h.name
  events := h'.events.trans h.events

theorem Open.answers (h : s.Open userId channel) (ht : s.Answers t) : t.Open userId channel where
  user := by
    obtain ⟨link, hmcs, _⟩ := ht.mcs
    rw [hmcs]
    exact h.user
  le := h.le
  channel := by
    obtain ⟨link, hmcs, _⟩ := ht.mcs
    rw [hmcs]
    exact h.channel
  name := by
    rw [ht.name]
    exact h.name
  writes := by
    obtain ⟨link, hmcs, _, hwrites⟩ := ht.mcs
    rw [hmcs]
    exact hwrites

theorem Open.answers_client (h : s.Open userId channel) {client : Client}
    (hname : client.name = s.client.name) : s.Answers { s with client } :=
  ⟨⟨s.mcs.link, rfl, rfl, h.writes⟩, hname, rfl⟩

end Session

namespace Client

variable {userId channel : UInt16} {s : Session}

def Fits (userId : UInt16) (pdu : PDU) : Prop := ∃ wire, pdu.wire userId = .ok wire ∧ wire.length < 2 ^ 15

theorem run_writePdu_of_fits {pdu : PDU} (hpdu : Fits s.client.userId pdu) (h : s.Open userId channel) :
    ∃ mcs, (writePdu pdu).run s = .ok () (wrote [pdu] mcs s) ∧ s.Answers (wrote [pdu] mcs s) := by
  obtain ⟨wire, hwire, hshort⟩ := hpdu
  obtain ⟨bytes, hbytes, hheader⟩ := Except.bind_eq_ok hwire
  obtain ⟨header, hcontrol, hwrite⟩ := Except.bind_eq_ok hheader
  by_cases hlt : bytes.length % 2 ^ 16 + 6 < 2 ^ 16
  . rw [shareControlHeader_of_lt _ _ hlt] at hcontrol
    cases hcontrol
    have hnode : (Message.component (frameOf pdu s.client.userId bytes).node).write = .ok wire :=
      toVec_eq_ok_iff.mp hwrite
    obtain ⟨link', hrun, hreads, hnil⟩ :=
      Mcs.Client.run_write_of_nil h.user h.le h.channel hnode hshort h.writes
    refine ⟨{ s.mcs with link := link' }, ?_, ⟨link', rfl, hreads, hnil⟩, rfl, rfl⟩
    rw [run_writePdu hbytes hlt, hrun]
  . rw [shareControlHeader_of_le _ _ (by omega)] at hcontrol
    cases hcontrol

theorem run_writePdus_of_fits {pdus : List PDU} (hpdus : ∀ pdu ∈ pdus, Fits s.client.userId pdu)
    (h : s.Open userId channel) :
    ∃ mcs, (writePdus pdus).run s = .ok () (wrote pdus mcs s) ∧ s.Answers (wrote pdus mcs s) := by
  induction pdus generalizing s with
  | nil =>
    refine ⟨s.mcs, ?_, ⟨s.mcs.link, rfl, rfl, h.writes⟩, rfl, rfl⟩
    rw [writePdus, wrote, List.append_nil]
    rfl
  | cons pdu pdus ih =>
    rw [List.forall_mem_cons] at hpdus
    obtain ⟨mcs, hfirst, hanswers⟩ := run_writePdu_of_fits hpdus.1 h
    obtain ⟨mcs', hrest, hanswers'⟩ := ih (s := wrote [pdu] mcs s) hpdus.2 (h.answers hanswers)
    rw [wrote_wrote] at hrest hanswers'
    refine ⟨mcs', ?_, hanswers.trans hanswers'⟩
    rw [writePdus, run_bind_of_ok hfirst]
    exact hrest

theorem fits_dataPdu (message : DataPDU) {payload : Bytes} {n : Nat}
    (h : (Message.component message.message).write = .ok payload) (hlength : payload.length = n)
    (hshort : n < 2 ^ 14) (shareId : Option UInt32) (userId : UInt16) :
    ∃ pdu, dataPdu shareId message = .ok pdu ∧ Fits userId pdu := by
  obtain ⟨pdu, wire, data, hpdu, hwire, hwireShort, _⟩ := exists_wire_dataPdu h (by omega) shareId userId
  exact ⟨pdu, hpdu, wire, hwire, hwireShort⟩

theorem exists_answer_fits (client : Client) (hname : 396 + (Nla.asBytes client.name).length < 2 ^ 15)
    (userId : UInt16) : ∃ pdus, answer client = .ok pdus ∧ ∀ pdu ∈ pdus, Fits userId pdu := by
  obtain ⟨confirm, wire, message, hconfirm, hwire, hshort, _⟩ :=
    exists_wire_confirmActivePdu client hname userId
  obtain ⟨synchronize, hsynchronize, hfits₁⟩ :=
    fits_dataPdu (tsSynchronizePdu (some client.channelId)) (n := 4) rfl rfl (by decide)
      client.shareId userId
  obtain ⟨cooperate, hcooperate, hfits₂⟩ :=
    fits_dataPdu (tsControlPdu (some .ctrlactionCooperate)) (n := 8) rfl rfl (by decide)
      client.shareId userId
  obtain ⟨request, hrequest, hfits₃⟩ :=
    fits_dataPdu (tsControlPdu (some .ctrlactionRequestControl)) (n := 8) rfl rfl (by decide)
      client.shareId userId
  obtain ⟨fontList, hfontList, hfits₄⟩ :=
    fits_dataPdu tsFontListPdu (n := 8) rfl rfl (by decide) client.shareId userId
  refine ⟨[confirm, synchronize, cooperate, request, fontList], ?_, ?_⟩
  . rw [answer, hconfirm, hsynchronize, hcooperate, hrequest, hfontList]
    rfl
  . have hfits : Fits userId confirm := ⟨wire, hwire, hshort⟩
    simp [hfits, hfits₁, hfits₂, hfits₃, hfits₄]

section Read

variable {stream : Bytes}

theorem run_read_of_demandActive (hstate : s.client.state = .demandActivePDU) (h : s.Open userId channel)
    (hfinds : Finds s.client.state stream) :
    ∃ t, (read (.raw stream)).run s = .ok () t ∧ t.client.state = .synchronizePDU ∧ s.Answers t := by
  rw [hstate] at hfinds
  obtain ⟨pdu, hpdu, htype⟩ := hfinds
  obtain ⟨frame, _, hframe⟩ := readPdu_eq_ok hpdu
  obtain ⟨d, rfl⟩ := Frame.exists_demandActive hframe htype
  have haccept : s.Answers { s with client := s.client.accept d } := h.answers_client rfl
  obtain ⟨pdus, hpdus, hfits⟩ := exists_answer_fits (s.client.accept d) h.name s.client.userId
  obtain ⟨mcs, hwrites, hanswers⟩ :=
    run_writePdus_of_fits (s := { s with client := s.client.accept d }) hfits (h.answers haccept)
  have hopen := (h.answers haccept).answers hanswers
  refine ⟨withState .synchronizePDU (wrote pdus mcs { s with client := s.client.accept d }), ?_, rfl,
    (haccept.trans hanswers).trans (hopen.answers_client rfl)⟩
  rw [run_read, hstate]
  dsimp only
  rw [run_expectDemandActivePdu hpdu hpdus, hwrites]
  rfl

theorem finalState_read_of_finds (h : s.Open userId channel) (hfinds : Finds s.client.state stream) :
    ∃ t, finalState ((read (.raw stream)).run s) = t ∧ t.client.state = next s.client.state ∧ s.Answers t := by
  have hwithState (state : ClientState) : s.Answers (withState state s) := h.answers_client rfl
  by_cases hdemand : s.client.state = .demandActivePDU
  . obtain ⟨t, hrun, hstate, hanswers⟩ := run_read_of_demandActive hdemand h hfinds
    rw [hrun, finalState_ok, hdemand]
    exact ⟨t, rfl, hstate, hanswers⟩
  . have hexpect {read : Bytes → RdpResult Bool} (state : ClientState) (hread : read stream = .ok true) :
        finalState ((expectPdu read state (.raw stream)).run s) = withState state s := by
      rw [run_expectPdu_of_true state s hread, finalState_ok]
    refine ⟨withState (next s.client.state) s, ?_, rfl, hwithState _⟩
    rw [run_read]
    cases hstate : s.client.state with
    | demandActivePDU => exact absurd hstate hdemand
    | data =>
      rw [hstate] at hfinds
      exact (finalState_readDataPdu stream s).1 hfinds
    | synchronizePDU =>
      rw [hstate] at hfinds
      exact hexpect _ (readSynchronizePdu_eq_true.mpr hfinds)
    | controlCooperate =>
      rw [hstate] at hfinds
      exact hexpect _ (readControlPdu_eq_true.mpr hfinds)
    | controlGranted =>
      rw [hstate] at hfinds
      exact hexpect _ (readControlPdu_eq_true.mpr hfinds)
    | fontMap =>
      rw [hstate] at hfinds
      exact hexpect _ (readFontMapPdu_eq_true.mpr hfinds)

theorem finalState_read_fastPath (hstate : s.client.state ≠ .data) (secFlag : UInt8) (body : Bytes) :
    finalState ((read (.fastPath secFlag body)).run s) = s := by
  -- Before the end of the connection sequence a fast path packet changes nothing.
  rw [run_read]
  cases h : s.client.state with
  | data => exact absurd h hstate
  | _ => rfl

end Read

end Client

end Global

end Rdp
