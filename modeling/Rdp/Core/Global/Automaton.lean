import Rdp.Core.Global.Step

/-!
This module contains the runs of the client of the global channel, and what its state says about
the PDUs that were read: input events only leave after a complete handshake, and every PDU that
leaves has the share id of the Demand Active that was accepted last.
-/

namespace Rdp.Global

open Prog Cursor

namespace Client

structure Entry where
  before : Session
  call : Call
  failure : Option Error

/--
The runs of a client. The MCS layer is used by others between the calls.
-/
inductive Run (client : Client) : List Entry → Session → Prop where
  | start (mcs : Mcs.Client) : Run client [] ⟨client, mcs, [], []⟩
  | call {history : List Entry} {s t : Session} {call : Call} {failure : Option Error}
    (h : Run client history s) (mcs : Mcs.Client) (hcall : call.Leads { s with mcs } failure t) :
    Run client (history ++ [⟨{ s with mcs }, call, failure⟩]) t

namespace Entry

/--
A Demand Active with this share id was accepted.
-/
def Accepts (entry : Entry) (shareId : UInt32) : Prop :=
  entry.before.client.state = .demandActivePDU ∧
    ∃ stream pdu, entry.call = .read (.raw stream) ∧ readPdu stream = .ok pdu ∧
      pdu.pduType = .pdutypeDemandactivepdu ∧ Carries shareId pdu

/--
A Demand Active was accepted, and all writes of the answer worked.
-/
def Answered (entry : Entry) : Prop := (∃ shareId, entry.Accepts shareId) ∧ entry.failure = none

def Reads (entry : Entry) (P : Bytes → Prop) : Prop :=
  ∃ stream, entry.call = .read (.raw stream) ∧ P stream

end Entry

/--
Separate calls read what is asked for, one after the other.
-/
def InOrder (Ps : List (Bytes → Prop)) (history : List Entry) : Prop :=
  ∃ entries, entries.Sublist history ∧ List.Forall₂ (fun P entry => Entry.Reads entry P) Ps entries

/--
In order, since the last Demand Active that was accepted and completely answered.
-/
def Since (Ps : List (Bytes → Prop)) (history : List Entry) : Prop :=
  ∃ front answered rest, history = front ++ answered :: rest ∧ answered.Answered ∧
    (∀ entry ∈ rest, ¬ entry.Answered) ∧ InOrder Ps rest

/--
The handshake is complete: since the last Demand Active that was accepted and completely answered a
Synchronize, a Control(Cooperate), a Control(GrantedControl) and a Font Map were read in this order
in separate calls, and no Deactivate All was read after that.
-/
def Ready (history : List Entry) : Prop :=
  ∃ front font rest, history = front ++ font :: rest ∧
    Since [(ReadsData · .pdutype2Synchronize), (ReadsControl · .ctrlactionCooperate),
      (ReadsControl · .ctrlactionGrantedControl)] front ∧
    font.Reads (ReadsData · .pdutype2Fontmap) ∧ (∀ entry ∈ font :: rest, ¬ entry.Answered) ∧
    ∀ entry ∈ rest, ¬ entry.Reads Deactivates

/--
The share id of the Demand Active that was accepted last.
-/
def Latest (history : List Entry) (shareId : UInt32) : Prop :=
  ∃ front accepting rest, history = front ++ accepting :: rest ∧ accepting.Accepts shareId ∧
    ∀ entry ∈ rest, ∀ shareId, ¬ entry.Accepts shareId

/--
What a state says about the calls before it.
-/
def Stage (state : ClientState) (history : List Entry) : Prop :=
  match state with
  | .demandActivePDU => True
  | .synchronizePDU => Since [] history
  | .controlCooperate => Since [(ReadsData · .pdutype2Synchronize)] history
  | .controlGranted =>
    Since [(ReadsData · .pdutype2Synchronize), (ReadsControl · .ctrlactionCooperate)] history
  | .fontMap =>
    Since [(ReadsData · .pdutype2Synchronize), (ReadsControl · .ctrlactionCooperate),
      (ReadsControl · .ctrlactionGrantedControl)] history
  | .data => Ready history

/--
What a share id says about the calls before it.
-/
def Shares (shareId : Option UInt32) (history : List Entry) : Prop :=
  match shareId with
  | none => ∀ entry ∈ history, ∀ shareId, ¬ entry.Accepts shareId
  | some shareId => Latest history shareId

section Snoc

variable {Ps : List (Bytes → Prop)} {history : List Entry} {entry : Entry}

theorem InOrder.snoc (h : InOrder Ps history) (entry : Entry) : InOrder Ps (history ++ [entry]) := by
  obtain ⟨entries, hsublist, hreads⟩ := h
  exact ⟨entries, hsublist.trans (List.sublist_append_left _ _), hreads⟩

theorem InOrder.reads {P : Bytes → Prop} (h : InOrder Ps history) (hreads : entry.Reads P) :
    InOrder (Ps ++ [P]) (history ++ [entry]) := by
  obtain ⟨entries, hsublist, hentries⟩ := h
  refine ⟨entries ++ [entry], hsublist.append (List.Sublist.refl _), ?_⟩
  exact List.rel_append hentries (.cons hreads .nil)

theorem Since.snoc (h : Since Ps history) (hnot : ¬ entry.Answered) :
    Since Ps (history ++ [entry]) := by
  obtain ⟨front, answered, rest, rfl, hanswered, hrest, horder⟩ := h
  refine ⟨front, answered, rest ++ [entry], by simp, hanswered, ?_, horder.snoc entry⟩
  intro e he
  rcases List.mem_append.mp he with he | he
  . exact hrest e he
  . rwa [List.mem_singleton.mp he]

theorem Since.reads {P : Bytes → Prop} (h : Since Ps history) (hnot : ¬ entry.Answered)
    (hreads : entry.Reads P) : Since (Ps ++ [P]) (history ++ [entry]) := by
  obtain ⟨front, answered, rest, rfl, hanswered, hrest, horder⟩ := h
  refine ⟨front, answered, rest ++ [entry], by simp, hanswered, ?_, horder.reads hreads⟩
  intro e he
  rcases List.mem_append.mp he with he | he
  . exact hrest e he
  . rwa [List.mem_singleton.mp he]

theorem Ready.snoc (h : Ready history) (hnot : ¬ entry.Answered) (hreads : ¬ entry.Reads Deactivates) :
    Ready (history ++ [entry]) := by
  obtain ⟨front, font, rest, rfl, hsince, hfont, hanswered, hrest⟩ := h
  refine ⟨front, font, rest ++ [entry], by simp, hsince, hfont, ?_, ?_⟩
  . intro e he
    rw [← List.cons_append, List.mem_append, List.mem_singleton] at he
    rcases he with he | rfl
    . exact hanswered e he
    . exact hnot
  . intro e he
    rw [List.mem_append, List.mem_singleton] at he
    rcases he with he | rfl
    . exact hrest e he
    . exact hreads

theorem Stage.snoc {state : ClientState} (h : Stage state history) (hnot : ¬ entry.Answered)
    (hreads : state = .data → ¬ entry.Reads Deactivates) : Stage state (history ++ [entry]) := by
  cases state with
  | demandActivePDU => trivial
  | data => exact Ready.snoc h hnot (hreads rfl)
  | _ => exact Since.snoc h hnot

theorem Stage.advance {state : ClientState} (h : Stage state history)
    (hstate : state ≠ .demandActivePDU) (hnot : ¬ entry.Answered)
    (hreads : entry.Reads (Finds state)) : Stage (next state) (history ++ [entry]) := by
  cases state with
  | demandActivePDU => exact absurd rfl hstate
  | data => trivial
  | fontMap =>
    refine ⟨history, entry, [], rfl, h, hreads, ?_, by simp⟩
    intro e he
    rwa [List.mem_singleton.mp he]
  | _ => exact Since.reads h hnot hreads

theorem Shares.snoc {shareId : Option UInt32} (h : Shares shareId history)
    (hnot : ∀ shareId, ¬ entry.Accepts shareId) : Shares shareId (history ++ [entry]) := by
  cases shareId with
  | none =>
    intro e he
    rw [List.mem_append, List.mem_singleton] at he
    rcases he with he | rfl
    . exact h e he
    . exact hnot
  | some shareId =>
    obtain ⟨front, accepting, rest, rfl, haccepts, hrest⟩ := h
    refine ⟨front, accepting, rest ++ [entry], by simp, haccepts, ?_⟩
    intro e he
    rw [List.mem_append, List.mem_singleton] at he
    rcases he with he | rfl
    . exact hrest e he
    . exact hnot

end Snoc

structure Agrees (history : List Entry) (client : Client) : Prop where
  stage : Stage client.state history
  shares : Shares client.shareId history

section Step

variable {history : List Entry} {entry : Entry} {t : Session}

theorem not_accepts_of_state {s : Session} (h : s.client.state ≠ .demandActivePDU) (call : Call)
    (failure : Option Error) (shareId : UInt32) : ¬ Entry.Accepts ⟨s, call, failure⟩ shareId :=
  fun haccepts => h haccepts.1

theorem not_answered_of_not_accepts (h : ∀ shareId, ¬ entry.Accepts shareId) : ¬ entry.Answered :=
  fun hanswered => hanswered.1.elim h

theorem not_accepts_of_writeInputEvent {event : TSInputEvent}
    (hcall : entry.call = .writeInputEvent event) (shareId : UInt32) : ¬ entry.Accepts shareId := by
  rintro ⟨_, stream, pdu, hread, _⟩
  cases hcall.symm.trans hread

theorem not_accepts_of_unfound {s : Session} {payload : Tpkt.Payload}
    (h : ∀ stream, payload = .raw stream → ¬ Finds s.client.state stream) (failure : Option Error)
    (shareId : UInt32) : ¬ Entry.Accepts ⟨s, .read payload, failure⟩ shareId := by
  rintro ⟨hstate, stream, pdu, hcall, hpdu, htype, _⟩
  cases hcall
  apply h stream rfl
  rw [show s.client.state = _ from hstate]
  exact ⟨pdu, hpdu, htype⟩

theorem Agrees.snoc {client : Client} (h : Agrees history client)
    (hnot : ∀ shareId, ¬ entry.Accepts shareId)
    (hreads : client.state = .data → ¬ entry.Reads Deactivates) :
    Agrees (history ++ [entry]) client :=
  ⟨h.stage.snoc (not_answered_of_not_accepts hnot) hreads, h.shares.snoc hnot⟩

end Step

namespace Handshake

def client : Client := new 1004 1003 800 600 .us "mstsc-rs"

def start : Session := ⟨client, Mcs.Client.WriteAgrees.connected, [], []⟩

/--
A Demand Active without capabilities, and the PDUs of the handshake after it.
-/
def calls : List Call := [
  .read (.raw [22, 0, 17, 0, 234, 3, 234, 3, 1, 0, 0, 0, 4, 0, 0, 0, 0, 0, 0, 0, 0, 0]),
  .read (.raw [22, 0, 23, 0, 234, 3, 234, 3, 1, 0, 0, 2, 22, 0, 31, 0, 0, 0, 1, 0, 0, 0]),
  .read (.raw [26, 0, 23, 0, 234, 3, 234, 3, 1, 0, 0, 2, 26, 0, 20, 0, 0, 0, 4, 0, 0, 0, 0, 0, 0, 0]),
  .read (.raw [26, 0, 23, 0, 234, 3, 234, 3, 1, 0, 0, 2, 26, 0, 20, 0, 0, 0, 2, 0, 236, 3, 234, 3,
    0, 0]),
  .read (.raw [26, 0, 23, 0, 234, 3, 234, 3, 1, 0, 0, 2, 26, 0, 40, 0, 0, 0, 0, 0, 0, 0, 3, 0, 4, 0])
]

end Handshake

end Client

end Rdp.Global
