import Rdp.Core.Global.Automaton

/-!
This module contains what the client keeps of the Demand Active PDUs of a run: the share id of the
last one, and the capabilities of all of them.
-/

namespace Rdp.Global

open Prog Cursor

namespace Client

structure Demand where
  shareId : UInt32
  capabilities : List Capability

def Demand.ofPdu (pdu : PDU) : RdpResult Demand := do
  let capabilitySets ← (do castTrame (← field pdu.fields "capabilitySets"))
  let shareId ← (do castU32 (← field pdu.fields "shareId"))
  return ⟨shareId, capabilitySets.filterMap fun set => (parseCapability set).toOption.join⟩

def readDemand (stream : Bytes) : Option Demand :=
  match readPdu stream with
  | .error _ => none
  | .ok pdu =>
    if pdu.pduType = .pdutypeDemandactivepdu then
      (Demand.ofPdu pdu).toOption
    else
      none

def Entry.demand (entry : Entry) : Option Demand :=
  match entry.before.client.state, entry.call with
  | .demandActivePDU, .read (.raw stream) => readDemand stream
  | _, _ => none

/--
The Demand Active PDUs that were accepted, the latest one at the end.
-/
def demands (history : List Entry) : List Demand := history.filterMap Entry.demand

/--
The share id and the capabilities of the client are those of the Demand Active that was accepted
last.
-/
def InStep (demands : List Demand) (client : Client) : Prop :=
  client.shareId = demands.getLast?.map (·.shareId) ∧
    client.serverCapabilities = (demands.getLast?.map (·.capabilities)).getD []

/--
What the client has: the share id is overwritten by every Demand Active, and the capabilities are
added to those of the Demand Actives before it.
-/
structure Keeps (demands : List Demand) (client : Client) : Prop where
  shareId : client.shareId = demands.getLast?.map (·.shareId)
  serverCapabilities : client.serverCapabilities = demands.flatMap (·.capabilities)

section Demand

variable {stream : Bytes} {d : DemandActive} {entry : Entry} {demand : Demand}

theorem Demand.ofPdu_node (d : DemandActive) :
    ofPdu ⟨.pdutypeDemandactivepdu, d.node⟩ =
      .ok ⟨d.shareId, d.capabilitySets.filterMap parsedSet⟩ := by
  have hparsed (set : Capability.RawSet) :
      (parseCapability (.component (Message.visitFields set.node))).toOption.join = parsedSet set := by
    rw [parseCapability_node]
    rfl
  simp only [ofPdu, PDU.fields, d.castTrame_capabilitySets, d.castU32_shareId, Except.ok_bind,
    List.filterMap_map, Function.comp_def, hparsed]
  rfl

theorem readDemand_of_readPdu (h : readPdu stream = .ok ⟨.pdutypeDemandactivepdu, d.node⟩) :
    readDemand stream = some ⟨d.shareId, d.capabilitySets.filterMap parsedSet⟩ := by
  simp only [readDemand, h, Demand.ofPdu_node]
  rfl

theorem Demand.carries_of_ofPdu {pdu : PDU} (h : ofPdu pdu = .ok demand) :
    Carries demand.shareId pdu := by
  obtain ⟨sets, _, h⟩ := Except.bind_eq_ok h
  obtain ⟨shareId, hshare, h⟩ := Except.bind_eq_ok h
  obtain ⟨value, hfield, hcast⟩ := Except.bind_eq_ok hshare
  cases h
  rwa [castU32_eq_ok.mp hcast] at hfield

theorem readDemand_eq_some (h : readDemand stream = some demand) :
    ∃ pdu, readPdu stream = .ok pdu ∧ pdu.pduType = .pdutypeDemandactivepdu ∧
      Carries demand.shareId pdu := by
  unfold readDemand at h
  split at h
  next => cases h
  next pdu hpdu =>
    split at h
    next htype =>
      cases hdemand : Demand.ofPdu pdu with
      | error e =>
        rw [hdemand] at h
        cases h
      | ok other =>
        rw [hdemand] at h
        cases h
        exact ⟨pdu, hpdu, htype, Demand.carries_of_ofPdu hdemand⟩
    next => cases h

theorem Entry.accepts_of_demand (h : entry.demand = some demand) : entry.Accepts demand.shareId := by
  unfold Entry.demand at h
  split at h
  next stream hstate hcall =>
    obtain ⟨pdu, hpdu, htype, hcarries⟩ := readDemand_eq_some h
    exact ⟨hstate, stream, pdu, hcall, hpdu, htype, hcarries⟩
  next => cases h

theorem Entry.demand_eq_none (h : ∀ shareId, ¬ entry.Accepts shareId) : entry.demand = none := by
  cases hdemand : entry.demand with
  | none => rfl
  | some demand => exact absurd (Entry.accepts_of_demand hdemand) (h _)

theorem Entry.demand_of_readPdu {s : Session} (hstate : s.client.state = .demandActivePDU)
    (h : readPdu stream = .ok ⟨.pdutypeDemandactivepdu, d.node⟩) (failure : Option Error) :
    Entry.demand ⟨s, .read (.raw stream), failure⟩ =
      some ⟨d.shareId, d.capabilitySets.filterMap parsedSet⟩ := by
  simp only [Entry.demand, hstate]
  exact readDemand_of_readPdu h

end Demand

section Keeps

variable {history : List Entry} {entry : Entry} {client : Client} {t : Session}

theorem demands_snoc_of_none (h : entry.demand = none) (history : List Entry) :
    demands (history ++ [entry]) = demands history := by
  rw [demands, List.filterMap_append, List.filterMap_cons_none h, List.filterMap_nil,
    List.append_nil]
  rfl

theorem demands_snoc_of_some {demand : Demand} (h : entry.demand = some demand)
    (history : List Entry) : demands (history ++ [entry]) = demands history ++ [demand] := by
  rw [demands, List.filterMap_append, List.filterMap_cons_some h, List.filterMap_nil]
  rfl

theorem Keeps.of_none {after : Client} (h : Keeps (demands history) client)
    (hnot : ∀ shareId, ¬ entry.Accepts shareId) (hshare : after.shareId = client.shareId)
    (hcapabilities : after.serverCapabilities = client.serverCapabilities) :
    Keeps (demands (history ++ [entry])) after := by
  rw [demands_snoc_of_none (Entry.demand_eq_none hnot)]
  exact ⟨hshare.trans h.shareId, hcapabilities.trans h.serverCapabilities⟩

theorem Keeps.accept {d : DemandActive} {after : Client} (h : Keeps (demands history) client)
    (hdemand : entry.demand = some ⟨d.shareId, d.capabilitySets.filterMap parsedSet⟩)
    (hshare : after.shareId = (client.accept d).shareId)
    (hcapabilities : after.serverCapabilities = (client.accept d).serverCapabilities) :
    Keeps (demands (history ++ [entry])) after := by
  rw [demands_snoc_of_some hdemand]
  constructor
  . rw [hshare, List.getLast?_concat]
    rfl
  . rw [hcapabilities, List.flatMap_append, ← h.serverCapabilities, List.flatMap_singleton]
    rfl

theorem keeps_step (h : Keeps (demands history) entry.before.client)
    (heffect : Effect entry.before entry.call entry.failure t) :
    Keeps (demands (history ++ [entry])) t.client := by
  obtain ⟨s, call, failure⟩ := entry
  cases heffect with
  | refused event hstate => exact h.of_none (not_accepts_of_writeInputEvent rfl) rfl rfl
  | sent event _ pdu mcs hstate hpdu =>
    exact h.of_none (not_accepts_of_writeInputEvent rfl) rfl rfl
  | unfound payload _ _ hunfound hkept =>
    rw [hkept.1]
    exact h.of_none (not_accepts_of_unfound hunfound failure) rfl rfl
  | advanced stream _ hstate hfinds =>
    exact h.of_none (not_accepts_of_state hstate (.read (.raw stream)) failure) rfl rfl
  | answered stream d pdus mcs hstate hpdu hpdus =>
    exact h.accept (Entry.demand_of_readPdu hstate hpdu none) rfl rfl
  | interrupted stream d front rest last mcs e hstate hpdu hpdus =>
    exact h.accept (Entry.demand_of_readPdu hstate hpdu (some e)) rfl rfl

theorem keeps_new (userId channelId width height : UInt16) (layout : Gcc.KeyboardLayout)
    (name : String) : Keeps (demands []) (new userId channelId width height layout name) := ⟨rfl, rfl⟩

theorem keeps_run {s : Session} (hclient : Keeps (demands []) client) (h : Run client history s) :
    Keeps (demands history) s.client := by
  induction h with
  | start mcs => exact hclient
  | @call history s t call failure _ mcs hcall ih =>
    have hentry : Keeps (demands history) (Entry.mk { s with mcs } call failure).before.client := ih
    exact keeps_step hentry (effect_of_leads hcall)

end Keeps

theorem flatMap_capabilities_eq_iff (demands : List Demand) :
    demands.flatMap (·.capabilities) = (demands.getLast?.map (·.capabilities)).getD [] ↔
      ∀ demand ∈ demands.dropLast, demand.capabilities = [] := by
  -- Only the PDUs before the last one make a difference.
  cases demands using List.reverseRecOn with
  | nil => simp
  | append_singleton front last =>
    rw [List.flatMap_append, List.flatMap_singleton, List.getLast?_concat, List.dropLast_concat,
      Option.map_some, Option.getD_some, List.append_left_eq_self, List.flatMap_eq_nil_iff]

/--
The capabilities stay in step with the share id exactly as long as no Demand Active that was
accepted before the latest one has a capability.
-/
theorem inStep_iff (userId channelId width height : UInt16) (layout : Gcc.KeyboardLayout)
    (name : String) {history : List Entry} {s : Session}
    (h : Run (new userId channelId width height layout name) history s) :
    InStep (demands history) s.client ↔
      ∀ demand ∈ (demands history).dropLast, demand.capabilities = [] := by
  have hkeeps := keeps_run (keeps_new userId channelId width height layout name) h
  rw [InStep, hkeeps.serverCapabilities, flatMap_capabilities_eq_iff]
  exact and_iff_right hkeeps.shareId

namespace Handshake

def record (calls : List Call) (s : Session) : Option (List Entry × Session) :=
  match calls with
  | [] => some ([], s)
  | call :: calls =>
    match call.program.run s with
    | .ok _ t => (record calls t).map fun (entries, u) => (⟨s, call, none⟩ :: entries, u)
    | .error _ _ => none

theorem run_of_record {client : Client} {calls : List Call} {history entries : List Entry}
    {s t : Session} (h : Run client history s) (hrecord : record calls s = some (entries, t)) :
    Run client (history ++ entries) t := by
  induction calls generalizing history entries s with
  | nil =>
    cases hrecord
    rwa [List.append_nil]
  | cons call calls ih =>
    rw [record] at hrecord
    split at hrecord
    next u hrun =>
      obtain ⟨⟨rest, last⟩, hrest, heq⟩ := Option.map_eq_some_iff.mp hrecord
      cases heq
      have hcall : call.Leads { s with mcs := s.mcs } none u := hrun
      have hall := ih (h.call s.mcs hcall) hrest
      rwa [List.append_assoc, List.singleton_append] at hall
    next => cases hrecord

def brush (shareId : UInt8) : Call :=
  .read (.raw [30, 0, 17, 0, 234, 3, shareId, 0, 0, 0, 0, 0, 12, 0, 1, 0, 0, 0, 15, 0, 8, 0, 1, 0, 0, 0,
    0, 0, 0, 0])

def reactivation : List Call :=
  brush 1 :: calls.tail ++ [.read (.raw [12, 0, 22, 0, 234, 3, 1, 0, 0, 0, 0, 0]), brush 2]

theorem exists_recorded (calls : List Call) (p : List Entry → Session → Bool)
    (h : ((record calls start).any fun (entries, s) => p entries s) = true) :
    ∃ history s, Run client history s ∧ p history s = true := by
  obtain ⟨⟨entries, s⟩, hrecord, hp⟩ := (Option.any_eq_true _ _).mp h
  have hstart : Run client [] start := .start Mcs.Client.WriteAgrees.connected
  exact ⟨entries, s, run_of_record hstart hrecord, hp⟩

end Handshake

/--
A reactivation with a brush, behind a handshake whose Demand Active had no capabilities.
-/
theorem inStep_iff_handshake : ∃ history s, Run Handshake.client history s ∧
    (demands history).length = 2 ∧ s.client.serverCapabilities.length = 1 ∧
    InStep (demands history) s.client := by
  obtain ⟨history, s, hrun, hp⟩ := Handshake.exists_recorded (Handshake.calls ++ Handshake.reactivation.drop 5)
    (fun history s => decide ((demands history).length = 2 ∧ s.client.serverCapabilities.length = 1 ∧
      ∀ demand ∈ (demands history).dropLast, demand.capabilities.length = 0)) (by decide +kernel)
  obtain ⟨hlength, hcapabilities, hfront⟩ := of_decide_eq_true hp
  refine ⟨history, s, hrun, hlength, hcapabilities, (inStep_iff 1004 1003 800 600 .us "mstsc-rs" hrun).mpr ?_⟩
  intro demand hdemand
  exact List.eq_nil_of_length_eq_zero (hfront demand hdemand)

/--
The brush of both Demand Actives is kept.
-/
theorem not_inStep : ∃ history s, Run Handshake.client history s ∧
    ¬ InStep (demands history) s.client := by
  obtain ⟨history, s, hrun, hp⟩ := Handshake.exists_recorded Handshake.reactivation
    (fun history s => decide (s.client.serverCapabilities.length ≠
      (((demands history).getLast?.map (·.capabilities)).getD []).length)) (by decide +kernel)
  refine ⟨history, s, hrun, ?_⟩
  intro h
  exact of_decide_eq_true hp (congrArg List.length h.2)

end Client

end Rdp.Global
