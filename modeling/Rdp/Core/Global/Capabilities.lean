import Rdp.Core.Global.Encode

/-!
This module contains what the client keeps of the capability sets of a server: which sets it can
parse, and that the others do not get in their way.
-/

namespace Rdp

open Prog Cursor

namespace Capability

/--
The codes of the types whose sets are parsed, with their templates.
-/
inductive Supported : UInt16 → Capability → Prop where
  | general : Supported 0x0001 (tsGeneralCapabilitySet none)
  | bitmap : Supported 0x0002 (tsBitmapCapabilitySet none none none)
  | order : Supported 0x0003 (tsOrderCapabilitySet none)
  | bitmapcache : Supported 0x0004 tsBitmapCacheCapabilitySet
  | pointer : Supported 0x0008 tsPointerCapabilitySet
  | sound : Supported 0x000C tsSoundCapabilitySet
  | input : Supported 0x000D (tsInputCapabilitySet none none)
  | brush : Supported 0x000F tsBrushCapabilitySet
  | glyphcache : Supported 0x0010 tsGlyphCapabilitySet
  | offscreencache : Supported 0x0011 tsOffscreenCapabilitySet
  | virtualchannel : Supported 0x0014 tsVirtualchannelCapabilitySet
  | multifragmentupdate : Supported 0x001A tsMultifragmentUpdateCapabilityTs

theorem CapabilitySetType.eq_toU16_of_tryFrom {code : UInt16} {capType : CapabilitySetType}
    (h : tryFrom code = .ok capType) : code = capType.toU16 := by
  unfold tryFrom at h
  split at h
  case h_29 => cases h
  all_goals
    next hcode =>
      cases h
      exact UInt16.toNat_inj.mp hcode

theorem supported_iff {code : UInt16} {capability : Capability} :
    Supported code capability ↔
      ∃ capType, CapabilitySetType.tryFrom code = .ok capType ∧ template capType = .ok capability := by
  constructor
  . intro h
    cases h <;> exact ⟨_, rfl, rfl⟩
  . rintro ⟨capType, htype, htemplate⟩
    rw [CapabilitySetType.eq_toU16_of_tryFrom htype]
    unfold template at htemplate
    split at htemplate
    case h_13 => cases htemplate
    all_goals
      cases htemplate
      constructor

/--
What is made of a set: a capability with the fields that its template reads of the body, or nothing.
-/
inductive Outcome (set : RawSet) : Option Capability → Prop where
  | accepted {capability : Capability} {message : Component} {rest : Bytes}
    (htype : Supported set.capabilitySetType capability)
    (hbody : (Message.component capability.message).reader.run set.capabilitySet =
      .ok (.component message) rest) : Outcome set (some { capability with message })
  | skipped (h : ∀ capability node rest, Supported set.capabilitySetType capability →
      (Message.component capability.message).reader.run set.capabilitySet ≠ .ok node rest) :
    Outcome set none

theorem run_component_eq_ok {template : Component} {stream rest : Bytes} {node : Message}
    (h : (Message.component template).reader.run stream = .ok node rest) :
    ∃ message, node = .component message := by
  rw [Message.reader_component] at h
  obtain ⟨message, _, _, hpure⟩ := run_bind_eq_ok h
  cases hpure
  exact ⟨message, rfl⟩

theorem readComponent_eq_ok {template message : Component} {stream : Bytes} :
    readComponent template stream = .ok message ↔
      ∃ rest, (Message.component template).reader.run stream = .ok (.component message) rest := by
  constructor
  . intro h
    unfold readComponent at h
    split at h
    next rest hrun =>
      cases h
      exact ⟨rest, hrun⟩
    next => cases h
    next => cases h
  . rintro ⟨rest, hrun⟩
    rw [readComponent, hrun]

theorem fromCapabilitySet_eq_ok {set : RawSet} {parsed : Capability} :
    fromCapabilitySet (Message.visitFields set.node) = .ok parsed ↔
      ∃ capability message rest, Supported set.capabilitySetType capability ∧
        (Message.component capability.message).reader.run set.capabilitySet =
          .ok (.component message) rest ∧ parsed = { capability with message } := by
  have hnode : fromCapabilitySet (Message.visitFields set.node) = (do
      let capability ← template (← CapabilitySetType.tryFrom set.capabilitySetType)
      let message ← readComponent capability.message set.capabilitySet
      return { capability with message }) := rfl
  rw [hnode]
  constructor
  . intro h
    obtain ⟨capType, htype, h⟩ := Except.bind_eq_ok h
    obtain ⟨capability, htemplate, h⟩ := Except.bind_eq_ok h
    obtain ⟨message, hread, h⟩ := Except.bind_eq_ok h
    cases h
    obtain ⟨rest, hrun⟩ := readComponent_eq_ok.mp hread
    exact ⟨capability, message, rest, supported_iff.mpr ⟨capType, htype, htemplate⟩, hrun, rfl⟩
  . rintro ⟨capability, message, rest, hsupported, hrun, rfl⟩
    obtain ⟨capType, htype, htemplate⟩ := supported_iff.mp hsupported
    rw [htype, Except.ok_bind, htemplate, Except.ok_bind, readComponent_eq_ok.mpr ⟨rest, hrun⟩]
    rfl

theorem parsedSet_eq_some {set : RawSet} {parsed : Capability} :
    Global.Client.parsedSet set = some parsed ↔
      fromCapabilitySet (Message.visitFields set.node) = .ok parsed := by
  unfold Global.Client.parsedSet
  cases fromCapabilitySet (Message.visitFields set.node) <;> simp

theorem outcome_iff {set : RawSet} {o : Option Capability} :
    Outcome set o ↔ Global.Client.parsedSet set = o := by
  constructor
  . rintro (⟨hsupported, hrun⟩ | ⟨hskipped⟩)
    . exact parsedSet_eq_some.mpr (fromCapabilitySet_eq_ok.mpr ⟨_, _, _, hsupported, hrun, rfl⟩)
    . rw [Option.eq_none_iff_forall_ne_some]
      intro parsed h
      obtain ⟨capability, message, rest, hsupported, hrun, _⟩ :=
        fromCapabilitySet_eq_ok.mp (parsedSet_eq_some.mp h)
      exact hskipped capability _ rest hsupported hrun
  . rintro rfl
    cases h : Global.Client.parsedSet set with
    | some parsed =>
      obtain ⟨capability, message, rest, hsupported, hrun, rfl⟩ :=
        fromCapabilitySet_eq_ok.mp (parsedSet_eq_some.mp h)
      exact .accepted hsupported hrun
    | none =>
      refine .skipped ?_
      intro capability node rest hsupported hrun
      obtain ⟨message, rfl⟩ := run_component_eq_ok hrun
      have hsome := parsedSet_eq_some.mpr
        (fromCapabilitySet_eq_ok.mpr ⟨_, message, rest, hsupported, hrun, rfl⟩)
      cases h.symm.trans hsome

theorem forall₂_outcome_iff {sets : List RawSet} {outcomes : List (Option Capability)} :
    List.Forall₂ Outcome sets outcomes ↔ outcomes = sets.map Global.Client.parsedSet := by
  induction sets generalizing outcomes with
  | nil => rw [List.forall₂_nil_left_iff, List.map_nil]
  | cons set sets ih =>
    rw [List.forall₂_cons_left_iff, List.map_cons]
    constructor
    . rintro ⟨o, os, ho, hos, rfl⟩
      rw [outcome_iff.mp ho, ih.mp hos]
    . rintro rfl
      exact ⟨_, _, outcome_iff.mpr rfl, ih.mpr rfl, rfl⟩

end Capability

namespace Global.Client

/--
Of a Demand Active whose sets have their lengths the client keeps the share id and, in the order of
the list, the sets that their templates can read.
-/
theorem demandActive_keeps_parsed {d : DemandActive} (hwhole : d.Whole []) {totalLength : UInt16}
    {tail : Bytes} (hlength : (d.encode [] ++ tail).length + 6 = totalLength.toNat) (source : UInt16)
    (rest : Bytes) (s : Session) :
    (∃ outcomes, List.Forall₂ Capability.Outcome d.capabilitySets outcomes) ∧
    ∀ outcomes, List.Forall₂ Capability.Outcome d.capabilitySets outcomes →
      (readDemandActivePdu (Frame.encode totalLength 0x11 source (d.encode [] ++ tail) ++ rest)).run s =
        .ok true { s with client := { s.client with
          shareId := some d.shareId
          serverCapabilities := s.client.serverCapabilities ++ outcomes.filterMap id } } := by
  refine ⟨⟨_, Capability.forall₂_outcome_iff.mpr rfl⟩, ?_⟩
  intro outcomes houtcomes
  rw [Capability.forall₂_outcome_iff.mp houtcomes, List.filterMap_map]
  exact run_readDemandActivePdu s (readPdu_encode hwhole hlength source rest)

namespace KeepsParsed

/--
A set of a type that is not known, one that is too short, and a brush.
-/
def sets : List Capability.RawSet := [⟨0xFFFF, 4, []⟩, ⟨0x0001, 5, [0]⟩, ⟨0x000F, 8, [1, 0, 0, 0]⟩]

def pdu : DemandActive := ⟨1, 0, 21, [], 3, 0, sets, 0⟩

def session : Session :=
  ⟨new 1004 1003 800 600 .us "mstsc-rs", .new ⟨.raw ⟨[], [], []⟩, []⟩ .protocolSSL fun _ => 0, [], []⟩

theorem whole_pdu : pdu.Whole [] where
  source := rfl
  combined := rfl
  sets := by simp [pdu, sets, Capability.RawSet.Whole]

end KeepsParsed

open KeepsParsed in
theorem demandActive_keeps_parsed_brush :
    (readDemandActivePdu (Frame.encode 39 0x11 0x03EA (pdu.encode [] ++ []) ++ [])).run session =
      .ok true { session with client := { session.client with
        shareId := some 1
        serverCapabilities := [⟨.capstypeBrush, [("brushSupportLevel", .leaf (.u32 .le 1))]⟩] } } := by
  apply (demandActive_keeps_parsed whole_pdu rfl 0x03EA [] session).2
    [none, none, some ⟨.capstypeBrush, [("brushSupportLevel", .leaf (.u32 .le 1))]⟩]
  refine .cons (.skipped ?_) (.cons (.skipped ?_) (.cons ?_ .nil))
  . intro capability node rest hsupported
    cases hsupported
  . intro capability node rest hsupported hrun
    cases hsupported
    cases hrun
  . exact @Capability.Outcome.accepted _ Capability.tsBrushCapabilitySet _ [] .brush rfl

end Global.Client

end Rdp
