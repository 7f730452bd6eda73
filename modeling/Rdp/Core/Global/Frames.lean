import Rdp.Core.Capability.Sets
import Rdp.Core.Global.Impl

/-!
This module contains the PDUs of the global channel as they are on the wire: the header every PDU
starts with, and the messages behind it. Every template is read by a plain reader of its fields.
-/

namespace Rdp.Global

open Prog Cursor
open Capability (RawSet readComponent readComponent_eq)

structure Frame where
  totalLength : UInt16
  pduType : UInt16
  pduSource : Option UInt16
  pduMessage : Bytes

namespace Frame

def node (frame : Frame) : Component := [
  ("totalLength", .dynOption (.leaf (.u16 .le frame.totalLength)) (sizeWithout 6 "pduMessage")),
  ("pduType", .leaf (.u16 .le frame.pduType)),
  ("PDUSource", .option (frame.pduSource.map fun v => .leaf (.u16 .le v))),
  ("pduMessage", .leaf (.bytes frame.pduMessage))
]

def reader : Reader Frame := do
  let totalLength ← readU16 .le
  let size ← Prog.lift (checkedSub totalLength.toNat 6)
  let pduType ← readU16 .le
  let pduSource ← attempt (readU16 .le)
  let pduMessage ← readExact size
  return { totalLength, pduType, pduSource, pduMessage }

theorem shareControlHeader_none :
    shareControlHeader none none none = .ok (node ⟨6, 0x11, some 0, []⟩) := rfl

theorem readerFields_node :
    Message.readerFields [] [] (node ⟨6, 0x11, some 0, []⟩) = node <$> reader := by
  simp [node, reader, Leaf.visit, sizeWithout, Message.visit, limited_readToEnd, List.lookup_cons]

end Frame

structure DemandActive where
  shareId : UInt32
  lengthSourceDescriptor : UInt16
  lengthCombinedCapabilities : UInt16
  sourceDescriptor : Bytes
  numberCapabilities : UInt16
  pad2Octets : UInt16
  capabilitySets : List RawSet
  sessionId : UInt32

namespace DemandActive

def node (pdu : DemandActive) : Component := [
  ("shareId", .leaf (.u32 .le pdu.shareId)),
  ("lengthSourceDescriptor",
    .dynOption (.leaf (.u16 .le pdu.lengthSourceDescriptor)) (sizeOf "sourceDescriptor")),
  ("lengthCombinedCapabilities",
    .dynOption (.leaf (.u16 .le pdu.lengthCombinedCapabilities)) (sizeWithout 4 "capabilitySets")),
  ("sourceDescriptor", .leaf (.bytes pdu.sourceDescriptor)),
  ("numberCapabilities", .leaf (.u16 .le pdu.numberCapabilities)),
  ("pad2Octets", .leaf (.u16 .le pdu.pad2Octets)),
  ("capabilitySets", .array (pdu.capabilitySets.map fun set => .component set.node)
    (some (.component (RawSet.node ⟨1, 4, []⟩)))),
  ("sessionId", .leaf (.u32 .le pdu.sessionId))
]

def reader : Reader DemandActive := do
  let shareId ← readU32 .le
  let lengthSourceDescriptor ← readU16 .le
  let lengthCombinedCapabilities ← readU16 .le
  let size ← Prog.lift (checkedSub lengthCombinedCapabilities.toNat 4)
  let sourceDescriptor ← readExact lengthSourceDescriptor.toNat
  let numberCapabilities ← readU16 .le
  let pad2Octets ← readU16 .le
  let capabilitySets ← limited size (elements RawSet.reader)
  let sessionId ← readU32 .le
  return ⟨shareId, lengthSourceDescriptor, lengthCombinedCapabilities, sourceDescriptor,
    numberCapabilities, pad2Octets, capabilitySets, sessionId⟩

theorem readerFields_node :
    Message.readerFields [] [] (node ⟨0, 0, 0, [], 0, 0, [], 0⟩) = node <$> reader := by
  simp [node, reader, Leaf.visit, sizeOf, sizeWithout, Message.visit, limited_readToEnd, List.lookup_cons,
    RawSet.readerFields_node]

theorem castTrame_capabilitySets (pdu : DemandActive) :
    (do castTrame (← field (Message.visitFields pdu.node) "capabilitySets")) =
      .ok (pdu.capabilitySets.map fun set => .component (Message.visitFields set.node)) := by
  change Except.ok (Message.visitTrame _) = _
  rw [Message.visitTrame_eq_map, List.map_map]
  rfl

theorem castU32_shareId (pdu : DemandActive) :
    (do castU32 (← field (Message.visitFields pdu.node) "shareId")) = .ok pdu.shareId := rfl

end DemandActive

structure ConfirmActive where
  shareId : UInt32
  originatorId : UInt16
  lengthSourceDescriptor : UInt16
  lengthCombinedCapabilities : UInt16
  sourceDescriptor : Bytes
  numberCapabilities : UInt16
  pad2Octets : UInt16
  capabilitySets : List RawSet

namespace ConfirmActive

def node (pdu : ConfirmActive) : Component := [
  ("shareId", .leaf (.u32 .le pdu.shareId)),
  ("originatorId", .check (.u16 .le pdu.originatorId)),
  ("lengthSourceDescriptor",
    .dynOption (.leaf (.u16 .le pdu.lengthSourceDescriptor)) (sizeOf "sourceDescriptor")),
  ("lengthCombinedCapabilities",
    .dynOption (.leaf (.u16 .le pdu.lengthCombinedCapabilities)) (sizeWithout 4 "capabilitySets")),
  ("sourceDescriptor", .leaf (.bytes pdu.sourceDescriptor)),
  ("numberCapabilities", .leaf (.u16 .le pdu.numberCapabilities)),
  ("pad2Octets", .leaf (.u16 .le pdu.pad2Octets)),
  ("capabilitySets", .array (pdu.capabilitySets.map fun set => .component set.node)
    (some (.component (RawSet.node ⟨1, 4, []⟩))))
]

def reader : Reader ConfirmActive := do
  let shareId ← readU32 .le
  let originatorId ← readU16 .le
  expect (0x03EA = originatorId)
  let lengthSourceDescriptor ← readU16 .le
  let lengthCombinedCapabilities ← readU16 .le
  let size ← Prog.lift (checkedSub lengthCombinedCapabilities.toNat 4)
  let sourceDescriptor ← readExact lengthSourceDescriptor.toNat
  let numberCapabilities ← readU16 .le
  let pad2Octets ← readU16 .le
  let capabilitySets ← limited size (elements RawSet.reader)
  return ⟨shareId, originatorId, lengthSourceDescriptor, lengthCombinedCapabilities, sourceDescriptor,
    numberCapabilities, pad2Octets, capabilitySets⟩

theorem readerFields_node :
    Message.readerFields [] [] (node ⟨0, 0x03EA, 0, 4, [], 0, 0, []⟩) = node <$> reader := by
  simp [node, reader, Leaf.visit, sizeOf, sizeWithout, Message.visit, limited_readToEnd, List.lookup_cons,
    RawSet.readerFields_node]

end ConfirmActive

structure ShareData where
  shareId : UInt32
  pad1 : UInt8
  streamId : UInt8
  uncompressedLength : UInt16
  pduType2 : UInt8
  compressedType : UInt8
  compressedLength : UInt16
  payload : Bytes

namespace ShareData

def node (data : ShareData) : Component := [
  ("shareId", .leaf (.u32 .le data.shareId)),
  ("pad1", .leaf (.u8 data.pad1)),
  ("streamId", .leaf (.u8 data.streamId)),
  ("uncompressedLength",
    .dynOption (.leaf (.u16 .le data.uncompressedLength)) (sizeWithout 18 "payload")),
  ("pduType2", .leaf (.u8 data.pduType2)),
  ("compressedType", .leaf (.u8 data.compressedType)),
  ("compressedLength", .leaf (.u16 .le data.compressedLength)),
  ("payload", .leaf (.bytes data.payload))
]

def reader : Reader ShareData := do
  let shareId ← readU32 .le
  let pad1 ← readU8
  let streamId ← readU8
  let uncompressedLength ← readU16 .le
  let size ← Prog.lift (checkedSub uncompressedLength.toNat 18)
  let pduType2 ← readU8
  let compressedType ← readU8
  let compressedLength ← readU16 .le
  let payload ← readExact size
  return ⟨shareId, pad1, streamId, uncompressedLength, pduType2, compressedType, compressedLength,
    payload⟩

theorem readerFields_node :
    Message.readerFields [] [] (node ⟨0, 0, 1, 18, 0x32, 0, 0, []⟩) = node <$> reader := by
  simp [node, reader, Leaf.visit, sizeWithout, Message.visit, limited_readToEnd, List.lookup_cons]

end ShareData

namespace PDU

def messageReader (pduType : PDUType) : Reader Component :=
  match pduType with
  | .pdutypeDemandactivepdu => DemandActive.node <$> DemandActive.reader
  | .pdutypeDatapdu => ShareData.node <$> ShareData.reader
  | .pdutypeConfirmactivepdu => ConfirmActive.node <$> ConfirmActive.reader
  | .pdutypeDeactivateallpdu => Message.readerFields [] [] tsDeactivateAllPdu.message
  | .pdutypeServerRedirPkt => Prog.fail (.new .notImplemented "GLOBAL: PDU not implemented")

theorem template_bind (pduType : PDUType) (stream : Bytes) :
    (do
      let pdu ← template pduType
      let message ← readComponent pdu.message stream
      return { pdu with message } : RdpResult PDU) =
      PDU.mk pduType <$> parse (messageReader pduType) stream := by
  cases pduType with
  | pdutypeDemandactivepdu =>
    rw [messageReader, ← DemandActive.readerFields_node, ← readComponent_eq]
    rfl
  | pdutypeConfirmactivepdu =>
    rw [messageReader, ← ConfirmActive.readerFields_node, ← readComponent_eq]
    rfl
  | pdutypeDeactivateallpdu =>
    rw [messageReader, ← readComponent_eq]
    rfl
  | pdutypeDatapdu =>
    rw [messageReader, ← ShareData.readerFields_node, ← readComponent_eq]
    rfl
  | pdutypeServerRedirPkt => rfl

end PDU

namespace DataPDU

theorem pduType_of_template {pduType : PDUType2} {pdu : DataPDU} (h : template pduType = .ok pdu) :
    pdu.pduType = pduType := by
  unfold template at h
  split at h
  case h_6 => cases h
  all_goals
    cases h
    rfl

theorem total_template {pduType : PDUType2} {pdu : DataPDU} (h : template pduType = .ok pdu) :
    ∀ f ∈ pdu.message, Message.Total f.2 := by
  unfold template at h
  split at h
  case h_6 => cases h
  all_goals
    cases h
    simp [tsSynchronizePdu, tsControlPdu, tsFontListPdu, tsFontMapPdu, tsSetErrorInfoPdu]

theorem fromPdu_node (pduType : PDUType) (data : ShareData) :
    fromPdu ⟨pduType, data.node⟩ = (do
      let result ← template (← PDUType2.tryFrom data.pduType2)
      let message ← readComponent result.message data.payload
      return { result with message }) := rfl

theorem fromPdu_eq_ok {pduType : PDUType} {data : ShareData} {pdu : DataPDU}
    (h : fromPdu ⟨pduType, data.node⟩ = .ok pdu) :
    ∃ result, template pdu.pduType = .ok result ∧
      readComponent result.message data.payload = .ok pdu.message := by
  rw [fromPdu_node] at h
  obtain ⟨pduType2, _, h⟩ := Except.bind_eq_ok h
  obtain ⟨result, htemplate, h⟩ := Except.bind_eq_ok h
  obtain ⟨message, hmessage, h⟩ := Except.bind_eq_ok h
  cases h
  refine ⟨result, ?_, hmessage⟩
  rw [pduType_of_template htemplate]
  exact htemplate

theorem not_aborts_fromPdu (pduType : PDUType) (data : ShareData) :
    ¬ (fromPdu ⟨pduType, data.node⟩).Aborts := by
  rw [fromPdu_node, Except.aborts_bind]
  rintro (h | ⟨pduType2, _, h⟩)
  . unfold PDUType2.tryFrom at h
    split at h <;> simp at h
  . rcases Except.aborts_bind.mp h with h | ⟨result, htemplate, h⟩
    . unfold template at h
      split at h <;> simp at h
    . rcases Except.aborts_bind.mp h with h | ⟨message, _, h⟩
      . exact Capability.not_aborts_readComponent (total_template htemplate) data.payload h
      . exact Except.not_aborts_pure _ h

theorem readerFields_tsSetErrorInfoPdu :
    Message.readerFields [] [] tsSetErrorInfoPdu.message =
      (fun v => [("errorInfo", .leaf (.u32 .le v))]) <$> readU32 .le := by
  simp [tsSetErrorInfoPdu]

theorem readerFields_tsControlPdu :
    Message.readerFields [] [] (tsControlPdu none).message = (do
      let action ← readU16 .le
      let grantId ← readU16 .le
      let controlId ← readU32 .le
      return [("action", .leaf (.u16 .le action)), ("grantId", .leaf (.u16 .le grantId)),
        ("controlId", .leaf (.u32 .le controlId))]) := by
  simp [tsControlPdu]

theorem errorInfo_of_fromPdu {pduType : PDUType} {data : ShareData} {pdu : DataPDU}
    (h : fromPdu ⟨pduType, data.node⟩ = .ok pdu) (htype : pdu.pduType = .pdutype2SetErrorInfoPdu) :
    ∃ v, field pdu.fields "errorInfo" = .ok (.u32 v) := by
  obtain ⟨result, htemplate, hmessage⟩ := fromPdu_eq_ok h
  rw [htype] at htemplate
  cases htemplate
  rw [readComponent_eq, readerFields_tsSetErrorInfoPdu, parse_map] at hmessage
  obtain ⟨v, _, hnode⟩ := Except.map_eq_ok hmessage
  refine ⟨v, ?_⟩
  rw [fields, ← hnode]
  rfl

theorem action_of_fromPdu {pduType : PDUType} {data : ShareData} {pdu : DataPDU}
    (h : fromPdu ⟨pduType, data.node⟩ = .ok pdu) (htype : pdu.pduType = .pdutype2Control) :
    ∃ v, field pdu.fields "action" = .ok (.u16 v) := by
  obtain ⟨result, htemplate, hmessage⟩ := fromPdu_eq_ok h
  rw [htype] at htemplate
  cases htemplate
  rw [readComponent_eq, readerFields_tsControlPdu] at hmessage
  obtain ⟨rest, hrun⟩ := parse_eq_ok.mp hmessage
  obtain ⟨action, _, _, hrun⟩ := run_bind_eq_ok hrun
  obtain ⟨_, _, _, hrun⟩ := run_bind_eq_ok hrun
  obtain ⟨_, _, _, hrun⟩ := run_bind_eq_ok hrun
  rw [EStateM.run_pure] at hrun
  injection hrun with hnode
  refine ⟨action, ?_⟩
  rw [fields, ← hnode]
  rfl

end DataPDU

namespace Frame

theorem run_reader_eq_ok {input rest : Bytes} {frame : Frame} (h : reader.run input = .ok frame rest) :
    ∃ a b c d tail, input = a :: b :: c :: d :: tail ∧ 6 ≤ (le16 a b).toNat ∧
      tail.drop 2 = frame.pduMessage ++ rest ∧
      frame.pduMessage.length = (le16 a b).toNat - 6 := by
  unfold reader at h
  obtain ⟨length, _, hlength, h⟩ := run_bind_eq_ok h
  obtain ⟨size, _, hsize, h⟩ := run_bind_eq_ok h
  obtain ⟨_, tail, htype, h⟩ := run_bind_eq_ok h
  obtain ⟨source, _, hsource, h⟩ := run_bind_eq_ok h
  obtain ⟨body, _, hbody, h⟩ := run_bind_eq_ok h
  cases h
  obtain ⟨a, b, rfl, rfl⟩ := run_readU16_eq_ok.mp hlength
  obtain ⟨hsub, rfl⟩ := run_lift_eq_ok hsize
  obtain ⟨c, d, rfl, _⟩ := run_readU16_eq_ok.mp htype
  obtain ⟨v, hdrop⟩ := run_attempt_readU16 .le tail
  cases hdrop.symm.trans hsource
  obtain ⟨hmessage, hcount⟩ := run_readExact_eq_ok.mp hbody
  obtain ⟨hle, rfl⟩ := checkedSub_eq_ok.mp hsub
  exact ⟨a, b, c, d, tail, rfl, hle, hmessage, hcount⟩

theorem consumes_reader : Consumes reader := by
  intro input frame rest h
  obtain ⟨a, b, c, d, tail, rfl, _, hdrop, _⟩ := run_reader_eq_ok h
  have hlength := congrArg List.length hdrop
  simp only [List.length_cons, List.length_append, List.length_drop] at *
  omega

theorem faults_reader : Faults (· ≠ .diverge) reader := by
  apply (returns_readU16 _).faults.bind
  intro totalLength
  apply (faults_checkedSub _ _).bind
  intro size
  apply (returns_readU16 _).faults.bind
  intro pduType
  apply (returns_readU16 _).attempt.faults.bind
  intro pduSource
  exact ((returns_readExact size).bind_pure _).faults

theorem run_reader_of_le {a b c d e f : UInt8} {body : Bytes} (hle : 6 ≤ (le16 a b).toNat)
    (hbody : body.length = (le16 a b).toNat - 6) (rest : Bytes) :
    reader.run (a :: b :: c :: d :: e :: f :: (body ++ rest)) =
      .ok ⟨le16 a b, le16 c d, some (le16 e f), body⟩ rest := by
  have hsize : (Prog.lift (checkedSub (le16 a b).toNat 6) : Reader Nat).run
      (c :: d :: e :: f :: (body ++ rest)) = .ok body.length (c :: d :: e :: f :: (body ++ rest)) := by
    rw [checkedSub_of_le hle, run_lift_ok, hbody]
  have htail : (do
      let pduMessage ← readExact body.length
      return ⟨le16 a b, le16 c d, some (le16 e f), pduMessage⟩ : Reader Frame).run (body ++ rest) =
      .ok ⟨le16 a b, le16 c d, some (le16 e f), body⟩ rest := by
    rw [EStateM.run_bind, run_readExact_append rest rfl]
    rfl
  change (Prog.lift (checkedSub (le16 a b).toNat 6) >>= _ : Reader Frame).run
    (c :: d :: e :: f :: (body ++ rest)) = _
  rw [Prog.run_bind_of_ok hsize]
  exact htail

/--
The stream starts with a PDU that has all the bytes it announces.
-/
def Starts (frame : Frame) (stream rest : Bytes) : Prop :=
  ∃ a b c d e f, stream = a :: b :: c :: d :: e :: f :: (frame.pduMessage ++ rest) ∧
    frame = ⟨le16 a b, le16 c d, some (le16 e f), frame.pduMessage⟩ ∧ 6 ≤ (le16 a b).toNat ∧
    frame.pduMessage.length = (le16 a b).toNat - 6

theorem run_reader_of_starts {frame : Frame} {stream rest : Bytes} (h : frame.Starts stream rest) :
    reader.run stream = .ok frame rest := by
  obtain ⟨a, b, c, d, e, f, rfl, hframe, hle, hbody⟩ := h
  rw [run_reader_of_le hle hbody, ← hframe]

theorem starts_of_run_reader {frame : Frame} {stream rest : Bytes}
    (h : reader.run stream = .ok frame rest) (hne : frame.pduMessage ++ rest ≠ []) :
    frame.Starts stream rest := by
  -- A header without its last two bytes is read as well, but nothing comes after it.
  obtain ⟨a, b, c, d, tail, rfl, hle, htail, hbody⟩ := run_reader_eq_ok h
  match tail with
  | [] | [_] => exact absurd htail.symm hne
  | e :: f :: tail =>
    change tail = _ at htail
    subst htail
    have hrun := run_reader_of_le (c := c) (d := d) (e := e) (f := f) hle hbody rest
    rw [hrun] at h
    injection h with hframe
    exact ⟨a, b, c, d, e, f, rfl, hframe.symm, hle, hbody⟩

def toPdu (frame : Frame) : RdpResult PDU := do
  let pduType ← PDUType.tryFrom frame.pduType
  PDU.mk pduType <$> parse (PDU.messageReader pduType) frame.pduMessage

theorem fromControl_node (frame : Frame) :
    PDU.fromControl (Message.visitFields frame.node) = frame.toPdu := by
  change (PDUType.tryFrom frame.pduType >>= _) = (PDUType.tryFrom frame.pduType >>= _)
  congr 1
  funext pduType
  exact PDU.template_bind pduType frame.pduMessage

theorem toPdu_eq_ok {frame : Frame} {pdu : PDU} (h : frame.toPdu = .ok pdu) :
    PDUType.tryFrom frame.pduType = .ok pdu.pduType ∧
      parse (PDU.messageReader pdu.pduType) frame.pduMessage = .ok pdu.message := by
  obtain ⟨pduType, htype, h⟩ := Except.bind_eq_ok h
  cases hmessage : parse (PDU.messageReader pduType) frame.pduMessage with
  | error e =>
    rw [hmessage] at h
    cases h
  | ok message =>
    rw [hmessage] at h
    cases h
    exact ⟨htype, hmessage⟩

theorem exists_demandActive {frame : Frame} {pdu : PDU} (h : frame.toPdu = .ok pdu)
    (htype : pdu.pduType = .pdutypeDemandactivepdu) :
    ∃ d : DemandActive, pdu = ⟨.pdutypeDemandactivepdu, d.node⟩ := by
  obtain ⟨_, hmessage⟩ := toPdu_eq_ok h
  obtain ⟨pduType, message⟩ := pdu
  cases htype
  rw [PDU.messageReader, parse_map] at hmessage
  obtain ⟨d, _, rfl⟩ := Except.map_eq_ok hmessage
  exact ⟨d, rfl⟩

theorem exists_shareData {frame : Frame} {pdu : PDU} (h : frame.toPdu = .ok pdu)
    (htype : pdu.pduType = .pdutypeDatapdu) :
    ∃ data : ShareData, pdu = ⟨.pdutypeDatapdu, data.node⟩ := by
  obtain ⟨_, hmessage⟩ := toPdu_eq_ok h
  obtain ⟨pduType, message⟩ := pdu
  cases htype
  rw [PDU.messageReader, parse_map] at hmessage
  obtain ⟨data, _, rfl⟩ := Except.map_eq_ok hmessage
  exact ⟨data, rfl⟩

end Frame

namespace Client

theorem readPdu_eq (stream : Bytes) :
    readPdu stream = (do (← parse Frame.reader stream).toPdu) := by
  unfold readPdu PDU.fromStream parse
  rw [Frame.shareControlHeader_none, lift_ok, pure_bind, Message.reader_component,
    Frame.readerFields_node, EStateM.run_bind, EStateM.run_bind, run_map]
  cases Frame.reader.run stream with
  | error e rest => rfl
  | ok frame rest =>
    have h : (do PDU.fromControl (← castComponent (Message.component frame.node).visit)) =
        frame.toPdu := Frame.fromControl_node frame
    simp only [EStateM.run_pure, h]
    cases hpdu : frame.toPdu <;> simp [hpdu]

def receiveFrames (frames : List Frame) : Prog Error Session Unit := do
  match frames with
  | [] => return ()
  | frame :: frames =>
    receivePdu (← Prog.lift frame.toPdu)
    receiveFrames frames

theorem readArray_of_readerFields {element : Component} {node : α → Component} {x : Reader α}
    (h : Message.readerFields [] [] element = node <$> x) (stream : Bytes) :
    readArray element stream =
      List.map (fun a => .component (Message.visitFields (node a))) <$> parse (elements x) stream := by
  unfold readArray parse
  rw [Message.reader_array, Message.reader_component, h, EStateM.run_bind]
  simp only [bind_pure_comp, Functor.map_map, elements_map, run_map]
  cases (elements x).run stream with
  | error e rest => rfl
  | ok as rest =>
    change Except.ok (Message.visitTrame _) = Except.ok _
    rw [Message.visitTrame_eq_map, List.map_map]
    rfl

theorem readArray_eq (stream : Bytes) :
    readArray (Frame.node ⟨6, 0x11, some 0, []⟩) stream =
      List.map (fun frame => .component (Message.visitFields (Frame.node frame))) <$>
        parse (elements Frame.reader) stream :=
  readArray_of_readerFields Frame.readerFields_node stream

theorem receivePdus_map (frames : List Frame) :
    receivePdus (frames.map fun frame => .component (Message.visitFields (Frame.node frame))) =
      receiveFrames frames := by
  induction frames with
  | nil => rfl
  | cons frame frames ih =>
    rw [List.map_cons, receivePdus, receiveFrames, ih]
    have h := Frame.fromControl_node frame
    change (Prog.lift (PDU.fromControl (Message.visitFields frame.node)) >>= _) = _
    rw [h]

theorem readDataPdu_eq (stream : Bytes) :
    readDataPdu stream = (do receiveFrames (← Prog.lift (parse (elements Frame.reader) stream))) := by
  unfold readDataPdu
  rw [Frame.shareControlHeader_none, lift_ok, pure_bind, readArray_eq, lift_map, bind_map_left]
  simp only [receivePdus_map]

theorem readPdu_eq_ok {stream : Bytes} {pdu : PDU} (h : readPdu stream = .ok pdu) :
    ∃ frame, parse Frame.reader stream = .ok frame ∧ frame.toPdu = .ok pdu := by
  rw [readPdu_eq] at h
  exact Except.bind_eq_ok h

theorem reportDataPdu_node (data : ShareData) :
    reportDataPdu ⟨.pdutypeDatapdu, data.node⟩ = .ok () := by
  unfold reportDataPdu
  rcases Except.cases_of_not_aborts (DataPDU.not_aborts_fromPdu .pdutypeDatapdu data)
    with ⟨dataPdu, h⟩ | ⟨e, h⟩
  . rw [h]
    by_cases htype : dataPdu.pduType = .pdutype2SetErrorInfoPdu
    . obtain ⟨v, hv⟩ := DataPDU.errorInfo_of_fromPdu h htype
      simp only [htype, if_true, hv]
      rfl
    . simp only [htype, if_false]
      rfl
  . rw [h]
    rfl

def after (pdu : PDU) (s : Session) : Session :=
  if pdu.pduType = .pdutypeDeactivateallpdu then
    { s with client := { s.client with state := .demandActivePDU } }
  else
    s

theorem run_receivePdu {frame : Frame} {pdu : PDU} (h : frame.toPdu = .ok pdu) (s : Session) :
    (receivePdu pdu).run s = .ok () (after pdu s) := by
  unfold receivePdu after
  by_cases hdeactivate : pdu.pduType = .pdutypeDeactivateallpdu
  . simp only [hdeactivate, if_true]
    rfl
  . by_cases hdata : pdu.pduType = .pdutypeDatapdu
    . obtain ⟨data, rfl⟩ := Frame.exists_shareData h hdata
      simp only [ne_eq, reduceCtorEq, not_true_eq_false, if_false, reportDataPdu_node]
      rfl
    . simp only [hdeactivate, hdata, ne_eq, not_false_eq_true, if_true, if_false]
      rfl

theorem run_receiveFrames_cons (frame : Frame) (frames : List Frame) (s : Session) :
    (receiveFrames (frame :: frames)).run s =
      match frame.toPdu with
      | .ok pdu => (receiveFrames frames).run (after pdu s)
      | .error e => .error e s := by
  rw [receiveFrames]
  cases h : frame.toPdu with
  | error e => rfl
  | ok pdu => rw [lift_ok, pure_bind, EStateM.run_bind, run_receivePdu h]

def parsedSet (set : RawSet) : Option Capability :=
  match Capability.fromCapabilitySet (Message.visitFields set.node) with
  | .ok capability => some capability
  | .error _ => none

theorem parseCapability_node (set : RawSet) :
    parseCapability (.component (Message.visitFields set.node)) = .ok (parsedSet set) := by
  unfold parseCapability parsedSet
  rw [castComponent, Except.ok_bind]
  rcases Except.cases_of_not_aborts (Capability.not_aborts_fromCapabilitySet set)
    with ⟨capability, h⟩ | ⟨e, h⟩ <;>
    rw [h] <;>
    rfl

def accept (pdu : DemandActive) (client : Client) : Client := { client with
  serverCapabilities := client.serverCapabilities ++ pdu.capabilitySets.filterMap parsedSet
  shareId := some pdu.shareId
}

theorem run_readCapabilities (sets : List RawSet) (s : Session) :
    (readCapabilities (sets.map fun set => .component (Message.visitFields set.node))).run s =
      .ok () { s with client := { s.client with
        serverCapabilities := s.client.serverCapabilities ++ sets.filterMap parsedSet } } := by
  induction sets generalizing s with
  | nil =>
    rw [List.filterMap_nil, List.append_nil]
    rfl
  | cons set sets ih =>
    rw [List.map_cons, readCapabilities, parseCapability_node, lift_ok, pure_bind]
    cases hset : parsedSet set with
    | none =>
      rw [List.filterMap_cons_none hset]
      exact ih s
    | some capability =>
      rw [List.filterMap_cons_some hset, EStateM.run_bind]
      change (readCapabilities _).run _ = _
      rw [ih, List.append_assoc, List.singleton_append]

section DemandActive

variable {stream : Bytes} (s : Session)

theorem run_readDemandActivePdu {d : DemandActive}
    (h : readPdu stream = .ok ⟨.pdutypeDemandactivepdu, d.node⟩) :
    (readDemandActivePdu stream).run s = .ok true { s with client := s.client.accept d } := by
  unfold readDemandActivePdu
  rw [h, lift_ok, pure_bind, if_pos rfl]
  simp only [PDU.fields, d.castTrame_capabilitySets, d.castU32_shareId, lift_ok, pure_bind,
    EStateM.run_bind, run_readCapabilities]
  rfl

theorem run_readDemandActivePdu_of_ne {pdu : PDU} (h : readPdu stream = .ok pdu)
    (hne : pdu.pduType ≠ .pdutypeDemandactivepdu) :
    (readDemandActivePdu stream).run s = .ok false s := by
  unfold readDemandActivePdu
  rw [h, lift_ok, pure_bind, if_neg hne]
  rfl

theorem run_readDemandActivePdu_of_error {e : Fault Error} (h : readPdu stream = .error e) :
    (readDemandActivePdu stream).run s = .error e s := by
  unfold readDemandActivePdu
  rw [h]
  rfl

end DemandActive

end Client

end Rdp.Global
