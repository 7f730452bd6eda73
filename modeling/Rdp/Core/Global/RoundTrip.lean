import Rdp.Core.Global.Answer
import Rdp.Core.Global.Encode

/-!
This module contains the round trip of the PDUs the client writes: what is read back of their bytes.
-/

namespace Rdp.Global

open Prog Cursor
open Capability (RawSet)
open Client (shareControlHeader_of_lt)

namespace PDU

def wire (pdu : PDU) (userId : UInt16) : RdpResult Bytes := do
  let message ← toVec (.component pdu.message)
  toVec (.component (← shareControlHeader (some pdu.pduType) (some userId) (some message)))

theorem tryFrom_toU16 (pduType : PDUType) : PDUType.tryFrom pduType.toU16 = .ok pduType := by
  cases pduType <;> rfl

theorem run_fromStream {stream rest : Bytes} {frame : Frame} {pdu : PDU}
    (h : Frame.reader.run stream = .ok frame rest) (hpdu : frame.toPdu = .ok pdu) :
    fromStream.run stream = .ok pdu rest := by
  unfold fromStream
  rw [Frame.shareControlHeader_none, lift_ok, pure_bind, Message.reader_component, Frame.readerFields_node]
  refine run_bind_eq_ok_iff.mpr ⟨.component frame.node, rest, ?_, ?_⟩
  . refine run_bind_eq_ok_iff.mpr ⟨frame.node, rest, ?_, rfl⟩
    exact run_map_eq_ok.mpr ⟨frame, h, rfl⟩
  . change (Prog.lift (fromControl (Message.visitFields frame.node)) : Reader PDU).run rest = _
    rw [Frame.fromControl_node, hpdu]
    rfl

theorem write_frame {totalLength pduType source : UInt16} {message : Bytes}
    (h : message.length + 6 = totalLength.toNat) :
    (Message.component (Frame.node ⟨totalLength, pduType, some source, message⟩)).write =
      .ok (Frame.encode totalLength pduType source message) := by
  have hsize : sizeWithout 6 "pduMessage" (.u16 totalLength) = .ok (.size "pduMessage" message.length) := by
    rw [sizeWithout, ← h]
    rfl
  simp [Frame.node, Frame.encode, Message.visit, Leaf.visit, Leaf.write, hsize, Message.write]

theorem exists_wire {pduType : PDUType} {message message' : Component} {bytes : Bytes}
    (hwrite : (Message.component message).write = .ok bytes) (hlt : bytes.length + 6 < 2 ^ 16)
    (hread : parse (messageReader pduType) bytes = .ok message') (userId : UInt16) :
    ∃ wire, PDU.wire ⟨pduType, message⟩ userId = .ok wire ∧ wire.length = bytes.length + 6 ∧
      ∀ rest, fromStream.run (wire ++ rest) = .ok ⟨pduType, message'⟩ rest := by
  have hmod : bytes.length % 2 ^ 16 = bytes.length := Nat.mod_eq_of_lt (by omega)
  have hlength : bytes.length + 6 = (UInt16.ofNat (bytes.length + 6)).toNat :=
    (UInt16.toNat_ofNat_of_lt' hlt).symm
  refine ⟨Frame.encode (.ofNat (bytes.length + 6)) pduType.toU16 userId bytes, ?_, ?_, ?_⟩
  . have hheader := @shareControlHeader_of_lt bytes pduType userId (by rwa [hmod])
    rw [hmod] at hheader
    rw [wire, toVec, hwrite, Except.ok_bind, hheader, Except.ok_bind, toVec, write_frame hlength]
  . simp [Frame.encode, Endian.encode16, Endian.order]
  . intro rest
    apply run_fromStream (Frame.run_reader_encode hlength pduType.toU16 userId rest)
    rw [Frame.toPdu, tryFrom_toU16, Except.ok_bind, hread]
    rfl

end PDU

theorem ShareData.write_node {data : ShareData}
    (h : data.payload.length + 18 = data.uncompressedLength.toNat) :
    (Message.component data.node).write = .ok data.encode := by
  have hsize : sizeWithout 18 "payload" (.u16 data.uncompressedLength) =
      .ok (.size "payload" data.payload.length) := by
    rw [sizeWithout, ← h]
    rfl
  simp [ShareData.node, ShareData.encode, Message.visit, Leaf.visit, Leaf.write, hsize]

section ConfirmActive

variable {capabilities : List Capability} {bodies : List Bytes}

def setOf (capability : Capability) (body : Bytes) : RawSet :=
  ⟨capability.capType.toU16, .ofNat (body.length + 4), body⟩

/--
The bytes of the sets, headers included.
-/
def lengthOfSets (bodies : List Bytes) : Nat := (bodies.map fun body => body.length + 4).sum

def WrittenAs (capabilities : List Capability) (bodies : List Bytes) : Prop :=
  List.Forall₂ (fun capability body => (Message.component capability.message).write = .ok body)
    capabilities bodies

theorem WrittenAs.sets (h : WrittenAs capabilities bodies) (hlt : lengthOfSets bodies < 2 ^ 16) :
    let sets := List.zipWith setOf capabilities bodies
    (capabilities.mapM fun capability => Capability.capabilitySet (some capability)) =
        .ok (sets.map RawSet.node) ∧
      (∀ set ∈ sets, set.Whole) ∧ (sets.flatMap RawSet.encode).length = lengthOfSets bodies ∧
      sets.length = capabilities.length ∧ capabilities.length ≤ lengthOfSets bodies := by
  induction h with
  | nil => exact ⟨rfl, by simp, rfl, rfl, Nat.le_refl 0⟩
  | @cons capability body capabilities bodies hwrite _ ih =>
    simp only [lengthOfSets, List.map_cons, List.sum_cons] at hlt ih
    obtain ⟨hmap, hwhole, hlength, hcount, hmany⟩ := ih (by omega)
    have hset : (setOf capability body).Whole := UInt16.toNat_ofNat_of_lt' (show body.length + 4 < 2 ^ 16 by omega)
    refine ⟨?_, ?_, ?_, ?_, ?_⟩
    . rw [List.mapM_cons, Capability.capabilitySet_some hwrite (by omega), Except.ok_bind, hmap]
      rfl
    . exact List.forall_mem_cons.mpr ⟨hset, hwhole⟩
    . simp only [List.zipWith_cons_cons, List.flatMap_cons, List.length_append, hlength, lengthOfSets,
        List.map_cons, List.sum_cons]
      simp [setOf, RawSet.encode, Endian.encode16, Endian.order]
    . simp only [List.zipWith_cons_cons, List.length_cons, hcount]
    . simp only [lengthOfSets, List.length_cons, List.map_cons, List.sum_cons]
      omega

theorem writeTrame_sets {sets : List RawSet} (h : ∀ set ∈ sets, set.Whole) :
    Message.writeTrame (sets.map fun set => .component set.node) = .ok (sets.flatMap RawSet.encode) := by
  induction sets with
  | nil => rfl
  | cons set sets ih =>
    rw [List.forall_mem_cons] at h
    have hset : 4 ≤ set.lengthCapability.toNat := by
      rw [h.1]
      exact Nat.le_add_left 4 _
    rw [List.map_cons, Message.writeTrame_cons, Capability.write_node hset, Except.ok_bind, ih h.2]
    rfl

def confirmActive (shareId : UInt32) (source : Bytes) (sets : List RawSet) : ConfirmActive :=
  ⟨shareId, 0x03EA, .ofNat source.length, .ofNat ((sets.flatMap RawSet.encode).length + 4), source,
    .ofNat sets.length, 0, sets⟩

theorem whole_confirmActive (shareId : UInt32) {source : Bytes} {sets : List RawSet}
    (h : ∀ set ∈ sets, set.Whole)
    (hlt : source.length + (sets.flatMap RawSet.encode).length + 4 < 2 ^ 16) :
    (confirmActive shareId source sets).Whole where
  originator := rfl
  source := (UInt16.toNat_ofNat_of_lt' (show source.length < 2 ^ 16 by omega)).symm
  combined := (UInt16.toNat_ofNat_of_lt'
    (show (sets.flatMap RawSet.encode).length + 4 < 2 ^ 16 by omega)).symm
  sets := h

/--
The message of a Confirm Active that is written, of which the array was made of a trame.
-/
def confirmActiveMessage (pdu : ConfirmActive) : Component := [
  ("shareId", .leaf (.u32 .le pdu.shareId)),
  ("originatorId", .check (.u16 .le pdu.originatorId)),
  ("lengthSourceDescriptor",
    .dynOption (.leaf (.u16 .le pdu.lengthSourceDescriptor)) (sizeOf "sourceDescriptor")),
  ("lengthCombinedCapabilities",
    .dynOption (.leaf (.u16 .le pdu.lengthCombinedCapabilities)) (sizeWithout 4 "capabilitySets")),
  ("sourceDescriptor", .leaf (.bytes pdu.sourceDescriptor)),
  ("numberCapabilities", .leaf (.u16 .le pdu.numberCapabilities)),
  ("pad2Octets", .leaf (.u16 .le pdu.pad2Octets)),
  ("capabilitySets", .array (pdu.capabilitySets.map fun set => .component set.node) none)
]

theorem write_confirmActiveMessage {pdu : ConfirmActive} (h : pdu.Whole) :
    (Message.component (confirmActiveMessage pdu)).write = .ok pdu.encode := by
  have hsize : sizeWithout 4 "capabilitySets" (.u16 pdu.lengthCombinedCapabilities) =
      .ok (.size "capabilitySets" (pdu.capabilitySets.flatMap RawSet.encode).length) := by
    rw [sizeWithout, ← h.combined]
    rfl
  have hsets : (Message.array (pdu.capabilitySets.map fun set => .component set.node) none).write =
      .ok (pdu.capabilitySets.flatMap RawSet.encode) := writeTrame_sets h.sets
  simp [confirmActiveMessage, ConfirmActive.encode, Message.visit, Leaf.visit, Leaf.write, sizeOf, hsize,
    hsets]

theorem tsConfirmActivePdu_sets (shareId : UInt32) (source : Bytes) {sets : List RawSet}
    (h : ∀ set ∈ sets, set.Whole) (hlt : (sets.flatMap RawSet.encode).length + 4 < 2 ^ 16) :
    tsConfirmActivePdu (some shareId) (some source) (some (sets.map fun set => .component set.node)) =
      .ok ⟨.pdutypeConfirmactivepdu, confirmActiveMessage (confirmActive shareId source sets)⟩ := by
  have hlength : (Message.array (sets.map fun set => .component set.node) none).length =
      .ok (sets.flatMap RawSet.encode).length := Message.length_of_write _ (writeTrame_sets h)
  have hheaded : headedLength (sets.flatMap RawSet.encode).length 4 =
      .ok (.ofNat ((sets.flatMap RawSet.encode).length + 4)) := by
    rw [headedLength, UInt16.toNat_ofNat', Nat.mod_eq_of_lt (by omega), checkedAdd_of_lt hlt]
    rfl
  unfold tsConfirmActivePdu
  rw [RawSet.capabilitySet_none, Except.ok_bind]
  dsimp only [Option.getD_some]
  rw [hlength, Except.ok_bind, hheaded, Except.ok_bind, List.length_map]
  rfl

end ConfirmActive

def confirmActiveWire (shareId : UInt32) (userId : UInt16) (source : Bytes)
    (capabilities : List Capability) : RdpResult Bytes := do
  let sets ← capabilities.mapM fun capability => Capability.capabilitySet (some capability)
  let pdu ← tsConfirmActivePdu (some shareId) (some source) (some (sets.map .component))
  pdu.wire userId

def dataWire (shareId : UInt32) (userId : UInt16) (pduType : PDUType2) (payload : Bytes) :
    RdpResult Bytes := do
  (← shareDataHeader (some shareId) (some pduType) (some payload)).wire userId

theorem exists_confirmActiveWire (shareId : UInt32) (userId : UInt16) {source : Bytes}
    {capabilities : List Capability} {bodies : List Bytes} (h : WrittenAs capabilities bodies)
    (hlt : 20 + source.length + lengthOfSets bodies < 2 ^ 16) :
    ∃ wire, confirmActiveWire shareId userId source capabilities = .ok wire ∧
      wire.length = 20 + source.length + lengthOfSets bodies ∧
      ∀ rest, PDU.fromStream.run (wire ++ rest) = .ok ⟨.pdutypeConfirmactivepdu,
        (confirmActive shareId source (List.zipWith setOf capabilities bodies)).node⟩ rest := by
  obtain ⟨hmap, hwhole, hlength, _⟩ := h.sets (by omega)
  have hpdu := tsConfirmActivePdu_sets shareId source hwhole (by omega)
  have hshort : source.length +
      ((List.zipWith setOf capabilities bodies).flatMap RawSet.encode).length + 4 < 2 ^ 16 := by omega
  have hconfirm := whole_confirmActive shareId hwhole hshort
  have hbytes : (confirmActive shareId source (List.zipWith setOf capabilities bodies)).encode.length =
      14 + source.length + lengthOfSets bodies := by
    rw [← hlength]
    simp [confirmActive, ConfirmActive.encode, Endian.encode16, Endian.encode32, Endian.order]
    omega
  have hread : parse (PDU.messageReader .pdutypeConfirmactivepdu)
      (confirmActive shareId source (List.zipWith setOf capabilities bodies)).encode =
      .ok (confirmActive shareId source (List.zipWith setOf capabilities bodies)).node := by
    have hrun := ConfirmActive.run_reader_encode hconfirm []
    rw [List.append_nil] at hrun
    rw [PDU.messageReader, parse_map, parse, hrun]
    rfl
  obtain ⟨wire, hwire, hwireLength, hstream⟩ :=
    PDU.exists_wire (write_confirmActiveMessage hconfirm) (by omega) hread userId
  refine ⟨wire, ?_, by omega, hstream⟩
  rw [confirmActiveWire, hmap, Except.ok_bind, List.map_map, Function.comp_def, hpdu, Except.ok_bind,
    hwire]

theorem exists_dataWire (shareId : UInt32) (userId : UInt16) (pduType : PDUType2) {payload : Bytes}
    (hlt : payload.length + 18 < 2 ^ 16) :
    ∃ wire, dataWire shareId userId pduType payload = .ok wire ∧
      ∀ rest, PDU.fromStream.run (wire ++ rest) = .ok ⟨.pdutypeDatapdu,
        (ShareData.mk shareId 0 1 (.ofNat (payload.length + 18)) pduType.toU8 0 0 payload).node⟩ rest := by
  obtain ⟨data, hdata⟩ : ∃ data : ShareData, data =
    ⟨shareId, 0, 1, .ofNat (payload.length + 18), pduType.toU8, 0, 0, payload⟩ := ⟨_, rfl⟩
  have hheaded : headedLength payload.length 18 = .ok (.ofNat (payload.length + 18)) := by
    rw [headedLength, UInt16.toNat_ofNat', Nat.mod_eq_of_lt (by omega), checkedAdd_of_lt hlt]
    rfl
  have hpdu : shareDataHeader (some shareId) (some pduType) (some payload) =
      .ok ⟨.pdutypeDatapdu, data.node⟩ := by
    rw [shareDataHeader, hdata]
    simp only [Option.getD_some, hheaded, Except.ok_bind]
    rfl
  have hsize : data.payload.length + 18 = data.uncompressedLength.toNat := by
    rw [hdata]
    exact (UInt16.toNat_ofNat_of_lt' hlt).symm
  have hbytes : data.encode.length = 12 + payload.length := by
    rw [hdata]
    simp [ShareData.encode, Endian.encode16, Endian.encode32, Endian.order]
    omega
  have hread : parse (PDU.messageReader .pdutypeDatapdu) data.encode = .ok data.node := by
    have hrun := ShareData.run_reader_encode hsize []
    rw [List.append_nil] at hrun
    rw [PDU.messageReader, parse_map, parse, hrun]
    rfl
  obtain ⟨wire, hwire, _, hstream⟩ :=
    PDU.exists_wire (ShareData.write_node hsize) (by omega) hread userId
  refine ⟨wire, ?_, ?_⟩
  . rw [dataWire, hpdu, Except.ok_bind, hwire]
  . rw [← hdata]
    exact hstream

/--
The client's Confirm Active and its data PDUs are read back from their bytes, and nothing behind them
is touched.
-/
theorem round_trip (shareId : UInt32) (userId : UInt16) :
    (∀ (source : Bytes) (capabilities : List Capability) (bodies : List Bytes),
      WrittenAs capabilities bodies → 20 + source.length + lengthOfSets bodies ≤ 65535 →
        let pdu := confirmActive shareId source (List.zipWith setOf capabilities bodies)
        pdu.numberCapabilities.toNat = capabilities.length ∧
        ∃ wire, confirmActiveWire shareId userId source capabilities = .ok wire ∧
          wire.length = 20 + source.length + lengthOfSets bodies ∧
          ∀ rest, PDU.fromStream.run (wire ++ rest) = .ok ⟨.pdutypeConfirmactivepdu, pdu.node⟩ rest) ∧
    (∀ (pduType : PDUType2) (payload : Bytes), payload.length ≤ 65517 →
      let data : ShareData :=
        ⟨shareId, 0, 1, .ofNat (payload.length + 18), pduType.toU8, 0, 0, payload⟩
      ∃ wire, dataWire shareId userId pduType payload = .ok wire ∧
        ∀ rest, PDU.fromStream.run (wire ++ rest) = .ok ⟨.pdutypeDatapdu, data.node⟩ rest) := by
  constructor
  . intro source capabilities bodies h hle pdu
    obtain ⟨_, _, _, hcount, hmany⟩ := h.sets (by omega)
    refine ⟨?_, ?_⟩
    . change (UInt16.ofNat (List.zipWith setOf capabilities bodies).length).toNat = _
      rw [hcount]
      exact UInt16.toNat_ofNat_of_lt' (show capabilities.length < 2 ^ 16 by omega)
    . have hlt : 20 + source.length + lengthOfSets bodies < 2 ^ 16 := by omega
      exact exists_confirmActiveWire shareId userId h hlt
  . intro pduType payload hle
    have hlt : payload.length + 18 < 2 ^ 16 := by omega
    exact exists_dataWire shareId userId pduType hlt

open Capability (tsPointerCapabilitySet tsBrushCapabilitySet) in
/--
A Confirm Active with the sets of a pointer and a brush, and a data PDU with a payload of three bytes.
-/
theorem round_trip_small :
    (∃ wire, confirmActiveWire 1 2 [0x41] [tsPointerCapabilitySet, tsBrushCapabilitySet] = .ok wire ∧
      wire.length = 37 ∧
      ∀ rest, PDU.fromStream.run (wire ++ rest) = .ok ⟨.pdutypeConfirmactivepdu,
        (confirmActive 1 [0x41] [⟨8, 8, [0, 0, 20, 0]⟩, ⟨15, 8, [0, 0, 0, 0]⟩]).node⟩ rest) ∧
    (∃ wire, dataWire 1 2 .pdutype2Update [1, 2, 3] = .ok wire ∧
      ∀ rest, PDU.fromStream.run (wire ++ rest) =
        .ok ⟨.pdutypeDatapdu, (ShareData.mk 1 0 1 21 2 0 0 [1, 2, 3]).node⟩ rest) := by
  have hwritten : WrittenAs [tsPointerCapabilitySet, tsBrushCapabilitySet] [[0, 0, 20, 0], [0, 0, 0, 0]] :=
    .cons rfl (.cons rfl .nil)
  exact ⟨((round_trip 1 2).1 [0x41] _ _ hwritten (by decide)).2,
    (round_trip 1 2).2 .pdutype2Update [1, 2, 3] (by decide)⟩

end Rdp.Global
