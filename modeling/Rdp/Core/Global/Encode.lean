import Rdp.Core.Global.Frames

/-!
This module contains the bytes of the PDUs: what their readers take is what encodes them.
-/

namespace Rdp.Global

open Prog Cursor
open Capability (RawSet)

namespace DemandActive

/--
The bytes of a Demand Active. Behind the sets there can be bytes that no set could be read from.
-/
def encode (pdu : DemandActive) (behind : Bytes) : Bytes :=
  Endian.le.encode32 pdu.shareId ++ (Endian.le.encode16 pdu.lengthSourceDescriptor ++
    (Endian.le.encode16 pdu.lengthCombinedCapabilities ++ (pdu.sourceDescriptor ++
      (Endian.le.encode16 pdu.numberCapabilities ++ (Endian.le.encode16 pdu.pad2Octets ++
        ((pdu.capabilitySets.flatMap RawSet.encode ++ behind) ++ Endian.le.encode32 pdu.sessionId))))))

/--
The lengths are the ones of the data. The length of the capabilities counts two more fields.
-/
structure Whole (pdu : DemandActive) (behind : Bytes) : Prop where
  source : pdu.sourceDescriptor.length = pdu.lengthSourceDescriptor.toNat
  combined : (pdu.capabilitySets.flatMap RawSet.encode ++ behind).length + 4 =
    pdu.lengthCombinedCapabilities.toNat
  sets : ∀ set ∈ pdu.capabilitySets, set.Whole

theorem run_reader_encode {pdu : DemandActive} (h : pdu.Whole []) (rest : Bytes) :
    reader.run (pdu.encode [] ++ rest) = .ok pdu rest := by
  have hsize : (checkedSub pdu.lengthCombinedCapabilities.toNat 4 : RdpResult Nat) =
      .ok (pdu.capabilitySets.flatMap RawSet.encode).length := by
    rw [← h.combined, List.append_nil]
    rfl
  unfold reader encode
  simp only [List.append_nil, List.append_assoc]
  refine run_bind_eq_ok_iff.mpr ⟨_, _, run_readU32_encode32 _ _ _, ?_⟩
  refine run_bind_eq_ok_iff.mpr ⟨_, _, run_readU16_encode16 _ _ _, ?_⟩
  refine run_bind_eq_ok_iff.mpr ⟨_, _, run_readU16_encode16 _ _ _, ?_⟩
  rw [hsize]
  refine run_bind_eq_ok_iff.mpr ⟨_, _, rfl, ?_⟩
  refine run_bind_eq_ok_iff.mpr ⟨_, _, run_readExact_append _ h.source, ?_⟩
  refine run_bind_eq_ok_iff.mpr ⟨_, _, run_readU16_encode16 _ _ _, ?_⟩
  refine run_bind_eq_ok_iff.mpr ⟨_, _, run_readU16_encode16 _ _ _, ?_⟩
  have hsets := RawSet.exact_reader.run_elements h.sets
  refine run_bind_eq_ok_iff.mpr ⟨_, _, run_limited_append _ rfl hsets, ?_⟩
  exact run_bind_eq_ok_iff.mpr ⟨_, _, run_readU32_encode32 _ _ _, rfl⟩

theorem of_run_reader {pdu : DemandActive} {input rest : Bytes} (h : reader.run input = .ok pdu rest) :
    ∃ behind, pdu.Whole behind ∧ input = pdu.encode behind ++ rest := by
  obtain ⟨shareId, _, hshare, h⟩ := run_bind_eq_ok h
  obtain ⟨lengthSource, _, hsource, h⟩ := run_bind_eq_ok h
  obtain ⟨lengthCombined, _, hcombined, h⟩ := run_bind_eq_ok h
  obtain ⟨size, _, hsize, h⟩ := run_bind_eq_ok h
  obtain ⟨source, _, hdescriptor, h⟩ := run_bind_eq_ok h
  obtain ⟨number, _, hnumber, h⟩ := run_bind_eq_ok h
  obtain ⟨pad, _, hpad, h⟩ := run_bind_eq_ok h
  obtain ⟨sets, _, hsets, h⟩ := run_bind_eq_ok h
  obtain ⟨sessionId, _, hsession, h⟩ := run_bind_eq_ok h
  cases h
  obtain ⟨hsub, rfl⟩ := run_lift_eq_ok hsize
  obtain ⟨hle, rfl⟩ := checkedSub_eq_ok.mp hsub
  obtain ⟨rfl, hlength⟩ := run_readExact_eq_ok.mp hdescriptor
  obtain ⟨bytes, _, rfl, hbytes, helements⟩ := run_limited_eq_ok hsets
  obtain ⟨behind, hwhole, rfl⟩ := RawSet.exact_reader.of_run_elements helements
  refine ⟨behind, ⟨hlength, ?_, hwhole⟩, ?_⟩
  . exact ((Nat.sub_eq_iff_eq_add hle).mp hbytes.symm).symm
  . rw [run_readU32_iff_encode32.mp hshare, run_readU16_iff_encode16.mp hsource,
      run_readU16_iff_encode16.mp hcombined, run_readU16_iff_encode16.mp hnumber,
      run_readU16_iff_encode16.mp hpad, run_readU32_iff_encode32.mp hsession, encode]
    simp only [List.append_assoc]

end DemandActive

namespace ConfirmActive

def encode (pdu : ConfirmActive) : Bytes :=
  Endian.le.encode32 pdu.shareId ++ (Endian.le.encode16 pdu.originatorId ++
    (Endian.le.encode16 pdu.lengthSourceDescriptor ++
      (Endian.le.encode16 pdu.lengthCombinedCapabilities ++ (pdu.sourceDescriptor ++
        (Endian.le.encode16 pdu.numberCapabilities ++ (Endian.le.encode16 pdu.pad2Octets ++
          pdu.capabilitySets.flatMap RawSet.encode))))))

/--
The originator is the constant one, and the lengths are the ones of the data.
-/
structure Whole (pdu : ConfirmActive) : Prop where
  originator : pdu.originatorId = 0x03EA
  source : pdu.sourceDescriptor.length = pdu.lengthSourceDescriptor.toNat
  combined : (pdu.capabilitySets.flatMap RawSet.encode).length + 4 = pdu.lengthCombinedCapabilities.toNat
  sets : ∀ set ∈ pdu.capabilitySets, set.Whole

theorem run_reader_encode {pdu : ConfirmActive} (h : pdu.Whole) (rest : Bytes) :
    reader.run (pdu.encode ++ rest) = .ok pdu rest := by
  have hsize : (checkedSub pdu.lengthCombinedCapabilities.toNat 4 : RdpResult Nat) =
      .ok (pdu.capabilitySets.flatMap RawSet.encode).length := by
    rw [← h.combined]
    rfl
  have hexpect : (expect (0x03EA = pdu.originatorId) : Reader Unit) = pure () := by
    rw [h.originator]
    rfl
  unfold reader encode
  simp only [List.append_assoc]
  refine run_bind_eq_ok_iff.mpr ⟨_, _, run_readU32_encode32 _ _ _, ?_⟩
  refine run_bind_eq_ok_iff.mpr ⟨_, _, run_readU16_encode16 _ _ _, ?_⟩
  rw [hexpect]
  refine run_bind_eq_ok_iff.mpr ⟨_, _, rfl, ?_⟩
  refine run_bind_eq_ok_iff.mpr ⟨_, _, run_readU16_encode16 _ _ _, ?_⟩
  refine run_bind_eq_ok_iff.mpr ⟨_, _, run_readU16_encode16 _ _ _, ?_⟩
  rw [hsize]
  refine run_bind_eq_ok_iff.mpr ⟨_, _, rfl, ?_⟩
  refine run_bind_eq_ok_iff.mpr ⟨_, _, run_readExact_append _ h.source, ?_⟩
  refine run_bind_eq_ok_iff.mpr ⟨_, _, run_readU16_encode16 _ _ _, ?_⟩
  refine run_bind_eq_ok_iff.mpr ⟨_, _, run_readU16_encode16 _ _ _, ?_⟩
  have hsets := RawSet.exact_reader.run_elements h.sets
  exact run_bind_eq_ok_iff.mpr ⟨_, _, run_limited_append _ rfl hsets, rfl⟩

end ConfirmActive

namespace ShareData

def encode (data : ShareData) : Bytes :=
  Endian.le.encode32 data.shareId ++ ([data.pad1] ++ ([data.streamId] ++
    (Endian.le.encode16 data.uncompressedLength ++ ([data.pduType2] ++ ([data.compressedType] ++
      (Endian.le.encode16 data.compressedLength ++ data.payload))))))

theorem run_reader_encode {data : ShareData}
    (h : data.payload.length + 18 = data.uncompressedLength.toNat) (rest : Bytes) :
    reader.run (data.encode ++ rest) = .ok data rest := by
  have hsize : (checkedSub data.uncompressedLength.toNat 18 : RdpResult Nat) =
      .ok data.payload.length := by
    rw [← h]
    rfl
  unfold reader encode
  simp only [List.append_assoc, List.singleton_append]
  refine run_bind_eq_ok_iff.mpr ⟨_, _, run_readU32_encode32 _ _ _, ?_⟩
  refine run_bind_eq_ok_iff.mpr ⟨_, _, rfl, ?_⟩
  refine run_bind_eq_ok_iff.mpr ⟨_, _, rfl, ?_⟩
  refine run_bind_eq_ok_iff.mpr ⟨_, _, run_readU16_encode16 _ _ _, ?_⟩
  rw [hsize]
  refine run_bind_eq_ok_iff.mpr ⟨_, _, rfl, ?_⟩
  refine run_bind_eq_ok_iff.mpr ⟨_, _, rfl, ?_⟩
  refine run_bind_eq_ok_iff.mpr ⟨_, _, rfl, ?_⟩
  refine run_bind_eq_ok_iff.mpr ⟨_, _, run_readU16_encode16 _ _ _, ?_⟩
  exact run_bind_eq_ok_iff.mpr ⟨_, _, run_readExact_append _ rfl, rfl⟩

end ShareData

namespace Frame

/--
The bytes of a PDU with a source.
-/
def encode (totalLength pduType source : UInt16) (message : Bytes) : Bytes :=
  Endian.le.encode16 totalLength ++ (Endian.le.encode16 pduType ++ (Endian.le.encode16 source ++ message))

theorem run_reader_encode {totalLength : UInt16} {message : Bytes}
    (h : message.length + 6 = totalLength.toNat) (pduType source : UInt16) (rest : Bytes) :
    reader.run (encode totalLength pduType source message ++ rest) =
      .ok ⟨totalLength, pduType, some source, message⟩ rest := by
  have hsize : (checkedSub totalLength.toNat 6 : RdpResult Nat) = .ok message.length := by
    rw [← h]
    rfl
  unfold reader encode
  simp only [List.append_assoc]
  refine run_bind_eq_ok_iff.mpr ⟨_, _, run_readU16_encode16 _ _ _, ?_⟩
  rw [hsize]
  refine run_bind_eq_ok_iff.mpr ⟨_, _, rfl, ?_⟩
  refine run_bind_eq_ok_iff.mpr ⟨_, _, run_readU16_encode16 _ _ _, ?_⟩
  refine run_bind_eq_ok_iff.mpr ⟨some source, message ++ rest, ?_, ?_⟩
  . rw [run_attempt, run_readU16_encode16]
  . exact run_bind_eq_ok_iff.mpr ⟨_, _, run_readExact_append _ rfl, rfl⟩

end Frame

namespace Client

theorem readPdu_of_run {stream rest : Bytes} {frame : Frame} (h : Frame.reader.run stream = .ok frame rest) :
    readPdu stream = frame.toPdu := by
  rw [readPdu_eq, parse, h]
  rfl

theorem readPdu_encode {pdu : DemandActive} {totalLength : UInt16} {tail : Bytes} (hwhole : pdu.Whole [])
    (hlength : (pdu.encode [] ++ tail).length + 6 = totalLength.toNat) (source : UInt16) (rest : Bytes) :
    readPdu (Frame.encode totalLength 0x11 source (pdu.encode [] ++ tail) ++ rest) =
      .ok ⟨.pdutypeDemandactivepdu, pdu.node⟩ := by
  rw [readPdu_of_run (Frame.run_reader_encode hlength 0x11 source rest), Frame.toPdu]
  change PDU.mk _ <$> parse (DemandActive.node <$> DemandActive.reader) _ = _
  rw [parse_map, parse, DemandActive.run_reader_encode hwhole]
  rfl

end Client

end Rdp.Global
