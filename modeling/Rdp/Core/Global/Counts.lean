import Rdp.Core.Global.Delivery
import Rdp.Core.Global.Encode
import Rdp.Core.Global.Grouping

/-!
This module contains the lists that come with a count: how many elements are delivered for the count
that is announced.
-/

namespace Rdp.Global

open Prog Cursor
open Capability (RawSet readComponent)

def bitmapList (number : UInt16) (records : List Rectangle.Raw) (behind : Bytes) : Bytes :=
  Endian.le.encode16 1 ++ (Endian.le.encode16 number ++
    (records.flatMap Rectangle.Raw.encode ++ behind))

namespace Client

open FastPathUpdate (fromFp)

/--
The update causes exactly the events of these records.
-/
def Delivers (update : Update.Raw) (records : List Rectangle.Raw) : Prop :=
  ∀ s : Session, (readFastPath update.encode).run s =
    .ok () { s with events := s.events ++ records.map fun record => record.rectangle.event }

theorem fromFp_eq_ok {update : Update.Raw} {message : Component} :
    fromFp (Message.visitFields update.node) = .ok ⟨.fastpathUpdatetypeBitmap, message⟩ ↔
      update.header &&& 0xf = 1 ∧ readComponent tsFpUpdateBitmap.message update.data = .ok message := by
  constructor
  . intro h
    have hcode := eq_one_of_tryFrom (tryFrom_of_fromFp h)
    rw [fromFp_node, hcode] at h
    change (readComponent tsFpUpdateBitmap.message update.data >>= _) = _ at h
    obtain ⟨_, hread, h⟩ := Except.bind_eq_ok h
    cases h
    exact ⟨hcode, hread⟩
  . rintro ⟨hcode, hread⟩
    rw [fromFp_node, hcode]
    change (readComponent tsFpUpdateBitmap.message update.data >>= _) = _
    rw [hread]
    rfl

theorem delivers_of_read {update : Update.Raw} (hwhole : update.Whole) (hcode : update.header &&& 0xf = 1)
    {number : UInt16} {records : List Rectangle.Raw}
    (hread : readComponent tsFpUpdateBitmap.message update.data = .ok (bitmapFields number records)) :
    Delivers update records := by
  intro s
  have harray : readArray tsFpUpdate update.encode =
      .ok [.component (Message.visitFields update.node)] := by
    have hrun := Update.Raw.exact_reader.run_elements (List.forall_mem_singleton.mpr hwhole)
    rw [List.flatMap_singleton] at hrun
    rw [Update.readArray_eq, parse, hrun]
    rfl
  unfold readFastPath
  rw [harray, lift_ok, pure_bind, run_deliverUpdates_bitmap hcode hread]
  rfl

theorem delivers_of_fromFp {update : Update.Raw} (hwhole : update.Whole) {message : Component}
    (h : fromFp (Message.visitFields update.node) = .ok ⟨.fastpathUpdatetypeBitmap, message⟩) :
    ∃ number records behind, (∀ record ∈ records, record.Whole) ∧
      message = bitmapFields number records ∧ update.data = bitmapList number records behind ∧
      Delivers update records := by
  obtain ⟨hcode, hread⟩ := fromFp_eq_ok.mp h
  obtain ⟨number, stream, records, rest, hdata, hrecords, rfl⟩ :=
    readComponent_tsFpUpdateBitmap.mp hread
  obtain ⟨behind, hwholes, rfl⟩ := Rectangle.Raw.exact_reader.of_run_elements hrecords
  exact ⟨number, records, behind, hwholes, rfl, hdata, delivers_of_read hwhole hcode hread⟩

theorem delivers_of_records {update : Update.Raw} (hwhole : update.Whole)
    (hcode : update.header &&& 0xf = 1) {number : UInt16} {records : List Rectangle.Raw}
    (hrecords : ∀ record ∈ records, record.Whole) (hdata : update.data = bitmapList number records []) :
    fromFp (Message.visitFields update.node) =
        .ok ⟨.fastpathUpdatetypeBitmap, bitmapFields number records⟩ ∧
      Delivers update records := by
  have hread : readComponent tsFpUpdateBitmap.message update.data = .ok (bitmapFields number records) := by
    refine readComponent_tsFpUpdateBitmap.mpr ⟨number, _, records, [], hdata, ?_, rfl⟩
    rw [List.append_nil]
    exact Rectangle.Raw.exact_reader.run_elements hrecords
  exact ⟨fromFp_eq_ok.mpr ⟨hcode, hread⟩, delivers_of_read hwhole hcode hread⟩

theorem exists_encode_of_readPdu {stream : Bytes} {message : Component}
    (h : readPdu stream = .ok ⟨.pdutypeDemandactivepdu, message⟩) :
    ∃ frame rest, ∃ pdu : DemandActive, ∃ behind tail, Frame.reader.run stream = .ok frame rest ∧
      message = pdu.node ∧ pdu.Whole behind ∧ frame.pduMessage = pdu.encode behind ++ tail := by
  obtain ⟨frame, hframe, hpdu⟩ := readPdu_eq_ok h
  obtain ⟨rest, hframe⟩ := parse_eq_ok.mp hframe
  obtain ⟨_, hmessage⟩ := Frame.toPdu_eq_ok hpdu
  rw [PDU.messageReader, parse_eq_ok] at hmessage
  obtain ⟨tail, hmessage⟩ := hmessage
  obtain ⟨pdu, hrun, rfl⟩ := run_map_eq_ok.mp hmessage
  obtain ⟨behind, hwhole, hbytes⟩ := DemandActive.of_run_reader hrun
  exact ⟨frame, rest, pdu, behind, tail, hframe, rfl, hwhole, hbytes⟩

/--
The announced counts decide about nothing. What an update delivers are the first records of its data,
and all of them if the data consists of records. The sets of a Demand Active are the first ones of
its capabilities, and all of them if the capabilities consist of sets.
-/
theorem counts_unchecked :
    (∀ update : Update.Raw, update.Whole → ∀ message,
      fromFp (Message.visitFields update.node) = .ok ⟨.fastpathUpdatetypeBitmap, message⟩ →
        ∃ number records behind, (∀ record ∈ records, record.Whole) ∧
          message = bitmapFields number records ∧
          update.data = bitmapList number records behind ∧ Delivers update records) ∧
    (∀ update : Update.Raw, update.Whole → update.header &&& 0xf = 1 → ∀ number records,
      (∀ record ∈ records, record.Whole) → update.data = bitmapList number records [] →
        fromFp (Message.visitFields update.node) =
          .ok ⟨.fastpathUpdatetypeBitmap, bitmapFields number records⟩ ∧
        Delivers update records) ∧
    (∀ stream message, readPdu stream = .ok ⟨.pdutypeDemandactivepdu, message⟩ →
      ∃ frame rest, ∃ pdu : DemandActive, ∃ behind tail, Frame.reader.run stream = .ok frame rest ∧
        message = pdu.node ∧ pdu.Whole behind ∧ frame.pduMessage = pdu.encode behind ++ tail ∧
        ∀ s, (readDemandActivePdu stream).run s = .ok true { s with client := s.client.accept pdu }) ∧
    (∀ (pdu : DemandActive) (totalLength source : UInt16) (tail rest : Bytes), pdu.Whole [] →
      (pdu.encode [] ++ tail).length + 6 = totalLength.toNat →
        let stream := Frame.encode totalLength 0x11 source (pdu.encode [] ++ tail) ++ rest
        readPdu stream = .ok ⟨.pdutypeDemandactivepdu, pdu.node⟩ ∧
        ∀ s, (readDemandActivePdu stream).run s = .ok true { s with client := s.client.accept pdu }) := by
  refine ⟨?_, ?_, ?_, ?_⟩
  . intro update hwhole message h
    exact delivers_of_fromFp hwhole h
  . intro update hwhole hcode number records hrecords hdata
    exact delivers_of_records hwhole hcode hrecords hdata
  . intro stream message h
    obtain ⟨frame, rest, pdu, behind, tail, hframe, rfl, hwhole, hbytes⟩ := exists_encode_of_readPdu h
    exact ⟨frame, rest, pdu, behind, tail, hframe, rfl, hwhole, hbytes,
      fun s => run_readDemandActivePdu s h⟩
  . intro pdu totalLength source tail rest hwhole hlength stream
    have hpdu := readPdu_encode hwhole hlength source rest
    exact ⟨hpdu, fun s => run_readDemandActivePdu s hpdu⟩

def oneByte : Rectangle.Raw := ⟨⟨0, 0, 0, 0, 1, 1, 8, 0, [0xFF], 0, 0⟩, 1, 0, 0⟩

theorem whole_oneByte : ∀ record ∈ [oneByte], record.Whole :=
  List.forall_mem_singleton.mpr ⟨rfl, fun _ => rfl, rfl⟩

def announces (number : UInt16) : Update.Raw := ⟨1, 0, 23, bitmapList number [oneByte] []⟩

def announcesSets (number : UInt16) : DemandActive := ⟨1, 0, 12, [], number, 0, [⟨15, 8, [1, 0, 0, 0]⟩], 0⟩

theorem counts_unchecked_announces :
    Delivers (announces 2) [oneByte] ∧
    ∀ rest, readPdu (Frame.encode 30 0x11 0x03EA ((announcesSets 2).encode []) ++ rest) =
      .ok ⟨.pdutypeDemandactivepdu, (announcesSets 2).node⟩ := by
  constructor
  . exact (counts_unchecked.2.1 (announces 2) ⟨fun _ => rfl, by decide⟩ (by decide) 2 [oneByte] whole_oneByte
      rfl).2
  . intro rest
    have hread := (counts_unchecked.2.2.2 (announcesSets 2) 30 0x03EA [] rest
      ⟨rfl, rfl, List.forall_mem_singleton.mpr rfl⟩ (by decide)).1
    rwa [List.append_nil] at hread

/--
The events of an update that is accepted are as many as the announced rectangles.
-/
def RectanglesHonoured (update : Update.Raw) : Prop :=
  ∀ number records, fromFp (Message.visitFields update.node) =
      .ok ⟨.fastpathUpdatetypeBitmap, bitmapFields number records⟩ →
    ∀ s s', (readFastPath update.encode).run s = .ok () s' →
      s'.events.length = s.events.length + number.toNat

/--
The sets of a Demand Active that is accepted are as many as the announced ones.
-/
def SetsHonoured (stream : Bytes) : Prop :=
  ∀ pdu : DemandActive, readPdu stream = .ok ⟨.pdutypeDemandactivepdu, pdu.node⟩ →
    pdu.capabilitySets.length = pdu.numberCapabilities.toNat

/--
An update with one record of two, and a Demand Active without the set it announces.
-/
theorem not_counts_honoured : ¬ RectanglesHonoured (announces 2) ∧
    ¬ SetsHonoured [22, 0, 0x11, 0, 0, 0, 0, 0, 0, 0, 0, 0, 4, 0, 1, 0, 0, 0, 0, 0, 0, 0] := by
  constructor
  . intro h
    have hdelivers := @delivers_of_records (announces 2) ⟨fun _ => rfl, by decide⟩ (by decide) 2 [oneByte]
      whole_oneByte rfl
    have htwo := h 2 [oneByte] hdelivers.1 (Grouping.session .data) _ (hdelivers.2 _)
    cases htwo
  . intro h
    have hpdu := @readPdu_encode ⟨0, 0, 4, [], 1, 0, [], 0⟩ 22 [] ⟨rfl, rfl, by simp⟩ (by decide) 0 []
    have hnone := h _ hpdu
    cases hnone

end Client

end Rdp.Global
