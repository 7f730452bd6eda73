import Rdp.Core.Gcc.Impl
import Rdp.Core.Global.Delivery
import Rdp.Core.Global.Grouping
import Rdp.Model.Data.Halting
import Rdp.Model.Data.Lossless

/-!
This module contains the arrays that are read from a stream: which streams they take without a
loss, and that reading them comes to an end.
-/

namespace Rdp

open Prog Cursor

namespace Cursor

theorem reader_component_eq {fields : Component} {node : α → Component} {x : Reader α}
    (h : Message.readerFields [] [] fields = node <$> x) :
    (Message.component fields).reader = (fun a => .component (node a)) <$> x := by
  rw [Message.reader_component, h]
  simp

theorem reads_component {fields : Component} {node : α → Component} {x : Reader α} {format : Format}
    (h : Message.readerFields [] [] fields = node <$> x) (hx : Reads format x) :
    Reads format (Message.component fields).reader := by
  rw [reader_component_eq h]
  exact hx.map _

theorem faults_component {fields : Component} {node : α → Component} {x : Reader α}
    (h : Message.readerFields [] [] fields = node <$> x) (hx : Faults (· ≠ .diverge) x) :
    Faults (· ≠ .diverge) (Message.component fields).reader := by
  rw [reader_component_eq h]
  exact hx.map _

end Cursor

namespace Global

open Capability (RawSet)

/--
A PDU has the length that it announces, which counts its header. The source in the header is
optional, so that a PDU at the end can do without it.
-/
def shareControlHeaderFormat : Format where
  element := WellFramed
  last input := ∃ a b c d tail, input = a :: b :: c :: d :: tail ∧ tail.length < 2 ∧ le16 a b = 6

theorem Frame.reads_reader : Reads shareControlHeaderFormat Frame.reader where
  consumes := consumes_reader
  run_nil := ⟨_, rfl⟩
  run_element := by
    rintro piece hpiece rest
    obtain ⟨frame, hstarts⟩ := exists_starts hpiece
    exact ⟨frame, run_reader_of_starts (hstarts rest)⟩
  run_last := by
    rintro _ ⟨a, b, c, d, tail, rfl, htail, hlength⟩
    refine ⟨⟨le16 a b, le16 c d, none, []⟩, ?_⟩
    refine run_bind_eq_ok_iff.mpr ⟨le16 a b, _, rfl, ?_⟩
    rw [hlength]
    refine run_bind_eq_ok_iff.mpr ⟨0, _, rfl, ?_⟩
    refine run_bind_eq_ok_iff.mpr ⟨le16 c d, _, rfl, ?_⟩
    match tail with
    | [] | [_] => rfl
    | _ :: _ :: tail => exact absurd htail (Nat.not_lt.mpr (Nat.le_add_left 2 tail.length))
  of_run := by
    intro input frame rest h
    obtain ⟨a, b, c, d, tail, rfl, hle, hdrop, hlength⟩ := run_reader_eq_ok h
    match tail with
    | [] | [_] =>
      -- the source is missing, and so is all that comes behind it
      obtain ⟨hmessage, rfl⟩ := List.append_eq_nil_iff.mp hdrop.symm
      rw [hmessage, List.length_nil] at hlength
      refine .inr ⟨⟨a, b, c, d, _, rfl, by simp, ?_⟩, rfl⟩
      exact UInt16.toNat_inj.mp (Nat.le_antisymm (Nat.sub_eq_zero_iff_le.mp hlength.symm) hle)
    | e :: f :: tail =>
      change tail = _ at hdrop
      subst hdrop
      refine .inl ⟨a :: b :: c :: d :: e :: f :: frame.pduMessage, ?_, rfl⟩
      refine ⟨a, b, c, d, e, f, _, rfl, ?_⟩
      simp only [List.length_cons]
      omega

/--
The data of an input event is all that follows its header.
-/
def tsInputEventFormat : Format where
  element _ := False
  last input := 6 ≤ input.length

def inputEventNode (event : UInt32 × UInt16 × Bytes) : Component := [
  ("eventTime", .leaf (.u32 .le event.1)),
  ("messageType", .leaf (.u16 .le event.2.1)),
  ("slowPathInputData", .leaf (.bytes event.2.2))
]

def readInputEvent : Reader (UInt32 × UInt16 × Bytes) := do
  let eventTime ← readU32 .le
  let messageType ← readU16 .le
  let data ← readToEnd
  return (eventTime, messageType, data)

theorem readerFields_tsInputEvent :
    Message.readerFields [] [] (tsInputEvent none none) = inputEventNode <$> readInputEvent := by
  simp [tsInputEvent, readInputEvent, inputEventNode]

theorem run_readInputEvent_eq_ok {event : UInt32 × UInt16 × Bytes} {input rest : Bytes}
    (h : readInputEvent.run input = .ok event rest) : 6 ≤ input.length ∧ rest = [] := by
  obtain ⟨time, _, htime, h⟩ := run_bind_eq_ok h
  obtain ⟨type, _, htype, h⟩ := run_bind_eq_ok h
  obtain ⟨data, _, hdata, h⟩ := run_bind_eq_ok h
  cases h
  obtain ⟨_, _, _, _, rfl, _⟩ := run_readU32_eq_ok.mp htime
  obtain ⟨_, _, rfl, _⟩ := run_readU16_eq_ok.mp htype
  obtain ⟨rfl, hrest⟩ := run_readToEnd_eq_ok.mp hdata
  refine ⟨?_, ?_⟩
  . simp
  . assumption

theorem reads_readInputEvent : Reads tsInputEventFormat readInputEvent where
  consumes := by
    intro input event rest h
    obtain ⟨hlength, rfl⟩ := run_readInputEvent_eq_ok h
    exact Nat.lt_of_lt_of_le (Nat.succ_pos 5) hlength
  run_nil := ⟨_, rfl⟩
  run_element _ h := h.elim
  run_last := by
    intro input hlength
    match input with
    | _ :: _ :: _ :: _ :: _ :: _ :: _ => exact ⟨_, rfl⟩
    | [] | [_] | [_, _] | [_, _, _] | [_, _, _, _] | [_, _, _, _, _] =>
      exact absurd hlength (by simp [tsInputEventFormat])
  of_run := by
    intro input event rest h
    exact .inr (run_readInputEvent_eq_ok h)

inductive Element where
  | channelId
  | capabilitySet
  | shareControlHeader
  | tsFpUpdate
  | tsBitmapData
  | tsInputEvent

namespace Element

def make (element : Element) : RdpResult Message :=
  match element with
  | channelId => .ok (.leaf (.u16 .le 0))
  | capabilitySet => .component <$> Capability.capabilitySet none
  | shareControlHeader => .component <$> Global.shareControlHeader none none none
  | tsFpUpdate => .ok (.component Global.tsFpUpdate)
  | tsBitmapData => .ok (.component Global.tsBitmapData)
  | tsInputEvent => .ok (.component (Global.tsInputEvent none none))

def format (element : Element) : Format :=
  match element with
  | channelId => .of Endian.le.encode16 fun _ => True
  | capabilitySet => .of RawSet.encode RawSet.Whole
  | shareControlHeader => shareControlHeaderFormat
  | tsFpUpdate => .of Update.Raw.encode Update.Raw.Whole
  | tsBitmapData => .of Rectangle.Raw.encode Rectangle.Raw.Whole
  | tsInputEvent => tsInputEventFormat

theorem exists_reads (element : Element) :
    ∃ m, element.make = .ok m ∧ Reads element.format m.reader := by
  cases element with
  | channelId =>
    refine ⟨_, rfl, ?_⟩
    rw [Message.reader_u16, ← map_eq_pure_bind]
    exact (exact_readU16 .le).reads.map _
  | capabilitySet =>
    exact ⟨_, rfl, reads_component RawSet.readerFields_node RawSet.exact_reader.reads⟩
  | shareControlHeader =>
    exact ⟨_, rfl, reads_component Frame.readerFields_node Frame.reads_reader⟩
  | tsFpUpdate =>
    exact ⟨_, rfl, reads_component Update.Raw.readerFields_node Update.Raw.exact_reader.reads⟩
  | tsBitmapData =>
    exact ⟨_, rfl, reads_component Rectangle.Raw.readerFields_node Rectangle.Raw.exact_reader.reads⟩
  | tsInputEvent => exact ⟨_, rfl, reads_component readerFields_tsInputEvent reads_readInputEvent⟩

def Lossless (element : Element) (stream : Bytes) : Prop :=
  ∃ m, element.make = .ok m ∧ m.Lossless stream

/--
An array takes a stream that consists of whole elements, and nothing but such a stream is taken
without a loss: no failure of an element is ever reported.
-/
theorem lossless_iff (element : Element) (stream : Bytes) :
    element.Lossless stream ↔ element.format.Whole stream := by
  obtain ⟨m, hmake, hreads⟩ := element.exists_reads
  rw [← Message.lossless_iff_of_reads hreads stream]
  constructor
  . rintro ⟨m', hmake', hlossless⟩
    rw [hmake] at hmake'
    cases hmake'
    exact hlossless
  . exact fun hlossless => ⟨m, hmake, hlossless⟩

def compressed (first : UInt16) : Rectangle.Raw := ⟨⟨0, 0, 0, 0, 1, 1, 16, 1, [7], 0, 0⟩, 9, first, 1⟩

/--
The byte behind the last channel id is dropped, and so is a whole bitmap with a wrong constant.
-/
theorem not_lossless_odd :
    ¬ channelId.Lossless [0xEB, 0x03, 0xEC] ∧ tsBitmapData.Lossless (compressed 0).encode ∧
      ¬ tsBitmapData.Lossless (compressed 1).encode := by
  refine ⟨?_, ?_, ?_⟩
  . rintro ⟨m, hmake, hlossless⟩
    cases hmake
    have hrun : (Message.array [] (some (.leaf (.u16 .le 0)))).reader.run [0xEB, 0x03, 0xEC] =
        .ok (.array [.leaf (.u16 .le 0x03EB)] (some (.leaf (.u16 .le 0)))) [] := rfl
    rw [Message.Lossless, hrun] at hlossless
    cases hlossless with
    | cons head next =>
      cases next
      cases head
  . obtain ⟨m, hmake, hreads⟩ := tsBitmapData.exists_reads
    have hwhole : (compressed 0).Whole := ⟨rfl, by decide, rfl⟩
    have hstream : tsBitmapData.format.Whole ((compressed 0).encode ++ []) := .cons ⟨compressed 0, hwhole, rfl⟩ .nil
    rw [List.append_nil] at hstream
    exact ⟨m, hmake, (Message.lossless_iff_of_reads hreads _).mpr hstream⟩
  . rintro ⟨m, hmake, hlossless⟩
    cases hmake
    have hrun : (Message.array [] (some (.component Global.tsBitmapData))).reader.run (compressed 1).encode =
        .ok (.array [] (some (.component Global.tsBitmapData))) ((compressed 1).encode.drop 20) := rfl
    rw [Message.Lossless, hrun] at hlossless
    cases hlossless

theorem faults_make (element : Element) {m : Message} (h : element.make = .ok m) :
    Faults (· ≠ .diverge) m.reader := by
  -- A header that is too short aborts the read of an element, and nothing else stops it.
  cases element with
  | channelId =>
    cases h
    exact (Message.returns_leaf _).faults
  | capabilitySet =>
    cases h
    exact faults_component Capability.RawSet.readerFields_node RawSet.faults_reader
  | shareControlHeader =>
    cases h
    exact faults_component Frame.readerFields_node Frame.faults_reader
  | tsFpUpdate =>
    cases h
    exact (Message.total_component total_tsFpUpdate).1.faults
  | tsBitmapData =>
    cases h
    exact (Message.total_component total_tsBitmapData).1.faults
  | tsInputEvent =>
    cases h
    exact (Message.total_component (by simp [Global.tsInputEvent])).1.faults

/--
Every element that is read takes at least one byte, so that the loop of the array ends.
-/
theorem make_halts (element : Element) : ∃ m, element.make = .ok m ∧
    (∀ input, (m.read input).outcome = .ok () → (m.read input).rest.length < input.length) ∧
    m.Halts := by
  obtain ⟨m, hmake, hreads⟩ := element.exists_reads
  refine ⟨m, hmake, Message.rest_lt_of_consumes hreads.consumes, ?_⟩
  exact Message.halts_of_consumes hreads.consumes (element.faults_make hmake)

end Element

end Global

end Rdp
