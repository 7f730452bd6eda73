import Rdp.Core.Global.Update

/-!
This module contains the delivery of bitmaps: the events that a fast path payload causes.
-/

namespace Rdp.Global

open Prog Cursor
open Capability (readComponent readComponent_eq)

/--
A rectangle of a bitmap update. The fields of the compression header that are not sizes of the data
come last.
-/
structure Rectangle where
  destLeft : UInt16
  destTop : UInt16
  destRight : UInt16
  destBottom : UInt16
  width : UInt16
  height : UInt16
  bitsPerPixel : UInt16
  flags : UInt16
  data : Bytes
  cbScanWidth : UInt16
  cbUncompressedSize : UInt16

namespace Rectangle

/--
The bitmap is compressed and its header is not left out.
-/
def hasHeader (flags : UInt16) : Bool :=
  flags &&& BitmapFlag.bitmapCompression.toU16 != 0 &&
    flags &&& BitmapFlag.noBitmapCompressionHdr.toU16 == 0

/--
The bytes that `bitmapLength` counts.
-/
def length (rectangle : Rectangle) : Nat :=
  rectangle.data.length + if hasHeader rectangle.flags then 8 else 0

def encode (rectangle : Rectangle) : Bytes :=
  Endian.le.encode16 rectangle.destLeft ++ (Endian.le.encode16 rectangle.destTop ++
    (Endian.le.encode16 rectangle.destRight ++ (Endian.le.encode16 rectangle.destBottom ++
      (Endian.le.encode16 rectangle.width ++ (Endian.le.encode16 rectangle.height ++
        (Endian.le.encode16 rectangle.bitsPerPixel ++ (Endian.le.encode16 rectangle.flags ++
          (Endian.le.encode16 (.ofNat rectangle.length) ++
            ((if hasHeader rectangle.flags then
              Endian.le.encode16 0 ++ (Endian.le.encode16 (.ofNat (rectangle.length - 8)) ++
                (Endian.le.encode16 rectangle.cbScanWidth ++
                  Endian.le.encode16 rectangle.cbUncompressedSize))
            else
              []) ++ rectangle.data)))))))))

def event (rectangle : Rectangle) : RdpEvent := .bitmap {
  destLeft := rectangle.destLeft
  destTop := rectangle.destTop
  destRight := rectangle.destRight
  destBottom := rectangle.destBottom
  width := rectangle.width
  height := rectangle.height
  bpp := rectangle.bitsPerPixel
  isCompress := rectangle.flags &&& BitmapFlag.bitmapCompression.toU16 ≠ 0
  data := rectangle.data
}

/--
A rectangle as it was read: the sizes are the ones of the record.
-/
structure Raw where
  rectangle : Rectangle
  bitmapLength : UInt16
  cbCompFirstRowSize : UInt16
  cbCompMainBodySize : UInt16

namespace Raw

def flagsOption (node : DataType) : RdpResult MessageOption :=
  match node with
  | .u16 flags =>
    if flags &&& BitmapFlag.bitmapCompression.toU16 = 0 ∨
        flags &&& BitmapFlag.noBitmapCompressionHdr.toU16 ≠ 0 then
      .ok (.skipField "bitmapComprHdr")
    else
      .ok .none
  | _ => .ok .none

def headerOption (node : DataType) : RdpResult MessageOption :=
  match node with
  | .component header => do
    let size ← unwrap (castU16 (← field header "cbCompMainBodySize"))
    return .size "bitmapDataStream" size.toNat
  | _ => .ok .none

def header (raw : Raw) : Component := [
  ("cbCompFirstRowSize", .check (.u16 .le raw.cbCompFirstRowSize)),
  ("cbCompMainBodySize", .leaf (.u16 .le raw.cbCompMainBodySize)),
  ("cbScanWidth", .leaf (.u16 .le raw.rectangle.cbScanWidth)),
  ("cbUncompressedSize", .leaf (.u16 .le raw.rectangle.cbUncompressedSize))
]

def node (raw : Raw) : Component := [
  ("destLeft", .leaf (.u16 .le raw.rectangle.destLeft)),
  ("destTop", .leaf (.u16 .le raw.rectangle.destTop)),
  ("destRight", .leaf (.u16 .le raw.rectangle.destRight)),
  ("destBottom", .leaf (.u16 .le raw.rectangle.destBottom)),
  ("width", .leaf (.u16 .le raw.rectangle.width)),
  ("height", .leaf (.u16 .le raw.rectangle.height)),
  ("bitsPerPixel", .leaf (.u16 .le raw.rectangle.bitsPerPixel)),
  ("flags", .dynOption (.leaf (.u16 .le raw.rectangle.flags)) flagsOption),
  ("bitmapLength", .dynOption (.leaf (.u16 .le raw.bitmapLength)) (sizeOf "bitmapDataStream")),
  ("bitmapComprHdr", .dynOption (.component raw.header) headerOption),
  ("bitmapDataStream", .leaf (.bytes raw.rectangle.data))
]

def readHeader : Reader (UInt16 × UInt16 × UInt16 × UInt16) := do
  let first ← readU16 .le
  expect (0 = first)
  let size ← readU16 .le
  let width ← readU16 .le
  let uncompressed ← readU16 .le
  return (first, size, width, uncompressed)

def readHeaderIf (flags : UInt16) : Reader (UInt16 × UInt16 × UInt16 × UInt16) :=
  if hasHeader flags then
    readHeader
  else
    return (0, 0, 0, 0)

def reader : Reader Raw := do
  let destLeft ← readU16 .le
  let destTop ← readU16 .le
  let destRight ← readU16 .le
  let destBottom ← readU16 .le
  let width ← readU16 .le
  let height ← readU16 .le
  let bitsPerPixel ← readU16 .le
  let flags ← readU16 .le
  let bitmapLength ← readU16 .le
  let (cbCompFirstRowSize, cbCompMainBodySize, cbScanWidth, cbUncompressedSize) ← readHeaderIf flags
  let data ← readExact (if hasHeader flags then cbCompMainBodySize else bitmapLength).toNat
  return ⟨⟨destLeft, destTop, destRight, destBottom, width, height, bitsPerPixel, flags, data,
    cbScanWidth, cbUncompressedSize⟩, bitmapLength, cbCompFirstRowSize, cbCompMainBodySize⟩

def template : Raw := ⟨⟨0, 0, 0, 0, 0, 0, 0, 0, [], 0, 0⟩, 0, 0, 0⟩

theorem tsBitmapData_eq : tsBitmapData = node template := rfl

theorem flagsOption_eq (flags : UInt16) :
    flagsOption (.u16 flags) =
      .ok (if hasHeader flags then .none else .skipField "bitmapComprHdr") := by
  unfold flagsOption hasHeader
  by_cases hcompress : flags &&& BitmapFlag.bitmapCompression.toU16 = 0
  . simp [hcompress]
  . by_cases hheader : flags &&& BitmapFlag.noBitmapCompressionHdr.toU16 = 0 <;>
      simp [hcompress, hheader]

theorem headerOption_header (first size width uncompressed : UInt16) :
    headerOption (.component (Message.visitFields [("cbCompFirstRowSize", .check (.u16 .le first)),
      ("cbCompMainBodySize", .leaf (.u16 .le size)), ("cbScanWidth", .leaf (.u16 .le width)),
      ("cbUncompressedSize", .leaf (.u16 .le uncompressed))])) =
    .ok (.size "bitmapDataStream" size.toNat) := rfl

theorem readerFields_node : Message.readerFields [] [] (node template) = node <$> reader := by
  have hheader : template.header = tsCdHeader := rfl
  simp only [node, hheader]
  simp only [reader, readHeaderIf, template]
  simp [Message.visit, Leaf.visit, flagsOption_eq]
  repeat refine bind_congr fun _ => ?_
  rename_i flags
  cases hasHeader flags with
  | false =>
    simp [Message.visit, Leaf.visit, sizeOf, limited_readToEnd]
    rfl
  | true =>
    simp [Message.visit, Leaf.visit, sizeOf, List.lookup_cons, readerFields_tsCdHeader, readHeader,
      headerOption_header, limited_readToEnd]
    repeat refine bind_congr fun _ => ?_
    rfl

/--
The bytes of a record. What it holds of a header that is left out is not among them.
-/
def encode (raw : Raw) : Bytes :=
  Endian.le.encode16 raw.rectangle.destLeft ++ (Endian.le.encode16 raw.rectangle.destTop ++
    (Endian.le.encode16 raw.rectangle.destRight ++ (Endian.le.encode16 raw.rectangle.destBottom ++
      (Endian.le.encode16 raw.rectangle.width ++ (Endian.le.encode16 raw.rectangle.height ++
        (Endian.le.encode16 raw.rectangle.bitsPerPixel ++ (Endian.le.encode16 raw.rectangle.flags ++
          (Endian.le.encode16 raw.bitmapLength ++
            ((if hasHeader raw.rectangle.flags then
              Endian.le.encode16 raw.cbCompFirstRowSize ++ (Endian.le.encode16 raw.cbCompMainBodySize ++
                (Endian.le.encode16 raw.rectangle.cbScanWidth ++
                  Endian.le.encode16 raw.rectangle.cbUncompressedSize))
            else
              []) ++ raw.rectangle.data)))))))))

def headerValues (raw : Raw) : UInt16 × UInt16 × UInt16 × UInt16 :=
  (raw.cbCompFirstRowSize, raw.cbCompMainBodySize, raw.rectangle.cbScanWidth,
    raw.rectangle.cbUncompressedSize)

/--
The data has the size that counts, which is the one of the compression header if there is one.
-/
structure Whole (raw : Raw) : Prop where
  first : raw.cbCompFirstRowSize = 0
  header : hasHeader raw.rectangle.flags = false → raw.headerValues = (0, 0, 0, 0)
  data : raw.rectangle.data.length =
    (if hasHeader raw.rectangle.flags then raw.cbCompMainBodySize else raw.bitmapLength).toNat

theorem run_readHeaderIf_eq_ok {flags : UInt16} {values : UInt16 × UInt16 × UInt16 × UInt16}
    {input rest : Bytes} :
    (readHeaderIf flags).run input = .ok values rest ↔
      values.1 = 0 ∧ (hasHeader flags = false → values = (0, 0, 0, 0)) ∧
      input = (if hasHeader flags then Endian.le.encode16 values.1 ++ (Endian.le.encode16 values.2.1 ++
        (Endian.le.encode16 values.2.2.1 ++ Endian.le.encode16 values.2.2.2)) else []) ++ rest := by
  unfold readHeaderIf
  cases hasHeader flags with
  | false =>
    constructor
    . intro h
      cases h
      exact ⟨rfl, fun _ => rfl, rfl⟩
    . rintro ⟨_, hvalues, rfl⟩
      rw [hvalues rfl]
      rfl
  | true =>
    rw [if_pos rfl, if_pos rfl]
    constructor
    . intro h
      obtain ⟨first, s₁, hfirst, h⟩ := run_bind_eq_ok h
      obtain ⟨_, s₂, hexpect, h⟩ := run_bind_eq_ok h
      obtain ⟨size, s₃, hsize, h⟩ := run_bind_eq_ok h
      obtain ⟨width, s₄, hwidth, h⟩ := run_bind_eq_ok h
      obtain ⟨uncompressed, s₅, huncompressed, h⟩ := run_bind_eq_ok h
      cases h
      obtain ⟨hzero, rfl⟩ := run_expect_eq_ok.mp hexpect
      refine ⟨(of_decide_eq_true hzero).symm, by simp, ?_⟩
      rw [run_readU16_iff_encode16.mp hfirst, run_readU16_iff_encode16.mp hsize,
        run_readU16_iff_encode16.mp hwidth, run_readU16_iff_encode16.mp huncompressed]
      simp only [List.append_assoc]
    . obtain ⟨first, size, width, uncompressed⟩ := values
      rintro ⟨rfl, _, rfl⟩
      simp only [List.append_assoc]
      refine run_bind_eq_ok_iff.mpr ⟨0, _, run_readU16_encode16 _ _ 0, ?_⟩
      refine run_bind_eq_ok_iff.mpr ⟨(), _, rfl, ?_⟩
      refine run_bind_eq_ok_iff.mpr ⟨size, _, run_readU16_encode16 _ _ _, ?_⟩
      refine run_bind_eq_ok_iff.mpr ⟨width, _, run_readU16_encode16 _ _ _, ?_⟩
      exact run_bind_eq_ok_iff.mpr ⟨uncompressed, _, run_readU16_encode16 _ _ _, rfl⟩

theorem run_reader_eq_ok {raw : Raw} {input rest : Bytes} :
    reader.run input = .ok raw rest ↔ raw.Whole ∧ input = raw.encode ++ rest := by
  constructor
  . intro h
    obtain ⟨destLeft, s₁, h₁, h⟩ := run_bind_eq_ok h
    obtain ⟨destTop, s₂, h₂, h⟩ := run_bind_eq_ok h
    obtain ⟨destRight, s₃, h₃, h⟩ := run_bind_eq_ok h
    obtain ⟨destBottom, s₄, h₄, h⟩ := run_bind_eq_ok h
    obtain ⟨width, s₅, h₅, h⟩ := run_bind_eq_ok h
    obtain ⟨height, s₆, h₆, h⟩ := run_bind_eq_ok h
    obtain ⟨bitsPerPixel, s₇, h₇, h⟩ := run_bind_eq_ok h
    obtain ⟨flags, s₈, h₈, h⟩ := run_bind_eq_ok h
    obtain ⟨bitmapLength, s₉, h₉, h⟩ := run_bind_eq_ok h
    obtain ⟨values, s₁₀, h₁₀, h⟩ := run_bind_eq_ok h
    obtain ⟨data, s₁₁, h₁₁, h⟩ := run_bind_eq_ok h
    cases h
    obtain ⟨hfirst, hvalues, rfl⟩ := run_readHeaderIf_eq_ok.mp h₁₀
    obtain ⟨rfl, hdata⟩ := run_readExact_eq_ok.mp h₁₁
    refine ⟨⟨hfirst, hvalues, hdata⟩, ?_⟩
    rw [run_readU16_iff_encode16.mp h₁, run_readU16_iff_encode16.mp h₂, run_readU16_iff_encode16.mp h₃,
      run_readU16_iff_encode16.mp h₄, run_readU16_iff_encode16.mp h₅, run_readU16_iff_encode16.mp h₆,
      run_readU16_iff_encode16.mp h₇, run_readU16_iff_encode16.mp h₈, run_readU16_iff_encode16.mp h₉]
    simp only [encode, List.append_assoc]
  . rintro ⟨hwhole, rfl⟩
    unfold reader encode
    simp only [List.append_assoc]
    refine run_bind_eq_ok_iff.mpr ⟨_, _, run_readU16_encode16 _ _ _, ?_⟩
    refine run_bind_eq_ok_iff.mpr ⟨_, _, run_readU16_encode16 _ _ _, ?_⟩
    refine run_bind_eq_ok_iff.mpr ⟨_, _, run_readU16_encode16 _ _ _, ?_⟩
    refine run_bind_eq_ok_iff.mpr ⟨_, _, run_readU16_encode16 _ _ _, ?_⟩
    refine run_bind_eq_ok_iff.mpr ⟨_, _, run_readU16_encode16 _ _ _, ?_⟩
    refine run_bind_eq_ok_iff.mpr ⟨_, _, run_readU16_encode16 _ _ _, ?_⟩
    refine run_bind_eq_ok_iff.mpr ⟨_, _, run_readU16_encode16 _ _ _, ?_⟩
    refine run_bind_eq_ok_iff.mpr ⟨_, _, run_readU16_encode16 _ _ _, ?_⟩
    refine run_bind_eq_ok_iff.mpr ⟨_, _, run_readU16_encode16 _ _ _, ?_⟩
    refine run_bind_eq_ok_iff.mpr ⟨raw.headerValues, _,
      run_readHeaderIf_eq_ok.mpr ⟨hwhole.first, hwhole.header, rfl⟩, ?_⟩
    exact run_bind_eq_ok_iff.mpr ⟨_, _, run_readExact_append rest hwhole.data, rfl⟩

theorem length_pos_encode (raw : Raw) : 0 < raw.encode.length := by
  simp [encode, Endian.encode16, Endian.order]

theorem run_reader_nil : reader.run [] = .error (.error (.io .unexpectedEof)) [] := rfl

theorem exact_reader : Exact encode Whole reader where
  run_eq_ok _ _ _ := run_reader_eq_ok
  length_pos := length_pos_encode
  run_nil := ⟨_, run_reader_nil⟩

end Raw

variable {rectangle : Rectangle}

def raw (rectangle : Rectangle) : Raw :=
  if hasHeader rectangle.flags then
    ⟨rectangle, .ofNat rectangle.length, 0, .ofNat (rectangle.length - 8)⟩
  else
    ⟨{ rectangle with cbScanWidth := 0, cbUncompressedSize := 0 }, .ofNat rectangle.length, 0, 0⟩

theorem encode_raw (rectangle : Rectangle) : rectangle.raw.encode = rectangle.encode := by
  cases hheader : hasHeader rectangle.flags <;> simp [raw, Raw.encode, encode, hheader]

theorem whole_raw (h : rectangle.length < 2 ^ 16) : rectangle.raw.Whole := by
  have hdata : rectangle.data.length < 2 ^ 16 := Nat.lt_of_le_of_lt (Nat.le_add_right _ _) h
  unfold raw length
  cases hheader : hasHeader rectangle.flags with
  | false =>
    refine ⟨rfl, fun _ => rfl, ?_⟩
    simp only [Bool.false_eq_true, if_false, hheader, Nat.add_zero]
    exact (UInt16.toNat_ofNat_of_lt' hdata).symm
  | true =>
    refine ⟨rfl, ?_, ?_⟩
    . simp [hheader]
    . simp only [if_true, hheader, Nat.add_sub_cancel]
      exact (UInt16.toNat_ofNat_of_lt' hdata).symm

theorem run_reader_encode (h : rectangle.length < 2 ^ 16) (rest : Bytes) :
    Raw.reader.run (rectangle.encode ++ rest) = .ok rectangle.raw rest := by
  rw [← encode_raw]
  exact Raw.run_reader_eq_ok.mpr ⟨whole_raw h, rfl⟩

theorem event_raw (rectangle : Rectangle) : rectangle.raw.rectangle.event = rectangle.event := by
  unfold raw
  split <;> rfl

theorem run_elements_encode {rectangles : List Rectangle}
    (h : ∀ rectangle ∈ rectangles, rectangle.length < 2 ^ 16) :
    (elements Raw.reader).run (rectangles.flatMap encode) = .ok (rectangles.map raw) [] :=
  run_elements_flatMap Raw.exact_reader.consumes
    (fun rectangle hrectangle => run_reader_encode (h rectangle hrectangle)) Raw.run_reader_nil

theorem length_le_encode (rectangle : Rectangle) : rectangle.length ≤ rectangle.encode.length := by
  unfold encode length
  cases hasHeader rectangle.flags with
  | false =>
    simp only [Bool.false_eq_true, if_false, List.length_append, List.length_nil]
    omega
  | true =>
    simp only [if_true, List.length_append]
    simp [Endian.encode16, Endian.order]
    omega

end Rectangle

/--
The data of a bitmap update. The number that it announces can be any.
-/
def bitmapData (number : UInt16) (rectangles : List Rectangle) : Bytes :=
  Endian.le.encode16 1 ++ (Endian.le.encode16 number ++ rectangles.flatMap Rectangle.encode)

/--
An update that is neither a fragment nor compressed: the bitmap ones, which have the code 1, and the
other ones with any data.
-/
inductive Sent where
  | bitmap (number : UInt16) (rectangles : List Rectangle)
    (length_lt : (bitmapData number rectangles).length < 2 ^ 16)
  | other (code : UInt8) (data : Bytes) (code_lt : code.toNat < 16) (code_ne : code ≠ 1)
    (length_lt : data.length < 2 ^ 16)

namespace Sent

def update (sent : Sent) : Update :=
  match sent with
  | bitmap number rectangles length_lt => ⟨1, 0, bitmapData number rectangles, length_lt⟩
  | other code data _ _ length_lt => ⟨code, 0, data, length_lt⟩

def encode (sent : Sent) : Bytes := sent.update.encode

def events (sent : Sent) : List RdpEvent :=
  match sent with
  | bitmap _ rectangles _ => rectangles.map Rectangle.event
  | other _ _ _ _ _ => []

theorem header_agrees (sent : Sent) :
    Update.compressed sent.update.header = Update.flagged sent.update.header := by
  have hcodes : ∀ n < 16, Update.compressed (.ofNat n) = Update.flagged (.ofNat n) := by decide
  cases sent with
  | bitmap number rectangles _ => exact hcodes 1 (by decide)
  | other code _ code_lt _ _ =>
    have hcode := hcodes code.toNat code_lt
    rwa [UInt8.ofNat_toNat] at hcode

end Sent

namespace Client

theorem run_deliverRectangles (raws : List Rectangle.Raw) (s : Session) :
    (deliverRectangles (raws.map fun raw => .component (Message.visitFields raw.node))).run s =
      .ok () { s with events := s.events ++ raws.map fun raw => raw.rectangle.event } := by
  induction raws generalizing s with
  | nil =>
    rw [List.map_nil, List.map_nil, List.append_nil]
    rfl
  | cons raw raws ih =>
    rw [List.map_cons, deliverRectangles]
    refine run_bind_eq_ok_iff.mpr ⟨_, s, rfl, ?_⟩
    refine run_bind_eq_ok_iff.mpr ⟨(), _, rfl, ?_⟩
    rw [ih, List.map_cons]
    simp only [List.append_assoc, List.cons_append, List.nil_append]
    rfl

/--
The message of a bitmap update. What follows the records that could be read is not in it.
-/
def bitmapFields (number : UInt16) (raws : List Rectangle.Raw) : Component := [
  ("header", .check (.u16 .le 1)),
  ("numberRectangles", .leaf (.u16 .le number)),
  ("rectangles", .array ((raws.map Rectangle.Raw.node).map .component)
    (some (.component tsBitmapData)))
]

theorem readComponent_tsFpUpdateBitmap {data : Bytes} {message : Component} :
    readComponent tsFpUpdateBitmap.message data = .ok message ↔
      ∃ number stream raws rest, data = Endian.le.encode16 1 ++ (Endian.le.encode16 number ++ stream) ∧
        (elements Rectangle.Raw.reader).run stream = .ok raws rest ∧
        message = bitmapFields number raws := by
  have helements : elements (Message.readerFields [] [] tsBitmapData) =
      List.map Rectangle.Raw.node <$> elements Rectangle.Raw.reader := by
    rw [Rectangle.Raw.tsBitmapData_eq, Rectangle.Raw.readerFields_node, elements_map]
  rw [readComponent_eq, readerFields_tsFpUpdateBitmap, parse_eq_ok, helements]
  constructor
  . rintro ⟨rest, h⟩
    obtain ⟨header, s₁, hheader, h⟩ := run_bind_eq_ok h
    obtain ⟨_, s₂, hexpect, h⟩ := run_bind_eq_ok h
    obtain ⟨number, s₃, hnumber, h⟩ := run_bind_eq_ok h
    obtain ⟨nodes, s₄, hnodes, h⟩ := run_bind_eq_ok h
    cases h
    obtain ⟨hone, rfl⟩ := run_expect_eq_ok.mp hexpect
    obtain ⟨raws, hraws, rfl⟩ := run_map_eq_ok.mp hnodes
    cases of_decide_eq_true hone
    refine ⟨number, s₃, raws, rest, ?_, hraws, rfl⟩
    rw [run_readU16_iff_encode16.mp hheader, run_readU16_iff_encode16.mp hnumber]
    rfl
  . rintro ⟨number, stream, raws, rest, rfl, hraws, rfl⟩
    refine ⟨rest, ?_⟩
    refine run_bind_eq_ok_iff.mpr ⟨1, _, run_readU16_encode16 _ _ 1, ?_⟩
    refine run_bind_eq_ok_iff.mpr ⟨(), _, rfl, ?_⟩
    refine run_bind_eq_ok_iff.mpr ⟨number, _, run_readU16_encode16 _ _ _, ?_⟩
    exact run_bind_eq_ok_iff.mpr ⟨_, _, run_map_eq_ok.mpr ⟨raws, hraws, rfl⟩, rfl⟩

theorem fromFp_node (raw : Update.Raw) :
    FastPathUpdate.fromFp (Message.visitFields raw.node) = (do
      let fpType ← FastPathUpdateType.tryFrom (raw.header &&& 0xf)
      let result ← FastPathUpdate.template fpType
      let message ← readComponent result.message raw.data
      return { result with message }) := rfl

theorem tryFrom_of_fromFp {raw : Update.Raw} {order : FastPathUpdate}
    (h : FastPathUpdate.fromFp (Message.visitFields raw.node) = .ok order) :
    FastPathUpdateType.tryFrom (raw.header &&& 0xf) = .ok order.fpType := by
  rw [fromFp_node] at h
  obtain ⟨fpType, htype, h⟩ := Except.bind_eq_ok h
  obtain ⟨result, htemplate, h⟩ := Except.bind_eq_ok h
  obtain ⟨message, _, h⟩ := Except.bind_eq_ok h
  cases h
  have hsame : result.fpType = fpType := by
    unfold FastPathUpdate.template at htemplate
    split at htemplate <;> cases htemplate <;> rfl
  rw [hsame]
  exact htype

theorem eq_one_of_tryFrom {code : UInt8} (h : FastPathUpdateType.tryFrom code = .ok .fastpathUpdatetypeBitmap) :
    code = 1 := by
  unfold FastPathUpdateType.tryFrom at h
  split at h <;> cases h
  exact UInt8.toNat_inj.mp ‹_›

theorem run_deliverUpdates_other {code : UInt8} (hlt : code.toNat < 16) (hne : code ≠ 1)
    {raw : Update.Raw} (hraw : raw.header = code) (ds : List DataType) :
    deliverUpdates (.component (Message.visitFields raw.node) :: ds) = deliverUpdates ds := by
  have hcode : raw.header &&& 0xf = code := by
    have hcodes : ∀ n < 16, UInt8.ofNat n &&& 0xf = UInt8.ofNat n := by decide
    rw [hraw, ← UInt8.ofNat_toNat (x := code)]
    exact hcodes code.toNat hlt
  have hnodes : raw.node.map Prod.fst = tsFpUpdate.map Prod.fst := rfl
  rw [deliverUpdates, parseUpdate]
  rw [castComponent, Except.ok_bind]
  rcases Except.cases_of_not_aborts (FastPathUpdate.not_aborts_fromFp hnodes)
    with ⟨order, horder⟩ | ⟨e, he⟩
  . have htype := tryFrom_of_fromFp horder
    rw [hcode] at htype
    have hbitmap : order.fpType ≠ .fastpathUpdatetypeBitmap := by
      intro hbitmap
      rw [hbitmap] at htype
      exact hne (eq_one_of_tryFrom htype)
    rw [horder]
    change (lift (.ok (some order)) >>= _) = _
    rw [lift_ok, pure_bind]
    dsimp only
    rw [deliverUpdate, if_neg hbitmap, pure_bind]
  . rw [he]
    change (lift (.ok none) >>= _) = _
    rw [lift_ok, pure_bind]

theorem run_deliverUpdates_bitmap {raw : Update.Raw} (hcode : raw.header &&& 0xf = 1) {number : UInt16}
    {raws : List Rectangle.Raw}
    (hread : readComponent tsFpUpdateBitmap.message raw.data = .ok (bitmapFields number raws))
    (ds : List DataType) (s : Session) :
    (deliverUpdates (.component (Message.visitFields raw.node) :: ds)).run s =
      (deliverUpdates ds).run { s with events := s.events ++ raws.map fun raw => raw.rectangle.event } := by
  have hparse : FastPathUpdate.fromFp (Message.visitFields raw.node) =
      .ok ⟨.fastpathUpdatetypeBitmap, bitmapFields number raws⟩ := by
    rw [fromFp_node, hcode]
    change (readComponent tsFpUpdateBitmap.message raw.data >>= _) = _
    rw [hread]
    rfl
  have hrectangles : Message.visitTrame ((raws.map Rectangle.Raw.node).map .component) =
      raws.map fun raw => .component (Message.visitFields raw.node) := by
    rw [Message.visitTrame_eq_map, List.map_map, List.map_map]
    rfl
  have hdeliver : (deliverUpdate ⟨.fastpathUpdatetypeBitmap, bitmapFields number raws⟩).run s =
      .ok () { s with events := s.events ++ raws.map fun raw => raw.rectangle.event } := by
    rw [deliverUpdate, if_pos rfl]
    refine run_bind_eq_ok_iff.mpr ⟨Message.visitTrame _, s, rfl, ?_⟩
    rw [hrectangles]
    exact run_deliverRectangles raws s
  rw [deliverUpdates, parseUpdate]
  simp only [castComponent, Except.ok_bind, hparse]
  rw [show (return some _ : RdpResult (Option FastPathUpdate)) = .ok (some _) from rfl, lift_ok, pure_bind,
    EStateM.run_bind, hdeliver]

theorem readComponent_bitmapData {number : UInt16} {rectangles : List Rectangle}
    (h : (bitmapData number rectangles).length < 2 ^ 16) :
    readComponent tsFpUpdateBitmap.message (bitmapData number rectangles) =
      .ok (bitmapFields number (rectangles.map Rectangle.raw)) := by
  have hlength : ∀ rectangle ∈ rectangles, rectangle.length < 2 ^ 16 := by
    intro rectangle hrectangle
    refine Nat.lt_of_le_of_lt rectangle.length_le_encode (Nat.lt_of_le_of_lt ?_ h)
    have hpart := List.sublist_flatten_of_mem (List.mem_map_of_mem (f := Rectangle.encode) hrectangle)
    refine Nat.le_trans hpart.length_le ?_
    rw [bitmapData, List.length_append, List.length_append]
    exact Nat.le_trans (Nat.le_add_left _ _) (Nat.le_add_left _ _)
  exact readComponent_tsFpUpdateBitmap.mpr
    ⟨number, _, _, [], rfl, Rectangle.run_elements_encode hlength, rfl⟩

theorem run_deliverUpdates (payload : List Sent) (s : Session) :
    (deliverUpdates (payload.map fun sent => .component (Message.visitFields sent.update.raw.node))).run s =
      .ok () { s with events := s.events ++ payload.flatMap Sent.events } := by
  induction payload generalizing s with
  | nil =>
    rw [List.map_nil, List.flatMap_nil, List.append_nil]
    rfl
  | cons sent payload ih =>
    rw [List.map_cons, List.flatMap_cons, ← List.append_assoc]
    cases sent with
    | bitmap number rectangles h =>
      have hevents : ((rectangles.map Rectangle.raw).map fun raw => raw.rectangle.event) =
          rectangles.map Rectangle.event := by
        rw [List.map_map]
        exact List.map_congr_left fun rectangle _ => rectangle.event_raw
      have hone : (1 : UInt8) &&& 0xf = 1 := by decide
      have hdeliver := @run_deliverUpdates_bitmap (Sent.bitmap number rectangles h).update.raw hone
        number _ (readComponent_bitmapData h)
      rw [hdeliver, ih, hevents]
      rfl
    | other code data code_lt code_ne h =>
      rw [run_deliverUpdates_other code_lt code_ne rfl, ih, Sent.events, List.append_nil]

/--
A payload of complete updates delivers every rectangle of its bitmap updates once, in the order of
the stream, and nothing else.
-/
theorem run_readFastPath (payload : List Sent) (s : Session) :
    (readFastPath (payload.flatMap Sent.encode)).run s =
      .ok () { s with events := s.events ++ payload.flatMap Sent.events } := by
  have harray : readArray tsFpUpdate (payload.flatMap Sent.encode) =
      .ok (payload.map fun sent => .component (Message.visitFields sent.update.raw.node)) := by
    have hupdates := @Update.readArray_encode (payload.map Sent.update)
      (by simpa using fun sent _ => Sent.header_agrees sent)
    rwa [List.flatMap_map, List.map_map] at hupdates
  unfold readFastPath
  rw [harray, lift_ok, pure_bind]
  exact run_deliverUpdates payload s

end Client

end Rdp.Global
