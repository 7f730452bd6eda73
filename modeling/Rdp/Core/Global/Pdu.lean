import Rdp.Core.Capability.Impl

/-!
This module contains the PDUs of the global channel: the ones of the connection sequence, the input
events, and the updates of the screen.
-/

namespace Rdp.Global

open Capability (capabilitySet readComponent)
open Gcc (KeyboardLayout)

inductive PDUType where
  | pdutypeDemandactivepdu
  | pdutypeConfirmactivepdu
  | pdutypeDeactivateallpdu
  | pdutypeDatapdu
  | pdutypeServerRedirPkt
  deriving DecidableEq, Repr

namespace PDUType

def toU16 (t : PDUType) : UInt16 :=
  match t with
  | .pdutypeDemandactivepdu => 0x11
  | .pdutypeConfirmactivepdu => 0x13
  | .pdutypeDeactivateallpdu => 0x16
  | .pdutypeDatapdu => 0x17
  | .pdutypeServerRedirPkt => 0x1A

def tryFrom (v : UInt16) : RdpResult PDUType :=
  match v.toNat with
  | 0x11 => .ok .pdutypeDemandactivepdu
  | 0x13 => .ok .pdutypeConfirmactivepdu
  | 0x16 => .ok .pdutypeDeactivateallpdu
  | 0x17 => .ok .pdutypeDatapdu
  | 0x1A => .ok .pdutypeServerRedirPkt
  | _ => .error (.error .enumConversion)

end PDUType

structure PDU where
  pduType : PDUType
  message : Component

def sizeOf (name : String) (node : DataType) : RdpResult MessageOption :=
  match node with
  | .u16 length => .ok (.size name length.toNat)
  | _ => .ok .none

/--
The size of the field is the length without the bytes of the header it counts.
-/
def sizeWithout (header : Nat) (name : String) (node : DataType) : RdpResult MessageOption :=
  match node with
  | .u16 length => do return .size name (← checkedSub length.toNat header)
  | _ => .ok .none

/--
`length() as u16 + header`.
-/
def headedLength (length header : Nat) : RdpResult UInt16 := do
  return .ofNat (← checkedAdd 16 (UInt16.ofNat length).toNat header)

def tsDemandActivePdu : RdpResult PDU := do
  let capabilitySet ← capabilitySet none
  return {
    pduType := .pdutypeDemandactivepdu
    message := [
      ("shareId", .leaf (.u32 .le 0)),
      ("lengthSourceDescriptor", .dynOption (.leaf (.u16 .le 0)) (sizeOf "sourceDescriptor")),
      ("lengthCombinedCapabilities",
        .dynOption (.leaf (.u16 .le 0)) (sizeWithout 4 "capabilitySets")),
      ("sourceDescriptor", .leaf (.bytes [])),
      ("numberCapabilities", .leaf (.u16 .le 0)),
      ("pad2Octets", .leaf (.u16 .le 0)),
      ("capabilitySets", .array [] (some (.component capabilitySet))),
      ("sessionId", .leaf (.u32 .le 0))
    ]
  }

/--
The sets of an `Array`, and without one an array that reads sets.
-/
def tsConfirmActivePdu (shareId : Option UInt32) (source : Option Bytes)
    (capabilitiesSet : Option Trame) : RdpResult PDU := do
  let capabilitySet ← capabilitySet none
  let sets : Message :=
    match capabilitiesSet with
    | some sets => .array sets none
    | none => .array [] (some (.component capabilitySet))
  let source := source.getD []
  let length ← headedLength (← sets.length) 4
  return {
    pduType := .pdutypeConfirmactivepdu
    message := [
      ("shareId", .leaf (.u32 .le (shareId.getD 0))),
      ("originatorId", .check (.u16 .le 0x03EA)),
      ("lengthSourceDescriptor",
        .dynOption (.leaf (.u16 .le (.ofNat source.length))) (sizeOf "sourceDescriptor")),
      ("lengthCombinedCapabilities",
        .dynOption (.leaf (.u16 .le length)) (sizeWithout 4 "capabilitySets")),
      ("sourceDescriptor", .leaf (.bytes source)),
      ("numberCapabilities", .leaf (.u16 .le (.ofNat (capabilitiesSet.getD []).length))),
      ("pad2Octets", .leaf (.u16 .le 0)),
      ("capabilitySets", sets)
    ]
  }

def tsDeactivateAllPdu : PDU where
  pduType := .pdutypeDeactivateallpdu
  message := [
    ("shareId", .leaf (.u32 .le 0)),
    ("lengthSourceDescriptor", .dynOption (.leaf (.u16 .le 0)) (sizeOf "sourceDescriptor")),
    ("sourceDescriptor", .leaf (.bytes []))
  ]

inductive PDUType2 where
  | pdutype2Update
  | pdutype2Control
  | pdutype2Pointer
  | pdutype2Input
  | pdutype2Synchronize
  | pdutype2RefreshRect
  | pdutype2PlaySound
  | pdutype2SuppressOutput
  | pdutype2ShutdownRequest
  | pdutype2ShutdownDenied
  | pdutype2SaveSessionInfo
  | pdutype2Fontlist
  | pdutype2Fontmap
  | pdutype2SetKeyboardIndicators
  | pdutype2BitmapcachePersistentList
  | pdutype2BitmapcacheErrorPdu
  | pdutype2SetKeyboardImeStatus
  | pdutype2OffscrcacheErrorPdu
  | pdutype2SetErrorInfoPdu
  | pdutype2DrawninegridErrorPdu
  | pdutype2DrawgdiplusErrorPdu
  | pdutype2ArcStatusPdu
  | pdutype2StatusInfoPdu
  | pdutype2MonitorLayoutPdu
  | unknown
  deriving DecidableEq, Repr

namespace PDUType2

def toU8 (t : PDUType2) : UInt8 :=
  match t with
  | .pdutype2Update => 0x02
  | .pdutype2Control => 0x14
  | .pdutype2Pointer => 0x1B
  | .pdutype2Input => 0x1C
  | .pdutype2Synchronize => 0x1F
  | .pdutype2RefreshRect => 0x21
  | .pdutype2PlaySound => 0x22
  | .pdutype2SuppressOutput => 0x23
  | .pdutype2ShutdownRequest => 0x24
  | .pdutype2ShutdownDenied => 0x25
  | .pdutype2SaveSessionInfo => 0x26
  | .pdutype2Fontlist => 0x27
  | .pdutype2Fontmap => 0x28
  | .pdutype2SetKeyboardIndicators => 0x29
  | .pdutype2BitmapcachePersistentList => 0x2B
  | .pdutype2BitmapcacheErrorPdu => 0x2C
  | .pdutype2SetKeyboardImeStatus => 0x2D
  | .pdutype2OffscrcacheErrorPdu => 0x2E
  | .pdutype2SetErrorInfoPdu => 0x2F
  | .pdutype2DrawninegridErrorPdu => 0x30
  | .pdutype2DrawgdiplusErrorPdu => 0x31
  | .pdutype2ArcStatusPdu => 0x32
  | .pdutype2StatusInfoPdu => 0x36
  | .pdutype2MonitorLayoutPdu => 0x37
  | .unknown => 0x38

/--
`Unknown` stands for the number after the last one.
-/
def tryFrom (v : UInt8) : RdpResult PDUType2 :=
  match v.toNat with
  | 0x02 => .ok .pdutype2Update
  | 0x14 => .ok .pdutype2Control
  | 0x1B => .ok .pdutype2Pointer
  | 0x1C => .ok .pdutype2Input
  | 0x1F => .ok .pdutype2Synchronize
  | 0x21 => .ok .pdutype2RefreshRect
  | 0x22 => .ok .pdutype2PlaySound
  | 0x23 => .ok .pdutype2SuppressOutput
  | 0x24 => .ok .pdutype2ShutdownRequest
  | 0x25 => .ok .pdutype2ShutdownDenied
  | 0x26 => .ok .pdutype2SaveSessionInfo
  | 0x27 => .ok .pdutype2Fontlist
  | 0x28 => .ok .pdutype2Fontmap
  | 0x29 => .ok .pdutype2SetKeyboardIndicators
  | 0x2B => .ok .pdutype2BitmapcachePersistentList
  | 0x2C => .ok .pdutype2BitmapcacheErrorPdu
  | 0x2D => .ok .pdutype2SetKeyboardImeStatus
  | 0x2E => .ok .pdutype2OffscrcacheErrorPdu
  | 0x2F => .ok .pdutype2SetErrorInfoPdu
  | 0x30 => .ok .pdutype2DrawninegridErrorPdu
  | 0x31 => .ok .pdutype2DrawgdiplusErrorPdu
  | 0x32 => .ok .pdutype2ArcStatusPdu
  | 0x36 => .ok .pdutype2StatusInfoPdu
  | 0x37 => .ok .pdutype2MonitorLayoutPdu
  | 0x38 => .ok .unknown
  | _ => .error (.error .enumConversion)

def debug (t : PDUType2) : String :=
  match t with
  | .pdutype2Update => "Pdutype2Update"
  | .pdutype2Control => "Pdutype2Control"
  | .pdutype2Pointer => "Pdutype2Pointer"
  | .pdutype2Input => "Pdutype2Input"
  | .pdutype2Synchronize => "Pdutype2Synchronize"
  | .pdutype2RefreshRect => "Pdutype2RefreshRect"
  | .pdutype2PlaySound => "Pdutype2PlaySound"
  | .pdutype2SuppressOutput => "Pdutype2SuppressOutput"
  | .pdutype2ShutdownRequest => "Pdutype2ShutdownRequest"
  | .pdutype2ShutdownDenied => "Pdutype2ShutdownDenied"
  | .pdutype2SaveSessionInfo => "Pdutype2SaveSessionInfo"
  | .pdutype2Fontlist => "Pdutype2Fontlist"
  | .pdutype2Fontmap => "Pdutype2Fontmap"
  | .pdutype2SetKeyboardIndicators => "Pdutype2SetKeyboardIndicators"
  | .pdutype2BitmapcachePersistentList => "Pdutype2BitmapcachePersistentList"
  | .pdutype2BitmapcacheErrorPdu => "Pdutype2BitmapcacheErrorPdu"
  | .pdutype2SetKeyboardImeStatus => "Pdutype2SetKeyboardImeStatus"
  | .pdutype2OffscrcacheErrorPdu => "Pdutype2OffscrcacheErrorPdu"
  | .pdutype2SetErrorInfoPdu => "Pdutype2SetErrorInfoPdu"
  | .pdutype2DrawninegridErrorPdu => "Pdutype2DrawninegridErrorPdu"
  | .pdutype2DrawgdiplusErrorPdu => "Pdutype2DrawgdiplusErrorPdu"
  | .pdutype2ArcStatusPdu => "Pdutype2ArcStatusPdu"
  | .pdutype2StatusInfoPdu => "Pdutype2StatusInfoPdu"
  | .pdutype2MonitorLayoutPdu => "Pdutype2MonitorLayoutPdu"
  | .unknown => "Unknown"

end PDUType2

def shareDataHeader (shareId : Option UInt32) (pduType2 : Option PDUType2) (message : Option Bytes) :
    RdpResult PDU := do
  let message := message.getD []
  let length ← headedLength message.length 18
  return {
    pduType := .pdutypeDatapdu
    message := [
      ("shareId", .leaf (.u32 .le (shareId.getD 0))),
      ("pad1", .leaf (.u8 0)),
      ("streamId", .leaf (.u8 1)),
      ("uncompressedLength", .dynOption (.leaf (.u16 .le length)) (sizeWithout 18 "payload")),
      ("pduType2", .leaf (.u8 (pduType2.getD .pdutype2ArcStatusPdu).toU8)),
      ("compressedType", .leaf (.u8 0)),
      ("compressedLength", .leaf (.u16 .le 0)),
      ("payload", .leaf (.bytes message))
    ]
  }

def shareControlHeader (pduType : Option PDUType) (pduSource : Option UInt16)
    (message : Option Bytes) : RdpResult Component := do
  let message := message.getD []
  let length ← headedLength message.length 6
  return [
    ("totalLength", .dynOption (.leaf (.u16 .le length)) (sizeWithout 6 "pduMessage")),
    ("pduType", .leaf (.u16 .le (pduType.getD .pdutypeDemandactivepdu).toU16)),
    ("PDUSource", .option (some (.leaf (.u16 .le (pduSource.getD 0))))),
    ("pduMessage", .leaf (.bytes message))
  ]

namespace PDU

def template (pduType : PDUType) : RdpResult PDU :=
  match pduType with
  | .pdutypeDemandactivepdu => tsDemandActivePdu
  | .pdutypeDatapdu => shareDataHeader none none none
  | .pdutypeConfirmactivepdu => tsConfirmActivePdu none none none
  | .pdutypeDeactivateallpdu => .ok tsDeactivateAllPdu
  | _ => .error (.error (.new .notImplemented "GLOBAL: PDU not implemented"))

def fromControl (control : List (String × DataType)) : RdpResult PDU := do
  let pdu ← template (← PDUType.tryFrom (← castU16 (← field control "pduType")))
  let message ← readComponent pdu.message (← castSlice (← field control "pduMessage"))
  return { pdu with message }

def fromStream : Reader PDU := do
  let header ← Prog.lift (shareControlHeader none none none)
  let header ← (Message.component header).reader
  Prog.lift (do fromControl (← castComponent header.visit))

def fields (pdu : PDU) : List (String × DataType) := Message.visitFields pdu.message

end PDU

structure DataPDU where
  pduType : PDUType2
  message : Component

def tsSynchronizePdu (targetUser : Option UInt16) : DataPDU where
  pduType := .pdutype2Synchronize
  message := [
    ("messageType", .check (.u16 .le 1)),
    ("targetUser", .option (some (.leaf (.u16 .le (targetUser.getD 0)))))
  ]

def tsFontListPdu : DataPDU where
  pduType := .pdutype2Fontlist
  message := [
    ("numberFonts", .leaf (.u16 .le 0)),
    ("totalNumFonts", .leaf (.u16 .le 0)),
    ("listFlags", .leaf (.u16 .le 0x0003)),
    ("entrySize", .leaf (.u16 .le 0x0032))
  ]

def tsSetErrorInfoPdu : DataPDU where
  pduType := .pdutype2SetErrorInfoPdu
  message := [("errorInfo", .leaf (.u32 .le 0))]

inductive Action where
  | ctrlactionRequestControl
  | ctrlactionGrantedControl
  | ctrlactionDetach
  | ctrlactionCooperate
  deriving DecidableEq, Repr

def Action.toU16 (a : Action) : UInt16 :=
  match a with
  | .ctrlactionRequestControl => 0x0001
  | .ctrlactionGrantedControl => 0x0002
  | .ctrlactionDetach => 0x0003
  | .ctrlactionCooperate => 0x0004

def tsControlPdu (action : Option Action) : DataPDU where
  pduType := .pdutype2Control
  message := [
    ("action", .leaf (.u16 .le (action.getD .ctrlactionCooperate).toU16)),
    ("grantId", .leaf (.u16 .le 0)),
    ("controlId", .leaf (.u32 .le 0))
  ]

def tsFontMapPdu : DataPDU where
  pduType := .pdutype2Fontmap
  message := [
    ("numberEntries", .leaf (.u16 .le 0)),
    ("totalNumEntries", .leaf (.u16 .le 0)),
    ("mapFlags", .leaf (.u16 .le 0x0003)),
    ("entrySize", .leaf (.u16 .le 0x0004))
  ]

namespace DataPDU

def template (pduType : PDUType2) : RdpResult DataPDU :=
  match pduType with
  | .pdutype2Synchronize => .ok (tsSynchronizePdu none)
  | .pdutype2Control => .ok (tsControlPdu none)
  | .pdutype2Fontlist => .ok tsFontListPdu
  | .pdutype2Fontmap => .ok tsFontMapPdu
  | .pdutype2SetErrorInfoPdu => .ok tsSetErrorInfoPdu
  | pduType =>
    .error (.error (.new .notImplemented
      ("GLOBAL: Data PDU parsing not implemented " ++ pduType.debug)))

def fromPdu (dataPdu : PDU) : RdpResult DataPDU := do
  let pduType ← PDUType2.tryFrom (← castU8 (← field dataPdu.fields "pduType2"))
  let result ← template pduType
  let message ← readComponent result.message (← castSlice (← field dataPdu.fields "payload"))
  return { result with message }

def fields (pdu : DataPDU) : List (String × DataType) := Message.visitFields pdu.message

end DataPDU

inductive InputEventType where
  | inputEventSync
  | inputEventUnused
  | inputEventScancode
  | inputEventUnicode
  | inputEventMouse
  | inputEventMousex
  deriving DecidableEq, Repr

def InputEventType.toU16 (t : InputEventType) : UInt16 :=
  match t with
  | .inputEventSync => 0x0000
  | .inputEventUnused => 0x0002
  | .inputEventScancode => 0x0004
  | .inputEventUnicode => 0x0005
  | .inputEventMouse => 0x8001
  | .inputEventMousex => 0x8002

def tsInputEvent (messageType : Option InputEventType) (data : Option Bytes) : Component := [
  ("eventTime", .leaf (.u32 .le 0)),
  ("messageType", .leaf (.u16 .le (messageType.getD .inputEventMouse).toU16)),
  ("slowPathInputData", .leaf (.bytes (data.getD [])))
]

def tsInputPduData (events : Option Trame) : DataPDU where
  pduType := .pdutype2Input
  message := [
    ("numEvents", .leaf (.u16 .le (.ofNat (events.getD []).length))),
    ("pad2Octets", .leaf (.u16 .le 0)),
    ("slowPathInputEvents",
      match events with
      | some events => .array events none
      | none => .array [] (some (.component (tsInputEvent none none))))
  ]

structure TSInputEvent where
  eventType : InputEventType
  message : Component

inductive PointerFlag where
  | ptrflagsHwheel
  | ptrflagsWheel
  | ptrflagsWheelNegative
  | wheelRotationMask
  | ptrflagsMove
  | ptrflagsDown
  | ptrflagsButton1
  | ptrflagsButton2
  | ptrflagsButton3

def PointerFlag.toU16 (f : PointerFlag) : UInt16 :=
  match f with
  | .ptrflagsHwheel => 0x0400
  | .ptrflagsWheel => 0x0200
  | .ptrflagsWheelNegative => 0x0100
  | .wheelRotationMask => 0x01FF
  | .ptrflagsMove => 0x0800
  | .ptrflagsDown => 0x8000
  | .ptrflagsButton1 => 0x1000
  | .ptrflagsButton2 => 0x2000
  | .ptrflagsButton3 => 0x4000

def tsPointerEvent (flags x y : Option UInt16) : TSInputEvent where
  eventType := .inputEventMouse
  message := [
    ("pointerFlags", .leaf (.u16 .le (flags.getD 0))),
    ("xPos", .leaf (.u16 .le (x.getD 0))),
    ("yPos", .leaf (.u16 .le (y.getD 0)))
  ]

inductive KeyboardFlag where
  | kbdflagsExtended
  | kbdflagsDown
  | kbdflagsRelease

def KeyboardFlag.toU16 (f : KeyboardFlag) : UInt16 :=
  match f with
  | .kbdflagsExtended => 0x0100
  | .kbdflagsDown => 0x4000
  | .kbdflagsRelease => 0x8000

def tsKeyboardEvent (flags keyCode : Option UInt16) : TSInputEvent where
  eventType := .inputEventScancode
  message := [
    ("keyboardFlags", .leaf (.u16 .le (flags.getD 0))),
    ("keyCode", .leaf (.u16 .le (keyCode.getD 0))),
    ("pad2Octets", .leaf (.u16 .le 0))
  ]

def tsFpUpdate : Component := [
  ("updateHeader", .dynOption (.leaf (.u8 0)) fun node =>
    match node with
    | .u8 header =>
      if (header >>> 4) &&& 0x2 = 0 then .ok (.skipField "compressionFlags") else .ok .none
    | _ => .ok .none),
  ("compressionFlags", .leaf (.u8 0)),
  ("size", .dynOption (.leaf (.u16 .le 0)) (sizeOf "updateData")),
  ("updateData", .leaf (.bytes []))
]

inductive FastPathUpdateType where
  | fastpathUpdatetypeOrders
  | fastpathUpdatetypeBitmap
  | fastpathUpdatetypePalette
  | fastpathUpdatetypeSynchronize
  | fastpathUpdatetypeSurfcmds
  | fastpathUpdatetypePtrNull
  | fastpathUpdatetypePtrDefault
  | fastpathUpdatetypePtrPosition
  | fastpathUpdatetypeColor
  | fastpathUpdatetypeCached
  | fastpathUpdatetypePointer
  | unknown
  deriving DecidableEq, Repr

namespace FastPathUpdateType

def toU8 (t : FastPathUpdateType) : UInt8 :=
  match t with
  | .fastpathUpdatetypeOrders => 0x0
  | .fastpathUpdatetypeBitmap => 0x1
  | .fastpathUpdatetypePalette => 0x2
  | .fastpathUpdatetypeSynchronize => 0x3
  | .fastpathUpdatetypeSurfcmds => 0x4
  | .fastpathUpdatetypePtrNull => 0x5
  | .fastpathUpdatetypePtrDefault => 0x6
  | .fastpathUpdatetypePtrPosition => 0x8
  | .fastpathUpdatetypeColor => 0x9
  | .fastpathUpdatetypeCached => 0xA
  | .fastpathUpdatetypePointer => 0xB
  | .unknown => 0xC

/--
`Unknown` stands for the number after the last one.
-/
def tryFrom (v : UInt8) : RdpResult FastPathUpdateType :=
  match v.toNat with
  | 0x0 => .ok .fastpathUpdatetypeOrders
  | 0x1 => .ok .fastpathUpdatetypeBitmap
  | 0x2 => .ok .fastpathUpdatetypePalette
  | 0x3 => .ok .fastpathUpdatetypeSynchronize
  | 0x4 => .ok .fastpathUpdatetypeSurfcmds
  | 0x5 => .ok .fastpathUpdatetypePtrNull
  | 0x6 => .ok .fastpathUpdatetypePtrDefault
  | 0x8 => .ok .fastpathUpdatetypePtrPosition
  | 0x9 => .ok .fastpathUpdatetypeColor
  | 0xA => .ok .fastpathUpdatetypeCached
  | 0xB => .ok .fastpathUpdatetypePointer
  | 0xC => .ok .unknown
  | _ => .error (.error .enumConversion)

def debug (t : FastPathUpdateType) : String :=
  match t with
  | .fastpathUpdatetypeOrders => "FastpathUpdatetypeOrders"
  | .fastpathUpdatetypeBitmap => "FastpathUpdatetypeBitmap"
  | .fastpathUpdatetypePalette => "FastpathUpdatetypePalette"
  | .fastpathUpdatetypeSynchronize => "FastpathUpdatetypeSynchronize"
  | .fastpathUpdatetypeSurfcmds => "FastpathUpdatetypeSurfcmds"
  | .fastpathUpdatetypePtrNull => "FastpathUpdatetypePtrNull"
  | .fastpathUpdatetypePtrDefault => "FastpathUpdatetypePtrDefault"
  | .fastpathUpdatetypePtrPosition => "FastpathUpdatetypePtrPosition"
  | .fastpathUpdatetypeColor => "FastpathUpdatetypeColor"
  | .fastpathUpdatetypeCached => "FastpathUpdatetypeCached"
  | .fastpathUpdatetypePointer => "FastpathUpdatetypePointer"
  | .unknown => "Unknown"

end FastPathUpdateType

structure FastPathUpdate where
  fpType : FastPathUpdateType
  message : Component

def tsCdHeader : Component := [
  ("cbCompFirstRowSize", .check (.u16 .le 0)),
  ("cbCompMainBodySize", .leaf (.u16 .le 0)),
  ("cbScanWidth", .leaf (.u16 .le 0)),
  ("cbUncompressedSize", .leaf (.u16 .le 0))
]

inductive BitmapFlag where
  | bitmapCompression
  | noBitmapCompressionHdr

def BitmapFlag.toU16 (f : BitmapFlag) : UInt16 :=
  match f with
  | .bitmapCompression => 0x0001
  | .noBitmapCompressionHdr => 0x0400

def tsBitmapData : Component := [
  ("destLeft", .leaf (.u16 .le 0)),
  ("destTop", .leaf (.u16 .le 0)),
  ("destRight", .leaf (.u16 .le 0)),
  ("destBottom", .leaf (.u16 .le 0)),
  ("width", .leaf (.u16 .le 0)),
  ("height", .leaf (.u16 .le 0)),
  ("bitsPerPixel", .leaf (.u16 .le 0)),
  ("flags", .dynOption (.leaf (.u16 .le 0)) fun node =>
    match node with
    | .u16 flags =>
      if flags &&& BitmapFlag.bitmapCompression.toU16 = 0 ∨
          flags &&& BitmapFlag.noBitmapCompressionHdr.toU16 ≠ 0 then
        .ok (.skipField "bitmapComprHdr")
      else
        .ok .none
    | _ => .ok .none),
  ("bitmapLength", .dynOption (.leaf (.u16 .le 0)) (sizeOf "bitmapDataStream")),
  ("bitmapComprHdr", .dynOption (.component tsCdHeader) fun node =>
    match node with
    | .component header => do
      let size ← unwrap (castU16 (← field header "cbCompMainBodySize"))
      return .size "bitmapDataStream" size.toNat
    | _ => .ok .none),
  ("bitmapDataStream", .leaf (.bytes []))
]

def tsFpUpdateBitmap : FastPathUpdate where
  fpType := .fastpathUpdatetypeBitmap
  message := [
    ("header", .check (.u16 .le FastPathUpdateType.fastpathUpdatetypeBitmap.toU8.toUInt16)),
    ("numberRectangles", .leaf (.u16 .le 0)),
    ("rectangles", .array [] (some (.component tsBitmapData)))
  ]

def tsColorpointerattribute : FastPathUpdate where
  fpType := .fastpathUpdatetypeColor
  message := [
    ("cacheIndex ", .leaf (.u16 .le 0)),
    ("hotSpot ", .leaf (.u32 .le 0)),
    ("width", .leaf (.u16 .le 0)),
    ("height", .leaf (.u16 .le 0)),
    ("lengthAndMask", .dynOption (.leaf (.u16 .le 0)) (sizeOf "andMaskData")),
    ("lengthXorMask", .dynOption (.leaf (.u16 .le 0)) (sizeOf "xorMaskData")),
    ("xorMaskData", .leaf (.bytes [])),
    ("andMaskData", .leaf (.bytes [])),
    ("pad", .option (some (.leaf (.u8 0))))
  ]

def tsFpUpdateSynchronize : FastPathUpdate where
  fpType := .fastpathUpdatetypeSynchronize
  message := []

def tsFpSystempointerhiddenattribute : FastPathUpdate where
  fpType := .fastpathUpdatetypePtrNull
  message := []

namespace FastPathUpdate

def template (fpType : FastPathUpdateType) : RdpResult FastPathUpdate :=
  match fpType with
  | .fastpathUpdatetypeBitmap => .ok tsFpUpdateBitmap
  | .fastpathUpdatetypeColor => .ok tsColorpointerattribute
  | .fastpathUpdatetypeSynchronize => .ok tsFpUpdateSynchronize
  | .fastpathUpdatetypePtrNull => .ok tsFpSystempointerhiddenattribute
  | fpType =>
    .error (.error (.new .notImplemented
      ("GLOBAL: Fast Path parsing not implemented " ++ fpType.debug)))

def fromFp (fastPath : List (String × DataType)) : RdpResult FastPathUpdate := do
  let fpType ← FastPathUpdateType.tryFrom ((← castU8 (← field fastPath "updateHeader")) &&& 0xf)
  let result ← template fpType
  let message ← readComponent result.message (← castSlice (← field fastPath "updateData"))
  return { result with message }

def fields (update : FastPathUpdate) : List (String × DataType) := Message.visitFields update.message

end FastPathUpdate

end Rdp.Global
