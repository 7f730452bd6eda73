import Rdp.Core.Event.Impl
import Rdp.Core.Global.Pdu
import Rdp.Core.Mcs.Impl

/-!
This module contains the client of the global channel, which goes through the connection sequence
and then receives updates and sends input events.
-/

namespace Rdp.Global

open Capability
open Gcc (KeyboardLayout)

inductive ClientState where
  | demandActivePDU
  | synchronizePDU
  | controlCooperate
  | controlGranted
  | fontMap
  | data
  deriving DecidableEq, Repr

structure Client where
  state : ClientState
  userId : UInt16
  channelId : UInt16
  width : UInt16
  height : UInt16
  layout : KeyboardLayout
  shareId : Option UInt32
  serverCapabilities : List Capability
  name : String

/--
The client, the MCS layer its methods are given, and what has left them: the PDUs that were handed
to the MCS layer, and the events the callback was called with.
-/
structure Session where
  client : Client
  mcs : Mcs.Client
  written : List PDU
  events : List RdpEvent

namespace Client

def new (userId channelId width height : UInt16) (layout : KeyboardLayout) (name : String) :
    Client where
  state := .demandActivePDU
  serverCapabilities := []
  shareId := none
  userId := userId
  channelId := channelId
  width := width
  height := height
  layout := layout
  name := name

def onMcs (x : Prog Error Mcs.Client α) : Prog Error Session α :=
  Prog.zoom (·.mcs) (fun mcs s => { s with mcs }) x

def modifyClient (f : Client → Client) : Prog Error Session Unit :=
  modify fun s => { s with client := f s.client }

def parseCapability (capabilitySet : DataType) : RdpResult (Option Capability) := do
  match fromCapabilitySet (← castComponent capabilitySet) with
  | .ok capability => return some capability
  | .error (.error _) => return none
  | .error e => .error e

def readCapabilities (capabilitySets : List DataType) : Prog Error Session Unit := do
  match capabilitySets with
  | [] => return ()
  | capabilitySet :: capabilitySets =>
    match ← Prog.lift (parseCapability capabilitySet) with
    | some capability =>
      modifyClient fun client =>
        { client with serverCapabilities := client.serverCapabilities ++ [capability] }
    | none => pure ()
    readCapabilities capabilitySets

/--
`PDU::from_stream` on a payload.
-/
def readPdu (stream : Bytes) : RdpResult PDU :=
  match PDU.fromStream.run stream with
  | .ok pdu _ => .ok pdu
  | .error e _ => .error e

def readDemandActivePdu (stream : Bytes) : Prog Error Session Bool := do
  let pdu ← Prog.lift (readPdu stream)
  if pdu.pduType = .pdutypeDemandactivepdu then
    let capabilitySets ← Prog.lift (do castTrame (← field pdu.fields "capabilitySets"))
    readCapabilities capabilitySets
    let shareId ← Prog.lift (do castU32 (← field pdu.fields "shareId"))
    modifyClient fun client => { client with shareId := some shareId }
    return true
  else
    return false

def readData (stream : Bytes) : RdpResult (Option DataPDU) := do
  let pdu ← readPdu stream
  if pdu.pduType ≠ .pdutypeDatapdu then
    return none
  else
    return some (← DataPDU.fromPdu pdu)

def readSynchronizePdu (stream : Bytes) : RdpResult Bool := do
  match ← readData stream with
  | none => return false
  | some dataPdu => return dataPdu.pduType = .pdutype2Synchronize

def readControlPdu (stream : Bytes) (action : Action) : RdpResult Bool := do
  match ← readData stream with
  | none => return false
  | some dataPdu =>
    if dataPdu.pduType ≠ .pdutype2Control then
      return false
    else if (← castU16 (← field dataPdu.fields "action")) ≠ action.toU16 then
      .error (.error (.new .unexpectedType "GLOBAL: bad message type"))
    else
      return true

def readFontMapPdu (stream : Bytes) : RdpResult Bool := do
  match ← readData stream with
  | none => return false
  | some dataPdu => return dataPdu.pduType = .pdutype2Fontmap

/--
What becomes of a data PDU after the handshake: it is parsed and reported, whether it can be parsed
or not.
-/
def reportDataPdu (pdu : PDU) : RdpResult Unit :=
  match DataPDU.fromPdu pdu with
  | .ok dataPdu =>
    if dataPdu.pduType = .pdutype2SetErrorInfoPdu then do
      let _ ← castU32 (← field dataPdu.fields "errorInfo")
      return ()
    else
      return ()
  | .error (.error _) => return ()
  | .error e => .error e

/--
Only a Deactivate All does something to the client.
-/
def receivePdu (pdu : PDU) : Prog Error Session Unit := do
  if pdu.pduType = .pdutypeDeactivateallpdu then
    modifyClient fun client => { client with state := .demandActivePDU }
  else if pdu.pduType ≠ .pdutypeDatapdu then
    return ()
  else
    Prog.lift (reportDataPdu pdu)

def receivePdus (pdus : List DataType) : Prog Error Session Unit := do
  match pdus with
  | [] => return ()
  | pdu :: pdus =>
    let pdu ← Prog.lift (do PDU.fromControl (← castComponent pdu))
    receivePdu pdu
    receivePdus pdus

/--
`message.read` on an `Array` of this element: what the elements show.
-/
def readArray (element : Component) (stream : Bytes) : RdpResult (List DataType) :=
  match (Message.array [] (some (.component element))).reader.run stream with
  | .ok message _ => castTrame message.visit
  | .error e _ => .error e

def readDataPdu (stream : Bytes) : Prog Error Session Unit := do
  let header ← Prog.lift (shareControlHeader none none none)
  let pdus ← Prog.lift (readArray header stream)
  receivePdus pdus

def bitmapEvent (bitmap : List (String × DataType)) : RdpResult BitmapEvent := do
  let flags ← castU16 (← field bitmap "flags")
  return {
    destLeft := ← castU16 (← field bitmap "destLeft")
    destTop := ← castU16 (← field bitmap "destTop")
    destRight := ← castU16 (← field bitmap "destRight")
    destBottom := ← castU16 (← field bitmap "destBottom")
    width := ← castU16 (← field bitmap "width")
    height := ← castU16 (← field bitmap "height")
    bpp := ← castU16 (← field bitmap "bitsPerPixel")
    isCompress := flags &&& BitmapFlag.bitmapCompression.toU16 ≠ 0
    data := ← castSlice (← field bitmap "bitmapDataStream")
  }

def callback (event : RdpEvent) : Prog Error Session Unit :=
  modify fun s => { s with events := s.events ++ [event] }

def deliverRectangles (rectangles : List DataType) : Prog Error Session Unit := do
  match rectangles with
  | [] => return ()
  | rectangle :: rectangles =>
    let event ← Prog.lift (do bitmapEvent (← castComponent rectangle))
    callback (.bitmap event)
    deliverRectangles rectangles

/--
Only a bitmap does something.
-/
def deliverUpdate (order : FastPathUpdate) : Prog Error Session Unit := do
  if order.fpType = .fastpathUpdatetypeBitmap then
    let rectangles ← Prog.lift (do castTrame (← field order.fields "rectangles"))
    deliverRectangles rectangles
  else
    return ()

def parseUpdate (fpMessage : DataType) : RdpResult (Option FastPathUpdate) := do
  match FastPathUpdate.fromFp (← castComponent fpMessage) with
  | .ok order => return some order
  | .error (.error _) => return none
  | .error e => .error e

def deliverUpdates (fpMessages : List DataType) : Prog Error Session Unit := do
  match fpMessages with
  | [] => return ()
  | fpMessage :: fpMessages =>
    match ← Prog.lift (parseUpdate fpMessage) with
    | some order => deliverUpdate order
    | none => pure ()
    deliverUpdates fpMessages

def readFastPath (stream : Bytes) : Prog Error Session Unit := do
  let fpMessages ← Prog.lift (readArray tsFpUpdate stream)
  deliverUpdates fpMessages

/--
`write_pdu`, which also records the PDU it hands to the MCS layer.
-/
def writePdu (message : PDU) : Prog Error Session Unit := do
  let userId := (← get).client.userId
  let bytes ← Prog.lift (toVec (.component message.message))
  let header ← Prog.lift (shareControlHeader (some message.pduType) (some userId) (some bytes))
  modify fun s => { s with written := s.written ++ [message] }
  onMcs (Mcs.Client.write "global" (.component header))

def dataPdu (shareId : Option UInt32) (message : DataPDU) : RdpResult PDU := do
  let bytes ← toVec (.component message.message)
  shareDataHeader shareId (some message.pduType) (some bytes)

def writeDataPdu (message : DataPDU) : Prog Error Session Unit := do
  let shareId := (← get).client.shareId
  let pdu ← Prog.lift (dataPdu shareId message)
  writePdu pdu

def capabilities (client : Client) : List Capability := [
  tsGeneralCapabilitySet (some (GeneralExtraFlag.longCredentialsSupported.toU16 |||
    GeneralExtraFlag.noBitmapCompressionHdr.toU16 ||| GeneralExtraFlag.encSaltedChecksum.toU16 |||
    GeneralExtraFlag.fastpathOutputSupported.toU16)),
  tsBitmapCapabilitySet (some 0x0018) (some client.width) (some client.height),
  tsOrderCapabilitySet (some (OrderFlag.negotiateOrderSupport.toU16 |||
    OrderFlag.zeroBoundsDeltasSupport.toU16)),
  tsBitmapCacheCapabilitySet,
  tsPointerCapabilitySet,
  tsSoundCapabilitySet,
  tsInputCapabilitySet (some (InputFlags.inputFlagScancodes.toU16 |||
    InputFlags.inputFlagMousex.toU16 ||| InputFlags.inputFlagUnicode.toU16)) (some client.layout),
  tsBrushCapabilitySet,
  tsGlyphCapabilitySet,
  tsOffscreenCapabilitySet,
  tsVirtualchannelCapabilitySet,
  tsMultifragmentUpdateCapabilityTs
]

def confirmActivePdu (client : Client) : RdpResult PDU := do
  let sets ← client.capabilities.mapM fun capability => capabilitySet (some capability)
  tsConfirmActivePdu client.shareId (some (Nla.asBytes client.name))
    (some (sets.map Message.component))

def writeConfirmActivePdu : Prog Error Session Unit := do
  let client := (← get).client
  let pdu ← Prog.lift client.confirmActivePdu
  writePdu pdu

def writeClientFinalize : Prog Error Session Unit := do
  let channelId := (← get).client.channelId
  writeDataPdu (tsSynchronizePdu (some channelId))
  writeDataPdu (tsControlPdu (some .ctrlactionCooperate))
  writeDataPdu (tsControlPdu (some .ctrlactionRequestControl))
  writeDataPdu tsFontListPdu

def writeInputEvent (event : TSInputEvent) : Prog Error Session Unit := do
  match (← get).client.state with
  | .data =>
    let data ← Prog.lift (toVec (.component event.message))
    writeDataPdu (tsInputPduData (some [.component (tsInputEvent (some event.eventType) (some data))]))
  | _ =>
    Prog.fail (.new .invalidAutomata "You cannot send data once it's not connected")

def expectPdu (read : Bytes → RdpResult Bool) (next : ClientState) (payload : Tpkt.Payload) :
    Prog Error Session Unit := do
  if ← Prog.lift (do read (← Mcs.rawPayload payload)) then
    modifyClient fun client => { client with state := next }
  else
    return ()

def expectDemandActivePdu (payload : Tpkt.Payload) : Prog Error Session Unit := do
  let stream ← Prog.lift (Mcs.rawPayload payload)
  if ← readDemandActivePdu stream then
    writeConfirmActivePdu
    writeClientFinalize
    modifyClient fun client => { client with state := .synchronizePDU }
  else
    return ()

def read (payload : Tpkt.Payload) : Prog Error Session Unit := do
  match (← get).client.state with
  | .demandActivePDU => expectDemandActivePdu payload
  | .synchronizePDU => expectPdu readSynchronizePdu .controlCooperate payload
  | .controlCooperate =>
    expectPdu (readControlPdu · .ctrlactionCooperate) .controlGranted payload
  | .controlGranted => expectPdu (readControlPdu · .ctrlactionGrantedControl) .fontMap payload
  | .fontMap => expectPdu readFontMapPdu .data payload
  | .data =>
    match payload with
    | .raw stream => readDataPdu stream
    | .fastPath _ stream => readFastPath stream

end Client

end Rdp.Global
