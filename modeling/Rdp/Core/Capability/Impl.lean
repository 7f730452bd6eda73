import Rdp.Core.Gcc.Impl

/-!
This module contains the capabilities the two sides tell each other on the global channel.
-/

namespace Rdp

namespace Capability

inductive CapabilitySetType where
  | capstypeGeneral
  | capstypeBitmap
  | capstypeOrder
  | capstypeBitmapcache
  | capstypeControl
  | capstypeActivation
  | capstypePointer
  | capstypeShare
  | capstypeColorcache
  | capstypeSound
  | capstypeInput
  | capstypeFont
  | capstypeBrush
  | capstypeGlyphcache
  | capstypeOffscreencache
  | capstypeBitmapcacheHostsupport
  | capstypeBitmapcacheRev2
  | capstypeVirtualchannel
  | capstypeDrawninegridcache
  | capstypeDrawgdiplus
  | capstypeRail
  | capstypeWindow
  | capsettypeCompdesk
  | capsettypeMultifragmentupdate
  | capsettypeLargePointer
  | capsettypeSurfaceCommands
  | capsettypeBitmapCodecs
  | capssettypeFrameAcknowledge
  deriving DecidableEq, Repr

namespace CapabilitySetType

def toU16 (t : CapabilitySetType) : UInt16 :=
  match t with
  | .capstypeGeneral => 0x0001
  | .capstypeBitmap => 0x0002
  | .capstypeOrder => 0x0003
  | .capstypeBitmapcache => 0x0004
  | .capstypeControl => 0x0005
  | .capstypeActivation => 0x0007
  | .capstypePointer => 0x0008
  | .capstypeShare => 0x0009
  | .capstypeColorcache => 0x000A
  | .capstypeSound => 0x000C
  | .capstypeInput => 0x000D
  | .capstypeFont => 0x000E
  | .capstypeBrush => 0x000F
  | .capstypeGlyphcache => 0x0010
  | .capstypeOffscreencache => 0x0011
  | .capstypeBitmapcacheHostsupport => 0x0012
  | .capstypeBitmapcacheRev2 => 0x0013
  | .capstypeVirtualchannel => 0x0014
  | .capstypeDrawninegridcache => 0x0015
  | .capstypeDrawgdiplus => 0x0016
  | .capstypeRail => 0x0017
  | .capstypeWindow => 0x0018
  | .capsettypeCompdesk => 0x0019
  | .capsettypeMultifragmentupdate => 0x001A
  | .capsettypeLargePointer => 0x001B
  | .capsettypeSurfaceCommands => 0x001C
  | .capsettypeBitmapCodecs => 0x001D
  | .capssettypeFrameAcknowledge => 0x001E

def tryFrom (v : UInt16) : RdpResult CapabilitySetType :=
  match v.toNat with
  | 0x0001 => .ok .capstypeGeneral
  | 0x0002 => .ok .capstypeBitmap
  | 0x0003 => .ok .capstypeOrder
  | 0x0004 => .ok .capstypeBitmapcache
  | 0x0005 => .ok .capstypeControl
  | 0x0007 => .ok .capstypeActivation
  | 0x0008 => .ok .capstypePointer
  | 0x0009 => .ok .capstypeShare
  | 0x000A => .ok .capstypeColorcache
  | 0x000C => .ok .capstypeSound
  | 0x000D => .ok .capstypeInput
  | 0x000E => .ok .capstypeFont
  | 0x000F => .ok .capstypeBrush
  | 0x0010 => .ok .capstypeGlyphcache
  | 0x0011 => .ok .capstypeOffscreencache
  | 0x0012 => .ok .capstypeBitmapcacheHostsupport
  | 0x0013 => .ok .capstypeBitmapcacheRev2
  | 0x0014 => .ok .capstypeVirtualchannel
  | 0x0015 => .ok .capstypeDrawninegridcache
  | 0x0016 => .ok .capstypeDrawgdiplus
  | 0x0017 => .ok .capstypeRail
  | 0x0018 => .ok .capstypeWindow
  | 0x0019 => .ok .capsettypeCompdesk
  | 0x001A => .ok .capsettypeMultifragmentupdate
  | 0x001B => .ok .capsettypeLargePointer
  | 0x001C => .ok .capsettypeSurfaceCommands
  | 0x001D => .ok .capsettypeBitmapCodecs
  | 0x001E => .ok .capssettypeFrameAcknowledge
  | _ => .error (.error .enumConversion)

def debug (t : CapabilitySetType) : String :=
  match t with
  | .capstypeGeneral => "CapstypeGeneral"
  | .capstypeBitmap => "CapstypeBitmap"
  | .capstypeOrder => "CapstypeOrder"
  | .capstypeBitmapcache => "CapstypeBitmapcache"
  | .capstypeControl => "CapstypeControl"
  | .capstypeActivation => "CapstypeActivation"
  | .capstypePointer => "CapstypePointer"
  | .capstypeShare => "CapstypeShare"
  | .capstypeColorcache => "CapstypeColorcache"
  | .capstypeSound => "CapstypeSound"
  | .capstypeInput => "CapstypeInput"
  | .capstypeFont => "CapstypeFont"
  | .capstypeBrush => "CapstypeBrush"
  | .capstypeGlyphcache => "CapstypeGlyphcache"
  | .capstypeOffscreencache => "CapstypeOffscreencache"
  | .capstypeBitmapcacheHostsupport => "CapstypeBitmapcacheHostsupport"
  | .capstypeBitmapcacheRev2 => "CapstypeBitmapcacheRev2"
  | .capstypeVirtualchannel => "CapstypeVirtualchannel"
  | .capstypeDrawninegridcache => "CapstypeDrawninegridcache"
  | .capstypeDrawgdiplus => "CapstypeDrawgdiplus"
  | .capstypeRail => "CapstypeRail"
  | .capstypeWindow => "CapstypeWindow"
  | .capsettypeCompdesk => "CapsettypeCompdesk"
  | .capsettypeMultifragmentupdate => "CapsettypeMultifragmentupdate"
  | .capsettypeLargePointer => "CapsettypeLargePointer"
  | .capsettypeSurfaceCommands => "CapsettypeSurfaceCommands"
  | .capsettypeBitmapCodecs => "CapsettypeBitmapCodecs"
  | .capssettypeFrameAcknowledge => "CapssettypeFrameAcknowledge"

end CapabilitySetType

end Capability

structure Capability where
  capType : Capability.CapabilitySetType
  message : Component

namespace Capability

open Gcc (KeyboardLayout ibm101102Keys)

def majorTypeWindows : UInt16 := 0x0001

def minorTypeWindowsNt : UInt16 := 0x0003

inductive GeneralExtraFlag where
  | fastpathOutputSupported
  | noBitmapCompressionHdr
  | longCredentialsSupported
  | autoreconnectSupported
  | encSaltedChecksum

def GeneralExtraFlag.toU16 (f : GeneralExtraFlag) : UInt16 :=
  match f with
  | .fastpathOutputSupported => 0x0001
  | .noBitmapCompressionHdr => 0x0400
  | .longCredentialsSupported => 0x0004
  | .autoreconnectSupported => 0x0008
  | .encSaltedChecksum => 0x0010

inductive OrderFlag where
  | negotiateOrderSupport
  | zeroBoundsDeltasSupport
  | colorIndexSupport
  | solidPatternBrushOnly
  | orderflagsExtraFlags

def OrderFlag.toU16 (f : OrderFlag) : UInt16 :=
  match f with
  | .negotiateOrderSupport => 0x0002
  | .zeroBoundsDeltasSupport => 0x0008
  | .colorIndexSupport => 0x0020
  | .solidPatternBrushOnly => 0x0040
  | .orderflagsExtraFlags => 0x0080

inductive InputFlags where
  | inputFlagScancodes
  | inputFlagMousex
  | inputFlagFastpathInput
  | inputFlagUnicode

def InputFlags.toU16 (f : InputFlags) : UInt16 :=
  match f with
  | .inputFlagScancodes => 0x0001
  | .inputFlagMousex => 0x0004
  | .inputFlagFastpathInput => 0x0008
  | .inputFlagUnicode => 0x0010

def capabilitySet (capability : Option Capability) : RdpResult Component := do
  let capability := capability.getD ⟨.capstypeGeneral, []⟩
  let length ← (Message.component capability.message).length
  let length ← checkedAdd 16 (UInt16.ofNat length).toNat 4
  let bytes ← toVec (.component capability.message)
  return [
    ("capabilitySetType", .leaf (.u16 .le capability.capType.toU16)),
    ("lengthCapability", .dynOption (.leaf (.u16 .le (.ofNat length))) fun node =>
      match node with
      | .u16 length => do return .size "capabilitySet" (← checkedSub length.toNat 4)
      | _ => .ok .none),
    ("capabilitySet", .leaf (.bytes bytes))
  ]

def tsGeneralCapabilitySet (extraFlags : Option UInt16) : Capability where
  capType := .capstypeGeneral
  message := [
    ("osMajorType", .leaf (.u16 .le majorTypeWindows)),
    ("osMinorType", .leaf (.u16 .le minorTypeWindowsNt)),
    ("protocolVersion", .check (.u16 .le 0x0200)),
    ("pad2octetsA", .leaf (.u16 .le 0)),
    ("generalCompressionTypes", .check (.u16 .le 0)),
    ("extraFlags", .leaf (.u16 .le (extraFlags.getD 0))),
    ("updateCapabilityFlag", .check (.u16 .le 0)),
    ("remoteUnshareFlag", .check (.u16 .le 0)),
    ("generalCompressionLevel", .check (.u16 .le 0)),
    ("refreshRectSupport", .leaf (.u8 0)),
    ("suppressOutputSupport", .leaf (.u8 0))
  ]

def tsBitmapCapabilitySet (preferredBitsPerPixel desktopWidth desktopHeight : Option UInt16) :
    Capability where
  capType := .capstypeBitmap
  message := [
    ("preferredBitsPerPixel", .leaf (.u16 .le (preferredBitsPerPixel.getD 0))),
    ("receive1BitPerPixel", .check (.u16 .le 0x0001)),
    ("receive4BitsPerPixel", .check (.u16 .le 0x0001)),
    ("receive8BitsPerPixel", .check (.u16 .le 0x0001)),
    ("desktopWidth", .leaf (.u16 .le (desktopWidth.getD 0))),
    ("desktopHeight", .leaf (.u16 .le (desktopHeight.getD 0))),
    ("pad2octets", .leaf (.u16 .le 0)),
    ("desktopResizeFlag", .leaf (.u16 .le 0)),
    ("bitmapCompressionFlag", .check (.u16 .le 0x0001)),
    ("highColorFlags", .check (.u8 0)),
    ("drawingFlags", .leaf (.u8 0)),
    ("multipleRectangleSupport", .check (.u16 .le 0x0001)),
    ("pad2octetsB", .leaf (.u16 .le 0))
  ]

def tsOrderCapabilitySet (orderFlags : Option UInt16) : Capability where
  capType := .capstypeOrder
  message := [
    ("terminalDescriptor", .leaf (.bytes (List.replicate 16 0))),
    ("pad4octetsA", .leaf (.u32 .le 0)),
    ("desktopSaveXGranularity", .leaf (.u16 .le 1)),
    ("desktopSaveYGranularity", .leaf (.u16 .le 20)),
    ("pad2octetsA", .leaf (.u16 .le 0)),
    ("maximumOrderLevel", .leaf (.u16 .le 1)),
    ("numberFonts", .leaf (.u16 .le 0)),
    ("orderFlags", .leaf (.u16 .le (orderFlags.getD OrderFlag.negotiateOrderSupport.toU16))),
    ("orderSupport", .leaf (.bytes (List.replicate 32 0))),
    ("textFlags", .leaf (.u16 .le 0)),
    ("orderSupportExFlags", .leaf (.u16 .le 0)),
    ("pad4octetsB", .leaf (.u32 .le 0)),
    ("desktopSaveSize", .leaf (.u32 .le (480 * 480))),
    ("pad2octetsC", .leaf (.u16 .le 0)),
    ("pad2octetsD", .leaf (.u16 .le 0)),
    ("textANSICodePage", .leaf (.u16 .le 0)),
    ("pad2octetsE", .leaf (.u16 .le 0))
  ]

def tsBitmapCacheCapabilitySet : Capability where
  capType := .capstypeBitmapcache
  message := [
    ("pad1", .leaf (.u32 .le 0)),
    ("pad2", .leaf (.u32 .le 0)),
    ("pad3", .leaf (.u32 .le 0)),
    ("pad4", .leaf (.u32 .le 0)),
    ("pad5", .leaf (.u32 .le 0)),
    ("pad6", .leaf (.u32 .le 0)),
    ("cache0Entries", .leaf (.u16 .le 0)),
    ("cache0MaximumCellSize", .leaf (.u16 .le 0)),
    ("cache1Entries", .leaf (.u16 .le 0)),
    ("cache1MaximumCellSize", .leaf (.u16 .le 0)),
    ("cache2Entries", .leaf (.u16 .le 0)),
    ("cache2MaximumCellSize", .leaf (.u16 .le 0))
  ]

def tsPointerCapabilitySet : Capability where
  capType := .capstypePointer
  message := [
    ("colorPointerFlag", .leaf (.u16 .le 0)),
    ("colorPointerCacheSize", .leaf (.u16 .le 20))
  ]

def tsInputCapabilitySet (inputFlags : Option UInt16) (keyboardLayout : Option KeyboardLayout) :
    Capability where
  capType := .capstypeInput
  message := [
    ("inputFlags", .leaf (.u16 .le (inputFlags.getD 0))),
    ("pad2octetsA", .leaf (.u16 .le 0)),
    ("keyboardLayout", .leaf (.u32 .le (keyboardLayout.getD .french).toU32)),
    ("keyboardType", .leaf (.u32 .le ibm101102Keys)),
    ("keyboardSubType", .leaf (.u32 .le 0)),
    ("keyboardFunctionKey", .leaf (.u32 .le 12)),
    ("imeFileName", .leaf (.bytes (List.replicate 64 0)))
  ]

def tsBrushCapabilitySet : Capability where
  capType := .capstypeBrush
  message := [("brushSupportLevel", .leaf (.u32 .le 0))]

def cacheEntry : Component := [
  ("cacheEntries", .leaf (.u16 .le 0)),
  ("cacheMaximumCellSize", .leaf (.u16 .le 0))
]

def tsGlyphCapabilitySet : Capability where
  capType := .capstypeGlyphcache
  message := [
    ("glyphCache", .trame (List.replicate 10 (.component cacheEntry))),
    ("fragCache", .leaf (.u32 .le 0)),
    ("glyphSupportLevel", .leaf (.u16 .le 0)),
    ("pad2octets", .leaf (.u16 .le 0))
  ]

def tsOffscreenCapabilitySet : Capability where
  capType := .capstypeOffscreencache
  message := [
    ("offscreenSupportLevel", .leaf (.u32 .le 0)),
    ("offscreenCacheSize", .leaf (.u16 .le 0)),
    ("offscreenCacheEntries", .leaf (.u16 .le 0))
  ]

def tsVirtualchannelCapabilitySet : Capability where
  capType := .capstypeVirtualchannel
  message := [
    ("flags", .leaf (.u32 .le 0)),
    ("VCChunkSize", .option (some (.leaf (.u32 .le 0))))
  ]

def tsSoundCapabilitySet : Capability where
  capType := .capstypeSound
  message := [
    ("soundFlags", .leaf (.u16 .le 0)),
    ("pad2octetsA", .leaf (.u16 .le 0))
  ]

def tsMultifragmentUpdateCapabilityTs : Capability where
  capType := .capsettypeMultifragmentupdate
  message := [("MaxRequestSize", .leaf (.u32 .le 0))]

def template (capType : CapabilitySetType) : RdpResult Capability :=
  match capType with
  | .capstypeGeneral => .ok (tsGeneralCapabilitySet none)
  | .capstypeBitmap => .ok (tsBitmapCapabilitySet none none none)
  | .capstypeOrder => .ok (tsOrderCapabilitySet none)
  | .capstypeBitmapcache => .ok tsBitmapCacheCapabilitySet
  | .capstypePointer => .ok tsPointerCapabilitySet
  | .capstypeInput => .ok (tsInputCapabilitySet none none)
  | .capstypeBrush => .ok tsBrushCapabilitySet
  | .capstypeGlyphcache => .ok tsGlyphCapabilitySet
  | .capstypeOffscreencache => .ok tsOffscreenCapabilitySet
  | .capstypeVirtualchannel => .ok tsVirtualchannelCapabilitySet
  | .capstypeSound => .ok tsSoundCapabilitySet
  | .capsettypeMultifragmentupdate => .ok tsMultifragmentUpdateCapabilityTs
  | capType => .error (.error (.new .unknown ("CAPABILITY: Unknown capability " ++ capType.debug)))

/--
`message.read` on a component: the node after the call.
-/
def readComponent (template : Component) (stream : Bytes) : RdpResult Component :=
  match (Message.component template).reader.run stream with
  | .ok (.component fields) _ => .ok fields
  | .ok _ _ => DataType.invalidCast
  | .error e _ => .error e

def fromCapabilitySet (capabilitySet : List (String × DataType)) : RdpResult Capability := do
  let capType ← CapabilitySetType.tryFrom
    (← castU16 (← field capabilitySet "capabilitySetType"))
  let capability ← template capType
  let message ← readComponent capability.message
    (← castSlice (← field capabilitySet "capabilitySet"))
  return { capability with message }

end Capability

end Rdp
