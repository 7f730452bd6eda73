import Rdp.Core.License.Impl
import Rdp.Core.Mcs.Impl

/-!
This module contains the security layer: the client sends the information for an interactive logon,
and the server answers with the license phase.
-/

namespace Rdp.Sec

open Nla (unicode)

def secInfoPkt : UInt16 := 0x0040

def secLicensePkt : UInt16 := 0x0080

inductive InfoFlag where
  | infoMouse
  | infoDisablectrlaltdel
  | infoAutologon
  | infoUnicode
  | infoLogonnotify
  | infoEnablewindowskey
  | infoLogonerrors

def InfoFlag.toU32 (f : InfoFlag) : UInt32 :=
  match f with
  | .infoMouse => 0x00000001
  | .infoDisablectrlaltdel => 0x00000002
  | .infoAutologon => 0x00000008
  | .infoUnicode => 0x00000010
  | .infoLogonnotify => 0x00000040
  | .infoEnablewindowskey => 0x00000100
  | .infoLogonerrors => 0x00010000

def rdpExtendedInfos : Component := [
  ("clientAddressFamily", .leaf (.u16 .le 0x0002)),
  ("cbClientAddress", .dynOption (.leaf (.u16 .le 0)) fun node =>
    match node with
    | .u16 x => do return .size "clientAddress" (← checkedAdd 64 x.toNat 2)
    | _ => .ok .none),
  ("clientAddress", .leaf (.bytes [0, 0])),
  ("cbClientDir", .leaf (.u16 .le 0)),
  ("clientDir", .leaf (.bytes [0, 0])),
  ("clientTimeZone", .leaf (.bytes (List.replicate 172 0))),
  ("clientSessionId", .leaf (.u32 .le 0)),
  ("performanceFlags", .leaf (.u32 .le 0))
]

def rdpInfos (isExtendedInfo : Bool) (domain username password : String) (autoLogon : Bool) :
    Component :=
  let domainFormat := unicode domain ++ [0, 0]
  let usernameFormat := unicode username ++ [0, 0]
  let passwordFormat := unicode password ++ [0, 0]
  [
    ("codePage", .leaf (.u32 .le 0)),
    ("flag", .leaf (.u32 .le (InfoFlag.infoMouse.toU32 ||| InfoFlag.infoUnicode.toU32 |||
      InfoFlag.infoLogonnotify.toU32 ||| InfoFlag.infoLogonerrors.toU32 |||
      InfoFlag.infoDisablectrlaltdel.toU32 ||| InfoFlag.infoEnablewindowskey.toU32 |||
      if autoLogon then InfoFlag.infoAutologon.toU32 else 0))),
    ("cbDomain", .leaf (.u16 .le (.ofNat (domainFormat.length - 2)))),
    ("cbUserName", .leaf (.u16 .le (.ofNat (usernameFormat.length - 2)))),
    ("cbPassword", .leaf (.u16 .le (.ofNat (passwordFormat.length - 2)))),
    ("cbAlternateShell", .leaf (.u16 .le 0)),
    ("cbWorkingDir", .leaf (.u16 .le 0)),
    ("domain", .leaf (.bytes domainFormat)),
    ("userName", .leaf (.bytes usernameFormat)),
    ("password", .leaf (.bytes passwordFormat)),
    ("alternateShell", .leaf (.bytes [0, 0])),
    ("workingDir", .leaf (.bytes [0, 0])),
    ("extendedInfos", .component (if isExtendedInfo then rdpExtendedInfos else []))
  ]

def securityHeader : Component := [
  ("securityFlag", .leaf (.u16 .le 0)),
  ("securityFlagHi", .leaf (.u16 .le 0))
]

def readLicense : Reader Unit := do
  let header ← (Message.component securityHeader).reader
  let header ← Prog.lift (castComponent header.visit)
  let flag ← Prog.lift (castU16 (← Prog.lift (field header "securityFlag")))
  if flag &&& secLicensePkt = 0 then
    Prog.fail (.new .invalidData "SEC: Invalid Licence packet")
  else
    License.clientConnect

def connect (domain username password : String) (autoLogon : Bool) : Prog Error Mcs.Client Unit := do
  let isExtendedInfo ← Prog.lift (← get).isRdpVersion5Plus
  Mcs.Client.write "global" (.trame [
    .leaf (.u16 .le secInfoPkt),
    .leaf (.u16 .le 0),
    .component (rdpInfos isExtendedInfo domain username password autoLogon)
  ])
  let (_, payload) ← Mcs.Client.read
  let stream ← Prog.lift (Mcs.rawPayload payload)
  let _ ← Prog.on stream readLicense
  return ()

end Rdp.Sec
