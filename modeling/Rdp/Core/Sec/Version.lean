import Rdp.Core.Gcc.Response
import Rdp.Core.Sec.Impl

/-!
This module contains what the version of the server decides: whether the client sends the extended
information with its logon.
-/

namespace Rdp

open Prog Cursor

namespace Gcc.Version

theorem ofU32_eq_rdpVersion5plus {e : UInt32} : ofU32 e = .rdpVersion5plus ↔ e = 0x00080001 := by
  unfold ofU32
  split
  next h => simp [h]
  next h => split <;> simp [h]

end Gcc.Version

namespace Sec

def clientInfo (isExtendedInfo : Bool) (domain username password : String) (autoLogon : Bool) : Message :=
  .trame [
    .leaf (.u16 .le secInfoPkt),
    .leaf (.u16 .le 0),
    .component (rdpInfos isExtendedInfo domain username password autoLogon)
  ]

/--
`connect` after the packet was chosen.
-/
def logon (packet : Message) : Prog Error Mcs.Client Unit := do
  Mcs.Client.write "global" packet
  let (_, payload) ← Mcs.Client.read
  let stream ← Prog.lift (Mcs.rawPayload payload)
  let _ ← Prog.on stream readLicense
  return ()

section Connect

open Nla (unicode)

variable (domain username password : String) (autoLogon : Bool)

theorem run_connect {client : Mcs.Client} {isExtendedInfo : Bool}
    (h : client.isRdpVersion5Plus = .ok isExtendedInfo) :
    (connect domain username password autoLogon).run client =
      (logon (clientInfo isExtendedInfo domain username password autoLogon)).run client := by
  unfold connect
  rw [EStateM.run_bind, EStateM.run_get]
  simp only [h, lift_ok, pure_bind]
  rfl

def infoLeaves : List (String × Leaf) :=
  let domainFormat := unicode domain ++ [0, 0]
  let usernameFormat := unicode username ++ [0, 0]
  let passwordFormat := unicode password ++ [0, 0]
  [
    ("codePage", .u32 .le 0),
    ("flag", .u32 .le (InfoFlag.infoMouse.toU32 ||| InfoFlag.infoUnicode.toU32 |||
      InfoFlag.infoLogonnotify.toU32 ||| InfoFlag.infoLogonerrors.toU32 |||
      InfoFlag.infoDisablectrlaltdel.toU32 ||| InfoFlag.infoEnablewindowskey.toU32 |||
      if autoLogon then InfoFlag.infoAutologon.toU32 else 0)),
    ("cbDomain", .u16 .le (.ofNat (domainFormat.length - 2))),
    ("cbUserName", .u16 .le (.ofNat (usernameFormat.length - 2))),
    ("cbPassword", .u16 .le (.ofNat (passwordFormat.length - 2))),
    ("cbAlternateShell", .u16 .le 0),
    ("cbWorkingDir", .u16 .le 0),
    ("domain", .bytes domainFormat),
    ("userName", .bytes usernameFormat),
    ("password", .bytes passwordFormat),
    ("alternateShell", .bytes [0, 0]),
    ("workingDir", .bytes [0, 0])
  ]

theorem rdpInfos_eq (isExtendedInfo : Bool) :
    rdpInfos isExtendedInfo domain username password autoLogon =
      (infoLeaves domain username password autoLogon).map (fun f => (f.1, .leaf f.2)) ++
        [("extendedInfos", .component (if isExtendedInfo then rdpExtendedInfos else []))] := rfl

theorem writeFields_leaves (leaves : List (String × Leaf)) {fields : Component} {bytes : Bytes}
    (h : Message.writeFields [] fields = .ok bytes) :
    Message.writeFields [] (leaves.map (fun f => (f.1, .leaf f.2)) ++ fields) =
      .ok (leaves.flatMap (·.2.write) ++ bytes) := by
  induction leaves with
  | nil => exact h
  | cons leaf leaves ih =>
    rw [List.map_cons, List.cons_append, Message.writeFields_cons_of_not_mem _ _ List.not_mem_nil,
      Message.write_leaf, Except.ok_bind, Message.options_leaf, Except.ok_bind,
      MessageOption.addSkip_none, ih, List.flatMap_cons, List.append_assoc]
    rfl

theorem write_clientInfo (isExtendedInfo : Bool) {extended : Bytes}
    (h : (Message.component (if isExtendedInfo then rdpExtendedInfos else [])).write = .ok extended) :
    (clientInfo isExtendedInfo domain username password autoLogon).write =
      .ok (Endian.le.encode16 secInfoPkt ++ (Endian.le.encode16 0 ++
        ((infoLeaves domain username password autoLogon).flatMap (·.2.write) ++ extended))) := by
  have hfield : Message.writeFields []
      [("extendedInfos", .component (if isExtendedInfo then rdpExtendedInfos else []))] =
        .ok extended := by
    rw [Message.writeFields_cons_of_not_mem _ _ List.not_mem_nil, h, Message.options_component,
      Except.ok_bind, Except.ok_bind, Message.writeFields_nil, Except.ok_bind, List.append_nil]
    rfl
  have hinfos := writeFields_leaves (infoLeaves domain username password autoLogon) hfield
  rw [← rdpInfos_eq] at hinfos
  simp only [clientInfo, Message.write_trame, Message.writeTrame_cons, Message.writeTrame_nil,
    Message.write_leaf, Message.write_component, Except.ok_bind, hinfos]
  rw [List.append_nil]
  rfl

theorem exists_write_clientInfo :
    ∃ infos extended, (Message.component rdpExtendedInfos).write = .ok extended ∧
      (clientInfo false domain username password autoLogon).write = .ok infos ∧
      (clientInfo true domain username password autoLogon).write = .ok (infos ++ extended) := by
  obtain ⟨extended, hextended⟩ :
      ∃ extended, (Message.component rdpExtendedInfos).write = .ok extended := ⟨_, rfl⟩
  refine ⟨_, extended, hextended, write_clientInfo domain username password autoLogon false rfl, ?_⟩
  rw [write_clientInfo domain username password autoLogon true hextended]
  simp only [List.append_assoc, List.nil_append]

end Connect

section Decides

/--
A client of a server with this version knows which of the two it is, and the packet of its logon ends
with the extended information exactly for the newer one.
-/
structure Decides (client : Mcs.Client) (version : UInt32) : Prop where
  plus : version = 0x00080004 → client.isRdpVersion5Plus = .ok true
  old : version = 0x00080001 → client.isRdpVersion5Plus = .ok false
  infos : ∀ domain username password autoLogon, ∃ packet infos extended,
    (connect domain username password autoLogon).run client = (logon packet).run client ∧
    (Message.component rdpExtendedInfos).write = .ok extended ∧
    (clientInfo false domain username password autoLogon).write = .ok infos ∧
    packet.write = .ok (if version = 0x00080004 then infos ++ extended else infos)

variable {client : Mcs.Client} {version : UInt32}

theorem isRdpVersion5Plus_eq {data : Gcc.ServerData} (h : client.serverData = some data) :
    client.isRdpVersion5Plus = .ok (data.rdpVersion = .rdpVersion5plus) := by
  unfold Mcs.Client.isRdpVersion5Plus
  rw [h]
  rfl

theorem decides_iff (h : client.isRdpVersion5Plus = .ok (version = 0x00080001 : Bool)) :
    Decides client version ↔ version ≠ 0x00080001 ∧ version ≠ 0x00080004 := by
  -- The client decides by the code of the older version.
  constructor
  . intro hdecides
    constructor
    . rintro rfl
      have hold := hdecides.old rfl
      rw [h] at hold
      cases hold
    . rintro rfl
      have hplus := hdecides.plus rfl
      rw [h] at hplus
      cases hplus
  . rintro ⟨hold, hplus⟩
    rw [decide_eq_false hold] at h
    refine ⟨fun heq => absurd heq hplus, fun heq => absurd heq hold, ?_⟩
    intro domain username password autoLogon
    obtain ⟨infos, extended, hextended, hinfos, _⟩ :=
      exists_write_clientInfo domain username password autoLogon
    refine ⟨_, infos, extended, run_connect domain username password autoLogon h, hextended, hinfos, ?_⟩
    rw [if_neg hplus, hinfos]

/--
For a response that is accepted the version of the last core block decides about the extended
information as it should exactly if it is neither of the two known versions.
-/
theorem version_decides_iff {stream rest : Bytes} {data : Gcc.ServerData}
    (hrun : Gcc.readConferenceCreateResponse.run stream = .ok data rest)
    {header : Gcc.ResponseHeader} {blocks : List Gcc.Block} {tail : Bytes}
    (hcarries : Gcc.Carries stream header blocks tail) (htail : tail.length < 4)
    (hversion : Gcc.LastVersion blocks version) (hclient : client.serverData = some data) :
    Decides client version ↔ version ≠ 0x00080001 ∧ version ≠ 0x00080004 := by
  apply decides_iff
  rw [isRdpVersion5Plus_eq hclient, Gcc.rdpVersion_of_carries hrun hcarries htail hversion]
  simp only [Gcc.Version.ofU32_eq_rdpVersion5plus]

open Gcc (responseHeader responseBlocks)

def response : Bytes :=
  responseHeader.encode ++ ([25] ++ (responseBlocks.flatMap Gcc.Block.encode ++ []))

def newerClient : Mcs.Client :=
  { Mcs.Client.new ⟨.raw ⟨[], [], []⟩, []⟩ .protocolSSL fun _ => 0 with
    serverData := some ⟨[1004], .ofU32 0x00080004⟩ }

theorem lastVersion_responseBlocks : Gcc.LastVersion responseBlocks 0x00080004 := by
  refine ⟨⟨0x0C01, [4, 0, 8, 0], by decide⟩, [], ⟨rfl, ?_⟩, rfl⟩
  exact ⟨[⟨0x0C03, Gcc.networkBody [1004] [0, 0], by decide⟩, ⟨0x0C08, [7], by decide⟩], [], rfl, by simp⟩

theorem lastIds_responseBlocks : Gcc.LastIds responseBlocks [1004] := by
  refine ⟨⟨0x0C03, Gcc.networkBody [1004] [0, 0], by decide⟩, [0, 0], ⟨rfl, ?_⟩, rfl⟩
  refine ⟨[], [⟨0x0C08, [7], by decide⟩, ⟨0x0C01, [4, 0, 8, 0], by decide⟩], rfl, ?_⟩
  simp [Gcc.Block.messageType, Gcc.MessageType.ofU16]

theorem carries_response : Gcc.Carries response responseHeader responseBlocks [] where
  wellFormed := Gcc.wellFormed_responseBlocks
  stream_eq := ⟨25, [25], _, @Per.LengthCode.short 25 (by decide), rfl, rfl⟩

theorem version_decides_iff_response :
    Decides newerClient 0x00080004 ↔
      (0x00080004 : UInt32) ≠ 0x00080001 ∧ (0x00080004 : UInt32) ≠ 0x00080004 := by
  obtain ⟨rest, hrun⟩ := Gcc.run_of_carries carries_response (Nat.succ_pos 3) lastIds_responseBlocks
    lastVersion_responseBlocks
  exact version_decides_iff hrun carries_response (Nat.succ_pos 3) lastVersion_responseBlocks rfl

theorem not_decides_newer :
    (∃ rest, Gcc.readConferenceCreateResponse.run response = .ok ⟨[1004], .ofU32 0x00080004⟩ rest) ∧
    Gcc.LastVersion responseBlocks 0x00080004 ∧
    newerClient.serverData = some ⟨[1004], .ofU32 0x00080004⟩ ∧ ¬ Decides newerClient 0x00080004 := by
  refine ⟨?_, lastVersion_responseBlocks, rfl, ?_⟩
  . exact Gcc.run_of_carries carries_response (Nat.succ_pos 3) lastIds_responseBlocks
      lastVersion_responseBlocks
  . rw [decides_iff rfl]
    rintro ⟨_, h⟩
    exact h rfl

end Decides

end Sec

end Rdp
