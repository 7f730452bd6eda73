import Rdp.Core.Gcc.Request
import Rdp.Core.Mcs.Impl

/-!
This module contains the request with which the client creates the conference: it can be written for every
name that can be cut, and carries three blocks of settings whose lengths are right.
-/

namespace Rdp.Mcs.Client

open Gcc

section Blocks

def blockBytes (type : MessageType) (bytes : Bytes) : Bytes :=
  Endian.le.encode16 type.toU16 ++ (Endian.le.encode16 (.ofNat (bytes.length + 4)) ++ bytes)

theorem length_blockBytes (type : MessageType) (bytes : Bytes) :
    (blockBytes type bytes).length = bytes.length + 4 := by
  simp only [blockBytes, List.length_append, Endian.length_encode16]
  omega

theorem exists_block (type : MessageType) {data : Component} {bytes : Bytes}
    (h : (Message.component data).write = .ok bytes) (hlt : bytes.length + 4 < 2 ^ 16) :
    ∃ node : Message, (do
        let length ← (Message.component data).length
        let header ← blockHeader (some type) (some (.ofNat length))
        return .trame [.component header, .component data]) = (.ok node : RdpResult Message) ∧
      node.write = .ok (blockBytes type bytes) := by
  have htoNat : (UInt16.ofNat bytes.length).toNat = bytes.length := by
    rw [UInt16.toNat_ofNat']
    omega
  let header : Component := [("type", .leaf (.u16 .le type.toU16)),
    ("length", .leaf (.u16 .le (.ofNat (bytes.length + 4))))]
  refine ⟨.trame [.component header, .component data], ?_, ?_⟩
  . rw [Message.length_of_write _ h, Except.ok_bind, blockHeader, Option.getD_some, htoNat,
      checkedAdd_of_lt hlt]
    rfl
  . simp [header, h, Leaf.write, blockBytes]

end Blocks

section Name

/--
The name of the client is cut after sixteen bytes, where a character has to end.
-/
def Cuts (name : String) : Prop :=
  16 ≤ name.utf8ByteSize → ∃ cs rest, name.toList = cs ++ rest ∧ String.utf8Len cs = 16

theorem exists_clientName {name : String} (h : Cuts name) :
    ∃ s, clientName name = .ok s ∧ (Nla.unicode s).length ≤ 32 := by
  by_cases hlong : 16 ≤ name.utf8ByteSize
  . obtain ⟨cs, rest, hname, hlen⟩ := h hlong
    have hle := utf16Len_le cs
    refine ⟨.ofList cs, (clientName_eq_ok hlong).mpr ⟨cs, rest, rfl, hname, hlen⟩, ?_⟩
    rw [length_unicode, String.toList_ofList]
    omega
  . obtain ⟨s, hs, hlength⟩ := length_unicode_clientName (Nat.lt_of_not_le hlong)
    have hle := utf16Len_le name.toList
    rw [utf8Len_toList] at hle
    exact ⟨s, hs, by omega⟩

theorem cuts_of_clientName {name s : String} (h : clientName name = .ok s) : Cuts name := by
  intro hlong
  obtain ⟨cs, rest, _, hname, hlen⟩ := (clientName_eq_ok hlong).mp h
  exact ⟨cs, rest, hname, hlen⟩

end Name

section Settings

variable (selectedProtocol : X224.Protocols) (width height : UInt16) (layout : KeyboardLayout)
  {name : String}

def coreData (name : String) : RdpResult Component := clientCoreData (some {
  width := width
  height := height
  layout := layout
  serverSelectedProtocol := selectedProtocol.toU32
  rdpVersion := .rdpVersion5plus
  name := name
})

theorem exists_coreData (h : Cuts name) :
    ∃ core bytes, coreData selectedProtocol width height layout name = .ok core ∧
      (Message.component core).write = .ok bytes ∧ 180 ≤ bytes.length ∧ bytes.length ≤ 212 := by
  obtain ⟨s, hs, hle⟩ := exists_clientName h
  obtain ⟨core, hcore, hoptions, hsizes⟩ := @exists_fields
    (some ⟨width, height, layout, selectedProtocol.toU32, .rdpVersion5plus, name⟩) s hs
  have hlengths : core.map (fun f => (f.1, List.length <$> f.2.write)) =
      (coreDataLayout.map fun f =>
        (f.1, if f.1 = "clientName" then (Nla.unicode s).length else f.2)).map fun f => (f.1, .ok f.2) := by
    rw [hsizes, List.map_map]
    rfl
  have hlength := length_write_of_sizes hoptions hlengths
  cases hwrite : (Message.component core).write with
  | error e =>
    rw [hwrite] at hlength
    cases hlength
  | ok bytes =>
    rw [hwrite] at hlength
    have hsum : bytes.length = 180 + (Nla.unicode s).length := by
      rw [Except.ok.inj hlength]
      simp [coreDataLayout]
      omega
    exact ⟨core, bytes, hcore, hwrite, by omega, by omega⟩

theorem cuts_of_coreData {core : Component}
    (h : coreData selectedProtocol width height layout name = .ok core) : Cuts name := by
  cases hname : clientName name with
  | error e => cases h.symm.trans (clientCoreData_of_error hname)
  | ok s => exact cuts_of_clientName hname

def settings (core : Bytes) : Bytes :=
  blockBytes .csCore core ++ (blockBytes .csSecurity [11, 0, 0, 0, 0, 0, 0, 0] ++
    blockBytes .csNet [0, 0, 0, 0])

theorem length_settings (core : Bytes) : (settings core).length = core.length + 24 := by
  simp only [settings, List.length_append, length_blockBytes, List.length_cons, List.length_nil]

theorem userData_of_coreData {core : Component} {bytes : Bytes}
    (hcore : coreData selectedProtocol width height layout name = .ok core)
    (hwrite : (Message.component core).write = .ok bytes) (hle : bytes.length ≤ 212) :
    userData selectedProtocol width height layout name = .ok (settings bytes) := by
  have hsecurity : (Message.component clientSecurityData).write = .ok [11, 0, 0, 0, 0, 0, 0, 0] := rfl
  obtain ⟨network, hnetwork, hnet⟩ : ∃ network, clientNetworkData [] = .ok network ∧
      (Message.component network).write = .ok [0, 0, 0, 0] := ⟨_, rfl, rfl⟩
  obtain ⟨coreBlock, hcoreBlock, hcoreWrite⟩ := exists_block .csCore hwrite (by omega)
  obtain ⟨securityBlock, hsecurityBlock, hsecurityWrite⟩ := exists_block .csSecurity hsecurity (by decide)
  obtain ⟨netBlock, hnetBlock, hnetWrite⟩ := exists_block .csNet hnet (by decide)
  have hblocks : (Message.trame [coreBlock, securityBlock, netBlock]).write = .ok (settings bytes) := by
    simp only [Message.write_trame, Message.writeTrame_cons, Message.writeTrame_nil, hcoreWrite,
      hsecurityWrite, hnetWrite, Except.ok_bind]
    rfl
  rw [coreData] at hcore
  rw [userData, hcore, Except.ok_bind, hnetwork, Except.ok_bind]
  dsimp only
  rw [hcoreBlock, Except.ok_bind, hsecurityBlock, Except.ok_bind, hnetBlock, Except.ok_bind]
  exact toVec_eq_ok_iff.mpr hblocks

theorem exists_request {userData : Bytes} (hge : 128 ≤ userData.length) (hle : userData.length ≤ 236) :
    ∃ request, writeConferenceCreateRequest userData = .ok request ∧ Consistent userData request ∧
      request.length = userData.length + 23 := by
  have hlt : userData.length < 2 ^ 15 - 13 := by omega
  obtain ⟨length, size, hlength, hsize, hrequest⟩ := writeConferenceCreateRequest_of_lt hlt
  have hcount {n : Nat} {bytes : Bytes} (hn : 128 ≤ n) (hn' : n ≤ 250)
      (h : Per.encodeLength (.ofNat n) = .ok bytes) : bytes.length = 2 := by
    obtain ⟨bytes', h', hbytes⟩ := Per.exists_encodeLength (.ofNat n)
    cases h.symm.trans h'
    rw [hbytes, UInt16.toNat_ofNat', Nat.mod_eq_of_lt (by omega), if_neg (by omega)]
  have hlengthCount := hcount (by omega) (by omega) hlength
  have hsizeCount := hcount (by omega) (by omega) hsize
  refine ⟨_, hrequest, (consistent_iff hlt hlength hsize).mpr (by omega), ?_⟩
  simp only [List.length_append, hlengthCount, hsizeCount, show (Per.writeChoice 0).length = 1 from rfl,
    show requestHeader.length = 6 from rfl, show requestFields.length = 12 from rfl]
  omega

def conference (name : String) : RdpResult Bytes := do
  writeConferenceCreateRequest (← userData selectedProtocol width height layout name)

theorem exists_conference (h : Cuts name) :
    ∃ core bytes request, coreData selectedProtocol width height layout name = .ok core ∧
      (Message.component core).write = .ok bytes ∧
      userData selectedProtocol width height layout name = .ok (settings bytes) ∧
      conference selectedProtocol width height layout name = .ok request ∧
      Consistent (settings bytes) request ∧ request.length ≤ 259 := by
  obtain ⟨core, bytes, hcore, hwrite, hge, hle⟩ := exists_coreData selectedProtocol width height layout h
  have hsettings := userData_of_coreData selectedProtocol width height layout hcore hwrite hle
  have hlength := length_settings bytes
  obtain ⟨request, hrequest, hconsistent, hsize⟩ :=
    @exists_request (settings bytes) (by omega) (by omega)
  refine ⟨core, bytes, request, hcore, hwrite, hsettings, ?_, hconsistent, by omega⟩
  rw [conference, hsettings, Except.ok_bind, hrequest]

/--
A client of any settings sends a request exactly if its name can be cut, and then the lengths in it are
right and its user data are the three blocks.
-/
theorem conference_iff :
    ((∃ request, conference selectedProtocol width height layout name = .ok request) ↔ Cuts name) ∧
    ∀ request, conference selectedProtocol width height layout name = .ok request →
      ∃ core bytes, coreData selectedProtocol width height layout name = .ok core ∧
        (Message.component core).write = .ok bytes ∧ Consistent (settings bytes) request := by
  have hcuts {request : Bytes}
      (h : conference selectedProtocol width height layout name = .ok request) : Cuts name := by
    obtain ⟨settings, hsettings, _⟩ := Except.bind_eq_ok h
    obtain ⟨core, hcore, _⟩ := Except.bind_eq_ok hsettings
    exact cuts_of_coreData selectedProtocol width height layout hcore
  refine ⟨⟨?_, ?_⟩, ?_⟩
  . rintro ⟨request, h⟩
    exact hcuts h
  . intro h
    obtain ⟨_, _, request, _, _, _, hrequest, _⟩ := exists_conference selectedProtocol width height layout h
    exact ⟨request, hrequest⟩
  . intro request h
    obtain ⟨core, bytes, request', hcore, hwrite, _, hrequest, hconsistent, _⟩ :=
      exists_conference selectedProtocol width height layout (hcuts h)
    cases h.symm.trans hrequest
    exact ⟨core, bytes, hcore, hwrite, hconsistent⟩

end Settings

end Rdp.Mcs.Client
