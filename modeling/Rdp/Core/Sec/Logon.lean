import Rdp.Core.License.Gate
import Rdp.Core.Mcs.Joining
import Rdp.Core.Sec.Version

/-!
This module contains the logon on a transport that takes all that is written: which PDU the server has to
send for it to go through.
-/

namespace Rdp.Sec

open Prog Cursor
open Nla (unicode)

def Licensed (stream : Bytes) : Prop :=
  ∃ (flag flagHi : UInt16) (rest : Bytes),
    stream = Endian.le.encode16 flag ++ (Endian.le.encode16 flagHi ++ rest) ∧
    flag &&& secLicensePkt ≠ 0 ∧ License.Accepted rest

theorem readLicense_eq : readLicense = (do
    let flag ← readU16 .le
    let _ ← readU16 .le
    if flag &&& secLicensePkt = 0 then
      Prog.fail (.new .invalidData "SEC: Invalid Licence packet")
    else
      License.clientConnect) := by
  have hreader : (Message.component securityHeader).reader = (do
      let flag ← readU16 .le
      let flagHi ← readU16 .le
      return .component [("securityFlag", .leaf (.u16 .le flag)), ("securityFlagHi", .leaf (.u16 .le flagHi))]) := by
    simp [securityHeader]
  rw [readLicense, hreader]
  simp only [bind_assoc, pure_bind]
  rfl

theorem licensed_iff {stream : Bytes} : Licensed stream ↔ ∃ rest, readLicense.run stream = .ok () rest := by
  rw [readLicense_eq]
  constructor
  . rintro ⟨flag, flagHi, rest, rfl, hflag, p, left, hwhole, hpasses, rfl⟩
    have hlicense : License.clientConnect.run (p.encode ++ left) = .ok () left :=
      License.run_clientConnect_eq_ok.mpr ⟨p, hwhole, hpasses, rfl⟩
    refine ⟨left, ?_⟩
    refine run_bind_eq_ok_iff.mpr ⟨flag, _, run_readU16_encode16 _ _ _, ?_⟩
    refine run_bind_eq_ok_iff.mpr ⟨flagHi, _, run_readU16_encode16 _ _ _, ?_⟩
    rw [if_neg hflag]
    exact hlicense
  . rintro ⟨left, h⟩
    obtain ⟨flag, _, hflag, h⟩ := run_bind_eq_ok h
    obtain ⟨flagHi, rest, hflagHi, h⟩ := run_bind_eq_ok h
    split at h
    next => cases h
    next hlicense =>
      obtain ⟨p, hwhole, hpasses, hrest⟩ := License.run_clientConnect_eq_ok.mp h
      refine ⟨flag, flagHi, rest, ?_, hlicense, p, left, hwhole, hpasses, hrest⟩
      rw [run_readU16_iff_encode16.mp hflag, run_readU16_iff_encode16.mp hflagHi]

section Connect

variable (domain username password : String) (autoLogon : Bool)

/--
The longest packet of the logon.
-/
def logonLength : Nat :=
  222 + ((unicode domain).length + ((unicode username).length + (unicode password).length))

theorem exists_extendedInfos (isExtendedInfo : Bool) :
    ∃ extended, (Message.component (if isExtendedInfo then rdpExtendedInfos else [])).write = .ok extended ∧
      extended.length ≤ 190 := by
  cases isExtendedInfo with
  | false => exact ⟨[], rfl, Nat.zero_le _⟩
  | true =>
    have hlength : List.length <$> (Message.component rdpExtendedInfos).write = .ok 190 := rfl
    rw [if_pos rfl]
    cases hwrite : (Message.component rdpExtendedInfos).write with
    | error e =>
      rw [hwrite] at hlength
      cases hlength
    | ok extended =>
      rw [hwrite] at hlength
      exact ⟨extended, rfl, Nat.le_of_eq (Except.ok.inj hlength)⟩

theorem exists_clientInfo (isExtendedInfo : Bool) :
    ∃ bytes, (clientInfo isExtendedInfo domain username password autoLogon).write = .ok bytes ∧
      bytes.length ≤ logonLength domain username password := by
  obtain ⟨extended, hextended, hle⟩ := exists_extendedInfos isExtendedInfo
  refine ⟨_, write_clientInfo domain username password autoLogon isExtendedInfo hextended, ?_⟩
  simp only [infoLeaves, List.flatMap_cons, List.flatMap_nil, Leaf.write, List.length_append,
    Endian.length_encode16, Endian.length_encode32, List.length_cons, List.length_nil, logonLength]
  omega

variable {s s' : Mcs.Client}

theorem exists_run_connect {userId channel : UInt16} {data : Gcc.ServerData}
    (hdata : s.serverData = some data) (huser : s.userId = some userId) (hle : 1001 ≤ userId.toNat)
    (hchannel : s.channelIds.lookup "global" = some channel)
    (hshort : logonLength domain username password < 2 ^ 15) (hwrites : s.link.writes = [])
    {license stream : Bytes} (hindicates : Mcs.Indicates s.channelIds license stream)
    (hlicensed : Licensed stream) {left : List Arrival} (hreply : Mcs.Reply s.link.reads license left) :
    ∃ link', (connect domain username password autoLogon).run s = .ok () { s with link := link' } ∧
      link'.reads = left ∧ link'.writes = [] := by
  obtain ⟨bytes, hbytes, hlength⟩ := exists_clientInfo domain username password autoLogon
    (data.rdpVersion = .rdpVersion5plus)
  obtain ⟨link₁, hwrite, hreads, hnil⟩ := Mcs.Client.run_write_of_nil huser hle hchannel hbytes (by omega) hwrites
  rw [← hreads] at hreply
  obtain ⟨name, hindication⟩ := Mcs.indicates_iff.mp hindicates
  obtain ⟨rest, hlicense⟩ := licensed_iff.mp hlicensed
  have hread := @Mcs.Client.run_read_indication { s with link := link₁ } _ _ _ _ hreply hindication
  refine ⟨link₁.withReads left, ?_, Link.reads_withReads _ _, (Link.writes_withReads _ _).trans hnil⟩
  rw [run_connect domain username password autoLogon (isRdpVersion5Plus_eq hdata)]
  refine run_bind_eq_ok_iff.mpr ⟨(), _, hwrite, ?_⟩
  refine run_bind_eq_ok_iff.mpr ⟨_, _, hread, ?_⟩
  refine run_bind_eq_ok_iff.mpr ⟨stream, _, rfl, ?_⟩
  refine run_bind_eq_ok_iff.mpr ⟨((), rest), _, ?_, rfl⟩
  rw [run_on, hlicense]

theorem licensed_of_run_connect {u : Unit}
    (h : (connect domain username password autoLogon).run s = .ok u s') :
    ∃ license stream, Mcs.Advances [license] s s' ∧ Mcs.Indicates s.channelIds license stream ∧
      Licensed stream := by
  obtain ⟨_, _, h⟩ := run_lift_bind_eq_ok (run_get_bind_eq_ok h)
  obtain ⟨_, s₁, hwrite, h⟩ := run_bind_eq_ok h
  obtain ⟨⟨name, payload⟩, s₂, hread, h⟩ := run_bind_eq_ok h
  obtain ⟨stream, hraw, h⟩ := run_lift_bind_eq_ok h
  obtain ⟨_, rest, hlicense, h⟩ := run_on_bind_eq_ok h
  cases h
  have hadvances := Mcs.Client.advances_of_run_write hwrite
  obtain ⟨license, hadvances', hindicates⟩ := Mcs.Client.indicates_of_run_read hread hraw
  have hchannels : s₁.channelIds = s.channelIds := by rw [hadvances.frame]
  rw [hchannels] at hindicates
  exact ⟨license, stream, hadvances.trans hadvances', hindicates, licensed_iff.mpr ⟨rest, hlicense⟩⟩

end Connect

end Rdp.Sec
