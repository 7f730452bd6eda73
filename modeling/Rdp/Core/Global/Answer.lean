import Rdp.Core.Global.Frames
import Rdp.Core.Mcs.Framing

/-!
This module contains the PDUs the client writes: the answer to a Demand Active, and what is left of
it when a write fails.
-/

namespace Rdp

open Prog Cursor

namespace Capability

theorem write_node {set : RawSet} (h : 4 ≤ set.lengthCapability.toNat) :
    (Message.component set.node).write = .ok (Endian.le.encode16 set.capabilitySetType ++
      (Endian.le.encode16 set.lengthCapability ++ set.capabilitySet)) := by
  simp [RawSet.node, RawSet.lengthOption, Message.visit, Leaf.visit, Leaf.write, checkedSub_of_le h]

theorem capabilitySet_some {capability : Capability} {bytes : Bytes}
    (h : (Message.component capability.message).write = .ok bytes) (hlt : bytes.length + 4 < 2 ^ 16) :
    capabilitySet (some capability) =
      .ok (RawSet.node ⟨capability.capType.toU16, .ofNat (bytes.length + 4), bytes⟩) := by
  have hlength : (UInt16.ofNat bytes.length).toNat = bytes.length := by
    rw [UInt16.toNat_ofNat']
    omega
  have hvec : toVec (.component capability.message) = .ok bytes := by
    rw [toVec, h]
  simp only [capabilitySet, Option.getD_some, Message.length_of_write _ h, hlength,
    checkedAdd_of_lt hlt, hvec, Except.ok_bind]
  rfl

def SetsOf (sets : List RawSet) (lengths : List Nat) : Prop :=
  List.Forall₂ (fun set n => set.capabilitySet.length = n ∧ set.lengthCapability.toNat = n + 4)
    sets lengths

theorem mapM_capabilitySet {capabilities : List Capability} {lengths : List Nat}
    (h : List.Forall₂ (fun capability n => ∃ bytes,
      (Message.component capability.message).write = .ok bytes ∧ bytes.length = n) capabilities lengths)
    (hlt : ∀ n ∈ lengths, n + 4 < 2 ^ 16) :
    ∃ sets : List RawSet, SetsOf sets lengths ∧
      (capabilities.mapM fun capability => capabilitySet (some capability)) =
        .ok (sets.map RawSet.node) := by
  induction h with
  | nil => exact ⟨[], .nil, rfl⟩
  | @cons capability n capabilities lengths hbytes _ ih =>
    obtain ⟨bytes, hwrite, rfl⟩ := hbytes
    rw [List.forall_mem_cons] at hlt
    obtain ⟨sets, hsets, hmap⟩ := ih hlt.2
    have hlength : (UInt16.ofNat (bytes.length + 4)).toNat = bytes.length + 4 := by
      rw [UInt16.toNat_ofNat', Nat.mod_eq_of_lt hlt.1]
    refine ⟨⟨capability.capType.toU16, .ofNat (bytes.length + 4), bytes⟩ :: sets, .cons ⟨rfl, hlength⟩ hsets, ?_⟩
    rw [List.mapM_cons, capabilitySet_some hwrite hlt.1, Except.ok_bind, hmap]
    rfl

theorem write_sets {sets : List RawSet} {lengths : List Nat} (h : SetsOf sets lengths) :
    ∃ bytes, Message.writeTrame (sets.map fun set => .component set.node) = .ok bytes ∧
      bytes.length = (lengths.map (· + 4)).sum := by
  induction h with
  | nil => exact ⟨[], rfl, rfl⟩
  | @cons set n sets lengths hset _ ih =>
    obtain ⟨bytes, hwrite, hlength⟩ := ih
    refine ⟨(Endian.le.encode16 set.capabilitySetType ++
      (Endian.le.encode16 set.lengthCapability ++ set.capabilitySet)) ++ bytes, ?_, ?_⟩
    . rw [List.map_cons, Message.writeTrame_cons, write_node (by omega), Except.ok_bind, hwrite]
      rfl
    . simp only [List.length_append, Endian.encode16, Endian.length_order, List.length_cons,
        List.length_nil, hset.1, hlength, List.map_cons, List.sum_cons]
      omega

end Capability

namespace Global

open Capability (SetsOf mapM_capabilitySet write_sets)

namespace Client

theorem lengths_capabilities (client : Client) :
    List.Forall₂
      (fun capability n => ∃ bytes,
        (Message.component capability.message).write = .ok bytes ∧ bytes.length = n)
      client.capabilities [20, 24, 84, 36, 4, 4, 84, 4, 48, 8, 8, 4] := by
  repeat' first
    | exact .nil
    | exact ⟨_, rfl, rfl⟩
    | constructor

theorem confirmActivePdu_eq (client : Client) :
    ∃ (sets : List Capability.RawSet) (bytes : Bytes),
      Message.writeTrame (sets.map fun set => .component set.node) = .ok bytes ∧
      bytes.length = 376 ∧
      client.confirmActivePdu = .ok ⟨.pdutypeConfirmactivepdu, [
        ("shareId", .leaf (.u32 .le (client.shareId.getD 0))),
        ("originatorId", .check (.u16 .le 0x03EA)),
        ("lengthSourceDescriptor",
          .dynOption (.leaf (.u16 .le (.ofNat (Nla.asBytes client.name).length)))
            (sizeOf "sourceDescriptor")),
        ("lengthCombinedCapabilities",
          .dynOption (.leaf (.u16 .le 380)) (sizeWithout 4 "capabilitySets")),
        ("sourceDescriptor", .leaf (.bytes (Nla.asBytes client.name))),
        ("numberCapabilities", .leaf (.u16 .le (.ofNat sets.length))),
        ("pad2Octets", .leaf (.u16 .le 0)),
        ("capabilitySets", .array (sets.map fun set => .component set.node) none)
      ]⟩ := by
  obtain ⟨sets, hsets, hmap⟩ := mapM_capabilitySet client.lengths_capabilities (by decide)
  obtain ⟨bytes, hwrite, hlength⟩ := write_sets hsets
  have hsum : bytes.length = 376 := hlength
  have htrame : (Message.array (sets.map fun set => .component set.node) none).length =
      .ok bytes.length := Message.length_of_write _ hwrite
  refine ⟨sets, bytes, hwrite, hsum, ?_⟩
  unfold confirmActivePdu tsConfirmActivePdu
  rw [hmap, Except.ok_bind, List.map_map]
  simp only [Option.getD_some, Capability.RawSet.capabilitySet_none, Except.ok_bind]
  change (Message.array (sets.map fun set => .component set.node) none).length >>= _ = _
  rw [htrame, hsum, Except.ok_bind, List.length_map]
  rfl

theorem write_confirmActivePdu {client : Client} {pdu : PDU} (h : client.confirmActivePdu = .ok pdu) :
    ∃ bytes, (Message.component pdu.message).write = .ok bytes ∧
      bytes.length = 390 + (Nla.asBytes client.name).length := by
  obtain ⟨sets, setBytes, hwrite, hlength, hpdu⟩ := client.confirmActivePdu_eq
  cases h.symm.trans hpdu
  have hsize : sizeWithout 4 "capabilitySets" (.u16 380) = .ok (.size "capabilitySets" 376) := rfl
  have harray : (Message.array (sets.map fun set => .component set.node) none).length = .ok 376 := by
    rw [← hlength]
    exact Message.length_of_write _ hwrite
  apply (Message.measures _ _).mp
  simp [Message.visit, Leaf.visit, Leaf.length, sizeOf, hsize, harray]
  omega

theorem exists_confirmActivePdu (client : Client) : ∃ pdu, client.confirmActivePdu = .ok pdu := by
  obtain ⟨_, _, _, _, hpdu⟩ := client.confirmActivePdu_eq
  exact ⟨_, hpdu⟩

def answer (client : Client) : RdpResult (List PDU) := do
  return [
    ← client.confirmActivePdu,
    ← dataPdu client.shareId (tsSynchronizePdu (some client.channelId)),
    ← dataPdu client.shareId (tsControlPdu (some .ctrlactionCooperate)),
    ← dataPdu client.shareId (tsControlPdu (some .ctrlactionRequestControl)),
    ← dataPdu client.shareId tsFontListPdu
  ]

/--
The PDU shows this share id.
-/
def Carries (shareId : UInt32) (pdu : PDU) : Prop := field pdu.fields "shareId" = .ok (.u32 shareId)

theorem carries_confirmActivePdu {client : Client} {pdu : PDU} (h : client.confirmActivePdu = .ok pdu) :
    Carries (client.shareId.getD 0) pdu := by
  obtain ⟨_, _, _, _, hpdu⟩ := client.confirmActivePdu_eq
  cases h.symm.trans hpdu
  rfl

theorem ShareData.length_node {data : ShareData} (h : 18 ≤ data.uncompressedLength.toNat) :
    (Message.component data.node).length = .ok (12 + data.payload.length) := by
  have hsize : sizeWithout 18 "payload" (.u16 data.uncompressedLength) =
      .ok (.size "payload" (data.uncompressedLength.toNat - 18)) := by
    rw [sizeWithout, checkedSub_of_le h]
    rfl
  simp [ShareData.node, Message.visit, Leaf.visit, Leaf.length, hsize]
  omega

theorem dataPdu_eq_ok {shareId : Option UInt32} {message : DataPDU} {pdu : PDU}
    (h : dataPdu shareId message = .ok pdu) :
    ∃ data : ShareData, pdu = ⟨.pdutypeDatapdu, data.node⟩ ∧ data.shareId = shareId.getD 0 ∧
      data.pduType2 = message.pduType.toU8 ∧
      toVec (.component message.message) = .ok data.payload := by
  obtain ⟨bytes, hbytes, h⟩ := Except.bind_eq_ok h
  obtain ⟨length, _, h⟩ := Except.bind_eq_ok h
  cases h
  exact ⟨⟨shareId.getD 0, 0, 1, length, message.pduType.toU8, 0, 0, bytes⟩, rfl, rfl, rfl, hbytes⟩

theorem carries_dataPdu {shareId : Option UInt32} {message : DataPDU} {pdu : PDU}
    (h : dataPdu shareId message = .ok pdu) : Carries (shareId.getD 0) pdu := by
  obtain ⟨data, rfl, hshare, _⟩ := dataPdu_eq_ok h
  rw [← hshare]
  rfl

theorem dataPdu_of_write {message : DataPDU} {bytes : Bytes}
    (h : (Message.component message.message).write = .ok bytes) (hshort : bytes.length < 2 ^ 15)
    (shareId : Option UInt32) :
    ∃ pdu pduBytes, dataPdu shareId message = .ok pdu ∧
      (Message.component pdu.message).write = .ok pduBytes ∧ pduBytes.length = 12 + bytes.length := by
  have hvec : toVec (.component message.message) = .ok bytes := by
    rw [toVec, h]
  have hlength : headedLength bytes.length 18 = .ok (.ofNat (bytes.length + 18)) := by
    rw [headedLength, UInt16.toNat_ofNat', Nat.mod_eq_of_lt (by omega), checkedAdd_of_lt (by omega)]
    rfl
  obtain ⟨data, hdata⟩ : ∃ data : ShareData, data = ⟨shareId.getD 0, 0, 1,
    .ofNat (bytes.length + 18), message.pduType.toU8, 0, 0, bytes⟩ := ⟨_, rfl⟩
  have hnode : dataPdu shareId message = .ok ⟨.pdutypeDatapdu, data.node⟩ := by
    rw [dataPdu, hvec, Except.ok_bind, shareDataHeader, hdata]
    simp only [Option.getD_some, hlength, Except.ok_bind]
    rfl
  have hle : 18 ≤ data.uncompressedLength.toNat := by
    rw [hdata, UInt16.toNat_ofNat']
    omega
  obtain ⟨pduBytes, hwrite, hcount⟩ := (Message.measures _ _).mp (ShareData.length_node hle)
  rw [hdata] at hcount
  exact ⟨_, pduBytes, hnode, hwrite, hcount⟩

def wrote (pdus : List PDU) (mcs : Mcs.Client) (s : Session) : Session :=
  { s with mcs, written := s.written ++ pdus }

theorem wrote_wrote (front rest : List PDU) (mcs mcs' : Mcs.Client) (s : Session) :
    wrote rest mcs' (wrote front mcs s) = wrote (front ++ rest) mcs' s := by
  simp [wrote]

theorem toVec_ne_error {m : Message} {e : Error} : toVec m ≠ .error (.error e) := by
  unfold toVec
  split
  next => simp
  next hne => exact hne e

section Header

variable {bytes : Bytes} (pduType : PDUType) (userId : UInt16)

theorem shareControlHeader_of_lt (h : bytes.length % 2 ^ 16 + 6 < 2 ^ 16) :
    shareControlHeader (some pduType) (some userId) (some bytes) =
      .ok (Frame.node ⟨.ofNat (bytes.length % 2 ^ 16 + 6), pduType.toU16, some userId, bytes⟩) := by
  have htoNat : (UInt16.ofNat bytes.length).toNat = bytes.length % 2 ^ 16 := UInt16.toNat_ofNat'
  simp only [shareControlHeader, headedLength, Option.getD_some, htoNat, checkedAdd_of_lt h,
    Except.ok_bind]
  rfl

theorem shareControlHeader_of_le (h : 2 ^ 16 ≤ bytes.length % 2 ^ 16 + 6) :
    shareControlHeader (some pduType) (some userId) (some bytes) =
      .error (.panic "attempt to add with overflow") := by
  have htoNat : (UInt16.ofNat bytes.length).toNat = bytes.length % 2 ^ 16 := UInt16.toNat_ofNat'
  simp only [shareControlHeader, headedLength, Option.getD_some, htoNat, checkedAdd_of_le h,
    Except.error_bind]

end Header

section WritePdu

variable {pdu : PDU} {bytes : Bytes}

def frameOf (pdu : PDU) (userId : UInt16) (bytes : Bytes) : Frame :=
  ⟨.ofNat (bytes.length % 2 ^ 16 + 6), pdu.pduType.toU16, some userId, bytes⟩

theorem run_writePdu (h : toVec (.component pdu.message) = .ok bytes)
    (hlt : bytes.length % 2 ^ 16 + 6 < 2 ^ 16) (s : Session) :
    (writePdu pdu).run s =
      match (Mcs.Client.write "global" (.component (frameOf pdu s.client.userId bytes).node)).run
        s.mcs with
      | .ok u mcs => .ok u (wrote [pdu] mcs s)
      | .error e mcs => .error e (wrote [pdu] mcs s) := by
  have hrun : (writePdu pdu).run s =
      (onMcs (Mcs.Client.write "global" (.component (frameOf pdu s.client.userId bytes).node))).run
        { s with written := s.written ++ [pdu] } := by
    unfold writePdu
    rw [EStateM.run_bind, EStateM.run_get]
    simp only [h, lift_ok, pure_bind]
    rw [shareControlHeader_of_lt _ _ hlt]
    rfl
  rw [hrun, onMcs, run_zoom]
  cases (Mcs.Client.write "global" (.component (frameOf pdu s.client.userId bytes).node)).run s.mcs <;>
    rfl

theorem run_writePdu_of_le (h : toVec (.component pdu.message) = .ok bytes)
    (hle : 2 ^ 16 ≤ bytes.length % 2 ^ 16 + 6) (s : Session) :
    (writePdu pdu).run s = .error (.panic "attempt to add with overflow") s := by
  unfold writePdu
  rw [EStateM.run_bind, EStateM.run_get]
  simp only [h, lift_ok, pure_bind]
  rw [shareControlHeader_of_le _ _ hle]
  rfl

theorem run_writePdu_of_error {e : Fault Error} (h : toVec (.component pdu.message) = .error e)
    (s : Session) : (writePdu pdu).run s = .error e s := by
  unfold writePdu
  rw [EStateM.run_bind, EStateM.run_get]
  simp only [h]
  rfl

/--
The MCS layer behind the calls of its `write` that these PDUs were handed over with, one call for each
PDU with the header of this user, whatever became of it.
-/
inductive Hands (userId : UInt16) : List PDU → Mcs.Client → Mcs.Client → Prop where
  | nil (mcs : Mcs.Client) : Hands userId [] mcs mcs
  | cons {pdu : PDU} {pdus : List PDU} {bytes : Bytes} {header : Component} {mcs mcs' : Mcs.Client}
    (hbytes : toVec (.component pdu.message) = .ok bytes)
    (hheader : shareControlHeader (some pdu.pduType) (some userId) (some bytes) = .ok header)
    (h : Hands userId pdus (finalState ((Mcs.Client.write "global" (.component header)).run mcs)) mcs') :
    Hands userId (pdu :: pdus) mcs mcs'

theorem run_writePdu_of_not_aborts {s : Session} (h : ¬ (writePdu pdu).Aborts s) :
    ∃ mcs, Hands s.client.userId [pdu] s.mcs mcs ∧
      ((writePdu pdu).run s = .ok () (wrote [pdu] mcs s) ∨
        ∃ e, (writePdu pdu).run s = .error (.error e) (wrote [pdu] mcs s)) := by
  cases hvec : toVec (.component pdu.message) with
  | error e =>
    rw [aborts_of_run_error (run_writePdu_of_error hvec s), not_not] at h
    match e with
    | .error e => exact absurd hvec toVec_ne_error
  | ok bytes =>
    by_cases hlt : bytes.length % 2 ^ 16 + 6 < 2 ^ 16
    . have hrun := run_writePdu hvec hlt s
      have hhands := Hands.cons hvec (shareControlHeader_of_lt pdu.pduType s.client.userId hlt)
        (.nil (finalState ((Mcs.Client.write "global"
          (.component (frameOf pdu s.client.userId bytes).node)).run s.mcs)))
      cases hmcs : (Mcs.Client.write "global"
          (.component (frameOf pdu s.client.userId bytes).node)).run s.mcs with
      | ok u mcs =>
        rw [hmcs] at hrun hhands
        exact ⟨mcs, hhands, .inl hrun⟩
      | error e mcs =>
        rw [hmcs] at hrun hhands
        rw [aborts_of_run_error hrun, not_not] at h
        match e with
        | .error e => exact ⟨mcs, hhands, .inr ⟨e, hrun⟩⟩
    . rw [aborts_of_run_error (run_writePdu_of_le hvec (by omega) s)] at h
      simp at h

end WritePdu

def writePdus (pdus : List PDU) : Prog Error Session Unit :=
  match pdus with
  | [] => pure ()
  | pdu :: pdus => do
    writePdu pdu
    writePdus pdus

theorem Hands.append {userId : UInt16} {front rest : List PDU} {mcs mcs' mcs'' : Mcs.Client}
    (h : Hands userId front mcs mcs') (h' : Hands userId rest mcs' mcs'') :
    Hands userId (front ++ rest) mcs mcs'' := by
  induction h with
  | nil mcs => exact h'
  | cons hbytes hheader _ ih => exact .cons hbytes hheader (ih h')

theorem run_writePdus_of_not_aborts {pdus : List PDU} {s : Session}
    (h : ¬ (writePdus pdus).Aborts s) :
    ∃ mcs, (Hands s.client.userId pdus s.mcs mcs ∧ (writePdus pdus).run s = .ok () (wrote pdus mcs s)) ∨
      ∃ e front last rest, pdus = front ++ last :: rest ∧ Hands s.client.userId (front ++ [last]) s.mcs mcs ∧
        (writePdus pdus).run s = .error (.error e) (wrote (front ++ [last]) mcs s) := by
  induction pdus generalizing s with
  | nil =>
    refine ⟨s.mcs, .inl ⟨.nil s.mcs, ?_⟩⟩
    simp [writePdus, wrote]
  | cons pdu pdus ih =>
    rw [writePdus, aborts_bind, not_or] at h
    obtain ⟨mcs, hhands, hrun | ⟨e, hrun⟩⟩ := run_writePdu_of_not_aborts h.1
    . obtain ⟨mcs', hrest⟩ := ih (fun habort => h.2 ⟨_, _, hrun, habort⟩)
      refine ⟨mcs', ?_⟩
      rw [writePdus, EStateM.run_bind, hrun]
      rcases hrest with ⟨hhands', hrest⟩ | ⟨e, front, last, rest, rfl, hhands', hrest⟩
      . refine .inl ⟨hhands.append hhands', ?_⟩
        simp only [hrest, wrote_wrote, List.singleton_append]
      . refine .inr ⟨e, pdu :: front, last, rest, rfl, hhands.append hhands', ?_⟩
        simp only [hrest, wrote_wrote, List.cons_append, List.nil_append]
    . refine ⟨mcs, .inr ⟨e, [], pdu, pdus, rfl, hhands, ?_⟩⟩
      rw [writePdus, EStateM.run_bind, hrun]
      rfl

theorem run_writePdu_bind {pdu : PDU} {x y : Prog Error Session Unit} {s : Session}
    (h : ∀ mcs, x.run (wrote [pdu] mcs s) = y.run (wrote [pdu] mcs s)) :
    (do writePdu pdu; x : Prog Error Session Unit).run s =
      (do writePdu pdu; y : Prog Error Session Unit).run s := by
  -- What follows a write only has to agree on sessions of the same client.
  rw [EStateM.run_bind, EStateM.run_bind]
  cases hrun : (writePdu pdu).run s with
  | error e t => rfl
  | ok u t =>
    obtain ⟨mcs, _, hok | ⟨e, herror⟩⟩ := run_writePdu_of_not_aborts (not_aborts_of_run_ok hrun)
    . cases hrun.symm.trans hok
      exact h mcs
    . cases hrun.symm.trans herror

theorem run_writeDataPdu {message : DataPDU} {pdu : PDU} {client : Client} {s : Session}
    (h : dataPdu client.shareId message = .ok pdu) (hclient : s.client = client) :
    (writeDataPdu message).run s = (writePdu pdu).run s := by
  subst hclient
  unfold writeDataPdu
  rw [EStateM.run_bind, EStateM.run_get]
  simp only [h, lift_ok, pure_bind]

theorem run_writeDataPdu_bind {message : DataPDU} {pdu : PDU} {x y : Prog Error Session Unit}
    {client : Client} {s : Session} (hpdu : dataPdu client.shareId message = .ok pdu)
    (hclient : s.client = client)
    (h : ∀ mcs, x.run (wrote [pdu] mcs s) = y.run (wrote [pdu] mcs s)) :
    (do writeDataPdu message; x : Prog Error Session Unit).run s =
      (do writePdu pdu; y : Prog Error Session Unit).run s := by
  rw [EStateM.run_bind, run_writeDataPdu hpdu hclient, ← EStateM.run_bind]
  exact run_writePdu_bind h

theorem run_answer {pdus : List PDU} {s : Session} (h : answer s.client = .ok pdus) :
    (do writeConfirmActivePdu; writeClientFinalize : Prog Error Session Unit).run s =
      (writePdus pdus).run s := by
  obtain ⟨confirm, hconfirm, h⟩ := Except.bind_eq_ok h
  obtain ⟨synchronize, hsynchronize, h⟩ := Except.bind_eq_ok h
  obtain ⟨cooperate, hcooperate, h⟩ := Except.bind_eq_ok h
  obtain ⟨request, hrequest, h⟩ := Except.bind_eq_ok h
  obtain ⟨fontList, hfontList, h⟩ := Except.bind_eq_ok h
  cases h
  have hstart : (do writeConfirmActivePdu; writeClientFinalize : Prog Error Session Unit).run s =
      (do writePdu confirm; writeClientFinalize : Prog Error Session Unit).run s := by
    unfold writeConfirmActivePdu
    rw [bind_assoc, EStateM.run_bind, EStateM.run_get]
    simp only [hconfirm, lift_ok, pure_bind]
  rw [hstart]
  apply run_writePdu_bind
  intro mcs
  -- a write changes nothing of the client, so each PDU is made from the same share id
  unfold writeClientFinalize
  rw [EStateM.run_bind, EStateM.run_get]
  refine run_writeDataPdu_bind hsynchronize ?_ ?_
  . rfl
  intro mcs
  refine run_writeDataPdu_bind hcooperate ?_ ?_
  . rfl
  intro mcs
  refine run_writeDataPdu_bind hrequest ?_ ?_
  . rfl
  intro mcs
  refine (run_writeDataPdu hfontList ?_).trans ?_
  . rfl
  simp [writePdus]

def IsShort (pdu : PDU) : Prop :=
  ∃ bytes, (Message.component pdu.message).write = .ok bytes ∧ bytes.length < 2 ^ 15

theorem exists_dataPdu {message : DataPDU} {bytes : Bytes} {n : Nat}
    (h : (Message.component message.message).write = .ok bytes) (hlength : bytes.length = n)
    (hshort : n < 2 ^ 14) (shareId : Option UInt32) :
    ∃ pdu, dataPdu shareId message = .ok pdu ∧ IsShort pdu := by
  obtain ⟨pdu, pduBytes, hpdu, hwrite, hcount⟩ := dataPdu_of_write h (by omega) shareId
  exact ⟨pdu, hpdu, pduBytes, hwrite, by omega⟩

theorem exists_tsSynchronizePdu (client : Client) :
    ∃ pdu, dataPdu client.shareId (tsSynchronizePdu (some client.channelId)) = .ok pdu ∧
      IsShort pdu :=
  exists_dataPdu (n := 4) rfl rfl (by decide) _

theorem exists_tsControlPdu (shareId : Option UInt32) (action : Action) :
    ∃ pdu, dataPdu shareId (tsControlPdu (some action)) = .ok pdu ∧ IsShort pdu :=
  exists_dataPdu (n := 8) rfl rfl (by decide) _

theorem exists_tsFontListPdu (shareId : Option UInt32) :
    ∃ pdu, dataPdu shareId tsFontListPdu = .ok pdu ∧ IsShort pdu :=
  exists_dataPdu (n := 8) rfl rfl (by decide) _

theorem exists_answer (client : Client) :
    ∃ confirm rest, client.confirmActivePdu = .ok confirm ∧ answer client = .ok (confirm :: rest) ∧
      (∀ pdu ∈ rest, IsShort pdu) ∧
      ∀ pdu ∈ confirm :: rest, Carries (client.shareId.getD 0) pdu := by
  obtain ⟨confirm, hconfirm⟩ := client.exists_confirmActivePdu
  obtain ⟨synchronize, hsynchronize, hshort₁⟩ := client.exists_tsSynchronizePdu
  obtain ⟨cooperate, hcooperate, hshort₂⟩ :=
    exists_tsControlPdu client.shareId .ctrlactionCooperate
  obtain ⟨request, hrequest, hshort₃⟩ :=
    exists_tsControlPdu client.shareId .ctrlactionRequestControl
  obtain ⟨fontList, hfontList, hshort₄⟩ := exists_tsFontListPdu client.shareId
  refine ⟨confirm, [synchronize, cooperate, request, fontList], hconfirm, ?_, ?_, ?_⟩
  . rw [answer, hconfirm, hsynchronize, hcooperate, hrequest, hfontList]
    rfl
  . simp [hshort₁, hshort₂, hshort₃, hshort₄]
  . simp [carries_confirmActivePdu hconfirm, carries_dataPdu hsynchronize,
      carries_dataPdu hcooperate, carries_dataPdu hrequest, carries_dataPdu hfontList]

section Read

variable {stream : Bytes} {s : Session}

theorem run_expectDemandActivePdu {d : DemandActive} {pdus : List PDU}
    (h : readPdu stream = .ok ⟨.pdutypeDemandactivepdu, d.node⟩)
    (hpdus : answer (s.client.accept d) = .ok pdus) :
    (expectDemandActivePdu (.raw stream)).run s =
      match (writePdus pdus).run { s with client := s.client.accept d } with
      | .ok _ t => .ok () { t with client := { t.client with state := .synchronizePDU } }
      | .error e t => .error e t := by
  have hanswer := run_answer (s := { s with client := s.client.accept d }) hpdus
  unfold expectDemandActivePdu
  change (readDemandActivePdu stream >>= _ : Prog Error Session Unit).run s = _
  rw [EStateM.run_bind, run_readDemandActivePdu s h]
  change (do writeConfirmActivePdu; writeClientFinalize; _ : Prog Error Session Unit).run _ = _
  rw [← bind_assoc, EStateM.run_bind, hanswer]
  cases (writePdus pdus).run { s with client := s.client.accept d } <;> rfl

theorem run_expectDemandActivePdu_of_ne {pdu : PDU} (h : readPdu stream = .ok pdu)
    (hne : pdu.pduType ≠ .pdutypeDemandactivepdu) :
    (expectDemandActivePdu (.raw stream)).run s = .ok () s := by
  unfold expectDemandActivePdu
  change (readDemandActivePdu stream >>= _ : Prog Error Session Unit).run s = _
  rw [EStateM.run_bind, run_readDemandActivePdu_of_ne s h hne]
  rfl

theorem run_expectDemandActivePdu_of_error {e : Fault Error} (h : readPdu stream = .error e) :
    (expectDemandActivePdu (.raw stream)).run s = .error e s := by
  unfold expectDemandActivePdu
  change (readDemandActivePdu stream >>= _ : Prog Error Session Unit).run s = _
  rw [EStateM.run_bind, run_readDemandActivePdu_of_error s h]

end Read

end Client

end Global

end Rdp
