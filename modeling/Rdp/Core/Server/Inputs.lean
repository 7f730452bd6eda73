import Rdp.Core.Client.Impl
import Rdp.Core.Global.RoundTrip

/-!
This module contains a server as far as the input of a client needs one: it reads the packets of a
user from a stream, and the input events of their PDUs.
-/

namespace Rdp.Server

open Prog Cursor
open Global (PDU PDUType2 InputEventType PointerFlag KeyboardFlag ShareData DataPDU tsInputEvent
  tsInputPduData tsPointerEvent tsKeyboardEvent)
open RdpClient (pointerFlags)

/--
The message in a packet of this user, counted from 1001, on this channel.
-/
def readBody (user channel : UInt16) : Reader Bytes := do
  expect ((← readExact 3) = [0x02, 0xF0, 0x80])
  expect ((← readU8) = 0x64)
  expect ((← readU16 .be) = user)
  expect ((← readU16 .be) = channel)
  expect ((← readU8) = 0x70)
  let length ← Per.readLength
  let message ← readToEnd
  expect (length.toNat = message.length)
  return message

/--
The packet ends where its header says.
-/
def readPacket (user channel : UInt16) : Reader Bytes := do
  expect ((← readExact 2) = [0x03, 0x00])
  let size ← readU16 .be
  limited (size.toNat - 4) (readBody user channel)

def buttonOf (flags : UInt16) : PointerButton :=
  if flags &&& PointerFlag.ptrflagsButton1.toU16 ≠ 0 then
    .left
  else if flags &&& PointerFlag.ptrflagsButton2.toU16 ≠ 0 then
    .right
  else if flags &&& PointerFlag.ptrflagsButton3.toU16 ≠ 0 then
    .middle
  else
    .none

def readInput : Reader RdpEvent := do
  let _ ← readU32 .le
  let messageType ← readU16 .le
  let flags ← readU16 .le
  let first ← readU16 .le
  let second ← readU16 .le
  if messageType = InputEventType.inputEventMouse.toU16 then
    let down := flags &&& PointerFlag.ptrflagsDown.toU16 ≠ 0
    return .pointer ⟨first, second, buttonOf flags, down⟩
  else
    expect (messageType = InputEventType.inputEventScancode.toU16)
    return .key ⟨first, flags &&& KeyboardFlag.kbdflagsRelease.toU16 = 0⟩

def readInputs (count : Nat) : Reader (List RdpEvent) :=
  match count with
  | 0 => return []
  | count + 1 => do
    let event ← readInput
    return event :: (← readInputs count)

def readInputData : Reader (List RdpEvent) := do
  let count ← readU16 .le
  let _ ← readU16 .le
  readInputs count.toNat

def inputsOf (pdu : PDU) : RdpResult (List RdpEvent) := do
  if pdu.pduType = .pdutypeDatapdu then
    let pduType2 ← castU8 (← field pdu.fields "pduType2")
    if pduType2 = PDUType2.pdutype2Input.toU8 then
      parse readInputData (← castSlice (← field pdu.fields "payload"))
    else
      return []
  else
    return []

/--
The events in the next packet, which has one PDU and nothing else.
-/
def readMessage (user channel : UInt16) : Reader (List RdpEvent) := do
  let message ← readPacket user channel
  let (pdu, rest) ← Prog.on message PDU.fromStream
  expect rest.isEmpty
  Prog.lift (inputsOf pdu)

theorem run_expect_bind {ok : Bool} (h : ok = true) (x : Reader α) (input : Bytes) :
    (do expect ok; x).run input = x.run input := by
  rw [h]
  rfl

section Packet

variable {user channel : UInt16} {message packet : Bytes}

theorem run_readBody {v : UInt16} {length : Bytes}
    (hread : Per.readLength.run (length ++ message) = .ok v message) (hv : v.toNat = message.length) :
    (readBody user channel).run ([0x02, 0xF0, 0x80] ++ ([0x64] ++ (Endian.be.encode16 user ++
      (Endian.be.encode16 channel ++ ([0x70] ++ (length ++ message)))))) = .ok message [] := by
  unfold readBody
  refine run_bind_eq_ok_iff.mpr ⟨_, _, run_readExact_append _ rfl, ?_⟩
  rw [run_expect_bind (by simp)]
  refine run_bind_eq_ok_iff.mpr ⟨0x64, _, rfl, ?_⟩
  rw [run_expect_bind (by simp)]
  refine run_bind_eq_ok_iff.mpr ⟨_, _, run_readU16_encode16 _ _ _, ?_⟩
  rw [run_expect_bind (by simp)]
  refine run_bind_eq_ok_iff.mpr ⟨_, _, run_readU16_encode16 _ _ _, ?_⟩
  rw [run_expect_bind (by simp)]
  refine run_bind_eq_ok_iff.mpr ⟨0x70, _, rfl, ?_⟩
  rw [run_expect_bind (by simp)]
  refine run_bind_eq_ok_iff.mpr ⟨_, _, hread, ?_⟩
  refine run_bind_eq_ok_iff.mpr ⟨_, _, run_readToEnd _, ?_⟩
  rw [run_expect_bind (by simp [hv])]
  rfl

theorem run_readPacket (h : Mcs.IsPacket user channel message packet) (rest : Bytes) :
    (readPacket user channel).run (packet ++ rest) = .ok message rest := by
  obtain ⟨size, v, length, rfl, hsize, hread, hv⟩ := h
  unfold readPacket
  simp only [List.append_assoc]
  refine run_bind_eq_ok_iff.mpr ⟨_, _, run_readExact_append _ rfl, ?_⟩
  rw [run_expect_bind (by simp)]
  refine run_bind_eq_ok_iff.mpr ⟨_, _, run_readU16_encode16 _ _ _, ?_⟩
  have hbody := @run_readBody user channel message v length hread hv
  have hlength : ([0x02, 0xF0, 0x80] ++ ([0x64] ++ (Endian.be.encode16 user ++
      (Endian.be.encode16 channel ++ ([0x70] ++ (length ++ message)))))).length = size.toNat - 4 := by
    rw [hsize]
    simp [Endian.length_encode16]
  have hrun := run_limited_append rest hlength hbody
  simpa only [List.append_assoc] using hrun

theorem run_readMessage {pdu : PDU} {events : List RdpEvent} (h : Mcs.IsPacket user channel message packet)
    (hpdu : PDU.fromStream.run message = .ok pdu []) (hevents : inputsOf pdu = .ok events) (rest : Bytes) :
    (readMessage user channel).run (packet ++ rest) = .ok events rest := by
  refine run_bind_eq_ok_iff.mpr ⟨_, _, run_readPacket h rest, ?_⟩
  refine run_bind_eq_ok_iff.mpr ⟨(pdu, []), rest, ?_, ?_⟩
  . rw [run_on, hpdu]
  . change (do expect true; Prog.lift (inputsOf pdu) : Reader (List RdpEvent)).run rest = _
    rw [run_expect_bind rfl, hevents]
    rfl

theorem consumes_readMessage (user channel : UInt16) : Consumes (readMessage user channel) := by
  intro input events rest h
  obtain ⟨message, behind, hpacket, hrest⟩ := run_bind_eq_ok h
  obtain ⟨⟨pdu, left⟩, _, hon, hexpects⟩ := run_bind_eq_ok hrest
  obtain ⟨_, _, hexpect, hlift⟩ := run_bind_eq_ok hexpects
  obtain ⟨_, rfl⟩ := run_on_eq_ok hon
  obtain ⟨_, rfl⟩ := run_expect_eq_ok.mp hexpect
  obtain ⟨_, rfl⟩ := run_lift_eq_ok hlift
  obtain ⟨front, _, hfront, hheader⟩ := run_bind_eq_ok hpacket
  obtain ⟨_, _, hversion, hsized⟩ := run_bind_eq_ok hheader
  obtain ⟨size, _, hsize, hbody⟩ := run_bind_eq_ok hsized
  obtain ⟨rfl, hlength⟩ := run_readExact_eq_ok.mp hfront
  obtain ⟨_, rfl⟩ := run_expect_eq_ok.mp hversion
  obtain ⟨bytes, _, rfl, _⟩ := run_limited_eq_ok hbody
  rw [run_readU16_iff_encode16.mp hsize]
  simp only [List.length_append]
  omega

end Packet

theorem inputsOf_node (data : ShareData) :
    inputsOf ⟨.pdutypeDatapdu, data.node⟩ =
      if data.pduType2 = PDUType2.pdutype2Input.toU8 then parse readInputData data.payload
      else .ok [] := by
  change (if data.pduType2 = _ then _ else _ : RdpResult (List RdpEvent)) = _
  rfl

section Event

theorem flags_pointer (pointer : PointerEvent) :
    buttonOf (pointerFlags pointer) = pointer.button ∧
      decide (pointerFlags pointer &&& PointerFlag.ptrflagsDown.toU16 ≠ 0) = pointer.down := by
  have hflags : ∀ button down, buttonOf (pointerFlags ⟨0, 0, button, down⟩) = button ∧
      decide (pointerFlags ⟨0, 0, button, down⟩ &&& PointerFlag.ptrflagsDown.toU16 ≠ 0) = down := by
    intro button down
    cases button <;> cases down <;> decide
  exact hflags pointer.button pointer.down

theorem flags_key (down : Bool) :
    decide ((if down then 0 else KeyboardFlag.kbdflagsRelease.toU16) &&&
      KeyboardFlag.kbdflagsRelease.toU16 = 0) = down := by
  cases down <;> decide

theorem run_readInput_pointer (pointer : PointerEvent) (rest : Bytes) :
    readInput.run (Endian.le.encode32 0 ++ (Endian.le.encode16 InputEventType.inputEventMouse.toU16 ++
      (Endian.le.encode16 (pointerFlags pointer) ++ (Endian.le.encode16 pointer.x ++
        (Endian.le.encode16 pointer.y ++ rest))))) = .ok (.pointer pointer) rest := by
  unfold readInput
  refine run_bind_eq_ok_iff.mpr ⟨_, _, run_readU32_encode32 _ _ _, ?_⟩
  refine run_bind_eq_ok_iff.mpr ⟨_, _, run_readU16_encode16 _ _ _, ?_⟩
  refine run_bind_eq_ok_iff.mpr ⟨_, _, run_readU16_encode16 _ _ _, ?_⟩
  refine run_bind_eq_ok_iff.mpr ⟨_, _, run_readU16_encode16 _ _ _, ?_⟩
  refine run_bind_eq_ok_iff.mpr ⟨_, _, run_readU16_encode16 _ _ _, ?_⟩
  rw [if_pos rfl, (flags_pointer pointer).1]
  dsimp only
  rw [(flags_pointer pointer).2]
  rfl

theorem run_readInput_key (key : KeyboardEvent) (rest : Bytes) :
    readInput.run (Endian.le.encode32 0 ++ (Endian.le.encode16 InputEventType.inputEventScancode.toU16 ++
      (Endian.le.encode16 (if key.down then 0 else KeyboardFlag.kbdflagsRelease.toU16) ++
        (Endian.le.encode16 key.code ++ (Endian.le.encode16 0 ++ rest))))) = .ok (.key key) rest := by
  unfold readInput
  refine run_bind_eq_ok_iff.mpr ⟨_, _, run_readU32_encode32 _ _ _, ?_⟩
  refine run_bind_eq_ok_iff.mpr ⟨_, _, run_readU16_encode16 _ _ _, ?_⟩
  refine run_bind_eq_ok_iff.mpr ⟨_, _, run_readU16_encode16 _ _ _, ?_⟩
  refine run_bind_eq_ok_iff.mpr ⟨_, _, run_readU16_encode16 _ _ _, ?_⟩
  refine run_bind_eq_ok_iff.mpr ⟨_, _, run_readU16_encode16 _ _ _, ?_⟩
  rw [if_neg (by decide), run_expect_bind (by decide), flags_key]
  rfl

end Event

end Rdp.Server
