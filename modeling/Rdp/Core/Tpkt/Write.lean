import Rdp.Core.X224.Impl
import Rdp.Lib.Aborts
import Rdp.Model.Data.Equations
import Rdp.Model.Link.Deliver

/-!
This module contains what the TPKT and the X.224 layer hand to the link for a message.
-/

namespace Rdp

open Prog

theorem Link.sent_write {m : Message} {buffer : Bytes} (h : m.write = .ok buffer) (link : Link) :
    (finalState ((Link.write m).run link)).sent = link.sent ++ [buffer] := by
  rw [Link.run_write h]
  split <;> rfl

theorem Link.returns_write {m : Message} {buffer : Bytes} (h : m.write = .ok buffer) (link : Link) :
    ¬ (Link.write m).Aborts link := by
  unfold Aborts
  rw [Link.run_write h]
  cases hrun : (Socket.write buffer).run link.stream.socket with
  | ok n s => simp
  | error e s =>
    change Socket.write buffer link.stream.socket = _ at hrun
    unfold Socket.write at hrun
    split at hrun
    all_goals
      cases hrun
      try simp

namespace Tpkt

def packet (bytes : Bytes) : Bytes :=
  [0x03, 0x00] ++ (Endian.be.encode16 (.ofNat (bytes.length % 2 ^ 16 + 4)) ++ bytes)

namespace Client

variable {m : Message} {bytes : Bytes}

theorem run_write_eq (h : m.write = .ok bytes) (hlength : bytes.length % 2 ^ 16 + 4 < 2 ^ 16)
    (link : Link) :
    ∃ node : Message, node.write = .ok (packet bytes) ∧
      (write m).run link = (Link.write node).run link := by
  have htoNat : (UInt16.ofNat bytes.length).toNat = bytes.length % 2 ^ 16 := UInt16.toNat_ofNat'
  let header : Component := [("action", .leaf (.u8 3)), ("flag", .leaf (.u8 0)),
    ("size", .leaf (.u16 .be (.ofNat (bytes.length % 2 ^ 16 + 4))))]
  refine ⟨.trame [.component header, m], ?_, ?_⟩
  . simp [header, h, packet, Leaf.write]
  . rw [write, m.length_of_write h, lift_ok, pure_bind, tpktHeader, htoNat, checkedAdd_of_lt hlength]
    rfl

theorem run_write_of_le (h : m.write = .ok bytes) (hlength : 2 ^ 16 ≤ bytes.length % 2 ^ 16 + 4)
    (link : Link) :
    (write m).run link = .error (.panic "attempt to add with overflow") link := by
  have htoNat : (UInt16.ofNat bytes.length).toNat = bytes.length % 2 ^ 16 := UInt16.toNat_ofNat'
  rw [write, m.length_of_write h, lift_ok, pure_bind, tpktHeader, htoNat, checkedAdd_of_le hlength]
  rfl

end Client

end Tpkt

namespace X224.Client

variable {m : Message} {bytes : Bytes}

theorem write_header (h : m.write = .ok bytes) :
    (Message.trame [.component x224Header, m]).write = .ok ([0x02, 0xF0, 0x80] ++ bytes) := by
  simp [x224Header, h, Leaf.write, MessageType.toU8]

theorem run_write_eq (h : m.write = .ok bytes) (hlength : (bytes.length + 3) % 2 ^ 16 + 4 < 2 ^ 16)
    (link : Link) :
    ∃ node : Message, node.write = .ok (Tpkt.packet ([0x02, 0xF0, 0x80] ++ bytes)) ∧
      (write m).run link = (Link.write node).run link := by
  apply Tpkt.Client.run_write_eq (write_header h)
  rw [List.length_append, Nat.add_comm _ bytes.length]
  exact hlength

theorem run_write_of_le (h : m.write = .ok bytes)
    (hlength : 2 ^ 16 ≤ (bytes.length + 3) % 2 ^ 16 + 4) (link : Link) :
    (write m).run link = .error (.panic "attempt to add with overflow") link := by
  apply Tpkt.Client.run_write_of_le (write_header h)
  rw [List.length_append, Nat.add_comm _ bytes.length]
  exact hlength

end X224.Client

end Rdp
