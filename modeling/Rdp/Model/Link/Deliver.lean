import Mathlib.Data.List.Forall2
import Rdp.Model.Link
import Rdp.Model.Data.RoundTrip

/-!
This module contains what reaches the transport when messages are written to the link.
-/

namespace Rdp

/--
This call of `write` takes a whole buffer of `n` bytes.
-/
def Acceptance.Whole (n : Nat) (a : Option Acceptance) : Prop :=
  match a with
  | none => True
  | some (.accept k) => n ≤ k + 1
  | some (.fail _) => False

namespace Socket

theorem run_write_eq_ok {buffer : Bytes} {s t : Socket} {n : Nat}
    (h : (write buffer).run s = .ok n t) :
    ∃ taken, t.received = s.received ++ taken ∧ taken.length ≤ buffer.length ∧
      (taken = buffer ↔ Acceptance.Whole buffer.length s.writes[0]?) ∧ t.writes = s.writes.tail := by
  change write buffer s = _ at h
  unfold write at h
  split at h
  next hw =>
    cases h
    refine ⟨buffer, rfl, Nat.le_refl _, ?_, ?_⟩
    . simp [hw, Acceptance.Whole]
    . simp [hw]
  next k writes hw =>
    cases h
    refine ⟨buffer.take (k + 1), rfl, List.length_take_le' _ _, ?_, ?_⟩
    . rw [hw]
      constructor
      . intro htake
        have hlen := congrArg List.length htake
        rw [List.length_take] at hlen
        show buffer.length ≤ k + 1
        omega
      . exact List.take_of_length_le
    . rw [hw]
      rfl
  next => cases h

end Socket

theorem Stream.socket_withSocket (s : Stream) (socket : Socket) :
    (s.withSocket socket).socket = socket := by
  cases s <;> rfl

namespace Link

def received (link : Link) : Bytes := link.stream.socket.received

def writes (link : Link) : List Acceptance := link.stream.socket.writes

def writeAll (ms : List Message) : Prog Error Link Unit :=
  match ms with
  | [] => pure ()
  | m :: ms => do
    write m
    writeAll ms

theorem run_record (buffer : Bytes) (link : Link) :
    (record buffer).run link = .ok () { link with sent := link.sent ++ [buffer] } := rfl

theorem run_write {m : Message} {buffer : Bytes} (h : m.write = .ok buffer) (link : Link) :
    (write m).run link =
      match (Socket.write buffer).run link.stream.socket with
      | .ok _ s => .ok () ⟨link.stream.withSocket s, link.sent ++ [buffer]⟩
      | .error e s => .error e ⟨link.stream.withSocket s, link.sent ++ [buffer]⟩ := by
  unfold write
  rw [h]
  simp only [EStateM.run_bind, Prog.run_lift_ok, run_record, onStream, Stream.write, Prog.run_zoom]
  cases (Socket.write buffer).run link.stream.socket <;> rfl

theorem run_write_eq_ok {m : Message} {buffer : Bytes} (hm : m.write = .ok buffer) {link link' : Link}
    (h : (write m).run link = .ok () link') :
    ∃ taken, link'.received = link.received ++ taken ∧ taken.length ≤ buffer.length ∧
      (taken = buffer ↔ Acceptance.Whole buffer.length link.writes[0]?) ∧
      link'.writes = link.writes.tail := by
  rw [run_write hm] at h
  split at h
  next n s hs =>
    cases h
    simp only [received, writes, Stream.socket_withSocket]
    exact Socket.run_write_eq_ok hs
  next => cases h

theorem run_writeAll_eq_ok {ms : List Message} {buffers : List Bytes}
    (hms : List.Forall₂ (fun m buffer => m.write = .ok buffer) ms buffers) {link link' : Link}
    (h : (writeAll ms).run link = .ok () link') :
    ∃ got, link'.received = link.received ++ got ∧ got.length ≤ buffers.flatten.length ∧
      (got = buffers.flatten ↔
        ∀ (i : Nat) (buffer : Bytes), buffers[i]? = some buffer → Acceptance.Whole buffer.length link.writes[i]?) := by
  induction hms generalizing link with
  | nil =>
    cases h
    refine ⟨[], ?_, ?_, ?_⟩ <;> simp
  | @cons m buffer ms buffers hm _ ih =>
    rw [writeAll, EStateM.run_bind] at h
    split at h
    next link₁ hrun =>
      obtain ⟨taken, hreceived, hlength, hwhole, hwrites⟩ := run_write_eq_ok hm hrun
      obtain ⟨got, hreceived', hlength', hwhole'⟩ := ih h
      refine ⟨taken ++ got, ?_, ?_, ?_⟩
      . rw [hreceived', hreceived, List.append_assoc]
      . simp only [List.length_append, List.flatten_cons]
        omega
      . -- the parts add up to the whole only if every part is whole
        have hsplit : taken ++ got = (buffer :: buffers).flatten ↔
            taken = buffer ∧ got = buffers.flatten := by
          rw [List.flatten_cons]
          constructor
          . intro heq
            have hlen := congrArg List.length heq
            simp only [List.length_append] at hlen
            exact List.append_inj heq (by omega)
          . rintro ⟨rfl, rfl⟩
            rfl
        rw [hsplit, hwhole, hwhole', hwrites]
        constructor
        . rintro ⟨hhead, htail⟩ i b hb
          cases i with
          | zero =>
            cases hb
            exact hhead
          | succ i => simpa only [List.getElem?_tail] using htail i b hb
        . intro hall
          refine ⟨hall 0 buffer rfl, ?_⟩
          intro i b hb
          simpa only [List.getElem?_tail] using hall (i + 1) b hb
    next => cases h

/--
After a sequence of writes that all succeeded, the transport has received exactly the messages one
after the other if and only if each of its writes took the whole buffer.
-/
theorem writeAll_delivers_iff {ms : List Message} {buffers : List Bytes}
    (hms : List.Forall₂ (fun m buffer => toVec m = .ok buffer) ms buffers) {link link' : Link}
    (h : (writeAll ms).run link = .ok () link') :
    link'.received = link.received ++ buffers.flatten ↔
      ∀ (i : Nat) (buffer : Bytes), buffers[i]? = some buffer → Acceptance.Whole buffer.length link.writes[i]? := by
  have hms : List.Forall₂ (fun m buffer => m.write = .ok buffer) ms buffers :=
    hms.imp fun _ _ => toVec_eq_ok_iff.mp
  obtain ⟨got, hreceived, _, hwhole⟩ := run_writeAll_eq_ok hms h
  rw [hreceived, List.append_cancel_left_eq, hwhole]

namespace Deliver

def pair : Message := .trame [.leaf (.u16 .le 0x0201), .leaf (.u8 3)]

def link (n : Nat) : Link := ⟨.raw ⟨[], [.accept n], []⟩, []⟩

end Deliver

open Deliver in
theorem writeAll_delivers_whole :
    [1, 2, 3, 1, 2, 3] = [] ++ [([1, 2, 3] : Bytes), [1, 2, 3]].flatten ↔
      ∀ (i : Nat) (buffer : Bytes), [([1, 2, 3] : Bytes), [1, 2, 3]][i]? = some buffer →
        Acceptance.Whole buffer.length (link 7).writes[i]? :=
  writeAll_delivers_iff
    (show List.Forall₂ (fun m buffer => toVec m = .ok buffer) [pair, pair] [[1, 2, 3], [1, 2, 3]] from
      .cons rfl (.cons rfl .nil))
    (show (writeAll [pair, pair]).run (link 7) =
      .ok () ⟨.raw ⟨[], [], [1, 2, 3, 1, 2, 3]⟩, [[1, 2, 3], [1, 2, 3]]⟩ from rfl)

open Deliver in
/--
A short write: the call returns without an error, and the tail of the message is lost.
-/
theorem write_short :
    toVec pair = .ok [1, 2, 3] ∧
    (write pair).run (link 0) = .ok () ⟨.raw ⟨[], [], [1]⟩, [[1, 2, 3]]⟩ := ⟨rfl, rfl⟩

end Link

end Rdp
