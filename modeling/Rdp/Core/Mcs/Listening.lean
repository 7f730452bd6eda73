import Rdp.Core.Mcs.Framing
import Rdp.Model.Link.Receive

/-!
This module contains what the reads of all layers leave alone: what was handed to the transport, and
the channels that are joined. It also contains what the writes leave alone: what is still to be read.
-/

namespace Rdp

open Prog

def Socket.Listens (s t : Socket) : Prop := t.received = s.received ∧ t.writes = s.writes

theorem Socket.listens_read (n : Nat) : Moves Listens (read n) := by
  intro s
  change Listens s (finalState (read n s))
  unfold read
  split <;> exact ⟨rfl, rfl⟩

theorem Socket.listens_readExact (n : Nat) : Moves Listens (readExact n) := by
  intro s
  change Listens s (finalState (readExact n s))
  unfold readExact
  split <;> exact ⟨rfl, rfl⟩

namespace Link

def Listens (s t : Link) : Prop := t.sent = s.sent ∧ s.stream.socket.Listens t.stream.socket

instance : IsPreorder Link Listens where
  refl _ := ⟨rfl, rfl, rfl⟩
  trans _ _ _ h h' := ⟨h'.1.trans h.1, h'.2.1.trans h.2.1, h'.2.2.trans h.2.2⟩

theorem listens_onSocket {x : Prog Error Socket α} (h : Moves Socket.Listens x) :
    Moves Listens (onStream (Prog.zoom Stream.socket Stream.withSocket x)) := by
  have hstream : Moves (fun s t : Stream => s.socket.Listens t.socket)
      (Prog.zoom Stream.socket Stream.withSocket x) := by
    refine h.zoom ?_
    intro s t ht
    rwa [Stream.socket_withSocket]
  refine hstream.zoom ?_
  exact fun s stream ht => ⟨rfl, ht⟩

theorem listens_read (n : Nat) : Moves Listens (read n) := by
  unfold read
  split
  . exact listens_onSocket (Socket.listens_read 1500)
  . exact listens_onSocket (Socket.listens_readExact n)

end Link

section Layers

variable {R : Link → Link → Prop} [IsPreorder Link R]

namespace Tpkt.Client

variable (h : ∀ n, Moves R (Link.read n))

include h

theorem moves_readBody (length header : Nat) : Moves R (readBody length header) := by
  unfold readBody
  split
  . exact Moves.throw _
  . refine Moves.bind (Moves.lift _) ?_
    exact h

theorem moves_readX224 (buffer : Bytes) : Moves R (readX224 buffer) := by
  unfold readX224
  refine Moves.bind (Moves.on _ _) ?_
  intro
  refine Moves.bind (h 2) ?_
  intro buffer
  refine Moves.bind (Moves.on _ _) ?_
  intro size
  refine Moves.bind (moves_readBody h _ _) ?_
  exact fun body => Moves.pure _

theorem moves_readFastPath (action : UInt8) (buffer : Bytes) : Moves R (readFastPath action buffer) := by
  unfold readFastPath
  refine Moves.bind (Moves.on _ _) ?_
  rintro ⟨shortLength, _⟩
  dsimp only
  split
  . refine Moves.bind (h 1) ?_
    intro buffer
    refine Moves.bind (Moves.on _ _) ?_
    intro hiLength
    refine Moves.bind (moves_readBody h _ _) ?_
    exact fun body => Moves.pure _
  . refine Moves.bind (moves_readBody h _ _) ?_
    exact fun body => Moves.pure _

theorem moves_read : Moves R read := by
  unfold read
  refine Moves.bind (h 2) ?_
  intro buffer
  refine Moves.bind (Moves.on _ _) ?_
  rintro ⟨action, buffer⟩
  dsimp only
  split
  . exact moves_readX224 h buffer
  . exact moves_readFastPath h action buffer

end Tpkt.Client

theorem Tpkt.Client.moves_write (h : ∀ m, Moves R (Link.write m)) (m : Message) : Moves R (write m) := by
  unfold write
  refine Moves.bind (Moves.lift _) ?_
  intro length
  refine Moves.bind (Moves.lift _) ?_
  exact fun header => h _

theorem X224.Client.moves_read (h : ∀ n, Moves R (Link.read n)) : Moves R read := by
  unfold read
  refine Moves.bind (Tpkt.Client.moves_read h) ?_
  intro payload
  cases payload with
  | fastPath flag payload => exact Moves.pure _
  | raw payload =>
    refine Moves.bind (Moves.on _ _) ?_
    exact fun payload => Moves.pure _

theorem X224.Client.moves_readConnectionConfirm (h : ∀ n, Moves R (Link.read n)) :
    Moves R readConnectionConfirm := by
  unfold readConnectionConfirm
  refine Moves.bind (Tpkt.Client.moves_read h) ?_
  intro payload
  cases payload with
  | fastPath flag payload => exact Moves.lift _
  | raw payload =>
    refine Moves.bind (Moves.lift _) ?_
    intro pdu
    refine Moves.bind (Moves.on _ _) ?_
    exact fun confirm => Moves.lift _

theorem X224.Client.moves_write (h : ∀ m, Moves R (Link.write m)) (m : Message) : Moves R (write m) :=
  Tpkt.Client.moves_write h _

theorem X224.Client.moves_writeConnectionRequest (h : ∀ m, Moves R (Link.write m))
    (securityProtocols : UInt32) (mode : Option UInt8) :
    Moves R (writeConnectionRequest securityProtocols mode) := by
  unfold writeConnectionRequest
  refine Moves.bind (Moves.lift _) ?_
  exact fun pdu => Tpkt.Client.moves_write h _

def Link.Through (R : Link → Link → Prop) (link : σ → Link) (s t : σ) : Prop := R (link s) (link t)

instance {link : σ → Link} : IsPreorder σ (Link.Through R link) where
  refl s := refl_of R (link s)
  trans _ _ _ h h' := trans_of R h h'

omit [IsPreorder Link R] in
theorem Mcs.Client.through_onX224 {x : Prog Error Link α} (h : Moves R x) :
    Moves (Link.Through R Mcs.Client.link) (onX224 x) :=
  h.zoom fun _ _ hlink => hlink

theorem Mcs.Client.through_write (h : ∀ m, Moves R (Link.write m)) (name : String) (m : Message) :
    Moves (Link.Through R Mcs.Client.link) (write name m) := by
  unfold write
  refine Moves.bind Moves.get ?_
  intro client
  refine Moves.bind (Moves.lift _) ?_
  intro userId
  refine Moves.bind (Moves.lift _) ?_
  intro user
  refine Moves.bind (Moves.lift _) ?_
  intro channel
  refine Moves.bind (Moves.lift _) ?_
  exact fun length => through_onX224 (X224.Client.moves_write h _)

end Layers

namespace Mcs.Client

def Listens (s t : Client) : Prop := s.link.Listens t.link ∧ SameChannels s t

instance : IsPreorder Client Listens where
  refl _ := ⟨refl_of Link.Listens _, refl_of SameChannels _⟩
  trans _ _ _ h h' := ⟨trans_of Link.Listens h.1 h'.1, trans_of SameChannels h.2 h'.2⟩

theorem listens_read : Moves Listens read := by
  unfold read
  refine Moves.bind ?_ ?_
  . refine Moves.zoom (X224.Client.moves_read Link.listens_read) ?_
    exact fun s link h => ⟨h, rfl, rfl⟩
  intro payload
  cases payload with
  | fastPath secFlag payload => exact Moves.pure _
  | raw payload =>
    refine Moves.bind Moves.get ?_
    intro client
    refine Moves.bind (Moves.on _ _) ?_
    exact fun payload => Moves.pure _

end Mcs.Client

namespace Link

def Speaks (s t : Link) : Prop := t.reads = s.reads

instance : IsPreorder Link Speaks where
  refl _ := rfl
  trans _ _ _ h h' := Eq.trans h' h

theorem speaks_write (m : Message) : Moves Speaks (write m) := by
  unfold write
  refine Moves.bind (Moves.lift _) ?_
  intro buffer
  refine Moves.bind (Moves.modify fun _ => rfl) ?_
  intro
  refine Moves.bind ?_ ?_
  . have hsocket : Moves (fun s t : Socket => t.reads = s.reads) (Socket.write buffer) := by
      intro s
      change (finalState (Socket.write buffer s)).reads = s.reads
      unfold Socket.write
      split <;> rfl
    have hstream : Moves (fun s t : Stream => t.socket.reads = s.socket.reads) (Stream.write buffer) := by
      refine hsocket.zoom ?_
      intro s t ht
      rwa [Stream.socket_withSocket]
    refine hstream.zoom ?_
    exact fun s stream ht => ht
  . exact fun _ => Moves.pure ()

end Link

def Mcs.Client.Speaks (s t : Client) : Prop := s.link.Speaks t.link ∧ SameChannels s t

instance : IsPreorder Mcs.Client Mcs.Client.Speaks where
  refl _ := ⟨refl_of Link.Speaks _, refl_of Mcs.Client.SameChannels _⟩
  trans _ _ _ h h' := ⟨trans_of Link.Speaks h.1 h'.1, trans_of Mcs.Client.SameChannels h.2 h'.2⟩

theorem Mcs.Client.speaks_write (name : String) (m : Message) : Moves Speaks (write name m) :=
  fun s => ⟨through_write Link.speaks_write name m s, moves_write name m s⟩

end Rdp
