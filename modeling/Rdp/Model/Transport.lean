import Rdp.Model.Cursor

/-!
This module contains the two ends of a stream as `std::io::Read` and `std::io::Write` show them. The
peer decides how the bytes it sends are cut into reads, and how much of a buffer a write accepts.
-/

namespace Rdp

/--
What the reader of a stream meets next. A single read does not go past a `cut`, a failed read
delivers nothing, and the end of the list is the end of the stream.
-/
inductive Arrival where
  | byte (b : UInt8)
  | cut
  | fail (e : IoError)
  deriving DecidableEq, Repr

/--
What a call of `write` does with its buffer: it takes the first `n + 1` bytes, or all of a buffer
that is not longer, or it fails.
-/
inductive Acceptance where
  | accept (n : Nat)
  | fail (e : IoError)
  deriving DecidableEq, Repr

/--
The writes after the end of `writes` accept the whole buffer.
-/
structure Socket where
  reads : List Arrival
  writes : List Acceptance
  received : Bytes
  deriving DecidableEq, Repr

namespace Arrival

/--
The bytes of one read with room for `n` bytes, after its first byte.
-/
def takeAvailable (n : Nat) (reads : List Arrival) : Bytes × List Arrival :=
  match n, reads with
  | n + 1, .byte b :: reads =>
    let (bytes, reads) := takeAvailable n reads
    (b :: bytes, reads)
  | _, reads => ([], reads)

/--
`Read::read` with a buffer of `n` bytes. No bytes at all mean the end of the stream.
-/
def read (n : Nat) (reads : List Arrival) : Except IoError Bytes × List Arrival :=
  match reads with
  | [] => (.ok [], [])
  | .cut :: reads => read n reads
  | .fail e :: reads => (.error e, reads)
  | .byte b :: reads =>
    let (bytes, reads) := takeAvailable n (.byte b :: reads)
    (.ok bytes, reads)

/--
`Read::read_exact`, which reads again where a read was short or interrupted.
-/
def readExact (n : Nat) (reads : List Arrival) : Except IoError Bytes × List Arrival :=
  match n, reads with
  | 0, reads => (.ok [], reads)
  | _ + 1, [] => (.error .unexpectedEof, [])
  | n + 1, .byte b :: reads =>
    match readExact n reads with
    | (.ok bytes, reads) => (.ok (b :: bytes), reads)
    | (.error e, reads) => (.error e, reads)
  | n + 1, .cut :: reads => readExact (n + 1) reads
  | n + 1, .fail .interrupted :: reads => readExact (n + 1) reads
  | _ + 1, .fail e :: reads => (.error e, reads)

end Arrival

namespace Socket

def read (n : Nat) : Prog Error Socket Bytes := fun s =>
  match Arrival.read n s.reads with
  | (.ok bytes, reads) => .ok bytes { s with reads }
  | (.error e, reads) => .error (.error (.io e)) { s with reads }

def readExact (n : Nat) : Prog Error Socket Bytes := fun s =>
  match Arrival.readExact n s.reads with
  | (.ok bytes, reads) => .ok bytes { s with reads }
  | (.error e, reads) => .error (.error (.io e)) { s with reads }

/--
`Write::write` returns how many bytes were accepted.
-/
def write (buffer : Bytes) : Prog Error Socket Nat := fun s =>
  match s.writes with
  | [] => .ok buffer.length { s with received := s.received ++ buffer }
  | .accept n :: writes =>
    let taken := buffer.take (n + 1)
    .ok taken.length { s with writes, received := s.received ++ taken }
  | .fail e :: writes => .error (.error (.io e)) { s with writes }

end Socket

end Rdp
