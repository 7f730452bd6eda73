import Rdp.Model.Cursor

/-!
What a planar stream says, independently of the decoder: a plane is a list of rows, bottom row
first, and a row is a list of segments.
-/

namespace Rdp
namespace Rle32

def rawLength (code : UInt8) : Nat :=
  match code.toNat % 16 with
  | 1 | 2 => 0
  | _ => code.toNat / 16

def runLength (code : UInt8) : Nat :=
  match code.toNat % 16 with
  | 1 => 16 + code.toNat / 16
  | 2 => 32 + code.toNat / 16
  | run => run

structure Segment where
  code : UInt8
  raw : Bytes
  length_raw : raw.length = rawLength code
  deriving DecidableEq

namespace Segment

def bytes (s : Segment) : Bytes := s.code :: s.raw

def length (s : Segment) : Nat := rawLength s.code + runLength s.code

/--
The last value after a segment, `last` is the one before it.
-/
def last (s : Segment) (last : UInt8) : UInt8 := s.raw.getLastD last

def expand (s : Segment) (last : UInt8) : Bytes :=
  s.raw ++ List.replicate (runLength s.code) (s.last last)

end Segment

def expand (last : UInt8) (segments : List Segment) : Bytes :=
  match segments with
  | [] => []
  | s :: segments => s.expand last ++ expand (s.last last) segments

structure Row (width : Nat) where
  segments : List Segment
  sum_length : (segments.map Segment.length).sum = width

namespace Row

variable {width : Nat}

def bytes (row : Row width) : Bytes := row.segments.flatMap Segment.bytes

def values (row : Row width) : Bytes := expand 0 row.segments

end Row

/--
The signed number a byte stands for: the even ones count up from 0 and the odd ones down from -1.
-/
def delta (v : UInt8) : Int :=
  if v.toNat % 2 = 0 then
    v.toNat / 2
  else
    -(v.toNat / 2 + 1)

def addDelta (above v : UInt8) : UInt8 := UInt8.ofInt (above.toNat + delta v)

structure Plane (width height : Nat) where
  rows : List (Row width)
  length_rows : rows.length = height

namespace Plane

variable {width height : Nat}

def bytes (plane : Plane width height) : Bytes := plane.rows.flatMap Row.bytes

def nextRows (above : Bytes) (rows : List (Row width)) : List Bytes :=
  match rows with
  | [] => []
  | row :: rows =>
    let line := List.zipWith addDelta above row.values
    line :: nextRows line rows

def lines (plane : Plane width height) : List Bytes :=
  match plane.rows with
  | [] => []
  | row :: rows => row.values :: nextRows row.values rows

end Plane

/--
A header byte, four planes and any trailing bytes. The planes are given in the order of their
offsets in a pixel, the last one first.
-/
def stream (alpha red green blue : Plane width height) (trailing : Bytes) : Bytes :=
  0x10 :: (alpha.bytes ++ (red.bytes ++ (green.bytes ++ (blue.bytes ++ trailing))))

def Conforming (width height : Nat) (input : Bytes) : Prop :=
  ∃ (alpha red green blue : Plane width height) (trailing : Bytes),
    input = stream alpha red green blue trailing

/--
The pixels a segment with this control byte delivers when it is followed by `rest`.
-/
def delivered (code : UInt8) (rest : Bytes) : Nat :=
  if rawLength code ≤ rest.length then
    rawLength code + runLength code
  else
    rest.length

/--
One of the next `rows` rows of the stream delivers more than `width` pixels, of which the first row
has already got `column`.
-/
inductive Overruns (width : Nat) : Nat → Nat → Bytes → Prop where
  | overrun {rows column code rest} (hcolumn : column < width)
    (h : width < column + delivered code rest) : Overruns width (rows + 1) column (code :: rest)
  | segment {rows column code rest} (hcolumn : column < width)
    (hfits : column + delivered code rest ≤ width) (hraw : rawLength code ≤ rest.length)
    (h : Overruns width (rows + 1) (column + delivered code rest) (rest.drop (rawLength code))) :
    Overruns width (rows + 1) column (code :: rest)
  | row {rows input} (h : Overruns width rows 0 input) : Overruns width (rows + 1) width input

end Rle32
end Rdp
