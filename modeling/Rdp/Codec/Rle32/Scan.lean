import Rdp.Codec.Rle32.Impl
import Rdp.Codec.Rle32.Plane

/-!
What `process_plane` does to the pixels of its plane: it knows the rows below the current one and
fills the current one from the left, over the rows below if a segment is too long.
-/

namespace Rdp
namespace Rle32

/--
`start` is the pixel at which the current row starts, `known` are the pixels of the rows below it
and `done` those of the row itself. `cells` lists the pixels in the order in which they are written.
-/
structure Scan where
  input : Bytes
  start : Nat
  known : List UInt8
  done : List UInt8
  last : UInt8
  cells : List Nat
  deriving DecidableEq, Repr

def scanCursor (x : Reader α) : Prog Error Scan α :=
  Prog.zoom Scan.input (fun input a => { a with input }) x

/--
The number of pixels the current row can get before the buffer ends, above it or below the pixels to
add them to.
-/
def Scan.limit (width : Nat) (a : Scan) : Nat :=
  if a.known.isEmpty then
    width
  else
    a.known.length

/--
The next pixel of the current row, if there is a place for it and a pixel to add it to.
-/
def Scan.value (width : Nat) (a : Scan) : Option UInt8 :=
  if a.known.isEmpty then
    if a.done.length < width then
      some a.last
    else
      none
  else
    a.known[a.done.length]?.map fun above => addDelta above a.last

def Scan.paint (a : Scan) (v : UInt8) : Scan :=
  { a with done := a.done ++ [v], cells := a.cells ++ [a.start + a.done.length] }

@[simp]
theorem Scan.length_paint (a : Scan) (v : UInt8) :
    (a.paint v).done.length = a.done.length + 1 := by
  simp [Scan.paint]

def scanPixel (width : Nat) : Prog Error Scan Unit := do
  let a ← get
  match a.value width with
  | some v => set (a.paint v)
  | none => Prog.abort "index out of bounds"

def scanRaw (width : Nat) : Prog Error Scan Unit := do
  let last ← scanCursor Cursor.readU8
  modify fun a => { a with last }
  scanPixel width

def scanSegment (width : Nat) : Prog Error Scan Unit := do
  let (collen, replen) ← scanCursor readCode
  Prog.times collen (scanRaw width)
  Prog.times replen (scanPixel width)

def rowLeft (width : Nat) : Prog Error Scan Bool := do
  let a ← get
  return a.done.length < width

def scanSegments (width : Nat) : Prog Error Scan Unit := do
  let a ← get
  Prog.whileLoop (a.input.length + 1) (rowLeft width) (scanSegment width)

def Scan.startRow (width : Nat) (a : Scan) : Scan :=
  { a with start := a.start - width, done := [], last := 0 }

/--
What a row has written over the rows below it replaces them.
-/
def Scan.endRow (width : Nat) (a : Scan) : Scan :=
  { a with known := a.done ++ a.known.drop (a.done.length - width), done := [] }

def scanRow (width : Nat) : Prog Error Scan Unit := do
  modify (Scan.startRow width)
  scanSegments width
  modify (Scan.endRow width)

def scanPlane (width height : Nat) : Prog Error Scan Unit := Prog.times height (scanRow width)

def scanInit (input : Bytes) (width height : Nat) : Scan where
  input
  start := width * height
  known := []
  done := []
  last := 0
  cells := []

/--
The pixels of a plane of which the part of the input that encodes it is `part`.
-/
def channel (width height : Nat) (part : Bytes) : Option (List UInt8) :=
  match (scanPlane width height).run (scanInit part width height) with
  | .ok _ a => some a.known
  | .error _ _ => none

end Rle32
end Rdp
