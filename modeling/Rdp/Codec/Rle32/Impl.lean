import Rdp.Lib.Trace
import Rdp.Model.Cursor

/-!
`rle_32_decompress` of `codec/rle.rs`: the planar run length decoder for 32 bpp bitmaps. All of its
counters are 32 bit words.
-/

namespace Rdp
namespace Rle32

/--
The local variables of `process_plane`, the buffer it writes to and the accesses to that buffer.
-/
structure State where
  input : Bytes
  indexw : Nat
  indexh : Nat
  out : Nat
  lastLine : Nat
  color : Int8
  output : List UInt8
  trace : Trace UInt8
  deriving DecidableEq, Repr

def cursor (x : Reader α) : Prog Error State α :=
  Prog.zoom State.input (fun input s => { s with input }) x

/--
`output[i]` where `output` is the slice of the buffer from `offset` on.
-/
def load (offset i : Nat) : Prog Error State UInt8 := do
  let s ← get
  match s.output[offset + i]? with
  | some v =>
    set { s with trace := s.trace ++ [Access.load (offset + i)] }
    return v
  | none => Prog.abort "index out of bounds"

def store (offset i : Nat) (v : UInt8) : Prog Error State Unit := do
  let s ← get
  if offset + i < s.output.length then
    set { s with
      output := s.output.set (offset + i) v, trace := s.trace ++ [Access.store (offset + i) v] }
  else
    Prog.abort "index out of bounds"

/--
`code`, with what it says about `collen` and `replen`.
-/
def readCode : Reader (Nat × Nat) := do
  let code ← Cursor.readU8
  let replen := code &&& 0xf
  let collen := (code >>> 4) &&& 0xf
  let revcode := (replen <<< 4) ||| collen
  if revcode ≤ 47 && revcode ≥ 16 then
    return (0, revcode.toNat)
  else
    return (collen.toNat, replen.toNat)

/--
`output[out as usize] = v; out += 4; indexw += 1`
-/
def put (offset : Nat) (v : UInt8) : Prog Error State Unit := do
  let s ← get
  store offset s.out v
  let out ← Prog.lift (checkedAdd 32 s.out 4)
  let indexw ← Prog.lift (checkedAdd 32 s.indexw 1)
  modify fun s => { s with out, indexw }

def putColor (offset : Nat) : Prog Error State Unit := do
  let s ← get
  put offset s.color.toUInt8

/--
A step of the loop for the first row. No statement of the two inner loops touches their counters
`collen` and `replen`, apart from counting them down to 0.
-/
def firstRowSegment (offset : Nat) : Prog Error State Unit := do
  let (collen, replen) ← cursor readCode
  Prog.times collen do
    let color ← cursor Cursor.readU8
    modify fun s => { s with color := color.toInt8 }
    putColor offset
  Prog.times replen (putColor offset)

/--
`x` as a signed number
-/
def deltaOf (x : UInt8) : RdpResult Int8 :=
  if x &&& 1 != 0 then do
    let x ← checkedAdd 8 (x >>> 1).toNat 1
    return Int8.ofInt (-x)
  else
    return (x >>> 1).toInt8

/--
`(output[(last_line + (indexw * 4)) as usize] as i32 + color as i32) as u8`
-/
def putDelta (offset : Nat) : Prog Error State Unit := do
  let s ← get
  let column ← Prog.lift (checkedMul 32 s.indexw 4)
  let above ← load offset (← Prog.lift (checkedAdd 32 s.lastLine column))
  put offset (UInt8.ofInt (above.toNat + s.color.toInt))

def nextRowSegment (offset : Nat) : Prog Error State Unit := do
  let (collen, replen) ← cursor readCode
  Prog.times collen do
    let x ← cursor Cursor.readU8
    let color ← Prog.lift (deltaOf x)
    modify fun s => { s with color }
    putDelta offset
  Prog.times replen (putDelta offset)

/--
`(width * height * 4) - ((indexh + 1) * width * 4)`
-/
def lineStart (width height indexh : Nat) : RdpResult Nat := do
  let size ← checkedMul 32 (← checkedMul 32 width height) 4
  let below ← checkedMul 32 (← checkedMul 32 (← checkedAdd 32 indexh 1) width) 4
  checkedSub size below

/--
`while indexw < width`. Every segment takes at least one byte of the input.
-/
def segments (width : Nat) (segment : Prog Error State Unit) : Prog Error State Unit := do
  let s ← get
  Prog.whileLoop (s.input.length + 1)
    (do
      let s ← get
      return s.indexw < width)
    segment

def fillRow (offset width : Nat) : Prog Error State Unit := do
  let s ← get
  if s.lastLine == 0 then
    segments width (firstRowSegment offset)
  else
    segments width (nextRowSegment offset)

def processRow (offset width height : Nat) : Prog Error State Unit := do
  let s ← get
  let out ← Prog.lift (lineStart width height s.indexh)
  modify fun s => { s with out, color := 0, indexw := 0 }
  fillRow offset width
  let indexh ← Prog.lift (checkedAdd 32 s.indexh 1)
  modify fun s => { s with indexh, lastLine := out }

/--
`process_plane(input, width, height, &mut output[offset..])`
-/
def processPlane (width height offset : Nat) : Prog Error State Unit := do
  let s ← get
  if s.output.length < offset then
    Prog.abort "range start index out of range for slice"
  modify fun s => { s with indexh := 0, lastLine := 0 }
  Prog.whileLoop height
    (do
      let s ← get
      return s.indexh < height)
    (processRow offset width height)

def init (input : Bytes) (output : Slice UInt8) : State where
  input
  indexw := 0
  indexh := 0
  out := 0
  lastLine := 0
  color := 0
  output := output.cells
  trace := []

def decompress (width height : Nat) : Prog Error State Unit := do
  let header ← cursor Cursor.readU8
  if header != 0x10 then
    Prog.fail (.new .unexpectedType "Bad header")
  processPlane width height 3
  processPlane width height 2
  processPlane width height 1
  processPlane width height 0

end Rle32

def rle32Decompress (input : Bytes) (width height : Nat) (output : Slice UInt8) :
    EStateM.Result (Fault Error) Rle32.State Unit :=
  (Rle32.decompress width height).run (Rle32.init input output)

end Rdp
