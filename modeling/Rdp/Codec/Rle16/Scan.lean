import Rdp.Codec.Rle16.Impl

/-!
What `rle_16_decompress` is for, without the image: a decoder that appends pixels to a list in the
order in which they are scanned and looks at the pixel one row before the one it appends.
-/

namespace Rdp
namespace Rle16

structure Scan extends Regs where
  pixels : List UInt16
  deriving DecidableEq, Repr

def scanRegs (x : Prog Error Regs α) : Prog Error Scan α :=
  Prog.zoom Scan.toRegs (fun r s => { s with toRegs := r }) x

def above (width : Nat) (pixels : List UInt16) : Option UInt16 :=
  if width ≤ pixels.length then
    pixels[pixels.length - width]?
  else
    none

def mixed (up : Option UInt16) (mix : UInt16) : UInt16 :=
  match up with
  | some v => v ^^^ mix
  | none => mix

def knownOpcode (opcode : UInt8) : Bool :=
  match opcode with
  | 0 | 1 | 2 | 3 | 4 | 8 | 0xd | 0xe => true
  | _ => false

def pixelValue (up : Option UInt16) : Prog Error Regs UInt16 := do
  let r ← get
  match r.opcode with
  | 0 => return if r.insertmix then mixed up r.mix else up.getD 0
  | 1 => return mixed up r.mix
  | 2 =>
    if ← nextMaskBit then
      return mixed up r.mix
    else
      return up.getD 0
  | 3 => return r.colour2
  | 4 => cursor Cursor.readU16Le
  | 8 => return if r.bicolour then r.colour2 else r.colour1
  | 0xd => return 0xffff
  | 0xe => return 0
  | _ => Prog.abort "opcode"

def afterPixel : Prog Error Regs Unit := do
  let r ← get
  match r.opcode with
  | 0 => modify fun r => { r with insertmix := false }
  | 8 =>
    if r.bicolour then
      modify fun r => { r with bicolour := false }
    else
      modify fun r => { r with bicolour := true }
      let count ← Prog.lift (checkedAdd 16 r.count 1)
      modify fun r => { r with count }
  | _ => pure ()
  modify fun r => { r with count := r.count - 1 }

def paintPixel (width : Nat) : Prog Error Scan Unit := do
  let s ← get
  let v ← scanRegs (pixelValue (above width s.pixels))
  modify fun s => { s with pixels := s.pixels ++ [v] }
  scanRegs afterPixel

/--
Paint `n` pixels. Rows without pixels are used up without painting.
-/
def paintN (width height n : Nat) : Prog Error Scan Unit :=
  match n with
  | 0 => pure ()
  | n + 1 => do
    let s ← get
    if width * height ≤ s.pixels.length ∧ (width = 0 → height = 0) then
      Prog.fail (.new .invalidData "error during decompress")
    else if width = 0 then
      if knownOpcode s.opcode then
        Prog.fail (.new .invalidData "error during decompress")
      else
        Prog.abort "opcode"
    else
      paintPixel width
      paintN width height n

/--
The number of pixels an order has left to paint. A dithered run counts pairs of pixels.
-/
def span (r : Regs) : Nat :=
  if r.opcode = 8 then
    2 * r.count - r.bicolour.toNat
  else
    r.count

def scanOrder (width height : Nat) : Prog Error Scan Unit := do
  let s ← get
  scanRegs do
    readHeader
    readArguments (s.pixels.length == 0 || s.pixels.length == width)
  let s ← get
  paintN width height (span s.toRegs)

def scanInit (input : Bytes) : Scan where
  input
  opcode := 0
  lastopcode := 0xff
  count := 0
  insertmix := false
  colour1 := 0
  colour2 := 0
  mix := 0xffff
  mask := 0
  fomMask := 0
  mixmask := 0
  bicolour := false
  pixels := []

/--
`while (input_cursor.position() as usize) < input.len()`
-/
def inputLeft : Prog Error Scan Bool := do
  let s ← get
  return !s.input.isEmpty

def scan (input : Bytes) (width height : Nat) : EStateM.Result (Fault Error) Scan Unit :=
  (Prog.whileLoop input.length inputLeft (scanOrder width height)).run (scanInit input)

end Rle16
end Rdp
