import Rdp.Lib.Trace
import Rdp.Model.Cursor

/-!
`rle_16_decompress` of `codec/rle.rs`: the interleaved run length decoder for 16 bpp bitmaps.
-/

namespace Rdp
namespace Rle16

/--
The local variables that do not depend on the position in the image.
-/
structure Regs where
  input : Bytes
  opcode : UInt8
  lastopcode : UInt8
  count : Nat
  insertmix : Bool
  colour1 : UInt16
  colour2 : UInt16
  mix : UInt16
  mask : UInt8
  fomMask : UInt8
  mixmask : UInt8
  bicolour : Bool
  deriving DecidableEq, Repr

/--
The accesses to the output buffer are recorded, and every order marks its start among them.
-/
structure State extends Regs where
  x : Nat
  height : Nat
  prevline : Option Nat
  line : Option Nat
  output : List UInt16
  trace : Trace UInt16
  deriving DecidableEq, Repr

def cursor (x : Reader α) : Prog Error Regs α :=
  Prog.zoom Regs.input (fun input r => { r with input }) x

def regs (x : Prog Error Regs α) : Prog Error State α :=
  Prog.zoom State.toRegs (fun r s => { s with toRegs := r }) x

/--
The first `match opcode`: `opcode`, `count` and `offset`.
-/
def readOpcode (code : UInt8) : Prog Error Regs (UInt8 × Nat × Nat) :=
  let opcode := code >>> 4
  match opcode with
  | 0xC | 0xD | 0xE => return (opcode - 6, (code &&& 0xf).toNat, 16)
  | 0xF => do
    let opcode := code &&& 0xf
    if opcode < 9 then
      let count ← cursor Cursor.readU16Le
      return (opcode, count.toNat, 0)
    else if opcode < 0xb then
      return (opcode, 8, 0)
    else
      return (opcode, 1, 0)
  | _ => return (opcode >>> 1, (code &&& 0x1f).toNat, 32)

/--
`if offset != 0`
-/
def readCount (opcode : UInt8) (count offset : Nat) : Prog Error Regs Nat :=
  if offset != 0 then
    let isfillormix := opcode == 2 || opcode == 7
    if count == 0 then do
      let next ← cursor Cursor.readU8
      Prog.lift (checkedAdd 16 next.toNat (if isfillormix then 1 else offset))
    else if isfillormix then
      return (count <<< 3) % 2 ^ 16
    else
      return count
  else
    return count

def readHeader : Prog Error Regs Unit := do
  modify fun r => { r with fomMask := 0 }
  let code ← cursor Cursor.readU8
  let (opcode, count, offset) ← readOpcode code
  let count ← readCount opcode count offset
  modify fun r => { r with opcode, count }

/--
The second `match opcode`: the colours and masks of an order. `firstRow` is
`x == width && prevline == None`.
-/
def readOperands (firstRow : Bool) : Prog Error Regs Unit := do
  let r ← get
  match r.opcode with
  | 0 =>
    if r.lastopcode == r.opcode && !firstRow then
      modify fun r => { r with insertmix := true }
  | 8 =>
    let colour1 ← cursor Cursor.readU16Le
    modify fun r => { r with colour1 }
    let colour2 ← cursor Cursor.readU16Le
    modify fun r => { r with colour2 }
  | 3 =>
    let colour2 ← cursor Cursor.readU16Le
    modify fun r => { r with colour2 }
  | 6 | 7 =>
    let mix ← cursor Cursor.readU16Le
    modify fun r => { r with mix, opcode := r.opcode - 5 }
  | 9 => modify fun r => { r with mask := 0x03, opcode := 0x02, fomMask := 3 }
  | 0xa => modify fun r => { r with mask := 0x05, opcode := 0x02, fomMask := 5 }
  | _ => pure ()

def readArguments (firstRow : Bool) : Prog Error Regs Unit := do
  readOperands firstRow
  modify fun r => { r with lastopcode := r.opcode, mixmask := 0 }

def load (i : Nat) : Prog Error State UInt16 := do
  let s ← get
  match s.output[i]? with
  | some v =>
    set { s with trace := s.trace ++ [Access.load i] }
    return v
  | none => Prog.abort "index out of bounds"

def store (i : Nat) (v : UInt16) : Prog Error State Unit := do
  let s ← get
  if i < s.output.length then
    set { s with output := s.output.set i v, trace := s.trace ++ [Access.store i v] }
  else
    Prog.abort "index out of bounds"

/--
`output[e + x]`
-/
def readAbove (e : Nat) : Prog Error State UInt16 := do
  let s ← get
  load (← Prog.lift (checkedAdd 64 e s.x))

/--
`output[line.unwrap() + x] = v`
-/
def writePixel (v : UInt16) : Prog Error State Unit := do
  let s ← get
  match s.line with
  | some line => store (← Prog.lift (checkedAdd 64 line s.x)) v
  | none => Prog.abort "called `Option::unwrap()` on a `None` value"

/--
`count -= 1; x += 1`
-/
def advance : Prog Error State Unit := do
  let s ← get
  let count ← Prog.lift (checkedSub s.count 1)
  let x ← Prog.lift (checkedAdd 64 s.x 1)
  set { s with count, x }

/--
The macro `repeat!`. Both loops end after `width` iterations at most, as each of them moves `x`.
-/
def repeatExpr (width : Nat) (expr : Prog Error State Unit) : Prog Error State Unit := do
  Prog.whileLoop width
    (do
      let s ← get
      if s.count &&& 0xfff8 != 0 then
        let x ← Prog.lift (checkedAdd 64 s.x 8)
        return x < width
      else
        return false)
    (Prog.times 8 do
      expr
      advance)
  Prog.whileLoop width
    (do
      let s ← get
      return s.count > 0 && s.x < width)
    (do
      expr
      advance)

def nextMaskBit : Prog Error Regs Bool := do
  modify fun r => { r with mixmask := r.mixmask <<< 1 }
  let r ← get
  if r.mixmask == 0 then
    let mask ← if r.fomMask != 0 then pure r.fomMask else cursor Cursor.readU8
    modify fun r => { r with mask, mixmask := 1 }
  let r ← get
  return r.mask &&& r.mixmask != 0

def nextRow (width : Nat) : Prog Error State Unit := do
  let s ← get
  if s.x ≥ width then
    if s.height ≤ 0 then
      Prog.fail (.new .invalidData "error during decompress")
    let height ← Prog.lift (checkedSub s.height 1)
    let start ← Prog.lift (checkedMul 64 height width)
    set { s with x := 0, height, prevline := s.line, line := some start }

def fillRow (width : Nat) : Prog Error State Unit := do
  let s ← get
  match s.opcode with
  | 0 =>
    if s.insertmix then
      match s.prevline with
      | some e => writePixel ((← readAbove e) ^^^ s.mix)
      | none => writePixel s.mix
      modify fun s => { s with insertmix := false }
      advance
    match s.prevline with
    | some e => repeatExpr width do writePixel (← readAbove e)
    | none => repeatExpr width do writePixel 0
  | 1 =>
    match s.prevline with
    | some e => repeatExpr width do writePixel ((← readAbove e) ^^^ s.mix)
    | none => repeatExpr width do writePixel s.mix
  | 2 =>
    match s.prevline with
    | some e =>
      repeatExpr width do
        if ← regs nextMaskBit then
          writePixel ((← readAbove e) ^^^ s.mix)
        else
          writePixel (← readAbove e)
    | none =>
      repeatExpr width do
        if ← regs nextMaskBit then
          writePixel s.mix
        else
          writePixel 0
  | 3 => repeatExpr width do writePixel s.colour2
  | 4 => repeatExpr width do writePixel (← regs (cursor Cursor.readU16Le))
  | 8 =>
    repeatExpr width do
      if (← get).bicolour then
        writePixel s.colour2
        modify fun s => { s with bicolour := false }
      else
        writePixel s.colour1
        modify fun s => { s with bicolour := true }
        let count ← Prog.lift (checkedAdd 16 (← get).count 1)
        modify fun s => { s with count }
  | 0xd => repeatExpr width do writePixel 0xffff
  | 0xe => repeatExpr width do writePixel 0
  | _ => Prog.abort "opcode"

/--
`while count > 0`. Every iteration but the first one starts a row, so `height + 2` of them are
enough.
-/
def paintOrder (width : Nat) : Prog Error State Unit := do
  let s ← get
  Prog.whileLoop (s.height + 2)
    (do
      let s ← get
      return s.count > 0)
    (do
      nextRow width
      fillRow width)

def decodeOrder (width : Nat) : Prog Error State Unit := do
  modify fun s => { s with trace := s.trace ++ [Access.mark] }
  let s ← get
  regs do
    readHeader
    readArguments (s.x == width && s.prevline == none)
  paintOrder width

def init (input : Bytes) (width height : Nat) (output : Slice UInt16) : State where
  input
  opcode := 0
  lastopcode := 0xff
  count := 0
  insertmix := false
  colour1 := 0
  colour2 := 0
  mix := 0xffff
  mask := 0
  fomMask := 0
  mixmask := 0
  bicolour := false
  x := width
  height
  prevline := none
  line := none
  output := output.cells
  trace := []

end Rle16

/--
Every order takes at least one byte, so there are at most `input.length` of them.
-/
def rle16Decompress (input : Bytes) (width height : Nat) (output : Slice UInt16) :
    EStateM.Result (Fault Error) Rle16.State Unit :=
  (Prog.whileLoop input.length
    (do
      let s ← get
      return !s.input.isEmpty)
    (Rle16.decodeOrder width)).run (Rle16.init input width height output)

end Rdp
