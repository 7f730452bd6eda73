import Rdp.Codec.Rle16.Impl
import Rdp.Codec.Rle32.Impl

/-!
This module contains the events of the client, and the bitmap of one as pixels of four bytes.
-/

namespace Rdp

/--
`data[index]`.
-/
def indexed (data : List α) (index : Nat) : RdpResult α :=
  match data[index]? with
  | some a => .ok a
  | none => .error (.panic "index out of bounds")

/--
`for i in 0..height { for j in 0..width { .. } }`.
-/
def forPixels (height width : Nat) (body : Nat → Nat → α → RdpResult α) (result : α) : RdpResult α :=
  (List.range height).foldlM
    (fun result i => (List.range width).foldlM (fun result j => body i j result) result) result

/--
The four bytes of a pixel. None of the products exceeds 16 bits.
-/
def rgb32 (v : UInt16) : Bytes := [
  (((v &&& 0x1f) * 527 + 23) >>> 6).toUInt8,
  ((((v >>> 5) &&& 0x3f) * 259 + 33) >>> 6).toUInt8,
  ((((v >>> 11) &&& 0x1f) * 527 + 23) >>> 6).toUInt8,
  0xff
]

def convertPixel (input : List UInt16) (width i j : Nat) (result : Bytes) : RdpResult Bytes := do
  let index := i * width + j
  let v ← indexed input index
  if index * 4 + 3 < result.length then
    return result.take (index * 4) ++ rgb32 v ++ result.drop (index * 4 + 4)
  else
    .error (.panic "index out of bounds")

def rgb565torgb32 (input : List UInt16) (width height : Nat) : RdpResult Bytes := do
  let size ← checkedMul 64 (← checkedMul 64 width height) 4
  forPixels height width (convertPixel input width) (List.replicate size 0)

structure BitmapEvent where
  destLeft : UInt16
  destTop : UInt16
  destRight : UInt16
  destBottom : UInt16
  width : UInt16
  height : UInt16
  bpp : UInt16
  isCompress : Bool
  data : Bytes
  deriving DecidableEq, Repr

namespace BitmapEvent

theorem cells_lt (self : BitmapEvent) (k : Nat) (h : k ≤ 4) :
    self.width.toNat * self.height.toNat * k < 2 ^ 63 := by
  have hw := self.width.toNat_lt
  have hh := self.height.toNat_lt
  calc
    self.width.toNat * self.height.toNat * k ≤ 2 ^ 16 * 2 ^ 16 * 4 :=
      Nat.mul_le_mul (Nat.mul_le_mul (by omega) (by omega)) h
    _ < 2 ^ 63 := by decide

/--
`vec![0; width * height * k]`.
-/
def zeros [OfNat α 0] (self : BitmapEvent) (k : Nat) (h : k ≤ 4) : Slice α :=
  ⟨List.replicate (self.width.toNat * self.height.toNat * k) 0, by
    rw [List.length_replicate]
    exact self.cells_lt k h⟩

/--
All of the arithmetic is the one of `u16`.
-/
def copyPixel (self : BitmapEvent) (i j : Nat) (result : List UInt16) : RdpResult (List UInt16) := do
  let row ← checkedSub (← checkedSub self.height.toNat i) 1
  let pixel ← checkedAdd 16 (← checkedMul 16 row self.width.toNat) j
  let src ← checkedMul 16 pixel 2
  let high ← indexed self.data (src + 1)
  let low ← indexed self.data src
  let index ← checkedAdd 16 (← checkedMul 16 i self.width.toNat) j
  if index < result.length then
    return result.set index (high.toUInt16 <<< 8 ||| low.toUInt16)
  else
    .error (.panic "index out of bounds")

def decompress16 (self : BitmapEvent) : RdpResult (List UInt16) :=
  if self.isCompress then
    match rle16Decompress self.data self.width.toNat self.height.toNat (self.zeros 2 (by decide)) with
    | .ok _ s => .ok s.output
    | .error e _ => .error e
  else
    forPixels self.height.toNat self.width.toNat self.copyPixel
      (List.replicate (self.width.toNat * self.height.toNat) 0)

def decompress32 (self : BitmapEvent) : RdpResult Bytes :=
  if self.isCompress then
    match rle32Decompress self.data self.width.toNat self.height.toNat (self.zeros 4 (by decide)) with
    | .ok _ s => .ok s.output
    | .error e _ => .error e
  else
    .ok self.data

def decompress (self : BitmapEvent) : RdpResult Bytes := do
  match self.bpp.toNat with
  | 32 => self.decompress32
  | 16 => rgb565torgb32 (← self.decompress16) self.width.toNat self.height.toNat
  | bpp =>
    .error (.error (.new .notImplemented
      ("Decompression Algorithm not implemented for bpp " ++ toString bpp)))

end BitmapEvent

inductive PointerButton where
  | none
  | left
  | right
  | middle
  deriving DecidableEq, Repr

structure PointerEvent where
  x : UInt16
  y : UInt16
  button : PointerButton
  down : Bool
  deriving DecidableEq, Repr

structure KeyboardEvent where
  code : UInt16
  down : Bool
  deriving DecidableEq, Repr

inductive RdpEvent where
  | bitmap (event : BitmapEvent)
  | pointer (event : PointerEvent)
  | key (event : KeyboardEvent)
  deriving DecidableEq, Repr

end Rdp
