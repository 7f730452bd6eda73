import Rdp.Codec.Rle16.Scan

/-!
The meaning of an interleaved run length encoded bitmap: the orders it consists of and the pixels
they stand for. Nothing here follows the control flow of the decoder.
-/

namespace Rdp
namespace Rle16

inductive Kind where
  /--
  A copy of the pixels above.
  -/
  | background
  /--
  The pixels above, mixed with the foreground colour, which the order may set.
  -/
  | foreground (mix : Option UInt16)
  /--
  A bit for every pixel, least significant one first, says whether it is foreground.
  -/
  | masked (mix : Option UInt16) (masks : Bytes)
  | fixedMask (mask : UInt8)
  | colour (c : UInt16)
  | literal (pixels : List UInt16)
  /--
  Pairs of pixels of two colours.
  -/
  | dithered (c1 c2 : UInt16)
  | white
  | black
  deriving DecidableEq, Repr

structure Order where
  kind : Kind
  length : Nat
  deriving DecidableEq, Repr

def runLength (length : UInt8) (isMask : Bool) (base : Nat) (rest : Bytes) : Option (Nat × Bytes) :=
  if length = 0 then
    match rest with
    | next :: rest => some (next.toNat + (if isMask then 1 else base), rest)
    | [] => none
  else
    some (if isMask then 8 * length.toNat else length.toNat, rest)

def header (input : Bytes) : Option (UInt8 × Nat × Bytes) :=
  match input with
  | [] => none
  | c :: rest =>
    if c < 0xC0 then
      (runLength (c &&& 0x1f) (c >>> 5 == 2) 32 rest).map fun run => (c >>> 5, run)
    else if c < 0xF0 then
      (runLength (c &&& 0xf) ((c >>> 4) - 6 == 7) 16 rest).map fun run => ((c >>> 4) - 6, run)
    else if c &&& 0xf < 9 then
      match rest with
      | a :: b :: rest => some (c &&& 0xf, (le16 a b).toNat, rest)
      | _ => none
    else
      some (c &&& 0xf, if c &&& 0xf < 0xb then 8 else 1, rest)

def word (input : Bytes) : Option (UInt16 × Bytes) :=
  match input with
  | a :: b :: rest => some (le16 a b, rest)
  | _ => none

def words (n : Nat) (input : Bytes) : Option (List UInt16 × Bytes) :=
  match n with
  | 0 => some ([], input)
  | n + 1 => do
    let (v, rest) ← word input
    let (vs, rest) ← words n rest
    some (v :: vs, rest)

def bytes (n : Nat) (input : Bytes) : Option (Bytes × Bytes) :=
  if n ≤ input.length then
    some (input.take n, input.drop n)
  else
    none

def parseOrder (input : Bytes) : Option (Order × Bytes) := do
  let (op, r, rest) ← header input
  match op with
  | 0 => some (⟨.background, r⟩, rest)
  | 1 => some (⟨.foreground none, r⟩, rest)
  | 2 =>
    let (masks, rest) ← bytes ((r + 7) / 8) rest
    some (⟨.masked none masks, r⟩, rest)
  | 3 =>
    let (c, rest) ← word rest
    some (⟨.colour c, r⟩, rest)
  | 4 =>
    let (pixels, rest) ← words r rest
    some (⟨.literal pixels, r⟩, rest)
  | 6 =>
    let (mix, rest) ← word rest
    some (⟨.foreground (some mix), r⟩, rest)
  | 7 =>
    let (mix, rest) ← word rest
    let (masks, rest) ← bytes ((r + 7) / 8) rest
    some (⟨.masked (some mix) masks, r⟩, rest)
  | 8 =>
    let (c1, rest) ← word rest
    let (c2, rest) ← word rest
    some (⟨.dithered c1 c2, r⟩, rest)
  | 9 => some (⟨.fixedMask 3, r⟩, rest)
  | 0xa => some (⟨.fixedMask 5, r⟩, rest)
  | 0xd => some (⟨.white, r⟩, rest)
  | 0xe => some (⟨.black, r⟩, rest)
  | _ => none

/--
The input is a sequence of complete orders.
-/
inductive Orders : Bytes → List Order → Prop where
  | nil : Orders [] []
  | cons {input rest order orders} (h : parseOrder input = some (order, rest))
      (hrest : Orders rest orders) : Orders input (order :: orders)

/--
The run lengths for which an order has a meaning.
-/
def Order.Valid (order : Order) : Prop :=
  0 < order.length ∧ ∀ c1 c2, order.kind = .dithered c1 c2 → order.length ≤ 65534

def Order.size (order : Order) : Nat :=
  match order.kind with
  | .dithered _ _ => 2 * order.length
  | _ => order.length

def Kind.mix (kind : Kind) : Option UInt16 :=
  match kind with
  | .foreground mix | .masked mix _ => mix
  | _ => none

/--
The `k`-th pixel of an order below the pixel `up`.
-/
def Kind.value (kind : Kind) (insert : Bool) (mix : UInt16) (k : Nat) (up : Option UInt16) : UInt16 :=
  match kind with
  | .background => if insert && k == 0 then mixed up mix else up.getD 0
  | .foreground _ => mixed up mix
  | .masked _ masks => if (masks.getD (k / 8) 0).toNat.testBit (k % 8) then mixed up mix else up.getD 0
  | .fixedMask mask => if mask.toNat.testBit (k % 8) then mixed up mix else up.getD 0
  | .colour c => c
  | .literal pixels => pixels.getD k 0
  | .dithered c1 c2 => if k % 2 = 0 then c1 else c2
  | .white => 0xffff
  | .black => 0

/--
Append `n` pixels, of which the first one is the `k`-th of its order.
-/
def appendPixels (width : Nat) (value : Nat → Option UInt16 → UInt16) (k n : Nat)
    (pixels : List UInt16) : List UInt16 :=
  match n with
  | 0 => pixels
  | n + 1 => appendPixels width value (k + 1) n (pixels ++ [value k (above width pixels)])

/--
The pixels of a sequence of orders after the ones of `pixels`. Two background orders are separated
by a foreground pixel, except where the second row starts.
-/
def renderFrom (width : Nat) (mix : UInt16) (afterBackground : Bool) (pixels : List UInt16)
    (orders : List Order) : List UInt16 :=
  match orders with
  | [] => pixels
  | order :: orders =>
    let mix := order.kind.mix.getD mix
    let insert := afterBackground && pixels.length != width
    let pixels := appendPixels width (order.kind.value insert mix) 0 order.size pixels
    renderFrom width mix (order.kind == .background) pixels orders

def render (width : Nat) (orders : List Order) : List UInt16 :=
  renderFrom width 0xffff false [] orders

end Rle16
end Rdp
