import Rdp.Core.Event.Impl
import Rdp.Lib.Build
import Rdp.Lib.Copy

/-!
This module contains the two threads of the client program: the one that receives events, and the one
that copies the bitmaps of these events into the buffer of the window.
-/

namespace Rdp.Mstsc

/--
Words of a little endian machine. Bytes that do not fill a word are left out.
-/
def transmuteVec (vec : Bytes) : List UInt32 :=
  match vec with
  | a :: b :: c :: d :: vec => le32 a b c d :: transmuteVec vec
  | _ => []

/--
The arguments of a call of `copy_nonoverlapping`, as offsets into the two vectors.
-/
structure Copy where
  srcI : Nat
  destI : Nat
  count : Nat
  deriving DecidableEq, Repr

/--
The buffer of the window, and the copies that were made into it.
-/
structure Screen where
  buffer : List UInt32
  copies : List Copy

namespace Screen

def refused (build : Build) (dataAligned : List UInt32) (copy : Copy) (buffer : List UInt32) :
    RdpResult Bool := do
  if buffer.length < copy.destI then
    return true
  if buffer.length < (← build.add 64 copy.destI copy.count) then
    return true
  if dataAligned.length < copy.srcI then
    return true
  return dataAligned.length < (← build.add 64 copy.srcI copy.count)

def copyOf (build : Build) (width : Nat) (bitmap : BitmapEvent) (i : Nat) : RdpResult Copy := do
  let row ← build.mul 64 (← build.add 64 i bitmap.destTop.toNat) width
  let destI ← build.add 64 row bitmap.destLeft.toNat
  let srcI ← build.mul 64 i bitmap.width.toNat
  let count ← build.add 64 (← build.sub 64 bitmap.destRight.toNat bitmap.destLeft.toNat) 1
  return { srcI, destI, count }

def invalidSize : Error := .new .invalidSize "Image have invalide size"

/--
`copy_nonoverlapping`.
-/
def copied (dataAligned : List UInt32) (copy : Copy) (screen : Screen) : Screen where
  buffer := copyNonoverlapping dataAligned copy.srcI screen.buffer copy.destI copy.count
  copies := screen.copies ++ [copy]

def copyRow (build : Build) (width : Nat) (bitmap : BitmapEvent) (dataAligned : List UInt32) (i : Nat) :
    Prog Error Screen Unit := do
  let copy ← Prog.lift (copyOf build width bitmap i)
  let buffer := (← get).buffer
  if ← Prog.lift (refused build dataAligned copy buffer) then
    Prog.fail invalidSize
  else
    modify (copied dataAligned copy)

def copyRows (build : Build) (width : Nat) (bitmap : BitmapEvent) (dataAligned : List UInt32)
    (rows i : Nat) : Prog Error Screen Unit :=
  match rows with
  | 0 => return ()
  | rows + 1 => do
    copyRow build width bitmap dataAligned i
    copyRows build width bitmap dataAligned rows (i + 1)

/--
What `fast_bitmap_transfer` does with the data of a bitmap once it is decompressed.
-/
def transfer (build : Build) (width : Nat) (bitmap : BitmapEvent) (data : Bytes) :
    Prog Error Screen Unit := do
  let rows ← Prog.lift (do
    build.add 64 (← build.sub 64 bitmap.destBottom.toNat bitmap.destTop.toNat) 1)
  copyRows build width bitmap (transmuteVec data) rows 0

def fastBitmapTransfer (width : Nat) (bitmap : BitmapEvent) : Prog Error Screen Unit := do
  let data ← Prog.lift bitmap.decompress
  transfer .debug width bitmap data

end Screen

/--
What a turn of the receive loop meets: whether the socket is readable, whether the flag is still set,
and what the other thread did with the client before this one has it.
-/
structure Turn (σ : Type) where
  ready : Bool
  sync : Bool
  others : σ → σ

/--
The client both threads use, and how the calls of `read` ended: `none` is `Ok`.
-/
structure Thread (σ : Type) where
  client : σ
  reads : List (Option (Fault Error))

namespace Thread

variable {σ : Type}

/--
The body of the loop, and whether it leaves the loop. The messages it prints are left out.
-/
def receive (read : Prog Error σ Unit) (turn : Turn σ) : Prog Error (Thread σ) Bool := fun thread =>
  let r := read.run (turn.others thread.client)
  let thread := ⟨Prog.finalState r, thread.reads ++ [Prog.outcome r]⟩
  match Prog.outcome r with
  | none => .ok false thread
  | some (.error (.rdpError _)) => .ok true thread
  | some (.error _) => .ok false thread
  | some e => .error e thread

def receiveLoop (read : Prog Error σ Unit) (turns : Nat → Turn σ) (fuel k : Nat) :
    Prog Error (Thread σ) Unit :=
  match fuel with
  | 0 => throw .diverge
  | fuel + 1 =>
    if (turns k).ready && (turns k).sync then do
      if ← receive read (turns k) then
        return ()
      else
        receiveLoop read turns fuel (k + 1)
    else
      return ()

/--
`read` is the one of the `RdpClient` that both threads use.
-/
def launchRdpThread (read : Prog Error σ Unit) (turns : Nat → Turn σ) (fuel : Nat) :
    Prog Error (Thread σ) Unit :=
  receiveLoop read turns fuel 0

end Thread

end Rdp.Mstsc
