import Rdp.Model.Data.Reader

/-!
This module contains the PER coding of numbers, identifiers and strings. A writer yields the bytes
it appends to its stream, which is a vector and never fails.
-/

namespace Rdp.Per

open Cursor

def readLength : Reader UInt16 := do
  let byte ← readU8
  if byte &&& 0x80 ≠ 0 then
    let size := (byte &&& ~~~0x80).toUInt16 <<< 8
    let byte ← readU8
    return .ofNat (← Prog.lift (checkedAdd 16 size.toNat byte.toNat))
  else
    return byte.toUInt16

/--
`write_length` never fails.
-/
def writeLength (length : UInt16) : Trame :=
  if length > 0x7f then
    [.leaf (.u16 .be (length ||| 0x8000))]
  else
    [.leaf (.u8 length.toUInt8)]

def encodeLength (length : UInt16) : RdpResult Bytes := (Message.trame (writeLength length)).write

def readChoice : Reader UInt8 := readU8

def writeChoice (choice : UInt8) : Bytes := [choice]

def writeSelection (selection : UInt8) : Bytes := [selection]

def readNumberOfSet : Reader UInt8 := readU8

def writeNumberOfSet (numberOfSet : UInt8) : Bytes := [numberOfSet]

def readEnumerates : Reader UInt8 := readU8

def writeEnumerates (enumerate : UInt8) : UInt8 := enumerate

def readInteger : Reader UInt32 := do
  let size ← readLength
  match size.toNat with
  | 1 => return (← readU8).toUInt32
  | 2 => return (← readU16 .be).toUInt32
  | 4 => readU32 .be
  | _ => Prog.fail (.new .invalidSize "PER integer encoded with an invalid size")

def writeInteger (integer : UInt32) : RdpResult Bytes := do
  if integer < 0xFF then
    return (← encodeLength 1) ++ [integer.toUInt8]
  else if integer < 0xFFFF then
    return (← encodeLength 2) ++ Endian.be.encode16 integer.toUInt16
  else
    return (← encodeLength 4) ++ Endian.be.encode32 integer

def readInteger16 (minimum : UInt16) : Reader UInt16 := do
  let result ← readU16 .be
  return .ofNat (← Prog.lift (checkedAdd 16 result.toNat minimum.toNat))

def writeInteger16 (integer minimum : UInt16) : RdpResult Bytes := do
  return Endian.be.encode16 (.ofNat (← checkedSub integer.toNat minimum.toNat))

/--
The fifth component is overwritten by the sixth, and the place of the fifth stays zero.
-/
def readObjectIdentifier (oid : Bytes) : Reader Bool := do
  if oid.length ≠ 6 then
    Prog.fail (.new .invalidSize "Oid to check have an invalid size")
  else
    let length ← readLength
    if length ≠ 5 then
      Prog.fail (.new .invalidSize "Oid source have an invalid size")
    else
      let tmp ← readU8
      let third ← readU8
      let fourth ← readU8
      let _ ← readU8
      let sixth ← readU8
      return [tmp >>> 4, tmp &&& 0xf, third, fourth, 0, sixth] = oid

def writeObjectIdentifier (oid : Bytes) : RdpResult Bytes :=
  match oid with
  | [a, b, c, d, e, f] => .ok [5, a <<< 4 ||| b &&& 0xF, c, d, e, f]
  | _ => .error (.error (.new .invalidSize "PER: oid source don't have the correct size"))

def readNumericString (minimum : Nat) : Reader Bytes := do
  let length ← readLength
  let size ← Prog.lift (checkedAdd 64 length.toNat minimum)
  let size ← Prog.lift (checkedAdd 64 size 1)
  match ← (Message.leaf (.bytes (List.replicate size 0))).reader with
  | .leaf (.bytes result) => return result
  | _ => Prog.lift DataType.invalidCast

/--
One byte for every character, of it and the one after it.
-/
def packDigits (string : Bytes) : RdpResult Bytes :=
  match string with
  | [] => .ok []
  | c1 :: string => do
    let c2 := string.headD 0x30
    let high ← checkedSub c1.toNat 0x30
    let low ← checkedSub c2.toNat 0x30
    let byte := (UInt8.ofNat high % 10) <<< 4 ||| UInt8.ofNat low % 10
    return byte :: (← packDigits string)

def asI64 (n : Nat) : Int := if n < 2 ^ 63 then n else n - 2 ^ 64

/--
`length as i64 - minimum as i64 >= 0`.
-/
def notShorter (length minimum : Nat) : RdpResult Bool :=
  let difference := asI64 length - asI64 minimum
  if -2 ^ 63 ≤ difference ∧ difference < 2 ^ 63 then
    .ok (0 ≤ difference)
  else
    .error (.panic "attempt to subtract with overflow")

def writeNumericString (string : Bytes) (minimum : Nat) : RdpResult Bytes := do
  let length ←
    if ← notShorter string.length minimum then checkedSub string.length minimum
    else pure string.length
  let length ← encodeLength (.ofNat length)
  return length ++ (← packDigits string)

def writePadding (length : Nat) : Bytes := List.replicate length 0

def readOctets (octets : Bytes) : Reader Unit :=
  match octets with
  | [] => return ()
  | octet :: octets => do
    let c ← readU8
    if c ≠ octet then
      Prog.fail (.new .invalidData "PER: source octet string have an invalid char")
    else
      readOctets octets

def readOctetStream (octetStream : Bytes) (minimum : Nat) : Reader Unit := do
  let length ← Prog.lift (checkedAdd 64 (← readLength).toNat minimum)
  if length ≠ octetStream.length then
    Prog.fail (.new .invalidSize "PER: source octet string have an invalid size")
  else
    readOctets octetStream

def writeOctetStream (octetString : Bytes) (minimum : Nat) : RdpResult Bytes := do
  let length ←
    if ← notShorter octetString.length minimum then checkedSub octetString.length minimum
    else pure minimum
  let length ← encodeLength (.ofNat length)
  return length ++ octetString

end Rdp.Per
