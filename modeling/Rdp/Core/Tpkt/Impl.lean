import Rdp.Model.Data.Reader
import Rdp.Model.Link

/-!
This module contains the TPKT layer: the header of every packet and the two kinds of payload.
-/

namespace Rdp.Tpkt

inductive Payload where
  | raw (payload : Bytes)
  | fastPath (secFlag : UInt8) (payload : Bytes)
  deriving DecidableEq, Repr

inductive Action where
  | fastPathActionFastPath
  | fastPathActionX224

def Action.toU8 (a : Action) : UInt8 :=
  match a with
  | .fastPathActionFastPath => 0x0
  | .fastPathActionX224 => 0x3

def tpktHeader (size : UInt16) : RdpResult Component := do
  let size ← checkedAdd 16 size.toNat 4
  return [
    ("action", .leaf (.u8 Action.fastPathActionX224.toU8)),
    ("flag", .leaf (.u8 0)),
    ("size", .leaf (.u16 .be (.ofNat size)))
  ]

/-
`tpkt::Client` is a link and nothing else, so the state of its methods is the link.
-/
namespace Client

def write (message : Message) : Prog Error Link Unit := do
  let length ← Prog.lift message.length
  let header ← Prog.lift (tpktHeader (.ofNat length))
  Link.write (.trame [.component header, message])

def invalidSize : Error := .new .invalidSize "Invalid minimal size for TPKT"

def readBody (length header : Nat) : Prog Error Link Bytes := do
  if length < header then
    Prog.fail invalidSize
  else
    let size ← Prog.lift (checkedSub length header)
    Link.read size

def readX224 (buffer : Bytes) : Prog Error Link Payload := do
  -- read padding
  let _ ← Prog.on buffer Cursor.readU8
  -- now wait extended header
  let buffer ← Link.read 2
  let (size, _) ← Prog.on buffer (Cursor.readU16 .be)
  let body ← readBody size.toNat 4
  return .raw body

def readFastPath (action : UInt8) (buffer : Bytes) : Prog Error Link Payload := do
  let secFlag := (action >>> 6) &&& 0x3
  let (shortLength, _) ← Prog.on buffer Cursor.readU8
  if shortLength &&& 0x80 ≠ 0 then
    let buffer ← Link.read 1
    let (hiLength, _) ← Prog.on buffer Cursor.readU8
    let length := (shortLength &&& ~~~0x80).toUInt16 <<< 8
    let length := length ||| hiLength.toUInt16
    let body ← readBody length.toNat 3
    return .fastPath secFlag body
  else
    let body ← readBody shortLength.toNat 2
    return .fastPath secFlag body

def read : Prog Error Link Payload := do
  let buffer ← Link.read 2
  let (action, buffer) ← Prog.on buffer Cursor.readU8
  if action = Action.fastPathActionX224.toU8 then
    readX224 buffer
  else
    readFastPath action buffer

def shutdown (close : TlsStream → RdpResult Unit) : Prog Error Link Unit := Link.shutdown close

end Client

end Rdp.Tpkt
