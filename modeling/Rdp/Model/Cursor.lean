import Rdp.Lib.Machine
import Rdp.Model.Error

/-!
Reading from a `Cursor`, as `std::io::Read` and `byteorder` do it. The state of a reader is the list
of the bytes it has not delivered yet. A read that asks for more bytes than are left fails and
leaves the reader at its end.
-/

namespace Rdp

abbrev Bytes := List UInt8

abbrev Reader (α : Type) := Prog Error Bytes α

namespace Cursor

def readU8 : Reader UInt8 := do
  match ← get with
  | a :: rest =>
    set rest
    return a
  | [] => Prog.fail (.io .unexpectedEof)

def readU16Le : Reader UInt16 := do
  match ← get with
  | a :: b :: rest =>
    set rest
    return le16 a b
  | _ =>
    set ([] : Bytes)
    Prog.fail (.io .unexpectedEof)

@[simp]
theorem run_readU8_cons (a : UInt8) (rest : Bytes) : readU8.run (a :: rest) = .ok a rest := rfl

@[simp]
theorem run_readU8_nil : readU8.run [] = .error (.error (.io .unexpectedEof)) [] := rfl

@[simp]
theorem run_readU16Le_cons (a b : UInt8) (rest : Bytes) :
    readU16Le.run (a :: b :: rest) = .ok (le16 a b) rest := rfl

end Cursor

end Rdp
