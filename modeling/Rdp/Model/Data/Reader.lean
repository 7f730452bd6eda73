import Rdp.Model.Data.Impl

/-!
This module contains the readers of messages: `read` as the callers see it, which drop a message
that could not be read.
-/

namespace Rdp

/--
`U16::BE` and `U16::LE`.
-/
def Cursor.readU16 (e : Endian) : Reader UInt16 := do
  match ← get with
  | a :: b :: rest =>
    set rest
    return e.decode16 a b
  | _ =>
    set ([] : Bytes)
    Prog.fail (.io .unexpectedEof)

def Cursor.readU32 (e : Endian) : Reader UInt32 := do
  match ← get with
  | a :: b :: c :: d :: rest =>
    set rest
    return e.decode32 a b c d
  | _ =>
    set ([] : Bytes)
    Prog.fail (.io .unexpectedEof)

/--
`Read::take`: run a reader on the next `n` bytes. What it does not read is left.
-/
def Cursor.taking (n : Nat) (x : Reader α) : Reader α := fun input =>
  match x (input.take n) with
  | .ok a rest => .ok a (rest ++ input.drop n)
  | .error e rest => .error e (rest ++ input.drop n)

namespace Cursor

theorem faults_readU8 : Prog.Faults (fun e => ∃ err, e = .error err) readU8 := by
  intro input e rest h
  cases input with
  | nil =>
    cases h
    exact ⟨_, rfl⟩
  | cons a input => cases h

theorem faults_readU16 (e : Endian) : Prog.Faults (fun e => ∃ err, e = .error err) (readU16 e) := by
  intro input e rest h
  match input with
  | [] | [_] =>
    cases h
    exact ⟨_, rfl⟩
  | _ :: _ :: _ => cases h

end Cursor

namespace Message

def reader (m : Message) : Reader Message := fun input =>
  let r := m.read input
  match r.outcome with
  | .ok () => .ok r.node r.rest
  | .error e => .error e r.rest

end Message

/--
`cast!`: the value of a node, if it is of the expected type.
-/
def DataType.invalidCast : RdpResult α :=
  .error (.error (.new .invalidCast "Invalid Cast"))

def castComponent (d : DataType) : RdpResult (List (String × DataType)) :=
  match d with
  | .component fields => .ok fields
  | _ => DataType.invalidCast

def castTrame (d : DataType) : RdpResult (List DataType) :=
  match d with
  | .trame elements => .ok elements
  | _ => DataType.invalidCast

def castU32 (d : DataType) : RdpResult UInt32 :=
  match d with
  | .u32 v => .ok v
  | _ => DataType.invalidCast

def castU16 (d : DataType) : RdpResult UInt16 :=
  match d with
  | .u16 v => .ok v
  | _ => DataType.invalidCast

def castU8 (d : DataType) : RdpResult UInt8 :=
  match d with
  | .u8 v => .ok v
  | _ => DataType.invalidCast

def castSlice (d : DataType) : RdpResult Bytes :=
  match d with
  | .slice v => .ok v
  | _ => DataType.invalidCast

/--
`Result::unwrap`.
-/
def unwrap (x : RdpResult α) : RdpResult α :=
  match x with
  | .error (.error _) => .error (.panic "called `Result::unwrap()` on an `Err` value")
  | x => x

/--
`message["name"]` on what a component shows.
-/
def field (fields : List (String × DataType)) (name : String) : RdpResult DataType :=
  match fields.lookup name with
  | some d => .ok d
  | none => .error (.panic "IndexMap: key not found")

end Rdp
