import Rdp.Model.Cursor

/-!
This module contains the message model every layer of the protocol is built on: a tree of typed
nodes that is written to a stream, read back from one, and visited to get at its values.
-/

namespace Rdp

inductive Endian where
  | be
  | le
  deriving DecidableEq, Repr

namespace Endian

def order (e : Endian) (bytes : Bytes) : Bytes :=
  match e with
  | .be => bytes.reverse
  | .le => bytes

def encode16 (e : Endian) (v : UInt16) : Bytes :=
  e.order [.ofNat v.toNat, .ofNat (v.toNat / 256)]

def encode32 (e : Endian) (v : UInt32) : Bytes :=
  e.order [.ofNat v.toNat, .ofNat (v.toNat / 2 ^ 8), .ofNat (v.toNat / 2 ^ 16),
    .ofNat (v.toNat / 2 ^ 24)]

def decode16 (e : Endian) (a b : UInt8) : UInt16 :=
  match e with
  | .be => le16 b a
  | .le => le16 a b

def decode32 (e : Endian) (a b c d : UInt8) : UInt32 :=
  match e with
  | .be => le32 d c b a
  | .le => le32 a b c d

end Endian

/--
The values of `DataType`, as `visit` shows them.
-/
inductive DataType where
  | component (fields : List (String × DataType))
  | trame (elements : List DataType)
  | u32 (v : UInt32)
  | u16 (v : UInt16)
  | u8 (v : UInt8)
  | slice (v : Bytes)
  | none

inductive MessageOption where
  | skipField (field : String)
  | size (field : String) (size : Nat)
  | none
  deriving DecidableEq, Repr

inductive Leaf where
  | u8 (v : UInt8)
  | u16 (e : Endian) (v : UInt16)
  | u32 (e : Endian) (v : UInt32)
  | bytes (v : Bytes)
  deriving DecidableEq, Repr

/--
All is a message. The option function of a `DynOption` sees the value its node shows. The factory
of an `Array` builds a fresh element, or panics when the array was made by `from_trame`.
-/
inductive Message where
  | leaf (value : Leaf)
  | check (value : Leaf)
  | dynOption (inner : Message) (filter : DataType → RdpResult MessageOption)
  | option (value : Option Message)
  | trame (elements : List Message)
  | array (inner : List Message) (factory : Option Message)
  | component (fields : List (String × Message))

abbrev Trame := List Message

/--
A component is key value ordered. Its keys are distinct.
-/
abbrev Component := List (String × Message)

def Leaf.visit (value : Leaf) : DataType :=
  match value with
  | .u8 v => .u8 v
  | .u16 _ v => .u16 v
  | .u32 _ v => .u32 v
  | .bytes v => .slice v

def Leaf.write (value : Leaf) : Bytes :=
  match value with
  | .u8 v => [v]
  | .u16 e v => e.encode16 v
  | .u32 e v => e.encode32 v
  | .bytes v => v

def Leaf.length (value : Leaf) : Nat :=
  match value with
  | .u8 _ => 1
  | .u16 _ _ => 2
  | .u32 _ _ => 4
  | .bytes v => v.length

/--
`PartialEq`: the endianness of a `Value` is not compared.
-/
def Leaf.eq (a b : Leaf) : Bool :=
  match a, b with
  | .u8 v, .u8 w => v = w
  | .u16 _ v, .u16 _ w => v = w
  | .u32 _ v, .u32 _ w => v = w
  | .bytes v, .bytes w => v = w
  | _, _ => false

/--
What a call of `read` leaves behind: whether it succeeded, the node it read into, which a failed
call may have changed too, and the bytes it did not consume.
-/
structure ReadResult (α : Type) where
  outcome : RdpResult Unit
  node : α
  rest : Bytes

namespace ReadResult

variable {α β : Type}

def map (f : α → β) (r : ReadResult α) : ReadResult β :=
  ⟨r.outcome, f r.node, r.rest⟩

theorem map_eq {f : α → β} {r : ReadResult α} {outcome : RdpResult Unit} {node : β} {rest : Bytes}
    (h : r.map f = ⟨outcome, node, rest⟩) : ∃ a, r = ⟨outcome, a, rest⟩ ∧ node = f a := by
  cases h
  exact ⟨_, rfl, rfl⟩

theorem eq_of_outcome {r : ReadResult α} (h : r.outcome = .ok ()) :
    r = ⟨.ok (), r.node, r.rest⟩ := by
  rw [← h]

def unexpectedEof (node : α) : ReadResult α :=
  ⟨.error (.error (.io .unexpectedEof)), node, []⟩

end ReadResult

/--
A vector that is empty takes all that is left, another one keeps its length.
-/
def Leaf.read (value : Leaf) (input : Bytes) : ReadResult Leaf :=
  match value, input with
  | .u8 _, a :: rest => ⟨.ok (), .u8 a, rest⟩
  | .u16 e _, a :: b :: rest => ⟨.ok (), .u16 e (e.decode16 a b), rest⟩
  | .u32 e _, a :: b :: c :: d :: rest => ⟨.ok (), .u32 e (e.decode32 a b c d), rest⟩
  | .bytes [], input => ⟨.ok (), .bytes input, []⟩
  | .bytes (a :: v), input =>
    if v.length < input.length then
      ⟨.ok (), .bytes (input.take (v.length + 1)), input.drop (v.length + 1)⟩
    else
      .unexpectedEof (.bytes (a :: v))
  | value, _ => .unexpectedEof value

/--
`Check::read`: the value that was read stays in the node.
-/
def Leaf.readCheck (value : Leaf) (input : Bytes) : ReadResult Leaf :=
  let r := value.read input
  match r.outcome with
  | .error e => ⟨.error e, r.node, r.rest⟩
  | .ok () =>
    if value.eq r.node then
      r
    else
      ⟨.error (.error (.new .invalidConst "Invalid constness of data")), r.node, r.rest⟩

namespace Message

mutual

def visit (m : Message) : DataType :=
  match m with
  | .leaf v | .check v => v.visit
  | .dynOption inner _ => inner.visit
  | .option none => .none
  | .option (some m) => m.visit
  | .trame ms | .array ms _ => .trame (visitTrame ms)
  | .component fields => .component (visitFields fields)

def visitTrame (ms : Trame) : List DataType :=
  match ms with
  | [] => []
  | m :: ms => m.visit :: visitTrame ms

def visitFields (fields : Component) : List (String × DataType) :=
  match fields with
  | [] => []
  | (name, m) :: fields => (name, m.visit) :: visitFields fields

end

/--
Only a `DynOption` has something to tell its parent.
-/
def options (m : Message) : RdpResult MessageOption :=
  match m with
  | .dynOption inner filter => filter inner.visit
  | _ => .ok .none

end Message

/--
The fields a component skips, after one of its fields gave this option.
-/
def MessageOption.addSkip (o : MessageOption) (skips : List String) : List String :=
  match o with
  | .skipField field => field :: skips
  | _ => skips

def MessageOption.addSize (o : MessageOption) (sizes : List (String × Nat)) : List (String × Nat) :=
  match o with
  | .size field n => (field, n) :: sizes
  | _ => sizes

namespace Message

mutual

def write (m : Message) : RdpResult Bytes :=
  match m with
  | .leaf v | .check v => .ok v.write
  | .dynOption inner _ => inner.write
  | .option none => .ok []
  | .option (some m) => m.write
  | .trame ms | .array ms _ => writeTrame ms
  | .component fields => writeFields [] fields

def writeTrame (ms : Trame) : RdpResult Bytes :=
  match ms with
  | [] => .ok []
  | m :: ms => do
    let bytes ← m.write
    return bytes ++ (← writeTrame ms)

def writeFields (skips : List String) (fields : Component) : RdpResult Bytes :=
  match fields with
  | [] => .ok []
  | (name, m) :: fields =>
    if name ∈ skips then
      writeFields skips fields
    else do
      let bytes ← m.write
      let o ← m.options
      return bytes ++ (← writeFields (o.addSkip skips) fields)

end

mutual

def length (m : Message) : RdpResult Nat :=
  match m with
  | .leaf v | .check v => .ok v.length
  | .dynOption inner _ => inner.length
  | .option none => .ok 0
  | .option (some m) => m.length
  | .trame ms | .array ms _ => lengthTrame ms
  | .component fields => lengthFields [] fields

def lengthTrame (ms : Trame) : RdpResult Nat :=
  match ms with
  | [] => .ok 0
  | m :: ms => do
    let n ← m.length
    return n + (← lengthTrame ms)

def lengthFields (skips : List String) (fields : Component) : RdpResult Nat :=
  match fields with
  | [] => .ok 0
  | (name, m) :: fields =>
    if name ∈ skips then
      lengthFields skips fields
    else do
      let o ← m.options
      let n ← m.length
      return n + (← lengthFields (o.addSkip skips) fields)

end

/--
`Array::read`: elements are read until one of them gives an error, which is dropped. The fuel is
one more than the bytes that are left, so it runs out only when an element was read from no bytes
at all, and then the loop would read it again for ever.
-/
def readElements (readElement : Bytes → ReadResult Message) (fuel : Nat) (inner : Trame)
    (input : Bytes) : ReadResult Trame :=
  match fuel with
  | 0 => ⟨.error .diverge, inner, input⟩
  | fuel + 1 =>
    let r := readElement input
    match r.outcome with
    | .ok () => readElements readElement fuel (inner ++ [r.node]) r.rest
    | .error (.error _) => ⟨.ok (), inner, r.rest⟩
    | .error e => ⟨.error e, inner, r.rest⟩

/--
The sub stream of a field whose size was announced: what the field does not consume is lost.
-/
def readSized (readField : Bytes → ReadResult Message) (m : Message) (size : Option Nat)
    (input : Bytes) : ReadResult Message :=
  match size with
  | none => readField input
  | some n =>
    if n ≤ input.length then
      let r := readField (input.take n)
      ⟨r.outcome, r.node, input.drop n⟩
    else
      .unexpectedEof m

mutual

def read (m : Message) (input : Bytes) : ReadResult Message :=
  match m with
  | .leaf v => (v.read input).map .leaf
  | .check v => (v.readCheck input).map .check
  | .dynOption inner filter => (inner.read input).map (.dynOption · filter)
  | .option none => ⟨.ok (), .option none, input⟩
  | .option (some m) =>
    let r := m.read input
    match r.outcome with
    | .ok () => ⟨.ok (), .option (some r.node), r.rest⟩
    | .error (.error _) => ⟨.ok (), .option none, r.rest⟩
    | .error e => ⟨.error e, .option (some r.node), r.rest⟩
  | .trame ms => (readTrame ms input).map .trame
  | .array inner none =>
    ⟨.error (.panic "Try reading a non empty array"), .array inner none, input⟩
  | .array inner (some m) =>
    (readElements (fun input => m.read input) (input.length + 1) inner input).map
      (.array · (some m))
  | .component fields => (readFields [] [] fields input).map .component

def readTrame (ms : Trame) (input : Bytes) : ReadResult Trame :=
  match ms with
  | [] => ⟨.ok (), [], input⟩
  | m :: ms =>
    let r := m.read input
    match r.outcome with
    | .error e => ⟨.error e, r.node :: ms, r.rest⟩
    | .ok () => (readTrame ms r.rest).map (r.node :: ·)

def readFields (skips : List String) (sizes : List (String × Nat)) (fields : Component)
    (input : Bytes) : ReadResult Component :=
  match fields with
  | [] => ⟨.ok (), [], input⟩
  | (name, m) :: fields =>
    if name ∈ skips then
      (readFields skips sizes fields input).map ((name, m) :: ·)
    else
      let r := readSized (fun input => m.read input) m (sizes.lookup name) input
      match r.outcome with
      | .error e => ⟨.error e, (name, r.node) :: fields, r.rest⟩
      | .ok () =>
        match r.node.options with
        | .error e => ⟨.error e, (name, r.node) :: fields, r.rest⟩
        | .ok o =>
          (readFields (o.addSkip skips) (o.addSize sizes) fields r.rest).map ((name, r.node) :: ·)

end

end Message

def toVec (message : Message) : RdpResult Bytes :=
  match message.write with
  | .error (.error _) => .error (.panic "called `Result::unwrap()` on an `Err` value")
  | r => r

end Rdp
