import Rdp.Model.Data.Impl
import Rdp.Nla.Asn1

/-!
This module contains how the nodes of an ASN.1 tree are written and read with the library that knows
the encoding.
-/

namespace Rdp

structure DERWriter where
  implicitTag : Option Tag

inductive BERMode where
  | ber
  | der
  deriving DecidableEq, Repr

structure BERReader where
  mode : BERMode
  implicitTag : Option Tag

/--
What a call of a reading callback leaves behind: whether it succeeded, what it captured, which a failed
call may have changed too, and the bytes it did not read. An `ASN1Error` is its text.
-/
structure CallbackResult (α : Type) where
  outcome : Except (Fault String) Unit
  captured : α
  rest : Bytes

def CallbackResult.map (f : α → β) (r : CallbackResult α) : CallbackResult β :=
  ⟨r.outcome, f r.captured, r.rest⟩

/--
The operations of the library. A writer gives the bytes it appends. The callback of a sequence gets a
writer or a reader for each of its elements, and so a writing callback is the list of what it does with
them.
-/
structure Yasna where
  writeBool : DERWriter → Bool → Bytes
  writeU32 : DERWriter → UInt32 → Bytes
  writeEnum : DERWriter → Int64 → Bytes
  writeBytes : DERWriter → Bytes → Bytes
  writeTagged : DERWriter → Tag → (DERWriter → Bytes) → Bytes
  writeTaggedImplicit : DERWriter → Tag → (DERWriter → Bytes) → Bytes
  writeSequence : DERWriter → List (DERWriter → Bytes) → Bytes
  writeSequenceOf : DERWriter → List (DERWriter → Bytes) → Bytes
  constructDer : (DERWriter → Bytes) → Bytes
  readBool : BERReader → Prog String Bytes Bool
  readU32 : BERReader → Prog String Bytes UInt32
  readEnum : BERReader → Prog String Bytes Int64
  readBytes : BERReader → Prog String Bytes Bytes
  readTagged {α : Type} : BERReader → Tag → (BERReader → Bytes → CallbackResult α) → α → Bytes →
    CallbackResult α
  readTaggedImplicit {α : Type} : BERReader → Tag → (BERReader → Bytes → CallbackResult α) → α → Bytes →
    CallbackResult α
  readSequence {α : Type} : BERReader → (BERReader → Bytes → CallbackResult α) → α → Bytes →
    CallbackResult α
  readSequenceOf {α : Type} : BERReader → (BERReader → α → Bytes → CallbackResult α) → α → Bytes →
    CallbackResult α
  parseDer {α : Type} : Bytes → (BERReader → Bytes → CallbackResult α) → α →
    Except (Fault String) Unit × α
  parseBer {α : Type} : Bytes → (BERReader → Bytes → CallbackResult α) → α →
    Except (Fault String) Unit × α

/--
`From<ASN1Error>`.
-/
def Error.ofAsn1 (e : Fault String) : Fault Error :=
  match e with
  | .error message => .error (.asn1Error message)
  | .panic msg => .panic msg
  | .diverge => .diverge

/--
`callback(..)?` of the library.
-/
def CallbackResult.question (r : CallbackResult α) : ReadResult α :=
  ⟨r.outcome.mapError Error.ofAsn1, r.captured, r.rest⟩

/--
`if let Err(Error::ASN1Error(e))`: the error goes on through the library, another one is dropped.
-/
def ReadResult.passAsn1Error (r : ReadResult α) : CallbackResult α :=
  match r.outcome with
  | .ok () => ⟨.ok (), r.node, r.rest⟩
  | .error (.error (.asn1Error e)) => ⟨.error (.error e), r.node, r.rest⟩
  | .error (.error _) => ⟨.ok (), r.node, r.rest⟩
  | .error (.panic msg) => ⟨.error (.panic msg), r.node, r.rest⟩
  | .error .diverge => ⟨.error .diverge, r.node, r.rest⟩

/--
`*self = reader.read_value()?`.
-/
def readInto (read : Prog String Bytes α) (node : α) (stream : Bytes) : ReadResult α :=
  match read.run stream with
  | .ok v rest => ⟨.ok (), v, rest⟩
  | .error e rest => ⟨.error (Error.ofAsn1 e), node, rest⟩

namespace ASN1

variable (y : Yasna)

mutual

/--
No write fails.
-/
def writeAsn1 (t : ASN1) (writer : DERWriter) : Bytes :=
  match t with
  | .sequence fields => y.writeSequence writer (writeFields fields)
  | .sequenceOf inner _ => y.writeSequenceOf writer (writeInner inner)
  | .explicitTag tag inner => y.writeTagged writer tag fun writer => inner.writeAsn1 writer
  | .implicitTag tag inner => y.writeTaggedImplicit writer tag fun writer => inner.writeAsn1 writer
  | .octetString v => y.writeBytes writer v
  | .integer v => y.writeU32 writer v
  | .bool v => y.writeBool writer v
  | .enumerate v => y.writeEnum writer v

def writeFields (fields : List (String × ASN1)) : List (DERWriter → Bytes) :=
  match fields with
  | [] => []
  | (_, child) :: fields => (fun writer => child.writeAsn1 writer) :: writeFields fields

def writeInner (inner : List ASN1) : List (DERWriter → Bytes) :=
  match inner with
  | [] => []
  | child :: inner => (fun writer => child.writeAsn1 writer) :: writeInner inner

end

mutual

def readAsn1 (t : ASN1) (reader : BERReader) (stream : Bytes) : ReadResult ASN1 :=
  match t with
  | .sequence fields =>
    (y.readSequence reader (fun next stream => readFields fields next stream) fields stream).question.map
      .sequence
  | .sequenceOf inner factory =>
    (y.readSequenceOf reader (fun next inner stream => readElement factory next inner stream) inner
      stream).question.map (.sequenceOf · factory)
  | .explicitTag tag inner =>
    (y.readTagged reader tag (fun tagReader stream => (inner.readAsn1 tagReader stream).passAsn1Error) inner
      stream).question.map (.explicitTag tag)
  | .implicitTag tag inner =>
    (y.readTaggedImplicit reader tag (fun tagReader stream => (inner.readAsn1 tagReader stream).passAsn1Error)
      inner stream).question.map (.implicitTag tag)
  | .octetString v => (readInto (y.readBytes reader) v stream).map .octetString
  | .integer v => (readInto (y.readU32 reader) v stream).map .integer
  | .bool v => (readInto (y.readBool reader) v stream).map .bool
  | .enumerate v => (readInto (y.readEnum reader) v stream).map .enumerate

def readFields (fields : List (String × ASN1)) (next : BERReader) (stream : Bytes) :
    CallbackResult (List (String × ASN1)) :=
  match fields with
  | [] => ⟨.ok (), [], stream⟩
  | (name, child) :: fields =>
    let r := (child.readAsn1 next stream).passAsn1Error
    match r.outcome with
    | .error e => ⟨.error e, (name, r.captured) :: fields, r.rest⟩
    | .ok () => (readFields fields next r.rest).map ((name, r.captured) :: ·)

/--
The callback of a `SequenceOf`. Without a factory nothing is read.
-/
def readElement (factory : Option ASN1) (next : BERReader) (inner : List ASN1) (stream : Bytes) :
    CallbackResult (List ASN1) :=
  match factory with
  | none => ⟨.ok (), inner, stream⟩
  | some element =>
    let r := (element.readAsn1 next stream).passAsn1Error
    match r.outcome with
    | .error e => ⟨.error e, inner, r.rest⟩
    | .ok () => ⟨.ok (), inner ++ [r.captured], r.rest⟩

end

end ASN1

namespace Yasna

variable (y : Yasna)

def toDer (message : ASN1) : Bytes := y.constructDer fun writer => message.writeAsn1 y writer

def fromDer (message : ASN1) (stream : Bytes) : RdpResult ASN1 :=
  match y.parseDer stream (fun reader stream => (message.readAsn1 y reader stream).passAsn1Error) message with
  | (.ok (), message) => .ok message
  | (.error e, _) => .error (Error.ofAsn1 e)

def fromBer (message : ASN1) (stream : Bytes) : RdpResult ASN1 :=
  match y.parseBer stream (fun reader stream => (message.readAsn1 y reader stream).passAsn1Error) message with
  | (.ok (), message) => .ok message
  | (.error e, _) => .error (Error.ofAsn1 e)

/--
The codecs of the crate, over this library and a parser for certificates.
-/
def der (parseX509Der : Bytes → Option Bytes) : Der where
  toDer := y.toDer
  fromDer := y.fromDer
  fromBer := y.fromBer
  parseX509Der := parseX509Der

end Yasna

end Rdp
