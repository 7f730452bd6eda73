import Rdp.Lib.X690
import Rdp.Model.Cursor

/-!
This module contains the ASN.1 trees of the crate and the libraries that code them.
-/

namespace Rdp

abbrev Tag := X690.Tag

/--
The factory of a `SequenceOf` that is read builds a fresh element.
-/
inductive ASN1 where
  | sequence (fields : List (String × ASN1))
  | sequenceOf (inner : List ASN1) (factory : Option ASN1)
  | explicitTag (tag : Tag) (inner : ASN1)
  | implicitTag (tag : Tag) (inner : ASN1)
  | octetString (v : Bytes)
  | integer (v : UInt32)
  | bool (v : Bool)
  | enumerate (v : Int64)

/--
The encoders and parsers of the libraries: a tree is encoded, and a byte string is parsed into a
tree of the shape of the template. From a certificate the crate takes the public key of its subject.
-/
structure Der where
  toDer : ASN1 → Bytes
  fromDer : ASN1 → Bytes → RdpResult ASN1
  fromBer : ASN1 → Bytes → RdpResult ASN1
  parseX509Der : Bytes → Option Bytes

namespace ASN1

/--
`visit`: tags are transparent.
-/
def visit (t : ASN1) : ASN1 :=
  match t with
  | .explicitTag _ inner | .implicitTag _ inner => inner.visit
  | t => t

def invalidCast : RdpResult α :=
  .error (.error (.new .invalidCast "Invalid Cast"))

def castSequence (t : ASN1) : RdpResult (List (String × ASN1)) :=
  match t.visit with
  | .sequence fields => .ok fields
  | _ => invalidCast

def castSequenceOf (t : ASN1) : RdpResult (List ASN1) :=
  match t.visit with
  | .sequenceOf inner _ => .ok inner
  | _ => invalidCast

def castOctetString (t : ASN1) : RdpResult Bytes :=
  match t.visit with
  | .octetString v => .ok v
  | _ => invalidCast

/--
`sequence["name"]`.
-/
def field (t : ASN1) (name : String) : RdpResult ASN1 :=
  match t with
  | .sequence fields =>
    match fields.lookup name with
    | some t => .ok t
    | none => .error (.panic "IndexMap: key not found")
  | _ => .error (.panic "IndexMap: key not found")

end ASN1

end Rdp
