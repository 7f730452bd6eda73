import Rdp.Nla.Asn1.Impl

/-!
This module contains the round trip of the ASN.1 trees: a template of the shape of a tree reads back the
values that the tree was written with, when the library follows X.690.
-/

namespace Rdp

open X690 (Element)

/--
Calls of `f` read the contents to their end. Each of them reads something.
-/
inductive ReadsElements (f : α → Bytes → CallbackResult α) : α → Bytes → α → Prop where
  | done (a : α) : ReadsElements f a [] a
  | next {a b c : α} {contents left : Bytes} (hread : f a contents = ⟨.ok (), b, left⟩)
      (hleft : left.length < contents.length) (hrest : ReadsElements f b left c) :
      ReadsElements f a contents c

/--
An element is written as its tag, its definite length and its contents. The readers are inverse to the
writers, and the callback of a reader has to read the contents to their end.
-/
structure Yasna.FollowsX690 (y : Yasna) : Prop where
  writeBool (tag : Option Tag) (v : Bool) :
    y.writeBool ⟨tag⟩ v = (Element.mk (tag.getD .boolean) .primitive [if v then 255 else 0]).encode
  writeU32 (tag : Option Tag) (v : UInt32) :
    y.writeU32 ⟨tag⟩ v = (Element.mk (tag.getD .integer) .primitive (X690.integer v.toNat)).encode
  writeEnum (tag : Option Tag) (v : Int64) :
    y.writeEnum ⟨tag⟩ v = (Element.mk (tag.getD .enumerated) .primitive (X690.integer v.toInt)).encode
  writeBytes (tag : Option Tag) (v : Bytes) :
    y.writeBytes ⟨tag⟩ v = (Element.mk (tag.getD .octetString) .primitive v).encode
  writeTagged (tag : Option Tag) (t : Tag) (f : DERWriter → Bytes) :
    y.writeTagged ⟨tag⟩ t f = (Element.mk (tag.getD t) .constructed (f ⟨none⟩)).encode
  writeTaggedImplicit (tag : Option Tag) (t : Tag) (f : DERWriter → Bytes) :
    y.writeTaggedImplicit ⟨tag⟩ t f = f ⟨some (tag.getD t)⟩
  writeSequence (tag : Option Tag) (fs : List (DERWriter → Bytes)) :
    y.writeSequence ⟨tag⟩ fs =
      (Element.mk (tag.getD .sequence) .constructed (fs.flatMap fun f => f ⟨none⟩)).encode
  writeSequenceOf (tag : Option Tag) (fs : List (DERWriter → Bytes)) :
    y.writeSequenceOf ⟨tag⟩ fs =
      (Element.mk (tag.getD .sequence) .constructed (fs.flatMap fun f => f ⟨none⟩)).encode
  constructDer (f : DERWriter → Bytes) : y.constructDer f = f ⟨none⟩
  readBool (tag : Option Tag) (v : Bool) (rest : Bytes) :
    (y.readBool ⟨.der, tag⟩).run (y.writeBool ⟨tag⟩ v ++ rest) = .ok v rest
  readU32 (tag : Option Tag) (v : UInt32) (rest : Bytes) :
    (y.readU32 ⟨.der, tag⟩).run (y.writeU32 ⟨tag⟩ v ++ rest) = .ok v rest
  readEnum (tag : Option Tag) (v : Int64) (rest : Bytes) :
    (y.readEnum ⟨.der, tag⟩).run (y.writeEnum ⟨tag⟩ v ++ rest) = .ok v rest
  readBytes (tag : Option Tag) (v : Bytes) (rest : Bytes) :
    (y.readBytes ⟨.der, tag⟩).run (y.writeBytes ⟨tag⟩ v ++ rest) = .ok v rest
  readTagged {α : Type} (tag : Option Tag) (t : Tag) (f : BERReader → Bytes → CallbackResult α) (a b : α)
    (contents rest : Bytes) (hf : f ⟨.der, none⟩ contents = ⟨.ok (), b, []⟩) :
    y.readTagged ⟨.der, tag⟩ t f a ((Element.mk (tag.getD t) .constructed contents).encode ++ rest) =
      ⟨.ok (), b, rest⟩
  readTaggedImplicit {α : Type} (tag : Option Tag) (t : Tag) (f : BERReader → Bytes → CallbackResult α)
    (a : α) (stream : Bytes) :
    y.readTaggedImplicit ⟨.der, tag⟩ t f a stream = f ⟨.der, some (tag.getD t)⟩ stream
  readSequence {α : Type} (tag : Option Tag) (f : BERReader → Bytes → CallbackResult α) (a b : α)
    (contents rest : Bytes) (hf : f ⟨.der, none⟩ contents = ⟨.ok (), b, []⟩) :
    y.readSequence ⟨.der, tag⟩ f a ((Element.mk (tag.getD .sequence) .constructed contents).encode ++ rest) =
      ⟨.ok (), b, rest⟩
  readSequenceOf {α : Type} (tag : Option Tag) (f : BERReader → α → Bytes → CallbackResult α) (a b : α)
    (contents rest : Bytes) (hf : ReadsElements (f ⟨.der, none⟩) a contents b) :
    y.readSequenceOf ⟨.der, tag⟩ f a
        ((Element.mk (tag.getD .sequence) .constructed contents).encode ++ rest) =
      ⟨.ok (), b, rest⟩
  parseDer {α : Type} (f : BERReader → Bytes → CallbackResult α) (a b : α) (stream : Bytes)
    (hf : f ⟨.der, none⟩ stream = ⟨.ok (), b, []⟩) : y.parseDer stream f a = (.ok (), b)

namespace ASN1

mutual

/--
`template` has the shape of `t`: the same tags, the same keys in the same order, and leaves of the same
type. Where `t` has a list of elements the template has a reader with nothing read yet, and what its
factory builds has the shape of each of them.
-/
def Template (t template : ASN1) : Prop :=
  match t, template with
  | .sequence fields, .sequence templates => TemplateFields fields templates
  | .sequenceOf inner _, .sequenceOf [] (some element) => TemplateInner inner element
  | .explicitTag tag t, .explicitTag tag' template => tag = tag' ∧ t.Template template
  | .implicitTag tag t, .implicitTag tag' template => tag = tag' ∧ t.Template template
  | .octetString _, .octetString _ => True
  | .integer _, .integer _ => True
  | .bool _, .bool _ => True
  | .enumerate _, .enumerate _ => True
  | _, _ => False

def TemplateFields (fields templates : List (String × ASN1)) : Prop :=
  match fields, templates with
  | [], [] => True
  | (name, t) :: fields, (name', template) :: templates =>
    name = name' ∧ t.Template template ∧ TemplateFields fields templates
  | _, _ => False

def TemplateInner (inner : List ASN1) (element : ASN1) : Prop :=
  match inner with
  | [] => True
  | t :: inner => t.Template element ∧ TemplateInner inner element

end

mutual

/--
The values of `t`, with the factories of the template.
-/
def fill (t template : ASN1) : ASN1 :=
  match t, template with
  | .sequence fields, .sequence templates => .sequence (fillFields fields templates)
  | .sequenceOf inner _, .sequenceOf _ (some element) => .sequenceOf (fillInner inner element) (some element)
  | .explicitTag tag t, .explicitTag _ template => .explicitTag tag (t.fill template)
  | .implicitTag tag t, .implicitTag _ template => .implicitTag tag (t.fill template)
  | t, _ => t

def fillFields (fields templates : List (String × ASN1)) : List (String × ASN1) :=
  match fields, templates with
  | (name, t) :: fields, (_, template) :: templates => (name, t.fill template) :: fillFields fields templates
  | _, templates => templates

def fillInner (inner : List ASN1) (element : ASN1) : List ASN1 :=
  match inner with
  | [] => []
  | t :: inner => t.fill element :: fillInner inner element

end

mutual

/--
The tree without its factories.
-/
def values (t : ASN1) : ASN1 :=
  match t with
  | .sequence fields => .sequence (valuesFields fields)
  | .sequenceOf inner _ => .sequenceOf (valuesInner inner) none
  | .explicitTag tag inner => .explicitTag tag inner.values
  | .implicitTag tag inner => .implicitTag tag inner.values
  | t => t

def valuesFields (fields : List (String × ASN1)) : List (String × ASN1) :=
  match fields with
  | [] => []
  | (name, t) :: fields => (name, t.values) :: valuesFields fields

def valuesInner (inner : List ASN1) : List ASN1 :=
  match inner with
  | [] => []
  | t :: inner => t.values :: valuesInner inner

end

mutual

theorem values_fill (t template : ASN1) (h : t.Template template) : (t.fill template).values = t.values := by
  match t, template with
  | .sequence fields, .sequence templates =>
    rw [fill, values, values, values_fillFields fields templates h]
  | .sequenceOf inner _, .sequenceOf [] (some element) =>
    rw [fill, values, values, values_fillInner inner element h]
  | .explicitTag tag t, .explicitTag _ template =>
    rw [fill, values, values, values_fill t template h.2]
  | .implicitTag tag t, .implicitTag _ template =>
    rw [fill, values, values, values_fill t template h.2]
  | .octetString _, .octetString _ | .integer _, .integer _ | .bool _, .bool _
  | .enumerate _, .enumerate _ => rfl

theorem values_fillFields (fields templates : List (String × ASN1)) (h : TemplateFields fields templates) :
    valuesFields (fillFields fields templates) = valuesFields fields := by
  match fields, templates with
  | [], [] => rfl
  | (name, t) :: fields, (name', template) :: templates =>
    rw [fillFields, valuesFields, valuesFields, values_fill t template h.2.1,
      values_fillFields fields templates h.2.2]

theorem values_fillInner (inner : List ASN1) (element : ASN1) (h : TemplateInner inner element) :
    valuesInner (fillInner inner element) = valuesInner inner := by
  match inner with
  | [] => rfl
  | t :: inner =>
    rw [fillInner, valuesInner, valuesInner, values_fill t element h.1, values_fillInner inner element h.2]

end

section FollowsX690

variable {y : Yasna}

theorem passAsn1Error_readAsn1 {t template read : ASN1}
    (h : template.readAsn1 y ⟨.der, none⟩ (t.writeAsn1 y ⟨none⟩ ++ []) = ⟨.ok (), read, []⟩) :
    (template.readAsn1 y ⟨.der, none⟩ (t.writeAsn1 y ⟨none⟩)).passAsn1Error = ⟨.ok (), read, []⟩ := by
  rw [List.append_nil] at h
  rw [h]
  rfl

theorem writeAsn1_ne_nil (hy : y.FollowsX690) (t : ASN1) (writer : DERWriter) : t.writeAsn1 y writer ≠ [] := by
  match t with
  | .sequence fields =>
    rw [writeAsn1, hy.writeSequence]
    apply Element.encode_ne_nil
  | .sequenceOf inner factory =>
    rw [writeAsn1, hy.writeSequenceOf]
    apply Element.encode_ne_nil
  | .explicitTag tag inner =>
    rw [writeAsn1, hy.writeTagged]
    apply Element.encode_ne_nil
  | .implicitTag tag inner =>
    rw [writeAsn1, hy.writeTaggedImplicit]
    exact writeAsn1_ne_nil hy inner _
  | .octetString v =>
    rw [writeAsn1, hy.writeBytes]
    apply Element.encode_ne_nil
  | .integer v =>
    rw [writeAsn1, hy.writeU32]
    apply Element.encode_ne_nil
  | .bool v =>
    rw [writeAsn1, hy.writeBool]
    apply Element.encode_ne_nil
  | .enumerate v =>
    rw [writeAsn1, hy.writeEnum]
    apply Element.encode_ne_nil

mutual

theorem readAsn1_writeAsn1 (hy : y.FollowsX690) (t template : ASN1) (h : t.Template template)
    (tag : Option Tag) (rest : Bytes) :
    template.readAsn1 y ⟨.der, tag⟩ (t.writeAsn1 y ⟨tag⟩ ++ rest) = ⟨.ok (), t.fill template, rest⟩ := by
  match t, template with
  | .sequence fields, .sequence templates =>
    have hfields := readFields_writeFields hy fields templates h
    rw [writeAsn1, hy.writeSequence, readAsn1, hy.readSequence _ _ _ _ _ _ hfields]
    rfl
  | .sequenceOf inner _, .sequenceOf [] (some element) =>
    have hinner := readsElements_writeInner hy inner element h []
    rw [writeAsn1, hy.writeSequenceOf, readAsn1, hy.readSequenceOf _ _ _ _ _ _ hinner]
    rfl
  | .explicitTag tag' t, .explicitTag _ template =>
    obtain ⟨rfl, h⟩ := h
    have hread := passAsn1Error_readAsn1 (readAsn1_writeAsn1 hy t template h none [])
    rw [writeAsn1, hy.writeTagged, readAsn1, hy.readTagged _ _ _ _ _ _ _ hread]
    rfl
  | .implicitTag tag' t, .implicitTag _ template =>
    obtain ⟨rfl, h⟩ := h
    rw [writeAsn1, hy.writeTaggedImplicit, readAsn1, hy.readTaggedImplicit,
      readAsn1_writeAsn1 hy t template h (some (tag.getD tag')) rest]
    rfl
  | .octetString v, .octetString v' =>
    rw [writeAsn1, readAsn1, readInto, hy.readBytes]
    rfl
  | .integer v, .integer v' =>
    rw [writeAsn1, readAsn1, readInto, hy.readU32]
    rfl
  | .bool v, .bool v' =>
    rw [writeAsn1, readAsn1, readInto, hy.readBool]
    rfl
  | .enumerate v, .enumerate v' =>
    rw [writeAsn1, readAsn1, readInto, hy.readEnum]
    rfl

theorem readFields_writeFields (hy : y.FollowsX690) (fields templates : List (String × ASN1))
    (h : TemplateFields fields templates) :
    readFields y templates ⟨.der, none⟩ ((writeFields y fields).flatMap fun f => f ⟨none⟩) =
      ⟨.ok (), fillFields fields templates, []⟩ := by
  match fields, templates with
  | [], [] => rfl
  | (name, t) :: fields, (_, template) :: templates =>
    obtain ⟨rfl, ht, hfields⟩ := h
    rw [writeFields, List.flatMap_cons, readFields, readAsn1_writeAsn1 hy t template ht none]
    simp only [ReadResult.passAsn1Error]
    rw [readFields_writeFields hy fields templates hfields]
    rfl

theorem readsElements_writeInner (hy : y.FollowsX690) (inner : List ASN1) (element : ASN1)
    (h : TemplateInner inner element) (before : List ASN1) :
    ReadsElements (fun inner stream => readElement y (some element) ⟨.der, none⟩ inner stream) before
      ((writeInner y inner).flatMap fun f => f ⟨none⟩) (before ++ fillInner inner element) := by
  match inner with
  | [] =>
    rw [fillInner, List.append_nil]
    exact .done before
  | t :: inner =>
    obtain ⟨ht, hinner⟩ := h
    have hrest := readsElements_writeInner hy inner element hinner (before ++ [t.fill element])
    rw [List.append_assoc] at hrest
    rw [writeInner, List.flatMap_cons]
    refine .next ?_ ?_ hrest
    . rw [readElement, readAsn1_writeAsn1 hy t element ht none]
      rfl
    . have hpos := List.length_pos_iff.mpr (writeAsn1_ne_nil hy t ⟨none⟩)
      simp only [List.length_append]
      omega

end

end FollowsX690

end ASN1

theorem Yasna.FollowsX690.fromDer_toDer {y : Yasna} (hy : y.FollowsX690) {t template : ASN1}
    (h : t.Template template) : y.fromDer template (y.toDer t) = .ok (t.fill template) := by
  have hread := ASN1.passAsn1Error_readAsn1 (ASN1.readAsn1_writeAsn1 hy t template h none [])
  rw [fromDer, toDer, hy.constructDer, hy.parseDer _ _ _ _ hread]

end Rdp
