import Rdp.Nla.Asn1.Der

/-!
This module contains what a library for the distinguished encoding accepts: each tree has one encoding,
and a template reads exactly the encodings of the trees of its shape.
-/

namespace Rdp

open X690 (Element)

/--
A value is read only from the encoding that it is written in, and a reader that does not read one reports
an error.
-/
def ReadsOnly (read : Prog String Bytes α) (write : α → Bytes) : Prop :=
  ∀ stream, (∃ v rest, read.run stream = .ok v rest ∧ stream = write v ++ rest) ∨
    ∃ e rest, read.run stream = .error (.error e) rest

/--
What a reader of a constructed element leaves behind: its callback has read the contents of an element with
this tag, or the library or the callback has reported an error.
-/
inductive Opened (tag : Tag) (reads : Bytes → α → Prop) (fails : Fault String → Prop) (stream : Bytes) :
    CallbackResult α → Prop where
  | read {contents rest : Bytes} {b : α} (hreads : reads contents b)
      (hstream : stream = (Element.mk tag .constructed contents).encode ++ rest) :
      Opened tag reads fails stream ⟨.ok (), b, rest⟩
  | rejected (e : String) (a : α) (rest : Bytes) : Opened tag reads fails stream ⟨.error (.error e), a, rest⟩
  | failed {e : Fault String} (hfails : fails e) (a : α) (rest : Bytes) :
      Opened tag reads fails stream ⟨.error e, a, rest⟩

theorem Opened.read_or_rejected {tag : Tag} {reads : Bytes → α → Prop} {fails : Fault String → Prop}
    {stream : Bytes} {r : CallbackResult α} (h : Opened tag reads fails stream r)
    (hfails : ∀ e, fails e → ∃ message, e = .error message) :
    (∃ contents b rest, reads contents b ∧
      stream = (Element.mk tag .constructed contents).encode ++ rest ∧ r = ⟨.ok (), b, rest⟩) ∨
    ∃ message a rest, r = ⟨.error (.error message), a, rest⟩ := by
  cases h with
  | @read contents rest b hreads hstream => exact .inl ⟨contents, b, rest, hreads, hstream, rfl⟩
  | rejected message a rest => exact .inr ⟨message, a, rest, rfl⟩
  | failed he a rest =>
    obtain ⟨message, rfl⟩ := hfails _ he
    exact .inr ⟨message, a, rest, rfl⟩

theorem Opened.mono {tag : Tag} {reads reads' : Bytes → α → Prop} {fails fails' : Fault String → Prop}
    {stream : Bytes} {r : CallbackResult α} (h : Opened tag reads fails stream r)
    (hreads : ∀ contents b, reads contents b → reads' contents b) (hfails : ∀ e, fails e → fails' e) :
    Opened tag reads' fails' stream r := by
  cases h with
  | read h hstream => exact .read (hreads _ _ h) hstream
  | rejected e a rest => exact .rejected e a rest
  | failed h a rest => exact .failed (hfails _ h) a rest

/--
The readers of the distinguished encoding accept nothing but what the writers write, and none of them
aborts unless its callback does.
-/
structure Yasna.FollowsDer (y : Yasna) : Prop extends y.FollowsX690 where
  readsBool (tag : Option Tag) : ReadsOnly (y.readBool ⟨.der, tag⟩) (y.writeBool ⟨tag⟩)
  readsU32 (tag : Option Tag) : ReadsOnly (y.readU32 ⟨.der, tag⟩) (y.writeU32 ⟨tag⟩)
  readsEnum (tag : Option Tag) : ReadsOnly (y.readEnum ⟨.der, tag⟩) (y.writeEnum ⟨tag⟩)
  readsBytes (tag : Option Tag) : ReadsOnly (y.readBytes ⟨.der, tag⟩) (y.writeBytes ⟨tag⟩)
  opensTagged {α : Type} (tag : Option Tag) (t : Tag) (f : BERReader → Bytes → CallbackResult α) (a : α)
    (stream : Bytes) :
    Opened (tag.getD t) (fun contents b => f ⟨.der, none⟩ contents = ⟨.ok (), b, []⟩)
      (fun e => ∃ contents, (f ⟨.der, none⟩ contents).outcome = .error e) stream
      (y.readTagged ⟨.der, tag⟩ t f a stream)
  opensSequence {α : Type} (tag : Option Tag) (f : BERReader → Bytes → CallbackResult α) (a : α)
    (stream : Bytes) :
    Opened (tag.getD .sequence) (fun contents b => f ⟨.der, none⟩ contents = ⟨.ok (), b, []⟩)
      (fun e => ∃ contents, (f ⟨.der, none⟩ contents).outcome = .error e) stream
      (y.readSequence ⟨.der, tag⟩ f a stream)
  opensSequenceOf {α : Type} (tag : Option Tag) (f : BERReader → α → Bytes → CallbackResult α) (a : α)
    (stream : Bytes) (hf : ∀ a contents, (f ⟨.der, none⟩ a contents).outcome = .ok () →
      (f ⟨.der, none⟩ a contents).rest.length < contents.length) :
    Opened (tag.getD .sequence) (ReadsElements (f ⟨.der, none⟩) a)
      (fun e => ∃ a contents, (f ⟨.der, none⟩ a contents).outcome = .error e) stream
      (y.readSequenceOf ⟨.der, tag⟩ f a stream)
  parsesDer {α : Type} (f : BERReader → Bytes → CallbackResult α) (a : α) (stream : Bytes) :
    (∃ b, f ⟨.der, none⟩ stream = ⟨.ok (), b, []⟩ ∧ y.parseDer stream f a = (.ok (), b)) ∨
    (∃ e b, y.parseDer stream f a = (.error (.error e), b)) ∨
    ∃ e b, (f ⟨.der, none⟩ stream).outcome = .error e ∧ y.parseDer stream f a = (.error e, b)

namespace ASN1

mutual

/--
A template of which each list has a factory and nothing read yet.
-/
def Readable (template : ASN1) : Prop :=
  match template with
  | .sequence templates => ReadableFields templates
  | .sequenceOf [] (some element) => element.Readable
  | .sequenceOf _ _ => False
  | .explicitTag _ template | .implicitTag _ template => template.Readable
  | .octetString _ | .integer _ | .bool _ | .enumerate _ => True

def ReadableFields (templates : List (String × ASN1)) : Prop :=
  match templates with
  | [] => True
  | (_, template) :: templates => template.Readable ∧ ReadableFields templates

end

section FollowsDer

variable {y : Yasna}

/--
The result of reading a template: the bytes of a tree of its shape, or an error of the library.
-/
inductive ReadsTree (y : Yasna) (template : ASN1) (tag : Option Tag) (stream : Bytes) :
    ReadResult ASN1 → Prop where
  | read (t : ASN1) (rest : Bytes) (h : t.Template template)
      (hstream : stream = t.writeAsn1 y ⟨tag⟩ ++ rest) :
      ReadsTree y template tag stream ⟨.ok (), t.fill template, rest⟩
  | rejected (e : String) (node : ASN1) (rest : Bytes) :
      ReadsTree y template tag stream ⟨.error (.error (.asn1Error e)), node, rest⟩

inductive ReadsFields (y : Yasna) (templates : List (String × ASN1)) (stream : Bytes) :
    CallbackResult (List (String × ASN1)) → Prop where
  | read (fields : List (String × ASN1)) (rest : Bytes) (h : TemplateFields fields templates)
      (hstream : stream = ((writeFields y fields).flatMap fun f => f ⟨none⟩) ++ rest) :
      ReadsFields y templates stream ⟨.ok (), fillFields fields templates, rest⟩
  | rejected (e : String) (fields : List (String × ASN1)) (rest : Bytes) :
      ReadsFields y templates stream ⟨.error (.error e), fields, rest⟩

theorem readsTree_readInto {read : Prog String Bytes α} {write : α → Bytes} (h : ReadsOnly read write)
    (node : α → ASN1) {tag : Option Tag} (htemplate : ∀ v v', (node v).Template (node v'))
    (hfill : ∀ v v', (node v).fill (node v') = node v) (hwrite : ∀ v, (node v).writeAsn1 y ⟨tag⟩ = write v)
    (v : α) (stream : Bytes) : ReadsTree y (node v) tag stream ((readInto read v stream).map node) := by
  unfold readInto
  rcases h stream with ⟨v', rest, hrun, hstream⟩ | ⟨e, rest, hrun⟩
  . rw [hrun]
    have hread := ReadsTree.read (node v') rest (htemplate v' v) (hstream.trans (by rw [hwrite]))
    rw [hfill] at hread
    exact hread
  . rw [hrun]
    exact .rejected e _ rest

theorem ReadsTree.error_of_outcome {template : ASN1} {tag : Option Tag} {stream : Bytes}
    {r : ReadResult ASN1} (h : ReadsTree y template tag stream r) {e : Fault String}
    (he : r.passAsn1Error.outcome = .error e) : ∃ message, e = .error message := by
  cases h with
  | read _ _ _ _ => cases he
  | rejected message _ _ =>
    cases he
    exact ⟨message, rfl⟩

theorem ReadsFields.error_of_outcome {templates : List (String × ASN1)} {stream : Bytes}
    {r : CallbackResult (List (String × ASN1))} (h : ReadsFields y templates stream r) {e : Fault String}
    (he : r.outcome = .error e) : ∃ message, e = .error message := by
  cases h with
  | read _ _ _ _ => cases he
  | rejected message _ _ =>
    cases he
    exact ⟨message, rfl⟩

theorem ReadsTree.exists_tree {template node : ASN1} {tag : Option Tag} {stream rest : Bytes}
    {r : ReadResult ASN1} (h : ReadsTree y template tag stream r)
    (hr : r.passAsn1Error = ⟨.ok (), node, rest⟩) :
    ∃ t : ASN1, t.Template template ∧ node = t.fill template ∧ stream = t.writeAsn1 y ⟨tag⟩ ++ rest := by
  cases h with
  | read t _ ht hstream =>
    cases hr
    exact ⟨t, ht, rfl, hstream⟩
  | rejected _ _ _ => cases hr

theorem ReadsFields.exists_fields {templates fields' : List (String × ASN1)} {stream rest : Bytes}
    {r : CallbackResult (List (String × ASN1))} (h : ReadsFields y templates stream r)
    (hr : r = ⟨.ok (), fields', rest⟩) :
    ∃ fields, TemplateFields fields templates ∧ fields' = fillFields fields templates ∧
      stream = ((writeFields y fields).flatMap fun f => f ⟨none⟩) ++ rest := by
  cases h with
  | read fields _ hfields hstream =>
    cases hr
    exact ⟨fields, hfields, rfl, hstream⟩
  | rejected _ _ _ => cases hr

theorem exists_inner {element : ASN1}
    (hread : ∀ stream, ReadsTree y element none stream (element.readAsn1 y ⟨.der, none⟩ stream))
    {before after : List ASN1} {contents : Bytes}
    (h : ReadsElements (fun inner stream => readElement y (some element) ⟨.der, none⟩ inner stream) before
      contents after) :
    ∃ inner, TemplateInner inner element ∧ after = before ++ fillInner inner element ∧
      contents = (writeInner y inner).flatMap fun f => f ⟨none⟩ := by
  induction h with
  | done before => exact ⟨[], trivial, (List.append_nil before).symm, rfl⟩
  | @next before between after contents left hcall _ _ ih =>
    obtain ⟨inner, hinner, rfl, hleft⟩ := ih
    have htree := hread contents
    rw [readElement] at hcall
    generalize element.readAsn1 y ⟨.der, none⟩ contents = r at htree hcall
    cases htree with
    | rejected e node rest => cases hcall
    | read t rest ht hstream =>
      have hbetween : before ++ [t.fill element] = between := congrArg CallbackResult.captured hcall
      have hrest : rest = left := congrArg CallbackResult.rest hcall
      refine ⟨t :: inner, ⟨ht, hinner⟩, ?_, ?_⟩
      . rw [← hbetween, fillInner, List.append_assoc]
        rfl
      . rw [hstream, hrest, hleft]
        rfl

theorem error_of_readElement {element : ASN1}
    (hread : ∀ stream, ReadsTree y element none stream (element.readAsn1 y ⟨.der, none⟩ stream))
    {inner : List ASN1} {contents : Bytes} {e : Fault String}
    (h : (readElement y (some element) ⟨.der, none⟩ inner contents).outcome = .error e) :
    ∃ message, e = .error message := by
  have htree := hread contents
  rw [readElement] at h
  generalize element.readAsn1 y ⟨.der, none⟩ contents = r at htree h
  cases htree with
  | read _ _ _ _ => cases h
  | rejected message _ _ =>
    cases h
    exact ⟨message, rfl⟩

theorem lt_of_readElement (hy : y.FollowsX690) {element : ASN1}
    (hread : ∀ stream, ReadsTree y element none stream (element.readAsn1 y ⟨.der, none⟩ stream))
    {inner : List ASN1} {contents : Bytes}
    (h : (readElement y (some element) ⟨.der, none⟩ inner contents).outcome = .ok ()) :
    (readElement y (some element) ⟨.der, none⟩ inner contents).rest.length < contents.length := by
  have htree := hread contents
  rw [readElement] at h ⊢
  generalize element.readAsn1 y ⟨.der, none⟩ contents = r at htree h
  cases htree with
  | rejected _ _ _ => cases h
  | read t rest ht hstream =>
    have hpos := List.length_pos_iff.mpr (writeAsn1_ne_nil hy t ⟨none⟩)
    change rest.length < contents.length
    rw [hstream, List.length_append]
    omega

mutual

theorem readsTree_readAsn1 (hy : y.FollowsDer) (template : ASN1) (h : template.Readable) (tag : Option Tag)
    (stream : Bytes) : ReadsTree y template tag stream (template.readAsn1 y ⟨.der, tag⟩ stream) := by
  match template with
  | .sequence templates =>
    have hfields := readsFields_readFields hy templates h
    have hopened := hy.opensSequence tag (fun next stream => readFields y templates next stream) templates stream
    rw [readAsn1]
    rcases hopened.read_or_rejected fun _ ⟨_, he⟩ => (hfields _).error_of_outcome he with
      ⟨contents, fields', rest, hreads, hstream, hr⟩ | ⟨e, fields', rest, hr⟩
    . obtain ⟨fields, htemplates, rfl, hcontents⟩ := (hfields contents).exists_fields hreads
      rw [hr]
      refine .read (.sequence fields) rest htemplates ?_
      rw [writeAsn1, hy.writeSequence, hstream, hcontents, List.append_nil]
    . rw [hr]
      exact .rejected e _ rest
  | .sequenceOf [] (some element) =>
    have hread := readsTree_readAsn1 hy element h none
    have hopened := hy.opensSequenceOf tag
      (fun next inner stream => readElement y (some element) next inner stream) [] stream
      fun _ _ => lt_of_readElement hy.toFollowsX690 hread
    rw [readAsn1]
    rcases hopened.read_or_rejected fun _ ⟨_, _, he⟩ => error_of_readElement hread he with
      ⟨contents, inner', rest, hreads, hstream, hr⟩ | ⟨e, inner', rest, hr⟩
    . obtain ⟨inner, hinner, rfl, hcontents⟩ := exists_inner hread hreads
      rw [hr]
      refine .read (.sequenceOf inner none) rest hinner ?_
      rw [writeAsn1, hy.writeSequenceOf, hstream, hcontents]
    . rw [hr]
      exact .rejected e _ rest
  | .explicitTag tag' template =>
    have hread := readsTree_readAsn1 hy template h none
    have hopened := hy.opensTagged tag tag'
      (fun tagReader stream => (template.readAsn1 y tagReader stream).passAsn1Error) template stream
    rw [readAsn1]
    rcases hopened.read_or_rejected fun _ ⟨_, he⟩ => (hread _).error_of_outcome he with
      ⟨contents, node, rest, hreads, hstream, hr⟩ | ⟨e, node, rest, hr⟩
    . obtain ⟨t, ht, rfl, hcontents⟩ := (hread contents).exists_tree hreads
      rw [hr]
      refine .read (.explicitTag tag' t) rest ⟨rfl, ht⟩ ?_
      rw [writeAsn1, hy.writeTagged, hstream, hcontents, List.append_nil]
    . rw [hr]
      exact .rejected e _ rest
  | .implicitTag tag' template =>
    have hread := readsTree_readAsn1 hy template h (some (tag.getD tag')) stream
    rw [readAsn1, hy.readTaggedImplicit]
    generalize template.readAsn1 y ⟨.der, some (tag.getD tag')⟩ stream = r at hread
    cases hread with
    | rejected e node rest => exact .rejected e _ rest
    | read t rest ht hstream =>
      refine .read (.implicitTag tag' t) rest ⟨rfl, ht⟩ ?_
      rw [writeAsn1, hy.writeTaggedImplicit, hstream]
  | .octetString v =>
    rw [readAsn1]
    exact readsTree_readInto (hy.readsBytes tag) .octetString (fun _ _ => trivial) (fun _ _ => rfl) (fun _ => rfl) v
      stream
  | .integer v =>
    rw [readAsn1]
    exact readsTree_readInto (hy.readsU32 tag) .integer (fun _ _ => trivial) (fun _ _ => rfl) (fun _ => rfl) v
      stream
  | .bool v =>
    rw [readAsn1]
    exact readsTree_readInto (hy.readsBool tag) .bool (fun _ _ => trivial) (fun _ _ => rfl) (fun _ => rfl) v
      stream
  | .enumerate v =>
    rw [readAsn1]
    exact readsTree_readInto (hy.readsEnum tag) .enumerate (fun _ _ => trivial) (fun _ _ => rfl) (fun _ => rfl) v
      stream

theorem readsFields_readFields (hy : y.FollowsDer) (templates : List (String × ASN1))
    (h : ReadableFields templates) (stream : Bytes) :
    ReadsFields y templates stream (readFields y templates ⟨.der, none⟩ stream) := by
  match templates with
  | [] => exact .read [] stream trivial rfl
  | (name, template) :: templates =>
    have htree := readsTree_readAsn1 hy template h.1 none stream
    rw [readFields]
    generalize template.readAsn1 y ⟨.der, none⟩ stream = r at htree
    cases htree with
    | rejected e node rest => exact .rejected e _ rest
    | read t rest ht hstream =>
      have hfields := readsFields_readFields hy templates h.2 rest
      simp only [ReadResult.passAsn1Error]
      generalize readFields y templates ⟨.der, none⟩ rest = r at hfields
      cases hfields with
      | rejected e fields rest' => exact .rejected e _ rest'
      | read fields rest' hfields hrest =>
        refine .read ((name, t) :: fields) rest' ⟨rfl, ht, hfields⟩ ?_
        rw [hstream, hrest, writeFields, List.flatMap_cons, List.append_assoc]

end

end FollowsDer

end ASN1

theorem Yasna.FollowsDer.fromDer_cases {y : Yasna} (hy : y.FollowsDer) {template : ASN1}
    (h : template.Readable) (stream : Bytes) :
    (∃ t : ASN1, t.Template template ∧ stream = y.toDer t ∧
      y.fromDer template stream = .ok (t.fill template)) ∨
    ∃ e, y.fromDer template stream = .error (.error (.asn1Error e)) := by
  have hread := ASN1.readsTree_readAsn1 hy template h none stream
  have hparse := hy.parsesDer (fun reader stream => (template.readAsn1 y reader stream).passAsn1Error) template
    stream
  unfold fromDer
  rcases hparse with ⟨node, hnode, hparse⟩ | ⟨e, node, hparse⟩ | ⟨e, node, he, hparse⟩
  . obtain ⟨t, ht, rfl, hstream⟩ := hread.exists_tree hnode
    refine .inl ⟨t, ht, ?_, ?_⟩
    . rw [toDer, hy.constructDer, hstream, List.append_nil]
    . rw [hparse]
  . rw [hparse]
    exact .inr ⟨e, rfl⟩
  . obtain ⟨message, rfl⟩ := hread.error_of_outcome he
    rw [hparse]
    exact .inr ⟨message, rfl⟩

namespace Standard

theorem readsOnly_readPrimitive {tag : Tag} {decode : Bytes → Option α} {encode : α → Bytes}
    (h : ∀ contents v, decode contents = some v → contents = encode v) :
    ReadsOnly (readPrimitive tag decode) fun v => (Element.mk tag .primitive (encode v)).encode := by
  intro stream
  change (∃ v rest, readPrimitive tag decode stream = .ok v rest ∧ _) ∨
    ∃ e rest, readPrimitive tag decode stream = .error (.error e) rest
  unfold readPrimitive readContents
  cases helement : Element.read stream with
  | none => exact .inr ⟨_, _, rfl⟩
  | some element =>
    obtain ⟨⟨tag', form, contents⟩, rest⟩ := element
    simp only
    by_cases htag : tag' = tag ∧ form = .primitive
    . obtain ⟨rfl, rfl⟩ := htag
      simp only [and_self, if_true]
      cases hdecode : decode contents with
      | none => exact .inr ⟨_, _, rfl⟩
      | some v =>
        refine .inl ⟨v, rest, rfl, ?_⟩
        rw [← h contents v hdecode]
        exact Element.read_eq_some_iff.mp helement
    . rw [if_neg htag]
      exact .inr ⟨_, _, rfl⟩

theorem opened_readConstructed {tag : Tag} (f : Bytes → CallbackResult α) (a : α) (stream : Bytes) :
    Opened tag (fun contents b => f contents = ⟨.ok (), b, []⟩)
      (fun e => ∃ contents, (f contents).outcome = .error e) stream (readConstructed tag f a stream) := by
  unfold readConstructed readContents
  cases helement : Element.read stream with
  | none => exact .rejected _ a stream
  | some element =>
    obtain ⟨⟨tag', form, contents⟩, rest⟩ := element
    simp only
    by_cases htag : tag' = tag ∧ form = .constructed
    . obtain ⟨rfl, rfl⟩ := htag
      simp only [and_self, if_true]
      rcases hf : f contents with ⟨outcome, b, left⟩
      cases outcome with
      | error e => exact .failed ⟨contents, by rw [hf]⟩ b rest
      | ok u =>
        cases left with
        | nil => exact .read hf (Element.read_eq_some_iff.mp helement)
        | cons octet left => exact .rejected _ b rest
    . rw [if_neg htag]
      exact .rejected _ a stream

section Elements

variable {f : α → Bytes → CallbackResult α}
  (hf : ∀ a contents, (f a contents).outcome = .ok () → (f a contents).rest.length < contents.length)
include hf

theorem readsElements_of_readElements {fuel : Nat} {a b : α} {contents rest : Bytes}
    (h : readElements f fuel a contents = ⟨.ok (), b, rest⟩) : ReadsElements f a contents b := by
  induction fuel generalizing a contents with
  | zero => cases h
  | succ fuel ih =>
    cases contents with
    | nil =>
      cases h
      exact .done b
    | cons octet contents =>
      have hlt := hf a (octet :: contents)
      rw [readElements] at h
      rcases hcall : f a (octet :: contents) with ⟨outcome, between, left⟩
      rw [hcall] at h hlt
      cases outcome with
      | error e => cases h
      | ok u => exact .next hcall (hlt rfl) (ih h)

theorem error_of_readElements {fuel : Nat} {a : α} {contents : Bytes} {e : Fault String}
    (hfuel : contents.length < fuel)
    (h : (readElements f fuel a contents).outcome = .error e) :
    ∃ a contents, (f a contents).outcome = .error e := by
  induction fuel generalizing a contents with
  | zero => exact absurd hfuel (Nat.not_lt_zero _)
  | succ fuel ih =>
    cases contents with
    | nil => cases h
    | cons octet contents =>
      have hlt := hf a (octet :: contents)
      rw [readElements] at h
      rcases hcall : f a (octet :: contents) with ⟨outcome, between, left⟩
      rw [hcall] at h hlt
      cases outcome with
      | error e' =>
        cases h
        exact ⟨a, octet :: contents, by rw [hcall]⟩
      | ok u =>
        have hleft := hlt rfl
        simp only at hleft
        exact ih (by omega) h

theorem readsElements_of_readAll {a b : α} {contents : Bytes} (h : readAll f a contents = ⟨.ok (), b, []⟩) :
    ReadsElements f a contents b := readsElements_of_readElements hf h

theorem error_of_readAll {a : α} {contents : Bytes} {e : Fault String}
    (h : (readAll f a contents).outcome = .error e) : ∃ a contents, (f a contents).outcome = .error e :=
  error_of_readElements hf (Nat.lt_succ_self _) h

end Elements

theorem parse_cases {mode : BERMode} (f : BERReader → Bytes → CallbackResult α) (stream : Bytes) :
    (∃ b, f ⟨mode, none⟩ stream = ⟨.ok (), b, []⟩ ∧ parse mode stream f = (.ok (), b)) ∨
    (∃ e b, parse mode stream f = (.error (.error e), b)) ∨
    ∃ e b, (f ⟨mode, none⟩ stream).outcome = .error e ∧ parse mode stream f = (.error e, b) := by
  unfold parse
  rcases hf : f ⟨mode, none⟩ stream with ⟨outcome, b, rest⟩
  cases outcome with
  | error e => exact .inr (.inr ⟨e, b, rfl, rfl⟩)
  | ok u =>
    cases rest with
    | nil => exact .inl ⟨b, rfl, rfl⟩
    | cons octet rest => exact .inr (.inl ⟨_, b, rfl⟩)

/--
Only the shortest contents are read as an integer.
-/
def exactly (encode : α → Bytes) (decode : Bytes → Option α) (contents : Bytes) : Option α :=
  (decode contents).filter fun v => contents == encode v

theorem exactly_encode {encode : α → Bytes} {decode : Bytes → Option α} {v : α}
    (h : decode (encode v) = some v) : exactly encode decode (encode v) = some v := by
  rw [exactly, h, Option.filter_some, beq_self_eq_true, if_pos rfl]

theorem eq_encode_of_exactly {encode : α → Bytes} {decode : Bytes → Option α} (contents : Bytes) (v : α)
    (h : exactly encode decode contents = some v) : contents = encode v :=
  beq_iff_eq.mp (Option.filter_eq_some_iff.mp h).2

/--
The library with the readers of integers that the distinguished encoding asks for.
-/
def distinguished : Yasna := { yasna with
  readU32 := fun reader => readPrimitive (reader.implicitTag.getD .integer)
    (exactly (fun v => X690.integer v.toNat) decodeU32)
  readEnum := fun reader => readPrimitive (reader.implicitTag.getD .enumerated)
    (exactly (fun v => X690.integer v.toInt) decodeEnum) }

theorem decodeBool_eq_some (contents : Bytes) (v : Bool) (h : decodeBool contents = some v) :
    contents = [if v then 255 else 0] := by
  unfold decodeBool at h
  split at h
  . cases h
    rfl
  . cases h
    rfl
  . cases h

theorem distinguished_followsX690 : distinguished.FollowsX690 where
  writeBool := followsX690.writeBool
  writeU32 := followsX690.writeU32
  writeEnum := followsX690.writeEnum
  writeBytes := followsX690.writeBytes
  writeTagged := followsX690.writeTagged
  writeTaggedImplicit := followsX690.writeTaggedImplicit
  writeSequence := followsX690.writeSequence
  writeSequenceOf := followsX690.writeSequenceOf
  constructDer := followsX690.constructDer
  readBool := followsX690.readBool
  readU32 _ v rest := by
    have hdecode := @exactly_encode _ (fun v : UInt32 => X690.integer v.toNat) _ _ (decodeU32_integer v)
    exact run_readPrimitive hdecode rest
  readEnum _ v rest := by
    have hdecode := @exactly_encode _ (fun v : Int64 => X690.integer v.toInt) _ _ (decodeEnum_integer v)
    exact run_readPrimitive hdecode rest
  readBytes := followsX690.readBytes
  readTagged := followsX690.readTagged
  readTaggedImplicit := followsX690.readTaggedImplicit
  readSequence := followsX690.readSequence
  readSequenceOf := followsX690.readSequenceOf
  parseDer := followsX690.parseDer

theorem followsDer : distinguished.FollowsDer where
  toFollowsX690 := distinguished_followsX690
  readsBool _ := readsOnly_readPrimitive decodeBool_eq_some
  readsU32 _ := readsOnly_readPrimitive eq_encode_of_exactly
  readsEnum _ := readsOnly_readPrimitive eq_encode_of_exactly
  readsBytes _ := readsOnly_readPrimitive fun _ _ h => Option.some.inj h
  opensTagged _ _ f a stream := opened_readConstructed (f ⟨.der, none⟩) a stream
  opensSequence _ f a stream := opened_readConstructed (f ⟨.der, none⟩) a stream
  opensSequenceOf _ f a stream hf :=
    (opened_readConstructed (readAll (f ⟨.der, none⟩) a) a stream).mono
      (fun _ _ => readsElements_of_readAll hf) fun _ ⟨_, h⟩ => error_of_readAll hf h
  parsesDer f _ stream := parse_cases f stream

end Standard

end Rdp
