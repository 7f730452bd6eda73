import Rdp.Nla.Asn1.Strict
import Rdp.Nla.Cssp.RoundTrip

/-!
This module contains the streams on which the readers of the CSSP messages abort: the encodings of a
request without a token.
-/

namespace Rdp

open X690 (Element)

namespace ASN1

theorem exists_fields_of_template {t : ASN1} {templates : List (String × ASN1)}
    (h : t.Template (.sequence templates)) :
    ∃ fields, t = .sequence fields ∧ TemplateFields fields templates := by
  cases t with
  | sequence fields => exact ⟨fields, rfl, h⟩
  | _ => exact absurd h id

theorem exists_inner_of_template {t element : ASN1} (h : t.Template (.sequenceOf [] (some element))) :
    ∃ inner factory, t = .sequenceOf inner factory ∧ TemplateInner inner element := by
  cases t with
  | sequenceOf inner factory => exact ⟨inner, factory, rfl, h⟩
  | _ => exact absurd h id

theorem exists_tree_of_template {t template : ASN1} {tag : Tag} (h : t.Template (.explicitTag tag template)) :
    ∃ t' : ASN1, t = .explicitTag tag t' ∧ t'.Template template := by
  cases t with
  | explicitTag tag' t' =>
    obtain ⟨rfl, h⟩ := h
    exact ⟨t', rfl, h⟩
  | _ => exact absurd h id

theorem exists_octets_of_template {t : ASN1} {v : Bytes} (h : t.Template (.octetString v)) :
    ∃ v', t = .octetString v' := by
  cases t with
  | octetString v' => exact ⟨v', rfl⟩
  | _ => exact absurd h id

theorem exists_integer_of_template {t : ASN1} {v : UInt32} (h : t.Template (.integer v)) :
    ∃ v', t = .integer v' := by
  cases t with
  | integer v' => exact ⟨v', rfl⟩
  | _ => exact absurd h id

theorem exists_field_of_templateFields {fields templates : List (String × ASN1)} {name : String}
    {template : ASN1} (h : TemplateFields fields ((name, template) :: templates)) :
    ∃ (t : ASN1) (fields' : List (String × ASN1)), fields = (name, t) :: fields' ∧ t.Template template ∧
      TemplateFields fields' templates := by
  cases fields with
  | nil => exact absurd h id
  | cons field fields =>
    obtain ⟨rfl, ht, hfields⟩ := h
    exact ⟨field.2, fields, rfl, ht, hfields⟩

theorem eq_nil_of_templateFields {fields : List (String × ASN1)} (h : TemplateFields fields []) :
    fields = [] := by
  cases fields with
  | nil => rfl
  | cons _ _ => exact absurd h id

end ASN1

namespace Cssp

/--
A call that aborts neither returns a value nor an error.
-/
def Returned (r : RdpResult α) : Prop := (∃ v, r = .ok v) ∨ ∃ e, r = .error (.error e)

structure ReadersReturn (der : Der) (stream : Bytes) : Prop where
  challenge : Returned (readTsServerChallenge der stream)
  validate : Returned (readTsValidate der stream)

def requestWithoutTokens (version : UInt32) : Bytes :=
  let integer := (Element.mk .integer .primitive (X690.integer version.toNat)).encode
  let field := (Element.mk (.context 0) .constructed integer).encode
  (Element.mk .sequence .constructed (field ++ [0xA1, 2, 0x30, 0])).encode

def request (version : UInt32) (tokens : List ASN1) (factory : Option ASN1) : ASN1 := .sequence [
  ("version", .explicitTag (.context 0) (.integer version)),
  ("negoTokens", .explicitTag (.context 1) (.sequenceOf tokens factory))
]

def tokenTemplate : ASN1 := .sequence [("negoToken", .explicitTag (.context 0) (.octetString []))]

def tsChallenge : ASN1 := .sequence [
  ("version", .explicitTag (.context 0) (.integer 2)),
  ("pubKeyAuth", .explicitTag (.context 3) (.octetString []))
]

theorem exists_request {t : ASN1} (h : t.Template tsServerChallenge) :
    ∃ version tokens factory, t = request version tokens factory ∧
      ASN1.TemplateInner tokens tokenTemplate := by
  obtain ⟨fields, rfl, hfields⟩ := ASN1.exists_fields_of_template h
  obtain ⟨versionTag, fields, rfl, hversion, hfields⟩ := ASN1.exists_field_of_templateFields hfields
  obtain ⟨tokensTag, fields, rfl, htokens, hfields⟩ := ASN1.exists_field_of_templateFields hfields
  obtain rfl := ASN1.eq_nil_of_templateFields hfields
  obtain ⟨_, rfl, hinteger⟩ := ASN1.exists_tree_of_template hversion
  obtain ⟨version, rfl⟩ := ASN1.exists_integer_of_template hinteger
  obtain ⟨_, rfl, hlist⟩ := ASN1.exists_tree_of_template htokens
  obtain ⟨tokens, factory, rfl, hinner⟩ := ASN1.exists_inner_of_template hlist
  exact ⟨version, tokens, factory, rfl, hinner⟩

theorem exists_token {t : ASN1} (h : t.Template tokenTemplate) :
    ∃ token, t = .sequence [("negoToken", .explicitTag (.context 0) (.octetString token))] := by
  obtain ⟨fields, rfl, hfields⟩ := ASN1.exists_fields_of_template h
  obtain ⟨tokenTag, fields, rfl, htoken, hfields⟩ := ASN1.exists_field_of_templateFields hfields
  obtain rfl := ASN1.eq_nil_of_templateFields hfields
  obtain ⟨_, rfl, hoctets⟩ := ASN1.exists_tree_of_template htoken
  obtain ⟨token, rfl⟩ := ASN1.exists_octets_of_template hoctets
  exact ⟨token, rfl⟩

theorem exists_tsChallenge {t : ASN1} (h : t.Template tsChallenge) :
    ∃ version pubKeyAuth, t = .sequence [
      ("version", .explicitTag (.context 0) (.integer version)),
      ("pubKeyAuth", .explicitTag (.context 3) (.octetString pubKeyAuth))] := by
  obtain ⟨fields, rfl, hfields⟩ := ASN1.exists_fields_of_template h
  obtain ⟨versionTag, fields, rfl, hversion, hfields⟩ := ASN1.exists_field_of_templateFields hfields
  obtain ⟨keyTag, fields, rfl, hkey, hfields⟩ := ASN1.exists_field_of_templateFields hfields
  obtain rfl := ASN1.eq_nil_of_templateFields hfields
  obtain ⟨_, rfl, hinteger⟩ := ASN1.exists_tree_of_template hversion
  obtain ⟨version, rfl⟩ := ASN1.exists_integer_of_template hinteger
  obtain ⟨_, rfl, hoctets⟩ := ASN1.exists_tree_of_template hkey
  obtain ⟨pubKeyAuth, rfl⟩ := ASN1.exists_octets_of_template hoctets
  exact ⟨version, pubKeyAuth, rfl⟩

variable {y : Yasna} {parseX509Der : Bytes → Option Bytes}

theorem toDer_request (hy : y.FollowsX690) (version : UInt32) (factory : Option ASN1) :
    y.toDer (request version [] factory) = requestWithoutTokens version := by
  rw [Yasna.toDer, hy.constructDer]
  simp only [request, ASN1.writeAsn1, ASN1.writeFields, ASN1.writeInner, hy.writeSequence, hy.writeTagged,
    hy.writeSequenceOf, hy.writeU32]
  rfl

theorem readTsServerChallenge_empty (hy : y.FollowsX690) (version : UInt32) :
    readTsServerChallenge (y.der parseX509Der) (requestWithoutTokens version) =
      .error (.panic "index out of bounds") := by
  have htemplate : (request version [] none).Template tsServerChallenge :=
    ⟨rfl, ⟨rfl, trivial⟩, rfl, ⟨rfl, trivial⟩, trivial⟩
  have hread := hy.fromDer_toDer htemplate
  rw [toDer_request hy] at hread
  change (y.fromDer tsServerChallenge (requestWithoutTokens version) >>= _) = _
  rw [hread]
  rfl

theorem returned_readTsServerChallenge (hy : y.FollowsDer) {stream : Bytes}
    (h : ¬ ∃ version, stream = requestWithoutTokens version) :
    Returned (readTsServerChallenge (y.der parseX509Der) stream) := by
  change Returned (y.fromDer tsServerChallenge stream >>= _)
  have hreadable : tsServerChallenge.Readable := ⟨trivial, ⟨trivial, trivial⟩, trivial⟩
  rcases hy.fromDer_cases hreadable stream with ⟨t, ht, rfl, hread⟩ | ⟨e, hread⟩
  . obtain ⟨version, tokens, factory, rfl, htokens⟩ := exists_request ht
    rw [hread]
    cases tokens with
    | nil => exact absurd ⟨version, toDer_request hy.toFollowsX690 version factory⟩ h
    | cons t tokens =>
      obtain ⟨token, rfl⟩ := exists_token htokens.1
      exact .inl ⟨token, rfl⟩
  . rw [hread]
    exact .inr ⟨_, rfl⟩

theorem returned_readTsValidate (hy : y.FollowsDer) (stream : Bytes) :
    Returned (readTsValidate (y.der parseX509Der) stream) := by
  change Returned (y.fromDer tsChallenge stream >>= _)
  have hreadable : tsChallenge.Readable := ⟨trivial, trivial, trivial⟩
  rcases hy.fromDer_cases hreadable stream with ⟨t, ht, rfl, hread⟩ | ⟨e, hread⟩
  . obtain ⟨version, pubKeyAuth, rfl⟩ := exists_tsChallenge ht
    rw [hread]
    exact .inl ⟨pubKeyAuth, rfl⟩
  . rw [hread]
    exact .inr ⟨_, rfl⟩

/--
The readers abort on the encodings of the requests without a token and on nothing else.
-/
theorem readersReturn_iff (hy : y.FollowsDer) (stream : Bytes) :
    ReadersReturn (y.der parseX509Der) stream ↔ ¬ ∃ version, stream = requestWithoutTokens version := by
  constructor
  . rintro hreturns ⟨version, rfl⟩
    have hchallenge := hreturns.challenge
    rw [readTsServerChallenge_empty hy.toFollowsX690] at hchallenge
    rcases hchallenge with ⟨_, h⟩ | ⟨_, h⟩ <;> cases h
  . intro h
    exact ⟨returned_readTsServerChallenge hy h, returned_readTsValidate hy stream⟩

/--
The request of the documentation of the reader.
-/
theorem readersReturn_iff_distinguished :
    ReadersReturn (Standard.distinguished.der fun _ => none)
        [48, 18, 160, 3, 2, 1, 2, 161, 11, 48, 9, 48, 7, 160, 5, 4, 3, 0, 1, 2] ↔
      ¬ ∃ version, [48, 18, 160, 3, 2, 1, 2, 161, 11, 48, 9, 48, 7, 160, 5, 4, 3, 0, 1, 2] =
        requestWithoutTokens version :=
  readersReturn_iff Standard.followsDer _

theorem not_readersReturn_empty :
    Standard.distinguished.FollowsDer ∧
    ¬ ReadersReturn (Standard.distinguished.der fun _ => none)
      [0x30, 9, 0xA0, 3, 2, 1, 2, 0xA1, 2, 0x30, 0] := by
  refine ⟨Standard.followsDer, ?_⟩
  intro hreturns
  have hbytes : [0x30, 9, 0xA0, 3, 2, 1, 2, 0xA1, 2, 0x30, 0] = requestWithoutTokens 2 := by
    decide +kernel
  have hchallenge := hreturns.challenge
  rw [hbytes, readTsServerChallenge_empty Standard.followsDer.toFollowsX690] at hchallenge
  rcases hchallenge with ⟨_, h⟩ | ⟨_, h⟩ <;> cases h

end Cssp

end Rdp
