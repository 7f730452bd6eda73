import Rdp.Nla.Asn1.Der
import Rdp.Nla.Cssp.Impl

/-!
This module contains the round trip of the ASN.1 trees, and the one of the request that carries a token.
-/

namespace Rdp.Cssp

def tsRequest (nego : Bytes) : ASN1 := .sequence [
  ("version", .explicitTag (.context 0) (.integer 2)),
  ("negoTokens", .explicitTag (.context 1)
    (.sequenceOf [
      .sequence [("negoToken", .explicitTag (.context 0) (.octetString nego))]
    ] none))
]

def tsServerChallenge : ASN1 := .sequence [
  ("version", .explicitTag (.context 0) (.integer 2)),
  ("negoTokens", .explicitTag (.context 1)
    (.sequenceOf [] (some (
      .sequence [("negoToken", .explicitTag (.context 0) (.octetString []))]))))
]

theorem template_tsRequest (nego : Bytes) : (tsRequest nego).Template tsServerChallenge := by
  have hnegoTokens : ASN1.Template
      (.sequenceOf [.sequence [("negoToken", .explicitTag (.context 0) (.octetString nego))]] none)
      (.sequenceOf [] (some (.sequence [("negoToken", .explicitTag (.context 0) (.octetString []))]))) :=
    ⟨⟨rfl, ⟨rfl, trivial⟩, trivial⟩, trivial⟩
  exact ⟨rfl, ⟨rfl, trivial⟩, rfl, ⟨rfl, hnegoTokens⟩, trivial⟩

variable {y : Yasna} {parseX509Der : Bytes → Option Bytes}

theorem readTsServerChallenge_createTsRequest (hy : y.FollowsX690) (nego : Bytes) :
    readTsServerChallenge (y.der parseX509Der) (createTsRequest (y.der parseX509Der) nego) = .ok nego := by
  have hread := hy.fromDer_toDer (template_tsRequest nego)
  change (y.fromDer tsServerChallenge (y.toDer (tsRequest nego)) >>= _) = _
  rw [hread]
  rfl

/--
A template of the shape of a tree gets exactly the values of the tree back, and a challenge gets back the
token of its request.
-/
theorem tree_round_trip (hy : y.FollowsX690) :
    (∀ t template : ASN1, t.Template template →
      y.fromDer template (y.toDer t) = .ok (t.fill template) ∧ (t.fill template).values = t.values) ∧
    ∀ (parseX509Der : Bytes → Option Bytes) (nego : Bytes),
      readTsServerChallenge (y.der parseX509Der) (createTsRequest (y.der parseX509Der) nego) = .ok nego := by
  constructor
  . intro t template h
    exact ⟨hy.fromDer_toDer h, t.values_fill template h⟩
  . intro parseX509Der nego
    exact readTsServerChallenge_createTsRequest hy nego

theorem tree_round_trip_standard :
    Standard.yasna.fromDer (.implicitTag (.context 3) (.sequenceOf [] (some (.integer 0))))
        (Standard.yasna.toDer (.implicitTag (.context 3) (.sequenceOf [.integer 8, .integer 300] none))) =
      .ok (.implicitTag (.context 3) (.sequenceOf [.integer 8, .integer 300] (some (.integer 0)))) ∧
    readTsServerChallenge (Standard.yasna.der fun _ => none)
      (createTsRequest (Standard.yasna.der fun _ => none) [1, 2, 3]) = .ok [1, 2, 3] := by
  obtain ⟨htree, hrequest⟩ := tree_round_trip Standard.followsX690
  constructor
  . have hread := htree (.implicitTag (.context 3) (.sequenceOf [.integer 8, .integer 300] none))
      (.implicitTag (.context 3) (.sequenceOf [] (some (.integer 0)))) ⟨rfl, trivial, trivial, trivial⟩
    exact hread.1
  . exact hrequest (fun _ => none) [1, 2, 3]

end Rdp.Cssp
