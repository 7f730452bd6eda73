import Rdp.Nla.Asn1.RoundTrip

/-!
This module contains a library for ASN.1 that does what X.690 says, and nothing else: it reads an element
only in the one encoding that it is written in.
-/

namespace Rdp

open X690 (Element Form)

namespace Standard

/--
The contents of the next element, which has to have this tag and form.
-/
def readContents (tag : Tag) (form : Form) (stream : Bytes) : Option (Bytes × Bytes) :=
  match Element.read stream with
  | some (e, rest) => if e.tag = tag ∧ e.form = form then some (e.contents, rest) else none
  | none => none

theorem readContents_append (tag : Tag) (form : Form) (contents rest : Bytes) :
    readContents tag form ((Element.mk tag form contents).encode ++ rest) = some (contents, rest) := by
  rw [readContents, Element.read_eq_some_iff.mpr rfl]
  exact if_pos ⟨rfl, rfl⟩

def readPrimitive (tag : Tag) (decode : Bytes → Option α) : Prog String Bytes α := fun stream =>
  match readContents tag .primitive stream with
  | some (contents, rest) =>
    match decode contents with
    | some v => .ok v rest
    | none => .error (.error "Invalid") rest
  | none => .error (.error "Invalid") stream

theorem run_readPrimitive {tag : Tag} {decode : Bytes → Option α} {contents : Bytes} {v : α}
    (h : decode contents = some v) (rest : Bytes) :
    (readPrimitive tag decode).run ((Element.mk tag .primitive contents).encode ++ rest) = .ok v rest := by
  change readPrimitive tag decode _ = _
  simp only [readPrimitive, readContents_append, h]

/--
The callback has to read the contents to their end.
-/
def readConstructed (tag : Tag) (callback : Bytes → CallbackResult α) (captured : α) (stream : Bytes) :
    CallbackResult α :=
  match readContents tag .constructed stream with
  | some (contents, rest) =>
    match callback contents with
    | ⟨.ok (), captured, []⟩ => ⟨.ok (), captured, rest⟩
    | ⟨.ok (), captured, _ :: _⟩ => ⟨.error (.error "Extra"), captured, rest⟩
    | ⟨.error e, captured, _⟩ => ⟨.error e, captured, rest⟩
  | none => ⟨.error (.error "Invalid"), captured, stream⟩

theorem readConstructed_append {tag : Tag} {callback : Bytes → CallbackResult α} {contents : Bytes} {b : α}
    (h : callback contents = ⟨.ok (), b, []⟩) (a : α) (rest : Bytes) :
    readConstructed tag callback a ((Element.mk tag .constructed contents).encode ++ rest) =
      ⟨.ok (), b, rest⟩ := by
  simp only [readConstructed, readContents_append, h]

def readElements (f : α → Bytes → CallbackResult α) (fuel : Nat) (a : α) (stream : Bytes) : CallbackResult α :=
  match fuel, stream with
  | 0, stream => ⟨.error .diverge, a, stream⟩
  | _ + 1, [] => ⟨.ok (), a, []⟩
  | fuel + 1, b :: stream =>
    match f a (b :: stream) with
    | ⟨.ok (), a, rest⟩ => readElements f fuel a rest
    | ⟨.error e, a, rest⟩ => ⟨.error e, a, rest⟩

/--
The fuel is one more than the bytes there are, so it runs out only when a call read nothing.
-/
def readAll (f : α → Bytes → CallbackResult α) (a : α) (stream : Bytes) : CallbackResult α :=
  readElements f (stream.length + 1) a stream

theorem readElements_of_readsElements {f : α → Bytes → CallbackResult α} {a b : α} {contents : Bytes}
    (h : ReadsElements f a contents b) {fuel : Nat} (hfuel : contents.length < fuel) :
    readElements f fuel a contents = ⟨.ok (), b, []⟩ := by
  induction h generalizing fuel with
  | done a =>
    cases fuel with
    | zero => exact absurd hfuel (Nat.not_lt_zero _)
    | succ fuel => rfl
  | @next a b c contents left hread hleft _ ih =>
    cases contents with
    | nil => exact absurd hleft (Nat.not_lt_zero _)
    | cons octet contents =>
      cases fuel with
      | zero => exact absurd hfuel (Nat.not_lt_zero _)
      | succ fuel =>
        rw [readElements, hread]
        exact ih (by omega)

theorem readAll_of_readsElements {f : α → Bytes → CallbackResult α} {a b : α} {contents : Bytes}
    (h : ReadsElements f a contents b) : readAll f a contents = ⟨.ok (), b, []⟩ :=
  readElements_of_readsElements h (Nat.lt_succ_self _)

def decodeBool (contents : Bytes) : Option Bool :=
  match contents with
  | [0] => some false
  | [255] => some true
  | _ => none

def decodeU32 (contents : Bytes) : Option UInt32 :=
  match X690.readInteger contents with
  | some v => if 0 ≤ v ∧ v < 2 ^ 32 then some (.ofNat v.toNat) else none
  | none => none

def decodeEnum (contents : Bytes) : Option Int64 :=
  match X690.readInteger contents with
  | some v => if -2 ^ 63 ≤ v ∧ v < 2 ^ 63 then some (.ofInt v) else none
  | none => none

/--
Nothing may be left behind the element.
-/
def parse (mode : BERMode) (stream : Bytes) (f : BERReader → Bytes → CallbackResult α) :
    Except (Fault String) Unit × α :=
  match f ⟨mode, none⟩ stream with
  | ⟨.ok (), captured, []⟩ => (.ok (), captured)
  | ⟨.ok (), captured, _ :: _⟩ => (.error (.error "Extra"), captured)
  | ⟨.error e, captured, _⟩ => (.error e, captured)

theorem decodeU32_integer (v : UInt32) : decodeU32 (X690.integer v.toNat) = some v := by
  have hlt : (v.toNat : Int) < 2 ^ 32 := by exact_mod_cast v.toNat_lt
  rw [decodeU32, X690.readInteger_integer]
  simp only [Int.natCast_nonneg, hlt, and_self, if_true, Int.toNat_natCast, UInt32.ofNat_toNat]

theorem decodeEnum_integer (v : Int64) : decodeEnum (X690.integer v.toInt) = some v := by
  rw [decodeEnum, X690.readInteger_integer]
  simp only [v.le_toInt, v.toInt_lt, and_self, if_true, Int64.ofInt_toInt]

def yasna : Yasna where
  writeBool := fun writer v =>
    (Element.mk (writer.implicitTag.getD .boolean) .primitive [if v then 255 else 0]).encode
  writeU32 := fun writer v =>
    (Element.mk (writer.implicitTag.getD .integer) .primitive (X690.integer v.toNat)).encode
  writeEnum := fun writer v =>
    (Element.mk (writer.implicitTag.getD .enumerated) .primitive (X690.integer v.toInt)).encode
  writeBytes := fun writer v => (Element.mk (writer.implicitTag.getD .octetString) .primitive v).encode
  writeTagged := fun writer tag f =>
    (Element.mk (writer.implicitTag.getD tag) .constructed (f ⟨none⟩)).encode
  writeTaggedImplicit := fun writer tag f => f ⟨some (writer.implicitTag.getD tag)⟩
  writeSequence := fun writer fs =>
    (Element.mk (writer.implicitTag.getD .sequence) .constructed (fs.flatMap fun f => f ⟨none⟩)).encode
  writeSequenceOf := fun writer fs =>
    (Element.mk (writer.implicitTag.getD .sequence) .constructed (fs.flatMap fun f => f ⟨none⟩)).encode
  constructDer := fun f => f ⟨none⟩
  readBool := fun reader => readPrimitive (reader.implicitTag.getD .boolean) decodeBool
  readU32 := fun reader => readPrimitive (reader.implicitTag.getD .integer) decodeU32
  readEnum := fun reader => readPrimitive (reader.implicitTag.getD .enumerated) decodeEnum
  readBytes := fun reader => readPrimitive (reader.implicitTag.getD .octetString) some
  readTagged := fun reader tag f => readConstructed (reader.implicitTag.getD tag) (f ⟨reader.mode, none⟩)
  readTaggedImplicit := fun reader tag f _ stream =>
    f ⟨reader.mode, some (reader.implicitTag.getD tag)⟩ stream
  readSequence := fun reader f =>
    readConstructed (reader.implicitTag.getD .sequence) (f ⟨reader.mode, none⟩)
  readSequenceOf := fun reader f a =>
    readConstructed (reader.implicitTag.getD .sequence) (readAll (f ⟨reader.mode, none⟩) a) a
  parseDer := fun stream f _ => parse .der stream f
  parseBer := fun stream f _ => parse .ber stream f

theorem followsX690 : yasna.FollowsX690 where
  writeBool _ _ := rfl
  writeU32 _ _ := rfl
  writeEnum _ _ := rfl
  writeBytes _ _ := rfl
  writeTagged _ _ _ := rfl
  writeTaggedImplicit _ _ _ := rfl
  writeSequence _ _ := rfl
  writeSequenceOf _ _ := rfl
  constructDer _ := rfl
  readBool _ v rest := run_readPrimitive (by cases v <;> rfl) rest
  readU32 _ v rest := run_readPrimitive (decodeU32_integer v) rest
  readEnum _ v rest := run_readPrimitive (decodeEnum_integer v) rest
  readBytes _ _ rest := run_readPrimitive rfl rest
  readTagged _ _ _ a _ _ rest hf := readConstructed_append hf a rest
  readTaggedImplicit _ _ _ _ _ := rfl
  readSequence _ _ a _ _ rest hf := readConstructed_append hf a rest
  readSequenceOf _ _ a _ _ rest hf := readConstructed_append (readAll_of_readsElements hf) a rest
  parseDer f a b stream hf := by
    change parse .der stream f = _
    simp only [parse, hf]

end Standard

end Rdp
