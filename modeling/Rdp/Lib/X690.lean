import Mathlib.Data.Nat.Digits.Defs

/-!
This module contains the encoding of X.690 with definite lengths: an element is its tag, the length of
its contents and the contents. It also contains the contents of the integers.
-/

namespace X690

inductive TagClass where
  | universal
  | application
  | contextSpecific
  | privateUse
  deriving DecidableEq, Repr

structure Tag where
  tagClass : TagClass
  tagNumber : Nat
  deriving DecidableEq, Repr

namespace Tag

def application (n : Nat) : Tag := ⟨.application, n⟩

def context (n : Nat) : Tag := ⟨.contextSpecific, n⟩

def boolean : Tag := ⟨.universal, 1⟩

def integer : Tag := ⟨.universal, 2⟩

def octetString : Tag := ⟨.universal, 4⟩

def enumerated : Tag := ⟨.universal, 10⟩

def sequence : Tag := ⟨.universal, 16⟩

end Tag

inductive Form where
  | primitive
  | constructed
  deriving DecidableEq, Repr

structure Element where
  tag : Tag
  form : Form
  contents : List UInt8
  deriving DecidableEq, Repr

def TagClass.bits (c : TagClass) : Nat :=
  match c with
  | .universal => 0
  | .application => 1
  | .contextSpecific => 2
  | .privateUse => 3

def TagClass.ofBits (bits : Nat) : TagClass :=
  match bits with
  | 0 => .universal
  | 1 => .application
  | 2 => .contextSpecific
  | _ => .privateUse

def Form.bit (form : Form) : Nat :=
  match form with
  | .primitive => 0
  | .constructed => 1

def Form.ofBit (bit : Nat) : Form :=
  match bit with
  | 0 => .primitive
  | _ => .constructed

@[simp]
theorem TagClass.ofBits_bits (c : TagClass) : ofBits c.bits = c := by
  cases c <;> rfl

theorem TagClass.bits_lt (c : TagClass) : c.bits < 4 := by
  cases c <;> decide

@[simp]
theorem Form.ofBit_bit (form : Form) : ofBit form.bit = form := by
  cases form <;> rfl

theorem Form.bit_lt (form : Form) : form.bit < 2 := by
  cases form <;> decide

/--
All digits but the last one carry the continuation bit.
-/
def base128 (digits : List Nat) : List UInt8 :=
  match digits with
  | [] => []
  | [d] => [.ofNat d]
  | d :: digits => .ofNat (128 + d) :: base128 digits

def readBase128 (n : Nat) (octets : List UInt8) : Option (Nat × List UInt8) :=
  match octets with
  | [] => none
  | b :: octets =>
    if b.toNat < 128 then
      some (b.toNat + 128 * n, octets)
    else
      readBase128 (b.toNat - 128 + 128 * n) octets

theorem readBase128_append (n : Nat) {digits : List Nat} (hne : digits ≠ [])
    (hdigits : ∀ d ∈ digits, d < 128) (rest : List UInt8) :
    readBase128 n (base128 digits ++ rest) =
      some (digits.foldl (fun n d => d + 128 * n) n, rest) := by
  induction digits generalizing n with
  | nil => exact absurd rfl hne
  | cons d digits ih =>
    have hd : d < 128 := hdigits d List.mem_cons_self
    cases digits with
    | nil =>
      have hoctet : (UInt8.ofNat d).toNat = d := UInt8.toNat_ofNat_of_lt' (by simp only [UInt8.size]; omega)
      simp only [base128, List.cons_append, List.nil_append, readBase128, hoctet, if_pos hd,
        List.foldl_cons, List.foldl_nil]
    | cons d' digits =>
      have hoctet : (UInt8.ofNat (128 + d)).toNat = 128 + d :=
        UInt8.toNat_ofNat_of_lt' (by simp only [UInt8.size]; omega)
      have hlt : ¬ 128 + d < 128 := by omega
      have hdigits' : ∀ d ∈ d' :: digits, d < 128 := fun d hd => hdigits d (List.mem_cons_of_mem _ hd)
      change readBase128 n (.ofNat (128 + d) :: (base128 (d' :: digits) ++ rest)) = _
      rw [readBase128, hoctet, if_neg hlt, Nat.add_sub_cancel_left, ih _ (List.cons_ne_nil _ _) hdigits']
      rfl

/--
The octets of a number, the most significant one first. There are none for zero.
-/
def bigEndian (n : Nat) : List UInt8 := (Nat.digits 256 n).reverse.map .ofNat

def ofBigEndian (octets : List UInt8) : Nat := Nat.ofDigits 256 (octets.reverse.map UInt8.toNat)

@[simp]
theorem ofBigEndian_bigEndian (n : Nat) : ofBigEndian (bigEndian n) = n := by
  have hdigits : ∀ d ∈ Nat.digits 256 n, (UInt8.toNat ∘ UInt8.ofNat) d = id d :=
    fun d hd => UInt8.toNat_ofNat_of_lt' (Nat.digits_lt_base (by decide) hd)
  rw [ofBigEndian, bigEndian, ← List.map_reverse, List.reverse_reverse, List.map_map,
    List.map_congr_left hdigits, List.map_id]
  exact Nat.ofDigits_digits 256 n

theorem foldl_digits (n : Nat) :
    (Nat.digits 128 n).reverse.foldl (fun n d => d + 128 * n) 0 = n := by
  rw [List.foldl_reverse]
  exact (Nat.ofDigits_eq_foldr 128 (Nat.digits 128 n)).symm.trans (Nat.ofDigits_digits 128 n)

def leadingOctet (tagClass : TagClass) (form : Form) (n : Nat) : UInt8 :=
  .ofNat (64 * tagClass.bits + 32 * form.bit + n)

theorem toNat_leadingOctet (tagClass : TagClass) (form : Form) {n : Nat} (hn : n < 32) :
    (leadingOctet tagClass form n).toNat = 64 * tagClass.bits + 32 * form.bit + n := by
  have hclass := tagClass.bits_lt
  have hform := form.bit_lt
  apply UInt8.toNat_ofNat_of_lt'
  simp only [UInt8.size]
  omega

theorem leadingOctet_class (tagClass : TagClass) (form : Form) {n : Nat} (hn : n < 32) :
    TagClass.ofBits ((leadingOctet tagClass form n).toNat / 64) = tagClass := by
  have hform := form.bit_lt
  have hbits : (64 * tagClass.bits + 32 * form.bit + n) / 64 = tagClass.bits := by omega
  rw [toNat_leadingOctet tagClass form hn, hbits, TagClass.ofBits_bits]

theorem leadingOctet_form (tagClass : TagClass) (form : Form) {n : Nat} (hn : n < 32) :
    Form.ofBit ((leadingOctet tagClass form n).toNat / 32 % 2) = form := by
  have hform := form.bit_lt
  have hbit : (64 * tagClass.bits + 32 * form.bit + n) / 32 % 2 = form.bit := by omega
  rw [toNat_leadingOctet tagClass form hn, hbit, Form.ofBit_bit]

theorem leadingOctet_mod (tagClass : TagClass) (form : Form) {n : Nat} (hn : n < 32) :
    (leadingOctet tagClass form n).toNat % 32 = n := by
  rw [toNat_leadingOctet tagClass form hn]
  omega

def Tag.identifier (tag : Tag) (form : Form) : List UInt8 :=
  if tag.tagNumber < 31 then
    [leadingOctet tag.tagClass form tag.tagNumber]
  else
    leadingOctet tag.tagClass form 31 :: base128 (Nat.digits 128 tag.tagNumber).reverse

def readIdentifier (octets : List UInt8) : Option ((Tag × Form) × List UInt8) :=
  match octets with
  | [] => none
  | b :: octets =>
    let tagClass := TagClass.ofBits (b.toNat / 64)
    let form := Form.ofBit (b.toNat / 32 % 2)
    if b.toNat % 32 < 31 then
      some ((⟨tagClass, b.toNat % 32⟩, form), octets)
    else do
      let (tagNumber, octets) ← readBase128 0 octets
      return ((⟨tagClass, tagNumber⟩, form), octets)

theorem readIdentifier_append (tag : Tag) (form : Form) (rest : List UInt8) :
    readIdentifier (tag.identifier form ++ rest) = some ((tag, form), rest) := by
  unfold Tag.identifier
  split
  next hnumber =>
    have hlt : tag.tagNumber < 32 := by omega
    simp only [List.cons_append, List.nil_append, readIdentifier, leadingOctet_class _ _ hlt,
      leadingOctet_form _ _ hlt, leadingOctet_mod _ _ hlt, if_pos hnumber]
  next hnumber =>
    have hlt : 31 < 32 := by omega
    have hne : (Nat.digits 128 tag.tagNumber).reverse ≠ [] := by
      rw [ne_eq, List.reverse_eq_nil_iff, Nat.digits_eq_nil_iff_eq_zero]
      omega
    have hdigits : ∀ d ∈ (Nat.digits 128 tag.tagNumber).reverse, d < 128 :=
      fun d hd => Nat.digits_lt_base (by decide) (List.mem_reverse.mp hd)
    simp only [List.cons_append, readIdentifier, leadingOctet_class _ _ hlt, leadingOctet_form _ _ hlt,
      leadingOctet_mod _ _ hlt, Nat.lt_irrefl, if_false, readBase128_append 0 hne hdigits, foldl_digits]
    rfl

/--
X.690 reserves the first octet 255. Here it announces a length that has more than 126 octets.
-/
def lengthOctets (n : Nat) : List UInt8 :=
  if n < 128 then
    [.ofNat n]
  else if (bigEndian n).length < 127 then
    .ofNat (128 + (bigEndian n).length) :: bigEndian n
  else
    255 :: (List.replicate (bigEndian n).length 1 ++ 0 :: bigEndian n)

def readOctets (n : Nat) (octets : List UInt8) : Option (List UInt8 × List UInt8) :=
  if n ≤ octets.length then some (octets.take n, octets.drop n) else none

/--
The first octet 128 announces a length that is not definite.
-/
def readLength (octets : List UInt8) : Option (Nat × List UInt8) :=
  match octets with
  | [] => none
  | b :: octets =>
    if b.toNat < 128 then
      some (b.toNat, octets)
    else if b.toNat = 128 then
      none
    else do
      let n := (octets.takeWhile (· == 1)).length
      let (n, octets) := if b.toNat < 255 then (b.toNat - 128, octets) else (n, octets.drop (n + 1))
      let (octets, rest) ← readOctets n octets
      return (ofBigEndian octets, rest)

theorem readOctets_append (octets rest : List UInt8) :
    readOctets octets.length (octets ++ rest) = some (octets, rest) := by
  rw [readOctets, if_pos (by simp), List.take_left, List.drop_left]

theorem length_bigEndian_pos {n : Nat} (hn : 0 < n) : 0 < (bigEndian n).length := by
  have hne : Nat.digits 256 n ≠ [] := Nat.digits_ne_nil_iff_ne_zero.mpr (by omega)
  rw [bigEndian, List.length_map, List.length_reverse]
  exact List.length_pos_iff.mpr hne

theorem length_takeWhile_replicate (n : Nat) (octets : List UInt8) :
    ((List.replicate n (1 : UInt8) ++ 0 :: octets).takeWhile (· == 1)).length = n := by
  induction n with
  | zero => rfl
  | succ n ih =>
    rw [List.replicate_succ, List.cons_append, List.takeWhile_cons_of_pos rfl, List.length_cons, ih]

theorem readLength_append (n : Nat) (rest : List UInt8) :
    readLength (lengthOctets n ++ rest) = some (n, rest) := by
  unfold lengthOctets
  split
  next hshort =>
    have hoctet : (UInt8.ofNat n).toNat = n := UInt8.toNat_ofNat_of_lt' (by simp only [UInt8.size]; omega)
    simp only [List.cons_append, List.nil_append, readLength, hoctet, if_pos hshort]
  next hlong =>
    have hpos := length_bigEndian_pos (n := n) (by omega)
    split
    next hlength =>
      have hoctet : (UInt8.ofNat (128 + (bigEndian n).length)).toNat = 128 + (bigEndian n).length :=
        UInt8.toNat_ofNat_of_lt' (by simp only [UInt8.size]; omega)
      have hdefinite : ¬ 128 + (bigEndian n).length = 128 := by omega
      have hlt : ¬ 128 + (bigEndian n).length < 128 := by omega
      have hstandard : 128 + (bigEndian n).length < 255 := by omega
      simp only [List.cons_append, readLength, hoctet, if_neg hlt, if_neg hdefinite, if_pos hstandard,
        Nat.add_sub_cancel_left, readOctets_append]
      simp
    next hlength =>
      have hdrop : (List.replicate (bigEndian n).length (1 : UInt8) ++ 0 :: (bigEndian n ++ rest)).drop
          ((bigEndian n).length + 1) = bigEndian n ++ rest := by
        rw [List.drop_append, List.drop_of_length_le (by simp), List.length_replicate]
        simp
      simp only [List.cons_append, List.append_assoc, readLength, length_takeWhile_replicate, hdrop]
      simp [readOctets_append]

namespace Element

def encode (e : Element) : List UInt8 :=
  e.tag.identifier e.form ++ (lengthOctets e.contents.length ++ e.contents)

/--
Only the one encoding that `encode` gives an element is read.
-/
def read (octets : List UInt8) : Option (Element × List UInt8) := do
  let ((tag, form), left) ← readIdentifier octets
  let (n, left) ← readLength left
  let (contents, rest) ← readOctets n left
  let e : Element := ⟨tag, form, contents⟩
  if e.encode ++ rest = octets then some (e, rest) else none

theorem read_eq_some_iff {octets : List UInt8} {e : Element} {rest : List UInt8} :
    read octets = some (e, rest) ↔ octets = e.encode ++ rest := by
  constructor
  . intro h
    simp only [read, Option.bind_eq_bind, Option.bind_eq_some_iff] at h
    obtain ⟨_, _, _, _, _, _, h⟩ := h
    split at h
    next hencode =>
      cases h
      exact hencode.symm
    next => cases h
  . rintro rfl
    have hencode : e.encode ++ rest =
        e.tag.identifier e.form ++ (lengthOctets e.contents.length ++ (e.contents ++ rest)) := by
      rw [encode, List.append_assoc, List.append_assoc]
    have hidentifier := readIdentifier_append e.tag e.form
      (lengthOctets e.contents.length ++ (e.contents ++ rest))
    have hlength := readLength_append e.contents.length (e.contents ++ rest)
    rw [← hencode] at hidentifier
    simp only [read, hidentifier, hlength, readOctets_append, Option.bind_eq_bind, Option.bind_some, if_true]

theorem encode_ne_nil (e : Element) : e.encode ≠ [] := by
  intro h
  have hidentifier := readIdentifier_append e.tag e.form []
  rw [List.append_eq_nil_iff.mp h |>.1] at hidentifier
  cases hidentifier

end Element

/--
The contents of an integer that is not negative: the sign bit is clear.
-/
def natural (n : Nat) : List UInt8 :=
  match bigEndian n with
  | [] => [0]
  | b :: octets => if b.toNat < 128 then b :: octets else 0 :: b :: octets

/--
The contents of an integer, in two's complement.
-/
def integer (v : Int) : List UInt8 :=
  match v with
  | .ofNat n => natural n
  | .negSucc n => (natural n).map (~~~ ·)

def readInteger (octets : List UInt8) : Option Int :=
  match octets with
  | [] => none
  | b :: _ =>
    if b.toNat < 128 then
      some (.ofNat (ofBigEndian octets))
    else
      some (.negSucc (ofBigEndian (octets.map (~~~ ·))))

theorem ofBigEndian_zero_cons (octets : List UInt8) : ofBigEndian (0 :: octets) = ofBigEndian octets := by
  rw [ofBigEndian, List.reverse_cons, List.map_append, Nat.ofDigits_append]
  rfl

theorem natural_eq_cons (n : Nat) :
    ∃ b octets, natural n = b :: octets ∧ b.toNat < 128 ∧ ofBigEndian (b :: octets) = n := by
  have hoctets := ofBigEndian_bigEndian n
  unfold natural
  generalize bigEndian n = octets at hoctets
  cases octets with
  | nil => exact ⟨0, [], rfl, by decide, hoctets⟩
  | cons b octets =>
    simp only
    split
    next hpos => exact ⟨b, octets, rfl, hpos, hoctets⟩
    next => exact ⟨0, b :: octets, rfl, by decide, (ofBigEndian_zero_cons _).trans hoctets⟩

theorem readInteger_integer (v : Int) : readInteger (integer v) = some v := by
  cases v with
  | ofNat n =>
    obtain ⟨b, octets, hnatural, hpos, hvalue⟩ := natural_eq_cons n
    simp only [integer, hnatural, readInteger, if_pos hpos, hvalue]
  | negSucc n =>
    obtain ⟨b, octets, hnatural, hpos, hvalue⟩ := natural_eq_cons n
    have hneg : ¬ (~~~b).toNat < 128 := by
      rw [UInt8.toNat_not, UInt8.size]
      omega
    have hmap : ((b :: octets).map (~~~ ·)).map (~~~ ·) = b :: octets := by
      rw [List.map_map]
      exact (List.map_congr_left fun b _ => UInt8.not_not).trans (List.map_id _)
    simp only [integer, hnatural, List.map_cons, readInteger, if_neg hneg]
    rw [← List.map_cons, ← List.map_cons (f := (~~~ ·)), hmap, hvalue]

end X690
