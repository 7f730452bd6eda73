import Rdp.Core.Per.Fields

/-!
This module contains what the PER readers make of the identifiers and the numeric strings that the
PER writers have written.
-/

namespace Rdp.Per

open Prog Cursor

/--
An identifier whose first two components fit the byte they share.
-/
structure ObjectIdentifier where
  first : UInt8
  second : UInt8
  third : UInt8
  fourth : UInt8
  fifth : UInt8
  sixth : UInt8
  first_lt : first < 16
  second_lt : second < 16

namespace ObjectIdentifier

def bytes (oid : ObjectIdentifier) : Bytes :=
  [oid.first, oid.second, oid.third, oid.fourth, oid.fifth, oid.sixth]

/--
A component other than the fifth one is different.
-/
def DiffersApart (a b : ObjectIdentifier) : Prop :=
  a.first ≠ b.first ∨ a.second ≠ b.second ∨ a.third ≠ b.third ∨ a.fourth ≠ b.fourth ∨
    a.sixth ≠ b.sixth

/--
The comparison reads `a` from its bytes, tells whether it is `b`, and leaves what follows.
-/
def Compares (a b : ObjectIdentifier) : Prop :=
  ∃ bytes, writeObjectIdentifier a.bytes = .ok bytes ∧ bytes.length = 6 ∧
    ∀ rest, (readObjectIdentifier b.bytes).run (bytes ++ rest) = .ok (a.bytes = b.bytes) rest

end ObjectIdentifier

theorem unpack_nibbles {a b : UInt8} (ha : a < 16) (hb : b < 16) :
    (a <<< 4 ||| b &&& 0xF) >>> 4 = a ∧ (a <<< 4 ||| b &&& 0xF) &&& 0xF = b := by
  have hall : ∀ m < 16, ∀ n < 16,
      ((UInt8.ofNat m <<< 4 ||| UInt8.ofNat n &&& 0xF) >>> 4 = .ofNat m ∧
        (UInt8.ofNat m <<< 4 ||| UInt8.ofNat n &&& 0xF) &&& 0xF = .ofNat n) := by
    decide
  have h := hall a.toNat ha b.toNat hb
  rwa [UInt8.ofNat_toNat, UInt8.ofNat_toNat] at h

theorem run_readObjectIdentifier_write (a b : ObjectIdentifier) :
    ∃ bytes, writeObjectIdentifier a.bytes = .ok bytes ∧ bytes.length = 6 ∧
      ∀ rest, (readObjectIdentifier b.bytes).run (bytes ++ rest) =
        .ok ([a.first, a.second, a.third, a.fourth, 0, a.sixth] = b.bytes) rest := by
  obtain ⟨hhigh, hlow⟩ := unpack_nibbles a.first_lt a.second_lt
  refine ⟨_, rfl, rfl, fun rest => ?_⟩
  refine run_readObjectIdentifier_iff.mpr ⟨rfl, [5], _, _, _, _, _, .short (a := 5) (by decide), rfl, ?_⟩
  rw [hhigh, hlow]

/--
The fifth component that was written is not looked at: it is zero for the comparison.
-/
theorem compares_iff (a b : ObjectIdentifier) :
    a.Compares b ↔ a.DiffersApart b ∨ (a.fifth = 0 ∧ b.fifth = 0) ∨ (b.fifth ≠ 0 ∧ a.fifth ≠ b.fifth) := by
  obtain ⟨bytes, hwrite, hlength, hread⟩ := run_readObjectIdentifier_write a b
  have hcompares : a.Compares b ↔
      ([a.first, a.second, a.third, a.fourth, 0, a.sixth] = b.bytes ↔ a.bytes = b.bytes) := by
    constructor
    . rintro ⟨_, hwrite', _, hsame⟩
      cases hwrite.symm.trans hwrite'
      have heq := (hread []).symm.trans (hsame [])
      injection heq with heq
      exact decide_eq_decide.mp heq
    . intro h
      refine ⟨bytes, hwrite, hlength, fun rest => ?_⟩
      rw [hread rest, decide_eq_decide.mpr h]
  rw [hcompares]
  simp only [ObjectIdentifier.bytes, ObjectIdentifier.DiffersApart, List.cons.injEq, and_true]
  grind

/--
Two identifiers with a fifth component.
-/
theorem not_compares : ¬ ObjectIdentifier.Compares ⟨1, 2, 3, 4, 5, 6, by decide, by decide⟩
    ⟨1, 2, 3, 4, 5, 6, by decide, by decide⟩ := by
  rintro ⟨_, hwrite, _, hread⟩
  cases hwrite
  cases hread []

section NumericString

def IsDigit (c : UInt8) : Prop := 0x30 ≤ c ∧ c ≤ 0x39

/--
Two digits in every byte, and a zero behind the last one of an odd number of them.
-/
def packed (string : Bytes) : Bytes :=
  match string with
  | [] => []
  | [c] => [(c - 0x30) <<< 4]
  | c1 :: c2 :: string => ((c1 - 0x30) <<< 4 ||| (c2 - 0x30)) :: packed string

def Packs (string : Bytes) (minimum : Nat) : Prop :=
  ∃ length, encodeLength (.ofNat (string.length - minimum)) = .ok length ∧
    writeNumericString string minimum = .ok (length ++ packed string)

/--
The bytes that are written are read back, and what follows them is left.
-/
def ReadsBack (string : Bytes) (minimum : Nat) : Prop :=
  ∃ bytes, writeNumericString string minimum = .ok bytes ∧
    ∀ rest, ∃ result, (readNumericString minimum).run (bytes ++ rest) = .ok result rest

variable {string : Bytes} {minimum : Nat}

theorem length_packed (string : Bytes) : (packed string).length = (string.length + 1) / 2 := by
  induction string using packed.induct with
  | case1 => rfl
  | case2 c => rw [packed, List.length_singleton, List.length_singleton]
  | case3 c1 c2 string ih =>
    rw [packed, List.length_cons, ih, List.length_cons, List.length_cons]
    omega

theorem packDigits_singleton {c : UInt8} (h : IsDigit c) : packDigits [c] = .ok (packed [c]) := by
  have hall : ∀ n < 10, packDigits [.ofNat (0x30 + n)] = .ok (packed [.ofNat (0x30 + n)]) := by
    decide
  have hlow : 0x30 ≤ c.toNat := h.1
  have hhigh : c.toNat ≤ 0x39 := h.2
  have hc := hall (c.toNat - 0x30) (by omega)
  rwa [Nat.add_sub_cancel' hlow, UInt8.ofNat_toNat] at hc

theorem packDigits_cons {c : UInt8} {digits : Bytes} (hc : 0x30 ≤ c.toNat)
    (hnext : 0x30 ≤ (string.headD 0x30).toNat) (h : packDigits string = .ok digits) :
    ∃ byte, packDigits (c :: string) = .ok (byte :: digits) := by
  rw [packDigits, checkedSub_of_le hc, Except.ok_bind, checkedSub_of_le hnext, Except.ok_bind, h]
  exact ⟨_, rfl⟩

theorem exists_packDigits (h : ∀ c ∈ string, IsDigit c) :
    ∃ digits, packDigits string = .ok digits ∧ digits.length = string.length := by
  induction string with
  | nil => exact ⟨[], rfl, rfl⟩
  | cons c string ih =>
    obtain ⟨hc, hstring⟩ := List.forall_mem_cons.mp h
    obtain ⟨digits, hdigits, hlength⟩ := ih hstring
    have hnext : 0x30 ≤ (string.headD 0x30).toNat := by
      cases string with
      | nil => exact Nat.le_refl _
      | cons c string => exact (hstring c List.mem_cons_self).1
    obtain ⟨byte, hbyte⟩ := packDigits_cons hc.1 hnext hdigits
    exact ⟨_, hbyte, by rw [List.length_cons, List.length_cons, hlength]⟩

theorem packDigits_panics (h : ∃ c ∈ string, c < 0x30) : ∃ msg, packDigits string = .error (.panic msg) := by
  induction string with
  | nil => simp at h
  | cons c string ih =>
    rw [packDigits]
    by_cases hc : 0x30 ≤ c.toNat
    . rw [checkedSub_of_le hc, Except.ok_bind]
      by_cases hnext : 0x30 ≤ (string.headD 0x30).toNat
      . rw [checkedSub_of_le hnext, Except.ok_bind]
        obtain ⟨c', hmem, hlt⟩ := h
        have hlt : c'.toNat < 0x30 := hlt
        have hmem : c' ∈ string := by
          rcases List.mem_cons.mp hmem with rfl | hmem
          . omega
          . exact hmem
        obtain ⟨msg, hmsg⟩ := ih ⟨c', hmem, hlt⟩
        rw [hmsg]
        exact ⟨msg, rfl⟩
      . rw [checkedSub_of_lt (Nat.lt_of_not_le hnext)]
        exact ⟨_, rfl⟩
    . rw [checkedSub_of_lt (Nat.lt_of_not_le hc)]
      exact ⟨_, rfl⟩

theorem writeNumericString_of_le {length digits : Bytes} (h : minimum ≤ string.length)
    (hstring : string.length < 2 ^ 63)
    (hlength : encodeLength (.ofNat (string.length - minimum)) = .ok length)
    (hdigits : packDigits string = .ok digits) :
    writeNumericString string minimum = .ok (length ++ digits) := by
  rw [writeNumericString, notShorter_of_le h hstring]
  change (do
    let length ← checkedSub string.length minimum
    let length ← encodeLength (.ofNat length)
    return length ++ (← packDigits string)) = _
  rw [checkedSub_of_le h]
  change (encodeLength (.ofNat (string.length - minimum)) >>= _) = _
  rw [hlength, Except.ok_bind, hdigits]
  rfl

theorem notShorter_cases (length minimum : Nat) :
    (∃ b, notShorter length minimum = .ok b) ∨ ∃ msg, notShorter length minimum = .error (.panic msg) := by
  unfold notShorter
  dsimp only
  split
  . exact .inl ⟨_, rfl⟩
  . exact .inr ⟨_, rfl⟩

theorem writeNumericString_panics (minimum : Nat) (h : ∃ c ∈ string, c < 0x30) :
    ∃ msg, writeNumericString string minimum = .error (.panic msg) := by
  obtain ⟨msg, hdigits⟩ := packDigits_panics h
  have hrest : ∀ length, ∃ msg,
      (do
        let length ← encodeLength (.ofNat length)
        return length ++ (← packDigits string) : RdpResult Bytes) = .error (.panic msg) := by
    intro length
    obtain ⟨bytes, hbytes, _⟩ := exists_encodeLength (.ofNat length)
    rw [hbytes, Except.ok_bind, hdigits]
    exact ⟨msg, rfl⟩
  unfold writeNumericString
  rcases notShorter_cases string.length minimum with ⟨b, hb⟩ | ⟨msg, hb⟩
  . rw [hb, Except.ok_bind]
    cases b with
    | false => exact hrest string.length
    | true =>
      by_cases hle : minimum ≤ string.length
      . simp only [if_true]
        rw [checkedSub_of_le hle]
        exact hrest _
      . simp only [if_true]
        rw [checkedSub_of_lt (Nat.lt_of_not_le hle)]
        exact ⟨_, rfl⟩
  . rw [hb]
    exact ⟨msg, rfl⟩

theorem run_readNumericString_ne {length digits : Bytes} (h : minimum ≤ string.length)
    (hstring : string.length < 2 ^ 63) (hcode : LengthCode (string.length - minimum) length)
    (hdigits : digits.length = string.length) (rest result : Bytes) :
    (readNumericString minimum).run (length ++ digits ++ rest) ≠ .ok result rest := by
  -- The reader takes one byte more than there are digits.
  intro hrun
  rw [List.append_assoc, readNumericString, Prog.run_bind_of_ok (hcode.run_readLength _),
    hcode.toNat_ofNat, checkedAdd_of_lt (by omega), Nat.sub_add_cancel h, lift_ok, pure_bind,
    checkedAdd_of_lt (by omega), lift_ok, pure_bind, List.replicate_succ, Message.reader_bytes_cons] at hrun
  obtain ⟨m, t, hm, hresult⟩ := run_bind_eq_ok hrun
  obtain ⟨v, u, hread, hm⟩ := run_bind_eq_ok hm
  cases hm
  cases hresult
  obtain ⟨heq, hv⟩ := run_readExact_eq_ok.mp hread
  -- all of the digits are in front of the rest, and one byte too many is asked for
  have hlengths := congrArg List.length heq
  rw [List.length_append, List.length_append, hv, List.length_replicate, hdigits] at hlengths
  omega

theorem packs_iff (h : ∀ c ∈ string, IsDigit c) (hminimum : minimum ≤ string.length)
    (hstring : string.length < 2 ^ 63) : Packs string minimum ↔ string.length ≤ 1 := by
  obtain ⟨digits, hdigits, hlength⟩ := exists_packDigits h
  obtain ⟨size, hsize, _⟩ := exists_encodeLength (.ofNat (string.length - minimum))
  have hwrite := writeNumericString_of_le hminimum hstring hsize hdigits
  constructor
  . rintro ⟨size', hsize', hwrite'⟩
    cases hsize.symm.trans hsize'
    have heq := hwrite.symm.trans hwrite'
    injection heq with heq
    have hpacked := congrArg List.length (List.append_cancel_left heq)
    rw [hlength, length_packed] at hpacked
    omega
  . intro hone
    refine ⟨size, hsize, ?_⟩
    rw [hwrite]
    match string, hone with
    | [], _ =>
      cases hdigits
      rfl
    | [c], _ =>
      rw [packDigits_singleton (h c List.mem_cons_self)] at hdigits
      cases hdigits
      rfl

/--
A numeric string of more than one digit is not packed, and none is read back: the writer starts a
byte at every digit, and the reader counts one more. A character below the digits stops the writer
with an abort.
-/
theorem numericStrings_never (string : Slice UInt8) (minimum : Nat) :
    ((∀ c ∈ string.cells, IsDigit c) → minimum ≤ string.cells.length →
      string.cells.length - minimum < 0x8000 →
      (Packs string.cells minimum ↔ string.cells.length ≤ 1) ∧ ¬ ReadsBack string.cells minimum) ∧
    ((∃ c ∈ string.cells, c < 0x30) →
      ∀ e, writeNumericString string.cells minimum ≠ .error (.error e)) := by
  constructor
  . intro h hminimum hlt
    refine ⟨packs_iff h hminimum string.length_lt, ?_⟩
    rintro ⟨bytes, hwrite, hread⟩
    obtain ⟨digits, hdigits, hlength⟩ := exists_packDigits h
    obtain ⟨size, hsize, hcode⟩ := exists_lengthCode hlt
    cases hwrite.symm.trans (writeNumericString_of_le hminimum string.length_lt hsize hdigits)
    obtain ⟨result, hresult⟩ := hread []
    exact run_readNumericString_ne hminimum string.length_lt hcode hlength [] result hresult
  . intro h e herror
    obtain ⟨msg, hpanic⟩ := writeNumericString_panics minimum h
    cases hpanic.symm.trans herror

/--
Two digits take two bytes, and a slash stops the writer.
-/
theorem not_numericStrings : ¬ Packs [0x31, 0x32] 0 ∧ ¬ ReadsBack [0x31, 0x32] 0 ∧
    writeNumericString [0x2F] 0 = .error (.panic "attempt to subtract with overflow") := by
  refine ⟨?_, ?_, rfl⟩
  . rintro ⟨_, hlength, hwrite⟩
    cases hlength
    cases hwrite
  . rintro ⟨_, hwrite, hread⟩
    cases hwrite
    obtain ⟨result, hresult⟩ := hread []
    cases hresult

end NumericString

end Rdp.Per
