import Rdp.Core.Per.Read

/-!
This module contains the fields of a PER stream: what a sequence of them is written to, and what is
read back from it.
-/

namespace Rdp.Per

open Prog Cursor

theorem lengthCode_encodeLength {length : UInt16} {bytes : Bytes} (h : encodeLength length = .ok bytes)
    (hlt : length.toNat < 2 ^ 15) : LengthCode length.toNat bytes := by
  obtain ⟨v, hrun, hv⟩ := run_readLength_encodeLength h []
  obtain ⟨bytes', hcode, heq⟩ := run_readLength_iff.mp hrun
  rw [List.append_nil, List.append_nil] at heq
  rw [heq, ← Nat.mod_eq_of_lt hlt, ← hv]
  exact hcode

theorem exists_lengthCode {n : Nat} (h : n < 2 ^ 15) :
    ∃ size, encodeLength (.ofNat n) = .ok size ∧ LengthCode n size := by
  have htoNat : (UInt16.ofNat n).toNat = n := by
    rw [UInt16.toNat_ofNat']
    omega
  obtain ⟨size, hsize, _⟩ := exists_encodeLength (.ofNat n)
  have hcode := lengthCode_encodeLength hsize (by omega)
  rw [htoNat] at hcode
  exact ⟨size, hsize, hcode⟩

theorem exists_writeInteger (v : UInt32) : ∃ bytes, writeInteger v = .ok bytes ∧ IntegerCode v bytes := by
  have hv := v.toNat_lt
  unfold writeInteger
  split
  next h =>
    have hbyte : v.toUInt8.toUInt32 = v := by
      have h : v.toNat < 0xFF := h
      rw [← UInt32.toNat_inj, UInt8.toNat_toUInt32, UInt32.toNat_toUInt8]
      omega
    refine ⟨[1] ++ [v.toUInt8], rfl, ?_⟩
    have hcode := IntegerCode.byte (.short (a := 1) (by decide)) v.toUInt8
    rwa [hbyte] at hcode
  next =>
    split
    next h =>
      have hword : v.toUInt16.toUInt32 = v := by
        have h : v.toNat < 0xFFFF := h
        rw [← UInt32.toNat_inj, UInt16.toNat_toUInt32, UInt32.toNat_toUInt16]
        omega
      refine ⟨[2] ++ Endian.be.encode16 v.toUInt16, rfl, ?_⟩
      have hcode := IntegerCode.word (.short (a := 2) (by decide)) v.toUInt16
      rwa [hword] at hcode
    next =>
      exact ⟨[4] ++ Endian.be.encode32 v, rfl, .dword (.short (a := 4) (by decide)) v⟩

theorem writeInteger16_of_le {v minimum : UInt16} (h : minimum ≤ v) :
    writeInteger16 v minimum = .ok (Endian.be.encode16 (.ofNat (v.toNat - minimum.toNat))) := by
  have h : minimum.toNat ≤ v.toNat := h
  rw [writeInteger16, checkedSub_of_le h]
  rfl

theorem run_readInteger16_of_le {v minimum : UInt16} (h : minimum ≤ v) (rest : Bytes) :
    (readInteger16 minimum).run
      (Endian.be.encode16 (.ofNat (v.toNat - minimum.toNat)) ++ rest) = .ok v rest := by
  have h : minimum.toNat ≤ v.toNat := h
  have hv := v.toNat_lt
  refine run_readInteger16_iff.mpr ⟨_, rfl, ?_⟩
  rw [UInt16.toNat_ofNat']
  omega

section Octets

theorem notShorter_of_le {length minimum : Nat} (h : minimum ≤ length) (hlength : length < 2 ^ 63) :
    notShorter length minimum = .ok true := by
  have hlength' : asI64 length = length := if_pos hlength
  have hminimum : asI64 minimum = minimum := if_pos (Nat.lt_of_le_of_lt h hlength)
  have hle : (minimum : Int) ≤ length := Int.ofNat_le.mpr h
  rw [notShorter, hlength', hminimum, if_pos (by omega), decide_eq_true (Int.sub_nonneg.mpr hle)]

theorem writeOctetStream_of_le {octets length : Bytes} {minimum : Nat} (h : minimum ≤ octets.length)
    (hoctets : octets.length < 2 ^ 63)
    (hlength : encodeLength (.ofNat (octets.length - minimum)) = .ok length) :
    writeOctetStream octets minimum = .ok (length ++ octets) := by
  rw [writeOctetStream, notShorter_of_le h hoctets]
  change (do
    let length ← checkedSub octets.length minimum
    let length ← encodeLength (.ofNat length)
    return length ++ octets) = _
  rw [checkedSub_of_le h]
  change (encodeLength (.ofNat (octets.length - minimum)) >>= _) = _
  rw [hlength]
  rfl

theorem exists_writeOctetStream {octets : Bytes} {minimum : Nat} (h : minimum ≤ octets.length)
    (hoctets : octets.length < 2 ^ 63) (hlt : octets.length - minimum < 2 ^ 15) :
    ∃ size, writeOctetStream octets minimum = .ok (size ++ octets) ∧
      LengthCode (octets.length - minimum) size := by
  obtain ⟨size, hsize, hcode⟩ := exists_lengthCode hlt
  exact ⟨size, writeOctetStream_of_le h hoctets hsize, hcode⟩

theorem run_readOctetStream_ne {octets expected size : Bytes} {minimum : Nat}
    (hminimum : minimum < 2 ^ 63) (hsize : LengthCode (octets.length - minimum) size)
    (h : minimum ≤ octets.length) (hne : expected ≠ octets) (rest : Bytes) :
    ∃ e rest', (readOctetStream expected minimum).run (size ++ (octets ++ rest)) =
      .error (.error e) rest' := by
  have hreturns := returns_readOctetStream expected hminimum (size ++ (octets ++ rest))
  rcases cases_of_not_aborts hreturns with ⟨u, rest', hrun⟩ | herror
  . exfalso
    obtain ⟨n, size', hsize', hn, heq⟩ := (run_readOctetStream_iff hminimum).mp hrun
    -- The length is read the same way on both sides, so the two strings are equally long.
    have hlength : n = octets.length - minimum := by
      have hread := hsize.run_readLength (octets ++ rest)
      rw [heq, hsize'.run_readLength] at hread
      injection hread with hread _
      rw [← hsize'.toNat_ofNat, hread, hsize.toNat_ofNat]
    subst hlength
    have hrest := hsize.append_cancel hsize' heq
    have hsame : octets.length = expected.length := by omega
    exact hne (List.append_inj_left hrest hsame).symm
  . exact herror

end Octets

inductive Field where
  | integer (v : UInt32)
  | integer16 (v minimum : UInt16) (hminimum : minimum ≤ v)
  | length (v : UInt16) (hlt : v.toNat < 0x8000)
  | octetStream (octets : Slice UInt8) (minimum : Nat) (hminimum : minimum ≤ octets.cells.length)
    (hlt : octets.cells.length - minimum < 0x8000)

inductive Kind where
  | integer
  | integer16 (minimum : UInt16)
  | length
  | octetStream (expected : Bytes) (minimum : Nat)

inductive Value where
  | integer (v : UInt32)
  | word (v : UInt16)
  | matched
  deriving DecidableEq, Repr

namespace Field

def write (field : Field) : RdpResult Bytes :=
  match field with
  | integer v => writeInteger v
  | integer16 v minimum _ => writeInteger16 v minimum
  | length v _ => encodeLength v
  | octetStream octets minimum _ _ => writeOctetStream octets.cells minimum

def kind (field : Field) : Kind :=
  match field with
  | integer _ => .integer
  | integer16 _ minimum _ => .integer16 minimum
  | length _ _ => .length
  | octetStream octets minimum _ _ => .octetStream octets.cells minimum

def value (field : Field) : Value :=
  match field with
  | integer v => .integer v
  | integer16 v _ _ => .word v
  | length v _ => .word v
  | octetStream _ _ _ _ => .matched

end Field

def Kind.read (kind : Kind) : Reader Value :=
  match kind with
  | integer => return .integer (← readInteger)
  | integer16 minimum => return .word (← readInteger16 minimum)
  | length => return .word (← readLength)
  | octetStream expected minimum => do
    readOctetStream expected minimum
    return .matched

def writeFields (fields : List Field) : RdpResult Bytes :=
  match fields with
  | [] => .ok []
  | field :: fields => do
    let bytes ← field.write
    return bytes ++ (← writeFields fields)

def readFields (kinds : List Kind) : Reader (List Value) := do
  match kinds with
  | [] => return []
  | kind :: kinds =>
    let value ← kind.read
    return value :: (← readFields kinds)

theorem Field.exists_write (field : Field) :
    ∃ bytes, field.write = .ok bytes ∧
      ∀ rest, field.kind.read.run (bytes ++ rest) = .ok field.value rest := by
  cases field with
  | integer v =>
    obtain ⟨bytes, hwrite, hcode⟩ := exists_writeInteger v
    refine ⟨bytes, hwrite, fun rest => ?_⟩
    have hread : readInteger.run (bytes ++ rest) = .ok v rest :=
      run_readInteger_iff.mpr ⟨bytes, hcode, rfl⟩
    exact Prog.run_bind_of_ok hread
  | integer16 v minimum hminimum =>
    refine ⟨_, writeInteger16_of_le hminimum, fun rest => ?_⟩
    exact Prog.run_bind_of_ok (run_readInteger16_of_le hminimum rest)
  | length v hlt =>
    obtain ⟨bytes, hwrite, _⟩ := exists_encodeLength v
    refine ⟨bytes, hwrite, fun rest => ?_⟩
    have hread := (lengthCode_encodeLength hwrite hlt).run_readLength rest
    rw [UInt16.ofNat_toNat] at hread
    exact Prog.run_bind_of_ok hread
  | octetStream octets minimum hminimum hlt =>
    obtain ⟨size, hwrite, hsize⟩ := exists_writeOctetStream hminimum octets.length_lt hlt
    refine ⟨_, hwrite, fun rest => ?_⟩
    have hread : (readOctetStream octets.cells minimum).run (size ++ octets.cells ++ rest) = .ok () rest := by
      rw [List.append_assoc]
      have hlt := Nat.lt_of_le_of_lt hminimum octets.length_lt
      exact (run_readOctetStream_iff hlt).mpr ⟨_, size, hsize, Nat.sub_add_cancel hminimum, rfl⟩
    exact Prog.run_bind_of_ok hread

theorem exists_writeFields (fields : List Field) :
    ∃ bytes, writeFields fields = .ok bytes ∧
      ∀ rest, (readFields (fields.map Field.kind)).run (bytes ++ rest) =
        .ok (fields.map Field.value) rest := by
  induction fields with
  | nil => exact ⟨[], rfl, fun rest => rfl⟩
  | cons field fields ih =>
    obtain ⟨bytes, hwrite, hread⟩ := field.exists_write
    obtain ⟨bytes', hwrite', hread'⟩ := ih
    refine ⟨bytes ++ bytes', ?_, fun rest => ?_⟩
    . rw [writeFields, hwrite, Except.ok_bind, hwrite', Except.ok_bind]
      rfl
    . rw [List.map_cons, readFields, List.append_assoc, Prog.run_bind_of_ok (hread _),
        Prog.run_bind_of_ok (hread' rest)]
      rfl

theorem writeFields_append {fields fields' : List Field} {bytes bytes' : Bytes}
    (h : writeFields fields = .ok bytes) (h' : writeFields fields' = .ok bytes') :
    writeFields (fields ++ fields') = .ok (bytes ++ bytes') := by
  induction fields generalizing bytes with
  | nil =>
    cases h
    exact h'
  | cons field fields ih =>
    obtain ⟨head, hhead, h⟩ := Except.bind_eq_ok h
    obtain ⟨tail, htail, h⟩ := Except.bind_eq_ok h
    cases h
    rw [List.cons_append, writeFields, hhead, Except.ok_bind, ih htail, Except.ok_bind, List.append_assoc]
    rfl

theorem run_readFields_append {kinds kinds' : List Kind} {input t u : Bytes} {values : List Value}
    {e : Fault Error} (h : (readFields kinds).run input = .ok values t)
    (h' : (readFields kinds').run t = .error e u) :
    (readFields (kinds ++ kinds')).run input = .error e u := by
  induction kinds generalizing input values with
  | nil =>
    cases h
    exact h'
  | cons kind kinds ih =>
    obtain ⟨value, next, hvalue, h⟩ := run_bind_eq_ok h
    obtain ⟨values, _, hvalues, h⟩ := run_bind_eq_ok h
    cases h
    rw [List.cons_append, readFields, Prog.run_bind_of_ok hvalue, Prog.run_bind_of_error (ih hvalues)]

/--
Fields are read back as they were written and take exactly their own bytes, whatever follows them. An
octet string does not pass for another one.
-/
theorem fields_roundTrip (fields : List Field) :
    ∃ bytes, writeFields fields = .ok bytes ∧ ∀ rest,
      (readFields (fields.map Field.kind)).run (bytes ++ rest) = .ok (fields.map Field.value) rest ∧
      ∀ front octets minimum hminimum hlt back expected,
        fields = front ++ Field.octetStream octets minimum hminimum hlt :: back →
        expected ≠ octets.cells →
        ∃ e rest', (readFields (front.map Field.kind ++ [.octetStream expected minimum])).run
          (bytes ++ rest) = .error (.error e) rest' := by
  obtain ⟨bytes, hwrite, hread⟩ := exists_writeFields fields
  refine ⟨bytes, hwrite, fun rest => ⟨hread rest, ?_⟩⟩
  rintro front octets minimum hminimum hlt back expected rfl hne
  obtain ⟨first, hfirst, hreadFirst⟩ := exists_writeFields front
  obtain ⟨last, hlast, _⟩ := exists_writeFields back
  obtain ⟨size, hoctets, hsize⟩ := exists_writeOctetStream hminimum octets.length_lt hlt
  have hcons : writeFields (.octetStream octets minimum hminimum hlt :: back) =
      .ok (size ++ octets.cells ++ last) := by
    rw [writeFields, Field.write, hoctets, Except.ok_bind, hlast]
    rfl
  cases hwrite.symm.trans (writeFields_append hfirst hcons)
  have hlt' := Nat.lt_of_le_of_lt hminimum octets.length_lt
  obtain ⟨e, rest', herror⟩ := run_readOctetStream_ne hlt' hsize hminimum hne (last ++ rest)
  refine ⟨e, rest', ?_⟩
  rw [List.append_assoc]
  apply run_readFields_append (hreadFirst _)
  rw [List.append_assoc, List.append_assoc]
  have hkind : (Kind.octetStream expected minimum).read.run (size ++ (octets.cells ++ (last ++ rest))) =
      .error (.error e) rest' := Prog.run_bind_of_error herror
  exact Prog.run_bind_of_error hkind

end Rdp.Per
