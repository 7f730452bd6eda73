import Rdp.Core.Per.Length
import Rdp.Model.Data.Elements

/-!
This module contains what the PER readers take from a stream, and when they abort.
-/

namespace Rdp.Per

open Prog Cursor

variable {input rest : Bytes}

theorem returns_readLength : Returns readLength := by
  intro input
  unfold readLength
  simp only [aborts_readU8_bind]
  rintro ⟨a, rest, rfl, habort⟩
  split at habort
  next =>
    obtain ⟨b, rest, rfl, h⟩ := aborts_readU8_bind.mp habort
    have ha : (a &&& ~~~0x80).toNat < 2 ^ 7 := by
      rw [Tpkt.toNat_and_not_0x80]
      exact Nat.mod_lt _ (by decide)
    have hb := b.toNat_lt
    have hsize : ((a &&& ~~~0x80).toUInt16 <<< 8).toNat + b.toNat < 2 ^ 16 := by
      rw [UInt16.toNat_shiftLeft, UInt8.toNat_toUInt16, show (8 : UInt16).toNat % 16 = 8 from rfl,
        Nat.shiftLeft_eq]
      omega
    rw [checkedAdd_of_lt hsize] at h
    exact not_aborts_pure _ _ h
  next => exact not_aborts_pure _ _ habort

theorem run_readInteger16_iff {minimum v : UInt16} :
    (readInteger16 minimum).run input = .ok v rest ↔
      ∃ offset : UInt16, input = Endian.be.encode16 offset ++ rest ∧
        v.toNat = offset.toNat + minimum.toNat := by
  unfold readInteger16
  rw [run_bind_eq_ok_iff]
  constructor
  . rintro ⟨offset, t, hread, h⟩
    obtain ⟨n, u, hlift, h⟩ := run_bind_eq_ok h
    cases h
    obtain ⟨hadd, rfl⟩ := run_lift_eq_ok hlift
    obtain ⟨hlt, rfl⟩ := checkedAdd_eq_ok.mp hadd
    refine ⟨offset, run_readU16_iff_encode16.mp hread, ?_⟩
    rw [UInt16.toNat_ofNat', Nat.mod_eq_of_lt hlt]
  . rintro ⟨offset, rfl, hv⟩
    have hlt : offset.toNat + minimum.toNat < 2 ^ 16 := by
      rw [← hv]
      exact v.toNat_lt
    refine ⟨offset, rest, run_readU16_encode16 _ _ _, ?_⟩
    rw [checkedAdd_of_lt hlt, ← hv, lift_ok, pure_bind, UInt16.ofNat_toNat]
    rfl

theorem aborts_readInteger16 {minimum : UInt16} :
    (readInteger16 minimum).Aborts input ↔
      ∃ (offset : UInt16) (rest : Bytes), input = Endian.be.encode16 offset ++ rest ∧
        2 ^ 16 ≤ offset.toNat + minimum.toNat := by
  unfold readInteger16
  simp only [aborts_bind (x := readU16 .be), returns_readU16 .be _, run_readU16_iff_encode16,
    aborts_lift_bind, Except.aborts_checkedAdd, not_aborts_pure, and_false, exists_false, or_false,
    false_or]

theorem aborts_readInteger16_1001 {stream : Bytes} :
    (readInteger16 1001).Aborts stream ↔
      ∃ (offset : UInt16) (rest : Bytes), stream = Endian.be.encode16 offset ++ rest ∧
        64534 < offset.toNat := by
  rw [aborts_readInteger16]
  refine exists_congr fun offset => exists_congr fun rest => and_congr_right fun _ => ?_
  rw [show (1001 : UInt16).toNat = 1001 from rfl]
  omega

/--
The bytes from which an integer is read: its size and as many bytes.
-/
inductive IntegerCode : UInt32 → Bytes → Prop where
  | byte {size : Bytes} (hsize : LengthCode 1 size) (v : UInt8) :
    IntegerCode v.toUInt32 (size ++ [v])
  | word {size : Bytes} (hsize : LengthCode 2 size) (v : UInt16) :
    IntegerCode v.toUInt32 (size ++ Endian.be.encode16 v)
  | dword {size : Bytes} (hsize : LengthCode 4 size) (v : UInt32) :
    IntegerCode v (size ++ Endian.be.encode32 v)

theorem run_readInteger_iff {v : UInt32} :
    readInteger.run input = .ok v rest ↔ ∃ bytes, IntegerCode v bytes ∧ input = bytes ++ rest := by
  unfold readInteger
  rw [run_bind_eq_ok_iff]
  constructor
  . rintro ⟨length, t, hlength, h⟩
    obtain ⟨size, hsize, rfl⟩ := run_readLength_iff.mp hlength
    split at h
    next heq =>
      obtain ⟨v, _, hv, hpure⟩ := run_bind_eq_ok h
      cases hpure
      rw [run_readU8_eq_ok.mp hv]
      exact ⟨size ++ [v], .byte (heq ▸ hsize) v, by simp⟩
    next heq =>
      obtain ⟨v, _, hv, hpure⟩ := run_bind_eq_ok h
      cases hpure
      rw [run_readU16_iff_encode16.mp hv]
      exact ⟨size ++ Endian.be.encode16 v, .word (heq ▸ hsize) v, by simp⟩
    next heq =>
      rw [run_readU32_iff_encode32.mp h]
      exact ⟨size ++ Endian.be.encode32 v, .dword (heq ▸ hsize) v, by simp⟩
    next => cases h
  . rintro ⟨bytes, hcode, rfl⟩
    cases hcode with
    | byte hsize v =>
      rw [List.append_assoc]
      exact ⟨1, v :: rest, hsize.run_readLength _, rfl⟩
    | word hsize v =>
      rw [List.append_assoc]
      refine ⟨2, _, hsize.run_readLength _, ?_⟩
      exact run_bind_eq_ok_iff.mpr ⟨v, rest, run_readU16_encode16 _ _ v, rfl⟩
    | dword hsize v =>
      rw [List.append_assoc]
      refine ⟨4, _, hsize.run_readLength _, ?_⟩
      exact run_readU32_encode32 _ _ _

theorem returns_readInteger : Returns readInteger := by
  apply returns_readLength.bind
  intro size
  split
  . exact returns_readU8.bind_pure _
  . exact (returns_readU16 .be).bind_pure _
  . exact returns_readU32 .be
  . exact Returns.fail _

theorem run_readObjectIdentifier_iff {oid : Bytes} {same : Bool} :
    (readObjectIdentifier oid).run input = .ok same rest ↔
      oid.length = 6 ∧ ∃ size a b c d e, LengthCode 5 size ∧
        input = size ++ (a :: b :: c :: d :: e :: rest) ∧
        same = decide ([a >>> 4, a &&& 0xf, b, c, 0, e] = oid) := by
  -- Of an identifier five bytes are read, of which the fourth one is not compared.
  unfold readObjectIdentifier
  constructor
  . intro h
    split at h
    next => cases h
    next hoid =>
      obtain ⟨length, t, hlength, h⟩ := run_bind_eq_ok h
      split at h
      next => cases h
      next hfive =>
        obtain ⟨a, _, ha, h⟩ := run_bind_eq_ok h
        obtain ⟨b, _, hb, h⟩ := run_bind_eq_ok h
        obtain ⟨c, _, hc, h⟩ := run_bind_eq_ok h
        obtain ⟨d, _, hd, h⟩ := run_bind_eq_ok h
        obtain ⟨e, _, he, h⟩ := run_bind_eq_ok h
        cases h
        obtain ⟨size, hsize, rfl⟩ := run_readLength_iff.mp hlength
        rw [not_not.mp hfive] at hsize
        refine ⟨not_not.mp hoid, size, a, b, c, d, e, hsize, ?_, rfl⟩
        rw [run_readU8_eq_ok.mp ha, run_readU8_eq_ok.mp hb, run_readU8_eq_ok.mp hc,
          run_readU8_eq_ok.mp hd, run_readU8_eq_ok.mp he]
  . rintro ⟨hoid, size, a, b, c, d, e, hsize, rfl, rfl⟩
    rw [if_neg (not_not.mpr hoid)]
    exact run_bind_eq_ok_iff.mpr ⟨5, _, hsize.run_readLength _, rfl⟩

theorem returns_readObjectIdentifier (oid : Bytes) : Returns (readObjectIdentifier oid) := by
  unfold readObjectIdentifier
  split
  . exact Returns.fail _
  . apply returns_readLength.bind
    intro length
    split
    . exact Returns.fail _
    . apply returns_readU8.bind
      intro tmp
      apply returns_readU8.bind
      intro third
      apply returns_readU8.bind
      intro fourth
      apply returns_readU8.bind
      intro _
      exact returns_readU8.bind_pure _

theorem run_readOctets_iff {octets : Bytes} {u : Unit} :
    (readOctets octets).run input = .ok u rest ↔ input = octets ++ rest := by
  induction octets generalizing input with
  | nil =>
    rw [readOctets, EStateM.run_pure, List.nil_append]
    simp
  | cons octet octets ih =>
    rw [readOctets, run_bind_eq_ok_iff]
    constructor
    . rintro ⟨c, t, hc, h⟩
      split at h
      next => cases h
      next heq =>
        rw [run_readU8_eq_ok.mp hc, ih.mp h, not_not.mp heq, List.cons_append]
    . rintro rfl
      refine ⟨octet, octets ++ rest, rfl, ?_⟩
      rw [if_neg (not_not.mpr rfl)]
      exact ih.mpr rfl

theorem returns_readOctets (octets : Bytes) : Returns (readOctets octets) := by
  induction octets with
  | nil => exact Returns.pure ()
  | cons octet octets ih =>
    apply returns_readU8.bind
    intro c
    split
    . exact Returns.fail _
    . exact ih

theorem run_readOctetStream_iff {octets : Bytes} {minimum : Nat} (hminimum : minimum < 2 ^ 63)
    {u : Unit} :
    (readOctetStream octets minimum).run input = .ok u rest ↔
      ∃ n size, LengthCode n size ∧ n + minimum = octets.length ∧ input = size ++ (octets ++ rest) := by
  unfold readOctetStream
  constructor
  . intro h
    obtain ⟨length, t, hlength, h⟩ := run_bind_eq_ok h
    obtain ⟨sum, _, hlift, hoctets⟩ := run_bind_eq_ok h
    obtain ⟨hadd, rfl⟩ := run_lift_eq_ok hlift
    obtain ⟨_, rfl⟩ := checkedAdd_eq_ok.mp hadd
    split at hoctets
    next => cases hoctets
    next hsame =>
      obtain ⟨size, hsize, rfl⟩ := run_readLength_iff.mp hlength
      exact ⟨_, size, hsize, not_not.mp hsame,
        congrArg (size ++ ·) (run_readOctets_iff.mp hoctets)⟩
  . rintro ⟨n, size, hsize, hn, rfl⟩
    have hlt := hsize.lt
    apply run_bind_eq_ok_iff.mpr ⟨_, _, hsize.run_readLength _, ?_⟩
    rw [hsize.toNat_ofNat, checkedAdd_of_lt (by omega), lift_ok, pure_bind, if_neg (not_not.mpr hn)]
    exact run_readOctets_iff.mpr rfl

theorem returns_readOctetStream (octets : Bytes) {minimum : Nat} (hminimum : minimum < 2 ^ 63) :
    Returns (readOctetStream octets minimum) := by
  apply returns_readLength.bind
  intro length
  have hlt := length.toNat_lt
  rw [checkedAdd_of_lt (by omega)]
  rw [lift_ok, pure_bind]
  split
  . exact Returns.fail _
  . exact returns_readOctets octets

end Rdp.Per
