import Rdp.Core.Per.Impl
import Rdp.Core.Tpkt.Framing
import Rdp.Model.Data.Equations

/-!
This module contains what the reader of a PER length makes of a length that was written.
-/

namespace Rdp.Per

open Cursor

theorem run_readLength_short {a : UInt8} (ha : a.toNat < 2 ^ 7) (rest : Bytes) :
    readLength.run (a :: rest) = .ok a.toUInt16 rest := by
  rw [readLength, EStateM.run_bind, run_readU8_cons]
  simp only [ne_eq, (Tpkt.and_0x80_eq_zero_iff a).mpr ha, not_true, if_false]
  rfl

theorem run_readLength_long {a b : UInt8} (ha : 2 ^ 7 ≤ a.toNat) (rest : Bytes) :
    readLength.run (a :: b :: rest) =
      .ok (.ofNat (2 ^ 8 * (a.toNat % 2 ^ 7) + b.toNat)) rest := by
  have hflag : ¬ a &&& 0x80 = 0 := by
    rw [Tpkt.and_0x80_eq_zero_iff]
    omega
  have hb := b.toNat_lt
  have hsize : ((a &&& ~~~0x80).toUInt16 <<< 8).toNat = 2 ^ 8 * (a.toNat % 2 ^ 7) := by
    rw [UInt16.toNat_shiftLeft, UInt8.toNat_toUInt16, Tpkt.toNat_and_not_0x80,
      show (8 : UInt16).toNat % 16 = 8 from rfl, Nat.shiftLeft_eq]
    omega
  rw [readLength, EStateM.run_bind, run_readU8_cons]
  simp only [ne_eq, hflag, not_false_eq_true, if_true]
  rw [EStateM.run_bind, run_readU8_cons]
  simp only [hsize]
  rw [checkedAdd_of_lt (by omega)]
  rfl

theorem or_0x8000 (v : UInt16) : (v ||| 0x8000).toNat = 2 ^ 15 + v.toNat % 2 ^ 15 := by
  have hv := v.toNat_lt
  have hlow : v.toNat % 2 ^ 15 < 2 ^ 15 := Nat.mod_lt _ (by decide)
  have hadd : 2 ^ 15 + v.toNat % 2 ^ 15 = 2 ^ 15 ||| v.toNat % 2 ^ 15 :=
    Nat.two_pow_add_eq_or_of_lt hlow 1
  have hor : (v ||| 0x8000).toNat = v.toNat ||| 2 ^ 15 := UInt16.toNat_or v 0x8000
  by_cases h : v.toNat < 2 ^ 15
  . rw [hor, hadd, Nat.mod_eq_of_lt h, Nat.or_comm]
  . have hself : v.toNat = 2 ^ 15 ||| v.toNat % 2 ^ 15 := by omega
    rw [hor, hadd]
    nth_rewrite 1 [hself]
    rw [Nat.or_comm, ← Nat.or_assoc, Nat.or_self]

theorem encodeLength_of_le {length : UInt16} (h : length.toNat ≤ 0x7f) :
    encodeLength length = .ok [length.toUInt8] := by
  have : ¬ length > 0x7f := by
    rw [gt_iff_lt, UInt16.lt_iff_toNat_lt]
    exact Nat.not_lt.mpr h
  rw [encodeLength, writeLength, if_neg this]
  rfl

theorem encodeLength_of_lt {length : UInt16} (h : 0x7f < length.toNat) :
    encodeLength length = .ok (Endian.be.encode16 (length ||| 0x8000)) := by
  have : length > 0x7f := by
    rw [gt_iff_lt, UInt16.lt_iff_toNat_lt]
    exact h
  rw [encodeLength, writeLength, if_pos this]
  simp [Leaf.write]

theorem exists_encodeLength (length : UInt16) :
    ∃ bytes, encodeLength length = .ok bytes ∧
      bytes.length = if length.toNat ≤ 0x7f then 1 else 2 := by
  by_cases h : length.toNat ≤ 0x7f
  . exact ⟨_, encodeLength_of_le h, by rw [if_pos h]; rfl⟩
  . exact ⟨_, encodeLength_of_lt (by omega), by rw [if_neg h]; rfl⟩

theorem run_readLength_encodeLength {length : UInt16} {bytes : Bytes}
    (h : encodeLength length = .ok bytes) (rest : Bytes) :
    ∃ v : UInt16, readLength.run (bytes ++ rest) = .ok v rest ∧ v.toNat = length.toNat % 2 ^ 15 := by
  -- The flag of a long length covers its highest bit, so a length of sixteen bits comes back without it.
  by_cases hlength : length.toNat ≤ 0x7f
  . rw [encodeLength_of_le hlength] at h
    cases h
    have htoNat : length.toUInt8.toNat = length.toNat := by
      rw [UInt16.toNat_toUInt8]
      omega
    refine ⟨_, run_readLength_short (by omega) rest, ?_⟩
    rw [UInt8.toNat_toUInt16]
    omega
  . rw [encodeLength_of_lt (by omega)] at h
    cases h
    have hor := or_0x8000 length
    have hhi : (UInt8.ofNat ((length ||| 0x8000).toNat / 256)).toNat =
        (length ||| 0x8000).toNat / 256 := by
      rw [UInt8.toNat_ofNat']
      omega
    have hlo : (UInt8.ofNat (length ||| 0x8000).toNat).toNat = (length ||| 0x8000).toNat % 256 :=
      UInt8.toNat_ofNat'
    refine ⟨_, run_readLength_long (b := .ofNat (length ||| 0x8000).toNat) ?_ rest, ?_⟩
    . rw [hhi]
      omega
    . rw [UInt16.toNat_ofNat', hhi, hlo]
      omega

/--
The bytes from which a length is read. A short length may also stand in two bytes.
-/
inductive LengthCode : Nat → Bytes → Prop where
  | short {a : UInt8} (ha : a.toNat < 2 ^ 7) : LengthCode a.toNat [a]
  | long {a b : UInt8} (ha : 2 ^ 7 ≤ a.toNat) : LengthCode (2 ^ 8 * (a.toNat % 2 ^ 7) + b.toNat) [a, b]

namespace LengthCode

variable {n : Nat} {bytes : Bytes}

theorem lt (h : LengthCode n bytes) : n < 2 ^ 15 := by
  cases h with
  | short ha => omega
  | @long a b ha =>
    have hb := b.toNat_lt
    omega

theorem length_pos (h : LengthCode n bytes) : 0 < bytes.length := by
  cases h <;> simp

end LengthCode

theorem run_readLength_iff {input rest : Bytes} {length : UInt16} :
    readLength.run input = .ok length rest ↔
      ∃ bytes, LengthCode length.toNat bytes ∧ input = bytes ++ rest := by
  constructor
  . intro h
    cases input with
    | nil => cases h
    | cons a input =>
      by_cases ha : a.toNat < 2 ^ 7
      . cases (run_readLength_short ha input).symm.trans h
        refine ⟨[a], ?_, rfl⟩
        rw [UInt8.toNat_toUInt16]
        exact .short ha
      . cases input with
        | nil =>
          have hflag := mt (Tpkt.and_0x80_eq_zero_iff a).mp ha
          rw [readLength, EStateM.run_bind, run_readU8_cons] at h
          simp only [ne_eq, hflag, not_false_eq_true, if_true] at h
          cases h
        | cons b input =>
          have hb := b.toNat_lt
          cases (run_readLength_long (b := b) (Nat.le_of_not_lt ha) input).symm.trans h
          refine ⟨[a, b], ?_, rfl⟩
          rw [UInt16.toNat_ofNat', Nat.mod_eq_of_lt (by omega)]
          exact .long (Nat.le_of_not_lt ha)
  . rintro ⟨bytes, hcode, rfl⟩
    generalize hn : length.toNat = n at hcode
    cases hcode with
    | @short a ha =>
      have hlength : a.toUInt16 = length := by
        rw [← UInt16.toNat_inj, UInt8.toNat_toUInt16, hn]
      rw [List.singleton_append, run_readLength_short ha, hlength]
    | long ha =>
      rw [List.cons_append, List.singleton_append, run_readLength_long ha, ← hn, UInt16.ofNat_toNat]

theorem LengthCode.toNat_ofNat {n : Nat} {bytes : Bytes} (h : LengthCode n bytes) :
    (UInt16.ofNat n).toNat = n := by
  have hlt := h.lt
  rw [UInt16.toNat_ofNat']
  omega

theorem LengthCode.run_readLength {n : Nat} {bytes : Bytes} (h : LengthCode n bytes) (rest : Bytes) :
    readLength.run (bytes ++ rest) = .ok (.ofNat n) rest := by
  apply run_readLength_iff.mpr ⟨bytes, ?_, rfl⟩
  rwa [h.toNat_ofNat]

theorem LengthCode.append_cancel {n : Nat} {bytes bytes' rest rest' : Bytes} (h : LengthCode n bytes)
    (h' : LengthCode n bytes') (heq : bytes ++ rest = bytes' ++ rest') : rest = rest' := by
  have hrun := h.run_readLength rest
  rw [heq, h'.run_readLength rest'] at hrun
  injection hrun with _ hrest
  exact hrest.symm

end Rdp.Per
