import Rdp.Codec.Rle16.Order

/-!
What the decoder reads at the start of an order is its header and its arguments.
-/

namespace Rdp
namespace Rle16

theorem shiftRight_low (c : UInt8) (h : c < 0xC0) :
    (c >>> 4 ≠ 0xC ∧ c >>> 4 ≠ 0xD ∧ c >>> 4 ≠ 0xE ∧ c >>> 4 ≠ 0xF) ∧ c >>> 4 >>> 1 = c >>> 5 := by
  revert h
  revert c
  exact forall_uint8 (by decide +kernel)

theorem isMask_low (c : UInt8) (h : c < 0xC0) : (c >>> 5 == 2 || c >>> 5 == 7) = (c >>> 5 == 2) := by
  revert h
  revert c
  exact forall_uint8 (by decide +kernel)

theorem isMask_mid (c : UInt8) (h : ¬ c < 0xC0) (h' : c < 0xF0) :
    ((c >>> 4) - 6 == 2 || (c >>> 4) - 6 == 7) = ((c >>> 4) - 6 == 7) := by
  revert h h'
  revert c
  exact forall_uint8 (by decide +kernel)

theorem shiftRight_mid (c : UInt8) (h : ¬ c < 0xC0) (h' : c < 0xF0) :
    c >>> 4 = 0xC ∨ c >>> 4 = 0xD ∨ c >>> 4 = 0xE := by
  revert h h'
  revert c
  exact forall_uint8 (by decide +kernel)

theorem shiftRight_high (c : UInt8) (h : ¬ c < 0xF0) : c >>> 4 = 0xF := by
  revert h
  revert c
  exact forall_uint8 (by decide +kernel)

theorem land_lt (c : UInt8) : (c &&& 0x1f).toNat < 32 ∧ (c &&& 0xf).toNat < 16 := by
  revert c
  exact forall_uint8 (by decide +kernel)

theorem word_length {input rest : Bytes} {v : UInt16} (h : word input = some (v, rest)) :
    rest.length + 2 = input.length := by
  unfold word at h
  split at h
  . cases h
    rfl
  . cases h

theorem runLength_length {length : UInt8} {isMask : Bool} {base count : Nat} {input rest : Bytes}
    (h : runLength length isMask base input = some (count, rest)) : rest.length ≤ input.length := by
  unfold runLength at h
  split at h
  . split at h
    . cases h
      simp
    . cases h
  . cases h
    exact Nat.le_refl _

theorem header_length {input rest : Bytes} {op : UInt8} {count : Nat}
    (h : header input = some (op, count, rest)) : rest.length < input.length := by
  unfold header at h
  split at h
  next => cases h
  next c tail =>
    split at h
    . obtain ⟨run, hrun, heq⟩ := Option.map_eq_some_iff.mp h
      cases heq
      exact Nat.lt_succ_of_le (runLength_length hrun)
    . split at h
      . obtain ⟨run, hrun, heq⟩ := Option.map_eq_some_iff.mp h
        cases heq
        exact Nat.lt_succ_of_le (runLength_length hrun)
      . split at h
        . split at h
          . cases h
            simp only [List.length_cons]
            omega
          . cases h
        . cases h
          exact Nat.lt_succ_self _

section Header

variable {r : Regs}

theorem run_cursor (x : Reader α) :
    (cursor x).run r =
      match x.run r.input with
      | .ok v input => .ok v { r with input }
      | .error e input => .error e { r with input } := by
  rw [cursor, Prog.run_zoom]
  cases x.run r.input <;> rfl

theorem run_cursor_readU16Le :
    (cursor Cursor.readU16Le).run r =
      match word r.input with
      | some (v, rest) => .ok v { r with input := rest }
      | none => .error (.error (.io .unexpectedEof)) { r with input := [] } := by
  rw [run_cursor]
  cases hinput : r.input with
  | nil => rfl
  | cons a rest =>
    cases rest with
    | nil => rfl
    | cons b rest => rfl

@[simps]
def afterHeader (r : Regs) (op : UInt8) (count : Nat) (rest : Bytes) : Regs :=
  { r with fomMask := 0, opcode := op, count, input := rest }

theorem run_readCount {op length : UInt8} {isMask : Bool} {base : Nat}
    (hmask : (op == 2 || op == 7) = isMask) (hlength : length.toNat < 32)
    (hbase : base = 16 ∨ base = 32) :
    (readCount op length.toNat base).run r =
      match runLength length isMask base r.input with
      | some (count, rest) => .ok count { r with input := rest }
      | none => .error (.error (.io .unexpectedEof)) r := by
  have hoffset : (base != 0) = true := by
    rcases hbase with rfl | rfl <;> rfl
  simp only [readCount, hoffset, hmask, if_true, runLength]
  by_cases hzero : length = 0
  . subst hzero
    simp only [UInt8.toNat_zero, beq_self_eq_true, if_true, EStateM.run_bind, run_cursor]
    cases hinput : r.input with
    | nil =>
      have hr : { r with input := [] } = r := by rw [← hinput]
      simp only [Cursor.run_readU8_nil, hr]
    | cons next rest =>
      have := next.toNat_lt
      have hfits : next.toNat + (if isMask = true then 1 else base) < 2 ^ 16 := by
        split <;> rcases hbase with rfl | rfl <;> omega
      simp only [Cursor.run_readU8_cons, checkedAdd_of_lt hfits, Prog.run_lift_ok]
  . have hne : (length.toNat == 0) = false := by
      simpa [← UInt8.toNat_inj] using hzero
    simp only [hne, if_neg hzero, Bool.false_eq_true, if_false]
    split
    . rw [EStateM.run_pure, Nat.shiftLeft_eq, Nat.mod_eq_of_lt (by omega), Nat.mul_comm]
    . rfl

theorem readOpcode_low {c : UInt8} (h : c < 0xC0) :
    readOpcode c = pure (c >>> 5, (c &&& 0x1f).toNat, 32) := by
  obtain ⟨⟨hc, hd, he, hf⟩, hop⟩ := shiftRight_low c h
  rw [← hop, readOpcode]
  split <;> simp_all

theorem readOpcode_mid {c : UInt8} (h : ¬ c < 0xC0) (h' : c < 0xF0) :
    readOpcode c = pure ((c >>> 4) - 6, (c &&& 0xf).toNat, 16) := by
  rw [readOpcode]
  rcases shiftRight_mid c h h' with hop | hop | hop <;> simp [hop]

theorem run_readOpcode_high {c : UInt8} (h : ¬ c < 0xF0) :
    (readOpcode c).run r =
      if c &&& 0xf < 9 then
        match word r.input with
        | some (count, rest) => .ok (c &&& 0xf, count.toNat, 0) { r with input := rest }
        | none => .error (.error (.io .unexpectedEof)) { r with input := [] }
      else
        .ok (c &&& 0xf, if c &&& 0xf < 0xb then 8 else 1, 0) r := by
  simp only [readOpcode, shiftRight_high c h]
  split
  . rw [EStateM.run_bind, run_cursor_readU16Le]
    cases word r.input <;> rfl
  . split <;> rfl

theorem readHeader_spec :
    match header r.input with
    | some (op, count, rest) => readHeader.run r = .ok () (afterHeader r op count rest)
    | none => ∃ r', readHeader.run r = .error (.error (.io .unexpectedEof)) r' := by
  cases hinput : r.input with
  | nil =>
    simp [header, readHeader, run_cursor, hinput]
  | cons c tail =>
    obtain ⟨hlong, hshort⟩ := land_lt c
    simp only [header, readHeader, EStateM.run_bind, EStateM.run_modify, run_cursor, hinput,
      Cursor.run_readU8_cons]
    by_cases hlow : c < 0xC0
    . rw [readOpcode_low hlow, EStateM.run_pure]
      simp only [hlow, if_true, run_readCount (isMask_low c hlow) hlong (Or.inr rfl)]
      cases runLength (c &&& 0x1f) (c >>> 5 == 2) 32 tail with
      | none => exact ⟨_, rfl⟩
      | some run => rfl
    . by_cases hmid : c < 0xF0
      . rw [readOpcode_mid hlow hmid, EStateM.run_pure]
        simp only [hlow, hmid, if_true, if_false,
          run_readCount (isMask_mid c hlow hmid) (Nat.lt_trans hshort (by decide)) (Or.inl rfl)]
        cases runLength (c &&& 0xf) ((c >>> 4) - 6 == 7) 16 tail with
        | none => exact ⟨_, rfl⟩
        | some run => rfl
      . simp only [hlow, hmid, if_false, run_readOpcode_high hmid]
        by_cases hop : c &&& 0xf < 9
        . simp only [hop, if_true]
          match tail with
          | [] => exact ⟨_, rfl⟩
          | [_] => exact ⟨_, rfl⟩
          | a :: b :: rest => rfl
        . simp only [hop, if_false]
          rfl

theorem readArguments_moves {R : Regs → Regs → Prop} [IsPreorder Regs R] {firstRow : Bool}
    (hread : Prog.Moves R (cursor Cursor.readU16Le))
    (hset : ∀ (r : Regs) opcode lastopcode colour1 colour2 mix mask fomMask mixmask,
      R r { r with opcode, lastopcode, colour1, colour2, mix, mask, fomMask, mixmask })
    (hinsert : firstRow = false → ∀ r : Regs, R r { r with insertmix := true }) :
    Prog.Moves R (readArguments firstRow) := by
  have hmodify : ∀ f : Regs → Regs, (∀ r, R r (f r)) →
      Prog.Moves R (modify f : Prog Error Regs PUnit) := fun _ hf => Prog.Moves.modify hf
  refine Prog.Moves.bind ?_ fun _ => hmodify _ fun r => hset r _ _ _ _ _ _ _ _
  refine Prog.Moves.bind Prog.Moves.get fun r => ?_
  split
  . split
    next h =>
      simp only [Bool.and_eq_true, Bool.not_eq_true'] at h
      exact hmodify _ (hinsert h.2)
    next => exact Prog.Moves.pure _
  . refine Prog.Moves.bind hread fun c1 => ?_
    refine Prog.Moves.bind (hmodify _ fun r => hset r _ _ c1 _ _ _ _ _) fun _ => ?_
    exact Prog.Moves.bind hread fun c2 => hmodify _ fun r => hset r _ _ _ c2 _ _ _ _
  . exact Prog.Moves.bind hread fun c2 => hmodify _ fun r => hset r _ _ _ c2 _ _ _ _
  . exact Prog.Moves.bind hread fun mix => hmodify _ fun r => hset r _ _ _ _ mix _ _ _
  . exact Prog.Moves.bind hread fun mix => hmodify _ fun r => hset r _ _ _ _ mix _ _ _
  . exact hmodify _ fun r => hset r _ _ _ _ _ _ _ _
  . exact hmodify _ fun r => hset r _ _ _ _ _ _ _ _
  . exact Prog.Moves.pure _

end Header

end Rle16
end Rdp
