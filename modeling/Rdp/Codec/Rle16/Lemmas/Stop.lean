import Rdp.Codec.Rle16.Lemmas.Meaning

/-!
The orders that stop a `Scan`: the ones that are not complete, with an error, and the ones that are
not defined or too long to count, with an abort.
-/

namespace Rdp
namespace Rle16

variable {width height : Nat} {r : Regs} {a : Scan}

def UndefinedOpcode (op : UInt8) : Prop := op = 5 ∨ op = 0xb ∨ op = 0xc ∨ op = 0xf

theorem run_paintN_eof (R : Nat → Regs) (value : Nat → Option UInt16 → UInt16) {m n k : Nat}
    {pixels : List UInt16}
    (hstep : ∀ j, k ≤ j → j < k + m → ∀ up, ∃ r, (pixelValue up).run (R j) = .ok (value j up) r ∧
      afterPixel.run r = .ok () (R (j + 1)))
    (hstop : ∀ up, ∃ r, (pixelValue up).run (R (k + m)) = .error eof r)
    (hknown : knownOpcode (R (k + m)).opcode = true) (hmn : m < n) :
    ∃ e a, (paintN width height n).run { toRegs := R k, pixels } = .error (.error e) a := by
  obtain ⟨n, rfl⟩ : ∃ n', n = n' + 1 := ⟨n - 1, by omega⟩
  induction m generalizing n k pixels with
  | zero =>
    by_cases hroom : pixels.length < width * height
    . have hwidth : 0 < width := Nat.pos_of_mul_pos_right (Nat.lt_of_le_of_lt (Nat.zero_le _) hroom)
      obtain ⟨r, hvalue⟩ := hstop (above width pixels)
      rw [Nat.add_zero] at hvalue
      rw [paintN_succ hwidth hroom, EStateM.run_bind, run_paintPixel]
      simp only [hvalue]
      exact ⟨_, _, rfl⟩
    . exact ⟨_, _, run_paintN_no_room (Nat.le_of_not_lt hroom) hknown⟩
  | succ m ih =>
    have hfirst := hstep k (Nat.le_refl k) (by omega)
    by_cases hroom : pixels.length < width * height
    . have hwidth : 0 < width := Nat.pos_of_mul_pos_right (Nat.lt_of_le_of_lt (Nat.zero_le _) hroom)
      have hnext : k + (m + 1) = k + 1 + m := by omega
      rw [hnext] at hstop hknown
      obtain ⟨n, rfl⟩ : ∃ n', n = n' + 1 := ⟨n - 1, by omega⟩
      rw [paintN_succ hwidth hroom, EStateM.run_bind, run_paintPixel_of_step hfirst]
      exact ih (fun j hj hj' => hstep j (by omega) (by omega)) hstop hknown n (by omega)
    . exact ⟨_, _, run_paintN_no_room (Nat.le_of_not_lt hroom) (knownOpcode_of_step hfirst)⟩

theorem op_lt (c : UInt8) :
    c >>> 5 < 16 ∧ (¬ c < 0xC0 → c < 0xF0 → (c >>> 4) - 6 < 16) ∧ c &&& 0xf < 16 := by
  revert c
  exact forall_uint8 (by decide +kernel)

theorem runLength_lt {length : UInt8} {isMask : Bool} {base count : Nat} {input rest : Bytes}
    (hbase : base ≤ 32) (h : runLength length isMask base input = some (count, rest)) :
    count < 2 ^ 16 := by
  have := length.toNat_lt
  unfold runLength at h
  split at h
  . split at h
    next next rest' =>
      have := next.toNat_lt
      cases h
      split <;> omega
    next => cases h
  . cases h
    split <;> omega

theorem header_count_lt {input rest : Bytes} {op : UInt8} {count : Nat}
    (h : header input = some (op, count, rest)) : count < 2 ^ 16 := by
  unfold header at h
  split at h
  next => cases h
  next c tail =>
    split at h
    . obtain ⟨run, hrun, heq⟩ := Option.map_eq_some_iff.mp h
      cases heq
      exact runLength_lt (by decide) hrun
    . split at h
      . obtain ⟨run, hrun, heq⟩ := Option.map_eq_some_iff.mp h
        cases heq
        exact runLength_lt (by decide) hrun
      . split at h
        . split at h
          next a b _ =>
            cases h
            exact (le16 a b).toNat_lt
          next => cases h
        . cases h
          split <;> decide

theorem run_scanOrder_header {op : UInt8} {count : Nat} {rest : Bytes}
    (hheader : header a.input = some (op, count, rest)) :
    (scanOrder width height).run a =
      match (readArguments (a.pixels.length == 0 || a.pixels.length == width)).run
        (afterHeader a.toRegs op count rest) with
      | .ok _ r => (paintN width height (span r)).run { a with toRegs := r }
      | .error e r => .error e { a with toRegs := r } := by
  have hspec := readHeader_spec (r := a.toRegs)
  rw [hheader] at hspec
  rw [scanOrder, EStateM.run_bind]
  simp only [EStateM.run_get]
  rw [EStateM.run_bind, run_scanRegs, EStateM.run_bind]
  simp only [hspec]
  cases (readArguments (a.pixels.length == 0 || a.pixels.length == width)).run
    (afterHeader a.toRegs op count rest) with
  | ok v r => rfl
  | error e r => rfl

variable (width height) in
theorem run_scanOrder_undefined {op : UInt8} {count : Nat} {rest : Bytes}
    (hheader : header a.input = some (op, count, rest)) (hop : UndefinedOpcode op) :
    (scanOrder width height).run a =
      (paintN width height count).run
        { a with toRegs := { afterHeader a.toRegs op count rest with lastopcode := op, mixmask := 0 } } := by
  rw [run_scanOrder_header hheader]
  rcases hop with rfl | rfl | rfl | rfl <;> simp [readArguments, readOperands, span]

section Incomplete

theorem words_none {n : Nat} {input : Bytes} (h : words n input = none) :
    ∃ m < n, (∀ k < m, ∃ v, word (input.drop (2 * k)) = some (v, input.drop (2 * (k + 1)))) ∧
      word (input.drop (2 * m)) = none := by
  induction n generalizing input with
  | zero => cases h
  | succ n ih =>
    simp only [words, Option.bind_eq_bind] at h
    cases hword : word input with
    | none => exact ⟨0, Nat.succ_pos n, by simp, hword⟩
    | some run =>
      obtain ⟨v, tail⟩ := run
      have htail := word_eq_drop hword
      simp only [hword, Option.bind_some] at h
      have hwords : words n tail = none := by
        cases hwords : words n tail with
        | none => rfl
        | some run => simp [hwords] at h
      obtain ⟨m, hm, hsome, hnone⟩ := ih hwords
      have hdrop : ∀ k, tail.drop (2 * k) = input.drop (2 * (k + 1)) := by
        intro k
        rw [htail, List.drop_drop]
        congr 1
        omega
      refine ⟨m + 1, by omega, ?_, by rw [← hdrop, hnone]⟩
      intro k hk
      cases k with
      | zero => exact ⟨v, by rw [Nat.mul_zero, List.drop_zero, hword, htail]⟩
      | succ k =>
        obtain ⟨v', hv'⟩ := hsome k (by omega)
        exact ⟨v', by rw [← hdrop, hv', hdrop]⟩

theorem run_paintN_words_none {n : Nat} {pixels : List UInt16} (hop : r.opcode = 4)
    (h : words n r.input = none) :
    ∃ e a, (paintN width height n).run { toRegs := r, pixels } = .error (.error e) a := by
  obtain ⟨m, hm, hsome, hnone⟩ := words_none h
  apply run_paintN_eof (k := 0) (m := m)
    (fun k => { r with count := r.count - k, input := r.input.drop (2 * k) })
    (fun k _ => ((word (r.input.drop (2 * k))).map Prod.fst).getD 0)
  . intro j _ hj up
    obtain ⟨v, hv⟩ := hsome j (by omega)
    rw [hv]
    exact literal_step hop hv up
  . intro up
    simp only [pixelValue, EStateM.run_bind, EStateM.run_get, hop, run_cursor_readU16Le,
      Nat.zero_add, hnone]
    exact ⟨_, rfl⟩
  . simp [knownOpcode, hop]
  . exact hm

theorem run_nextMaskBit_eof (h : r.mixmask <<< 1 = 0) (hfixed : r.fomMask = 0)
    (hinput : r.input = []) : ∃ r', nextMaskBit.run r = .error eof r' := by
  simp [nextMaskBit, h, hfixed, run_cursor, hinput, eof]

theorem run_paintN_bytes_none {n : Nat} {pixels : List UInt16} (hop : r.opcode = 2)
    (hfixed : r.fomMask = 0) (hmixmask : r.mixmask = 0) (h : bytes ((n + 7) / 8) r.input = none) :
    ∃ e a, (paintN width height n).run { toRegs := r, pixels } = .error (.error e) a := by
  have hshort : r.input.length < (n + 7) / 8 := by
    unfold bytes at h
    split at h
    . cases h
    . omega
  have hlength : (8 * r.input.length + 7) / 8 = r.input.length := by omega
  have hbytes : bytes ((8 * r.input.length + 7) / 8) r.input = some (r.input, []) := by
    simp [bytes, hlength]
  obtain ⟨hmasks, _⟩ := bytes_masks hfixed hbytes
  have hstart : maskRegs r (fun j => r.input.getD j 0) (fun j => r.input.drop j) 0 = r := by
    simp [maskRegs, ← hmixmask]
  rw [← hstart]
  apply run_paintN_eof (k := 0) (m := 8 * r.input.length)
    (maskRegs r (fun j => r.input.getD j 0) (fun j => r.input.drop j))
    (fun k up => if (r.input.getD (k / 8) 0).toNat.testBit (k % 8) then mixed up r.mix else up.getD 0)
  . exact fun j _ hj => hmasks.step hop (by omega)
  . intro up
    rw [Nat.zero_add]
    have hshift := maskRegs_shift (r := r) (fun j => r.input.getD j 0) (fun j => r.input.drop j)
      (8 * r.input.length)
    rw [if_pos (by omega)] at hshift
    obtain ⟨r', hr'⟩ := run_nextMaskBit_eof hshift hfixed (by simp [maskRegs, hlength])
    refine ⟨r', ?_⟩
    have hop' : (maskRegs r (fun j => r.input.getD j 0) (fun j => r.input.drop j)
      (8 * r.input.length)).opcode = 2 := hop
    simp only [pixelValue, EStateM.run_bind, EStateM.run_get, hop', hr']
  . simp [knownOpcode, maskRegs, hop]
  . omega

theorem header_op_lt {input rest : Bytes} {op : UInt8} {count : Nat}
    (h : header input = some (op, count, rest)) : op < 16 := by
  unfold header at h
  split at h
  next => cases h
  next c tail =>
    split at h
    . obtain ⟨run, _, heq⟩ := Option.map_eq_some_iff.mp h
      cases heq
      exact (op_lt c).1
    . split at h
      next hmid =>
        obtain ⟨run, _, heq⟩ := Option.map_eq_some_iff.mp h
        cases heq
        exact (op_lt c).2.1 (by assumption) hmid
      next =>
        split at h
        . split at h
          next =>
            cases h
            exact (op_lt c).2.2
          next => cases h
        . cases h
          exact (op_lt c).2.2

theorem known_of_lt (op : UInt8) (h : op < 16) (hundefined : ¬ UndefinedOpcode op) :
    op = 0 ∨ op = 1 ∨ op = 2 ∨ op = 3 ∨ op = 4 ∨ op = 6 ∨ op = 7 ∨ op = 8 ∨ op = 9 ∨ op = 0xa ∨
      op = 0xd ∨ op = 0xe := by
  simp only [UndefinedOpcode, ← UInt8.toNat_inj, UInt8.lt_iff_toNat_lt, UInt8.reduceToNat] at *
  omega

theorem run_scanOrder_incomplete {op : UInt8} {count : Nat} {tail : Bytes}
    (hheader : header a.input = some (op, count, tail)) (hop : ¬ UndefinedOpcode op)
    (hparse : parseOrder a.input = none) :
    ∃ e a', (scanOrder width height).run a = .error (.error e) a' := by
  rw [run_scanOrder_header hheader]
  simp only [parseOrder, hheader, Option.bind_eq_bind, Option.bind_some] at hparse
  rcases known_of_lt op (header_op_lt hheader) hop with
    rfl | rfl | rfl | rfl | rfl | rfl | rfl | rfl | rfl | rfl | rfl | rfl
  . cases hparse
  . cases hparse
  . have hbytes : bytes ((count + 7) / 8) tail = none := by
      cases hbytes : bytes ((count + 7) / 8) tail with
      | none => rfl
      | some run => simp [hbytes] at hparse
    have hread : (readArguments (a.pixels.length == 0 || a.pixels.length == width)).run
        (afterHeader a.toRegs 2 count tail) =
        .ok () { afterHeader a.toRegs 2 count tail with lastopcode := 2, mixmask := 0 } := by
      simp [readArguments, readOperands]
    rw [hread]
    exact run_paintN_bytes_none rfl rfl rfl hbytes
  . cases hword : word tail with
    | none =>
      simp [readArguments, readOperands, run_cursor_readU16Le, hword]
    | some run => simp [hword] at hparse
  . have hwords : words count tail = none := by
      cases hwords : words count tail with
      | none => rfl
      | some run => simp [hwords] at hparse
    have hread : (readArguments (a.pixels.length == 0 || a.pixels.length == width)).run
        (afterHeader a.toRegs 4 count tail) =
        .ok () { afterHeader a.toRegs 4 count tail with lastopcode := 4, mixmask := 0 } := by
      simp [readArguments, readOperands]
    rw [hread]
    exact run_paintN_words_none rfl hwords
  . cases hword : word tail with
    | none =>
      simp [readArguments, readOperands, run_cursor_readU16Le, hword]
    | some run => simp [hword] at hparse
  . cases hword : word tail with
    | none =>
      simp [readArguments, readOperands, run_cursor_readU16Le, hword]
    | some run =>
      obtain ⟨mix, tail'⟩ := run
      have hbytes : bytes ((count + 7) / 8) tail' = none := by
        cases hbytes : bytes ((count + 7) / 8) tail' with
        | none => rfl
        | some run => simp [hword, hbytes] at hparse
      have hread : (readArguments (a.pixels.length == 0 || a.pixels.length == width)).run
          (afterHeader a.toRegs 7 count tail) =
          .ok () { afterHeader a.toRegs 2 count tail' with mix, lastopcode := 2, mixmask := 0 } := by
        simp [readArguments, readOperands, run_cursor_readU16Le, hword, afterHeader]
      rw [hread]
      exact run_paintN_bytes_none rfl rfl rfl hbytes
  . cases hword : word tail with
    | none =>
      simp [readArguments, readOperands, run_cursor_readU16Le, hword]
    | some run =>
      obtain ⟨c1, tail'⟩ := run
      cases hword' : word tail' with
      | none =>
        simp [readArguments, readOperands, run_cursor_readU16Le, hword, hword']
      | some run => simp [hword, hword'] at hparse
  . cases hparse
  . cases hparse
  . cases hparse
  . cases hparse

end Incomplete

section Panic

theorem run_scanOrder_header_none (hheader : header a.input = none) :
    ∃ e a', (scanOrder width height).run a = .error (.error e) a' := by
  have hspec := readHeader_spec (r := a.toRegs)
  rw [hheader] at hspec
  obtain ⟨r, hr⟩ := hspec
  rw [scanOrder, EStateM.run_bind]
  simp only [EStateM.run_get]
  rw [EStateM.run_bind, run_scanRegs, EStateM.run_bind]
  simp only [hr]
  exact ⟨_, _, rfl⟩

theorem parseOrder_undefined {input tail : Bytes} {op : UInt8} {count : Nat}
    (hheader : header input = some (op, count, tail)) (hop : UndefinedOpcode op) :
    parseOrder input = none := by
  rcases hop with rfl | rfl | rfl | rfl <;> simp [parseOrder, hheader]

theorem parseOrder_dithered {input rest : Bytes} {c1 c2 : UInt16} {n : Nat}
    (h : parseOrder input = some (⟨.dithered c1 c2, n⟩, rest)) :
    ∃ tail tail', header input = some (8, n, tail) ∧ word tail = some (c1, tail') ∧
      word tail' = some (c2, rest) := by
  obtain ⟨op, count, tail, hheader⟩ := header_of_parseOrder h
  simp only [parseOrder, hheader, Option.bind_eq_bind, Option.bind_some] at h
  split at h <;>
    simp only [Option.bind_eq_some_iff, Option.some.injEq, Prod.mk.injEq, Prod.exists,
      Order.mk.injEq, reduceCtorEq, false_and, and_false, exists_const] at h
  obtain ⟨_, tail', hword, _, _, hword', ⟨heq, rfl⟩, rfl⟩ := h
  cases heq
  exact ⟨tail, tail', hheader, hword, hword'⟩

theorem run_scanOrder_undefined_panic {op : UInt8} {count : Nat} {tail : Bytes}
    (hheader : header a.input = some (op, count, tail)) (hop : UndefinedOpcode op)
    (hcount : 0 < count)
    (hroom : a.pixels.length < width * height ∨ width = 0 ∧ 0 < height) :
    ∃ a', (scanOrder width height).run a = .error (.panic "opcode") a' := by
  have hunknown : knownOpcode op = false := by
    rcases hop with rfl | rfl | rfl | rfl <;> rfl
  obtain ⟨n, rfl⟩ : ∃ n, count = n + 1 := ⟨count - 1, by omega⟩
  rw [run_scanOrder_undefined width height hheader hop]
  rcases hroom with hroom | ⟨rfl, hheight⟩
  . have hwidth : 0 < width := Nat.pos_of_mul_pos_right (Nat.lt_of_le_of_lt (Nat.zero_le _) hroom)
    rw [paintN_succ hwidth (by exact hroom), EStateM.run_bind, run_paintPixel]
    simp only
    rw [run_pixelValue_unknown (by exact hunknown)]
    exact ⟨_, rfl⟩
  . rw [run_paintN_zero]
    simp [hunknown, Nat.ne_of_gt hheight]

theorem run_scanOrder_undefined_full {op : UInt8} {count : Nat} {tail : Bytes}
    (hheader : header a.input = some (op, count, tail)) (hop : UndefinedOpcode op)
    (hcount : 0 < count)
    (hroom : ¬ (a.pixels.length < width * height ∨ width = 0 ∧ 0 < height)) :
    ∃ e a', (scanOrder width height).run a = .error (.error e) a' := by
  obtain ⟨n, rfl⟩ : ∃ n, count = n + 1 := ⟨count - 1, by omega⟩
  rw [run_scanOrder_undefined width height hheader hop, paintN_full (by simp only; omega) (by omega)]
  exact ⟨_, _, rfl⟩

variable (width height) in
theorem run_scanOrder_overflow {c1 c2 : UInt16} {rest : Bytes}
    (h : parseOrder a.input = some (⟨.dithered c1 c2, 65535⟩, rest)) (hbi : a.bicolour = false) :
    if a.pixels.length < width * height then
      ∃ a', (scanOrder width height).run a = .error (.panic "attempt to add with overflow") a'
    else
      ∃ e a', (scanOrder width height).run a = .error (.error e) a' := by
  -- A dithered run of the longest length that can be encoded: counting its first pixel twice does not
  -- fit.
  obtain ⟨tail, tail', hheader, hword, hword'⟩ := parseOrder_dithered h
  have hread : (readArguments (a.pixels.length == 0 || a.pixels.length == width)).run
      (afterHeader a.toRegs 8 65535 tail) =
      .ok () { afterHeader a.toRegs 8 65535 rest with
        colour1 := c1, colour2 := c2, lastopcode := 8, mixmask := 0 } := by
    simp [readArguments, readOperands, run_cursor_readU16Le, hword, hword', afterHeader]
  rw [run_scanOrder_header hheader, hread]
  have hspan : span { afterHeader a.toRegs 8 65535 rest with
      colour1 := c1, colour2 := c2, lastopcode := 8, mixmask := 0 } = 131069 + 1 := by
    simp [span, hbi]
  simp only [hspan]
  split
  next hroom =>
    have hwidth : 0 < width := Nat.pos_of_mul_pos_right (Nat.lt_of_le_of_lt (Nat.zero_le _) hroom)
    rw [paintN_succ hwidth (by exact hroom), EStateM.run_bind, run_paintPixel]
    simp [pixelValue, afterPixel, hbi, checkedAdd]
  next hroom =>
    rw [run_paintN_no_room (by exact Nat.le_of_not_lt hroom) rfl]
    exact ⟨_, _, rfl⟩

end Panic

end Rle16
end Rdp
