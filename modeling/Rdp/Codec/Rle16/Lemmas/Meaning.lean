import Rdp.Codec.Rle16.Lemmas.Termination

/-!
The pixels a `Scan` appends for a complete order are the ones the order stands for.
-/

namespace Rdp
namespace Rle16

variable {width height : Nat} {r : Regs}

structure Finished (r : Regs) (n : Nat) (rest : Bytes) (r' : Regs) : Prop where
  input : r'.input = rest
  bicolour : r'.bicolour = false
  mix : r'.mix = r.mix
  lastopcode : r'.lastopcode = r.lastopcode
  insertmix : r.insertmix = false ∨ (r.opcode = 0 ∧ 0 < n) → r'.insertmix = false

/--
An order that starts with the registers `r` paints the `n` pixels `value` and goes on with `rest`:
`R k` are the registers before the `k`-th pixel.
-/
def Decodes (r : Regs) (n : Nat) (value : Nat → Option UInt16 → UInt16) (rest : Bytes) : Prop :=
  ∃ R : Nat → Regs, R 0 = r ∧ Finished r n rest (R n) ∧
    ∀ k < n, ∀ up, ∃ m, (pixelValue up).run (R k) = .ok (value k up) m ∧
      afterPixel.run m = .ok () (R (k + 1))

theorem length_appendPixels (value : Nat → Option UInt16 → UInt16) (k n : Nat)
    (pixels : List UInt16) :
    (appendPixels width value k n pixels).length = pixels.length + n := by
  induction n generalizing k pixels with
  | zero => rfl
  | succ n ih =>
    rw [appendPixels, ih]
    simp only [List.length_append, List.length_cons, List.length_nil]
    omega

theorem run_pixelValue_unknown {up : Option UInt16} (h : knownOpcode r.opcode = false) :
    (pixelValue up).run r = .error (.panic "opcode") r := by
  unfold knownOpcode at h
  split at h <;> simp_all [pixelValue]

section Paint

variable {R : Nat → Regs} {value : Nat → Option UInt16 → UInt16} {n : Nat}

theorem run_paintPixel_of_step {k : Nat} {pixels : List UInt16}
    (hstep : ∀ up, ∃ m, (pixelValue up).run (R k) = .ok (value k up) m ∧
      afterPixel.run m = .ok () (R (k + 1))) :
    (paintPixel width).run { toRegs := R k, pixels } =
      .ok () { toRegs := R (k + 1), pixels := pixels ++ [value k (above width pixels)] } := by
  obtain ⟨m, hvalue, hafter⟩ := hstep (above width pixels)
  rw [run_paintPixel]
  simp only [hvalue, hafter]

theorem paintN_succ (hwidth : 0 < width) {a : Scan} (hroom : a.pixels.length < width * height) :
    (paintN width height (n + 1)).run a =
      (do paintPixel width; paintN width height n : Prog Error Scan Unit).run a := by
  rw [paintN_eq_times hwidth (Nat.succ_le_succ (Nat.zero_le n)) hroom, Prog.times_succ]
  simp only [Prog.times_zero, bind_assoc, pure_bind, Nat.succ_eq_add_one, Nat.zero_add,
    Nat.add_sub_cancel]

theorem knownOpcode_of_step {k : Nat}
    (hstep : ∀ up, ∃ m, (pixelValue up).run (R k) = .ok (value k up) m ∧
      afterPixel.run m = .ok () (R (k + 1))) : knownOpcode (R k).opcode = true := by
  obtain ⟨m, hvalue, _⟩ := hstep none
  by_contra hunknown
  simp only [Bool.not_eq_true] at hunknown
  rw [run_pixelValue_unknown hunknown] at hvalue
  cases hvalue

theorem run_paintN_no_room {a : Scan} (hfull : width * height ≤ a.pixels.length)
    (hknown : knownOpcode a.opcode = true) :
    (paintN width height (n + 1)).run a =
      .error (.error (.new .invalidData "error during decompress")) a := by
  by_cases hwidth : width = 0
  . subst hwidth
    rw [run_paintN_zero, hknown]
    simp
  . exact paintN_full hfull (by omega)

theorem run_paintN_fits {k : Nat} {pixels : List UInt16}
    (hstep : ∀ j, k ≤ j → j < k + n → ∀ up, ∃ m, (pixelValue up).run (R j) = .ok (value j up) m ∧
      afterPixel.run m = .ok () (R (j + 1)))
    (hroom : pixels.length + n ≤ width * height) :
    (paintN width height n).run { toRegs := R k, pixels } =
      .ok () { toRegs := R (k + n), pixels := appendPixels width value k n pixels } := by
  induction n generalizing k pixels with
  | zero => rfl
  | succ n ih =>
    have hwidth : 0 < width := Nat.pos_of_mul_pos_right (Nat.lt_of_lt_of_le (Nat.succ_pos _) hroom)
    rw [paintN_succ hwidth (by simp only; omega), EStateM.run_bind,
      run_paintPixel_of_step (hstep k (Nat.le_refl k) (by omega))]
    simp only
    rw [ih (fun j hj hj' => hstep j (by omega) (by omega)) (by simp; omega), appendPixels,
      Nat.add_right_comm, Nat.add_assoc]

theorem run_paintN_full {k : Nat} {pixels : List UInt16}
    (hstep : ∀ j, k ≤ j → j < k + n → ∀ up, ∃ m, (pixelValue up).run (R j) = .ok (value j up) m ∧
      afterPixel.run m = .ok () (R (j + 1)))
    (hle : pixels.length ≤ width * height) (hfull : width * height < pixels.length + n) :
    ∃ a, (paintN width height n).run { toRegs := R k, pixels } =
      .error (.error (.new .invalidData "error during decompress")) a := by
  induction n generalizing k pixels with
  | zero => omega
  | succ n ih =>
    by_cases hroom : pixels.length < width * height
    . have hwidth : 0 < width := Nat.pos_of_mul_pos_right (Nat.lt_of_le_of_lt (Nat.zero_le _) hroom)
      rw [paintN_succ hwidth (by simp only; omega), EStateM.run_bind,
        run_paintPixel_of_step (hstep k (Nat.le_refl k) (by omega))]
      exact ih (fun j hj hj' => hstep j (by omega) (by omega)) (by simp; omega) (by simp; omega)
    . have hknown := knownOpcode_of_step (hstep k (Nat.le_refl k) (by omega))
      exact ⟨_, run_paintN_no_room (Nat.le_of_not_lt hroom) hknown⟩

end Paint

section Kinds

theorem Decodes.of_value {value : Option UInt16 → UInt16} (h0 : r.opcode ≠ 0) (h8 : r.opcode ≠ 8)
    (hbi : r.bicolour = false)
    (hvalue : ∀ up count, (pixelValue up).run { r with count } = .ok (value up) { r with count }) :
    Decodes r r.count (fun _ up => value up) r.input := by
  refine ⟨fun k => { r with count := r.count - k }, rfl, ?_, ?_⟩
  . constructor
    . rfl
    . exact hbi
    . rfl
    . rfl
    . rintro (hmix | ⟨hop, _⟩)
      . exact hmix
      . exact absurd hop h0
  . intro k _ up
    exact ⟨_, hvalue up _, run_afterPixel h8 (fun h => absurd h h0)⟩

theorem Decodes.background (hop : r.opcode = 0) (hbi : r.bicolour = false) :
    Decodes r r.count (fun k up => if r.insertmix && k == 0 then mixed up r.mix else up.getD 0)
      r.input := by
  refine ⟨fun k => { r with count := r.count - k, insertmix := r.insertmix && k == 0 }, ?_, ?_, ?_⟩
  . simp
  . constructor
    . rfl
    . exact hbi
    . rfl
    . rfl
    . rintro (hmix | ⟨_, hn⟩)
      . simp [hmix]
      . simp
        omega
  . intro k _ up
    refine ⟨_, by simp only [pixelValue, EStateM.run_bind, EStateM.run_get, hop]; rfl, ?_⟩
    simp [afterPixel, hop]
    omega

theorem word_eq_drop {input rest : Bytes} {v : UInt16} (h : word input = some (v, rest)) :
    rest = input.drop 2 := by
  unfold word at h
  split at h
  . cases h
    rfl
  . cases h

theorem words_getD {n : Nat} {input rest : Bytes} {pixels : List UInt16}
    (h : words n input = some (pixels, rest)) :
    rest = input.drop (2 * n) ∧
      ∀ k < n, word (input.drop (2 * k)) = some (pixels.getD k 0, input.drop (2 * (k + 1))) := by
  induction n generalizing input pixels with
  | zero =>
    cases h
    exact ⟨rfl, by simp⟩
  | succ n ih =>
    simp only [words, Option.bind_eq_bind, Option.bind_eq_some_iff, Option.some.injEq,
      Prod.exists, Prod.mk.injEq] at h
    obtain ⟨v, tail, hword, vs, rest', hwords, rfl, rfl⟩ := h
    obtain ⟨hrest, hnth⟩ := ih hwords
    have htail := word_eq_drop hword
    have hdrop : ∀ m, tail.drop (2 * m) = input.drop (2 * (m + 1)) := by
      intro m
      rw [htail, List.drop_drop]
      congr 1
      omega
    refine ⟨by rw [hrest, hdrop], ?_⟩
    intro k hk
    cases k with
    | zero =>
      rw [Nat.mul_zero, List.drop_zero, hword, htail]
      rfl
    | succ k =>
      rw [← hdrop, hnth k (by omega), hdrop]
      rfl

theorem literal_step {k : Nat} {v : UInt16} (hop : r.opcode = 4)
    (hword : word (r.input.drop (2 * k)) = some (v, r.input.drop (2 * (k + 1))))
    (up : Option UInt16) :
    ∃ m, (pixelValue up).run { r with count := r.count - k, input := r.input.drop (2 * k) } =
        .ok v m ∧
      afterPixel.run m =
        .ok () { r with count := r.count - (k + 1), input := r.input.drop (2 * (k + 1)) } := by
  refine ⟨{ r with count := r.count - k, input := r.input.drop (2 * (k + 1)) }, ?_, ?_⟩
  . simp only [pixelValue, EStateM.run_bind, EStateM.run_get, hop, run_cursor_readU16Le, hword]
  . exact run_afterPixel (by simp [hop]) (by simp [hop])

theorem Decodes.literal {pixels : List UInt16} {rest : Bytes} (hop : r.opcode = 4)
    (hbi : r.bicolour = false) (hwords : words r.count r.input = some (pixels, rest)) :
    Decodes r r.count (fun k _ => pixels.getD k 0) rest := by
  obtain ⟨hrest, hnth⟩ := words_getD hwords
  refine ⟨fun k => { r with count := r.count - k, input := r.input.drop (2 * k) }, rfl, ?_, ?_⟩
  . constructor
    . exact hrest.symm
    . exact hbi
    . rfl
    . rfl
    . rintro (hmix | ⟨h0, _⟩)
      . exact hmix
      . rw [hop] at h0
        cases h0
  . exact fun k hk up => literal_step hop (hnth k hk) up

theorem Decodes.dithered (hop : r.opcode = 8) (hbi : r.bicolour = false)
    (hcount : r.count ≤ 65534) :
    Decodes r (2 * r.count) (fun k _ => if k % 2 = 0 then r.colour1 else r.colour2) r.input := by
  refine ⟨fun k => { r with count := r.count - k / 2, bicolour := k % 2 == 1 }, ?_, ?_, ?_⟩
  . simp [← hbi]
  . constructor
    . rfl
    . simp
    . rfl
    . rfl
    . rintro (hmix | ⟨h0, _⟩)
      . exact hmix
      . rw [hop] at h0
        cases h0
  . intro k hk up
    rcases Nat.mod_two_eq_zero_or_one k with hpar | hpar
    . have hpar' : (k + 1) % 2 = 1 := by omega
      have hhalf : (k + 1) / 2 = k / 2 := by omega
      have hfits : r.count - k / 2 + 1 < 2 ^ 16 := by omega
      refine ⟨_, by simp only [pixelValue, EStateM.run_bind, EStateM.run_get, hop, hpar]; rfl, ?_⟩
      simp [afterPixel, hop, hpar', hhalf, checkedAdd_of_lt hfits]
    . have hpar' : (k + 1) % 2 = 0 := by omega
      have hhalf : (k + 1) / 2 = k / 2 + 1 := by omega
      refine ⟨_, by simp only [pixelValue, EStateM.run_bind, EStateM.run_get, hop, hpar]; rfl, ?_⟩
      simp [afterPixel, hop, hpar', hhalf]
      omega

theorem testBit_eq (mask : UInt8) (j : Nat) (hj : j < 8) :
    (mask &&& 1 <<< UInt8.ofNat j != 0) = mask.toNat.testBit j := by
  revert mask
  apply forall_uint8
  revert j
  decide +kernel

theorem bit_ne_zero (j : Nat) (hj : j < 8) : (1 <<< UInt8.ofNat j : UInt8) ≠ 0 := by
  revert j
  decide +kernel

theorem shiftLeft_bit (j : Nat) (hj : j < 8) :
    ((1 <<< UInt8.ofNat j : UInt8) <<< 1 == 0) = (j == 7) ∧
      (j ≠ 7 → (1 <<< UInt8.ofNat j : UInt8) <<< 1 = 1 <<< UInt8.ofNat (j + 1)) := by
  revert j
  decide +kernel

theorem run_nextMaskBit_shift (h : r.mixmask <<< 1 ≠ 0) :
    nextMaskBit.run r =
      .ok (r.mask &&& r.mixmask <<< 1 != 0) { r with mixmask := r.mixmask <<< 1 } := by
  simp [nextMaskBit, h]

theorem run_nextMaskBit_fixed (h : r.mixmask <<< 1 = 0) (hfixed : r.fomMask ≠ 0) :
    nextMaskBit.run r =
      .ok (r.fomMask &&& 1 != 0) { r with mask := r.fomMask, mixmask := 1 } := by
  simp [nextMaskBit, h, hfixed]

theorem run_nextMaskBit_read {m : UInt8} {rest : Bytes} (h : r.mixmask <<< 1 = 0)
    (hfixed : r.fomMask = 0) (hinput : r.input = m :: rest) :
    nextMaskBit.run r =
      .ok (m &&& 1 != 0) { r with mask := m, mixmask := 1, input := rest } := by
  simp [nextMaskBit, h, hfixed, run_cursor, hinput]

/--
The mask bytes of an order: `mask j` is the `j`-th one and is read from `input j`.
-/
structure Masks (r : Regs) (n : Nat) (mask : Nat → UInt8) (input : Nat → Bytes) : Prop where
  start : input 0 = r.input
  next : ∀ j, 8 * j < n →
    r.fomMask ≠ 0 ∧ mask j = r.fomMask ∧ input (j + 1) = input j ∨
      r.fomMask = 0 ∧ input j = mask j :: input (j + 1)

def maskRegs (r : Regs) (mask : Nat → UInt8) (input : Nat → Bytes) (k : Nat) : Regs :=
  { r with
    count := r.count - k
    mask := if k = 0 then r.mask else mask ((k - 1) / 8)
    mixmask := if k = 0 then 0 else 1 <<< UInt8.ofNat ((k - 1) % 8)
    input := input ((k + 7) / 8) }

theorem maskRegs_shift (mask : Nat → UInt8) (input : Nat → Bytes) (k : Nat) :
    (maskRegs r mask input k).mixmask <<< (1 : UInt8) =
      if k % 8 = 0 then 0 else (1 : UInt8) <<< UInt8.ofNat (k % 8) := by
  cases k with
  | zero => rfl
  | succ k =>
    obtain ⟨hzero, hnext⟩ := shiftLeft_bit (k % 8) (Nat.mod_lt k (by decide))
    simp only [maskRegs, Nat.succ_ne_zero, if_false, Nat.add_sub_cancel]
    by_cases hlast : k % 8 = 7
    . rw [if_pos (by omega)]
      simpa [hlast] using hzero
    . rw [if_neg (by omega), hnext hlast]
      congr 2
      omega

theorem Masks.run_nextMaskBit {n k : Nat} {mask : Nat → UInt8} {input : Nat → Bytes}
    (h : Masks r n mask input) (hk : k < n) :
    nextMaskBit.run (maskRegs r mask input k) =
      .ok ((mask (k / 8)).toNat.testBit (k % 8))
        { maskRegs r mask input (k + 1) with count := r.count - k } := by
  have hshift := maskRegs_shift (r := r) mask input k
  have hbit := testBit_eq (mask (k / 8)) (k % 8) (Nat.mod_lt k (by decide))
  have hinput : (k + 1 + 7) / 8 = k / 8 + 1 := by omega
  by_cases haligned : k % 8 = 0
  . have hinput' : (k + 7) / 8 = k / 8 := by omega
    rw [if_pos haligned] at hshift
    rw [haligned] at hbit ⊢
    rcases h.next (k / 8) (by omega) with ⟨hfixed, hmask, hsame⟩ | ⟨hfixed, hread⟩
    . rw [run_nextMaskBit_fixed hshift hfixed, ← hbit, hmask]
      simp [maskRegs, hinput, hinput', hsame, hmask, haligned]
    . have hread' : (maskRegs r mask input k).input = mask (k / 8) :: input (k / 8 + 1) := by
        simp only [maskRegs, hinput', hread]
      rw [run_nextMaskBit_read hshift hfixed hread', ← hbit]
      simp [maskRegs, hinput, haligned]
  . have hpos : k ≠ 0 := by
      rintro rfl
      exact haligned rfl
    have hinput' : (k + 7) / 8 = k / 8 + 1 := by omega
    have hmask : (k - 1) / 8 = k / 8 := by omega
    rw [if_neg haligned] at hshift
    have hne : (maskRegs r mask input k).mixmask <<< 1 ≠ 0 := by
      rw [hshift]
      exact bit_ne_zero (k % 8) (Nat.mod_lt k (by decide))
    rw [run_nextMaskBit_shift hne, hshift, ← hbit]
    simp [maskRegs, hinput, hinput', hpos, hmask]

theorem Masks.step {n k : Nat} {mask : Nat → UInt8} {input : Nat → Bytes}
    (h : Masks r n mask input) (hop : r.opcode = 2) (hk : k < n) (up : Option UInt16) :
    ∃ m, (pixelValue up).run (maskRegs r mask input k) =
        .ok (if (mask (k / 8)).toNat.testBit (k % 8) then mixed up r.mix else up.getD 0) m ∧
      afterPixel.run m = .ok () (maskRegs r mask input (k + 1)) := by
  refine ⟨{ maskRegs r mask input (k + 1) with count := r.count - k }, ?_, ?_⟩
  . have hop' : (maskRegs r mask input k).opcode = 2 := hop
    simp only [pixelValue, EStateM.run_bind, EStateM.run_get, hop', h.run_nextMaskBit hk]
    split <;> rfl
  . exact run_afterPixel (by simp [maskRegs, hop]) (by simp [maskRegs, hop])

theorem Decodes.masked {mask : Nat → UInt8} {input : Nat → Bytes} (hop : r.opcode = 2)
    (hbi : r.bicolour = false) (hmixmask : r.mixmask = 0) (hmasks : Masks r r.count mask input) :
    Decodes r r.count
      (fun k up => if (mask (k / 8)).toNat.testBit (k % 8) then mixed up r.mix else up.getD 0)
      (input ((r.count + 7) / 8)) := by
  refine ⟨maskRegs r mask input, ?_, ?_, ?_⟩
  . simp [maskRegs, hmasks.start, ← hmixmask]
  . constructor
    . rfl
    . exact hbi
    . rfl
    . rfl
    . rintro (hmix | ⟨h0, _⟩)
      . exact hmix
      . rw [hop] at h0
        cases h0
  . exact fun k hk => hmasks.step hop hk

end Kinds

section Order

structure Started (r : Regs) (firstRow : Bool) (order : Order) (rest : Bytes) (r' : Regs) : Prop where
  span_eq : span r' = order.size
  mix : r'.mix = order.kind.mix.getD r.mix
  lastopcode : (r'.lastopcode == 0) = (order.kind == .background)
  opcode : r'.opcode = 0 ↔ order.kind = .background
  insertmix : r'.insertmix =
    (r.insertmix || (order.kind == .background && r.lastopcode == 0 && !firstRow))
  decodes : Decodes r' order.size (order.kind.value r'.insertmix r'.mix) rest

theorem Started.background {firstRow : Bool} {count : Nat} {rest : Bytes} (hbi : r.bicolour = false) :
    ∃ r', (readArguments firstRow).run (afterHeader r 0 count rest) = .ok () r' ∧
      Started r firstRow ⟨.background, count⟩ rest r' := by
  refine ⟨{ afterHeader r 0 count rest with
    insertmix := r.insertmix || (r.lastopcode == 0 && !firstRow)
    lastopcode := 0
    mixmask := 0 }, ?_, ?_⟩
  . cases hlast : r.lastopcode == 0 <;> cases firstRow <;>
      simp_all [readArguments, readOperands, afterHeader]
  . constructor
    . rfl
    . rfl
    . rfl
    . simp [afterHeader]
    . simp
    . exact Decodes.background rfl hbi

theorem Started.of_decodes {firstRow : Bool} {kind : Kind} {count : Nat} {rest : Bytes} {r' : Regs}
    (hinsertmix : r'.insertmix = r.insertmix) (hbackground : kind ≠ .background)
    (h0 : r'.opcode ≠ 0) (hlast : r'.lastopcode = r'.opcode) (hmix : r'.mix = kind.mix.getD r.mix)
    (hspan : span r' = Order.size ⟨kind, count⟩)
    (hdecodes : Decodes r' (Order.size ⟨kind, count⟩) (kind.value r'.insertmix r'.mix) rest) :
    Started r firstRow ⟨kind, count⟩ rest r' where
  span_eq := hspan
  mix := hmix
  lastopcode := by
    rw [hlast]
    simp [h0, hbackground]
  opcode := by simp [h0, hbackground]
  insertmix := by simp [hinsertmix, hbackground]
  decodes := hdecodes

theorem bytes_masks {n : Nat} {rest masks : Bytes} (hfixed : r.fomMask = 0)
    (h : bytes ((n + 7) / 8) r.input = some (masks, rest)) :
    Masks r n (fun j => masks.getD j 0) (fun j => r.input.drop j) ∧
      rest = r.input.drop ((n + 7) / 8) := by
  unfold bytes at h
  split at h
  next hle =>
    cases h
    refine ⟨⟨rfl, ?_⟩, rfl⟩
    intro j hj
    right
    refine ⟨hfixed, ?_⟩
    have hlt : j < r.input.length := by omega
    rw [List.drop_eq_getElem_cons hlt]
    congr 1
    have hj' : j < (n + 7) / 8 := by omega
    simp [List.getD_eq_getElem?_getD, hj', hlt]
  next => cases h

theorem Started.foreground {firstRow : Bool} {count : Nat} {rest : Bytes} (mix : Option UInt16)
    (hbi : r.bicolour = false) :
    Started r firstRow ⟨.foreground mix, count⟩ rest
      { afterHeader r 1 count rest with
        mix := mix.getD r.mix, lastopcode := 1, mixmask := 0 } := by
  refine Started.of_decodes rfl (by simp) (by simp) rfl rfl rfl ?_
  exact Decodes.of_value (by simp) (by simp) hbi fun up count => by
    simp only [pixelValue, EStateM.run_bind, EStateM.run_get, afterHeader_opcode]
    rfl

theorem Started.masked {firstRow : Bool} {count : Nat} {input rest masks : Bytes}
    (mix : Option UInt16) (hbi : r.bicolour = false)
    (h : bytes ((count + 7) / 8) input = some (masks, rest)) :
    Started r firstRow ⟨.masked mix masks, count⟩ rest
      { afterHeader r 2 count input with
        mix := mix.getD r.mix, lastopcode := 2, mixmask := 0 } := by
  obtain ⟨hmasks, hrest⟩ := bytes_masks (r := { afterHeader r 2 count input with
    mix := mix.getD r.mix, lastopcode := 2, mixmask := 0 }) rfl h
  refine Started.of_decodes rfl (by simp) (by simp) rfl rfl rfl ?_
  rw [hrest]
  exact Decodes.masked rfl (by exact hbi) rfl hmasks

theorem Started.fixedMask {firstRow : Bool} {count : Nat} {rest : Bytes} {m : UInt8} (hm : m ≠ 0)
    (hbi : r.bicolour = false) :
    Started r firstRow ⟨.fixedMask m, count⟩ rest
      { afterHeader r 2 count rest with
        mask := m, fomMask := m, lastopcode := 2, mixmask := 0 } := by
  have hmasks : Masks { afterHeader r 2 count rest with
      mask := m, fomMask := m, lastopcode := 2, mixmask := 0 } count (fun _ => m) (fun _ => rest) :=
    ⟨rfl, fun _ _ => Or.inl ⟨hm, rfl, rfl⟩⟩
  refine Started.of_decodes rfl (by simp) (by simp) rfl rfl rfl ?_
  exact Decodes.masked rfl (by exact hbi) rfl hmasks

theorem Started.constant {firstRow : Bool} {kind : Kind} {op : UInt8} {count : Nat} {rest : Bytes}
    {v c : UInt16} (hkind : kind.value r.insertmix r.mix = fun _ _ => v)
    (hplain : kind.mix = none) (hsize : Order.size ⟨kind, count⟩ = count)
    (hop : op = 3 ∧ c = v ∨ op = 0xd ∧ v = 0xffff ∨ op = 0xe ∧ v = 0)
    (hbackground : kind ≠ .background) (hbi : r.bicolour = false) :
    Started r firstRow ⟨kind, count⟩ rest
      { afterHeader r op count rest with colour2 := c, lastopcode := op, mixmask := 0 } := by
  have hne : op ≠ 0 ∧ op ≠ 8 := by
    rcases hop with ⟨rfl, _⟩ | ⟨rfl, _⟩ | ⟨rfl, _⟩ <;> decide
  refine Started.of_decodes rfl hbackground hne.1 rfl (by simp [hplain])
    (by rw [span_of_ne hne.2, hsize]; rfl) ?_
  rw [hsize]
  simp only [afterHeader_insertmix, afterHeader_mix, hkind]
  refine Decodes.of_value hne.1 hne.2 hbi fun up count => ?_
  rcases hop with ⟨rfl, rfl⟩ | ⟨rfl, rfl⟩ | ⟨rfl, rfl⟩ <;> simp [pixelValue]

theorem run_readArguments_started {op : UInt8} {count : Nat} {input rest : Bytes} {order : Order}
    (hheader : header r.input = some (op, count, input)) (hparse : parseOrder r.input = some (order, rest))
    (hbi : r.bicolour = false) (firstRow : Bool)
    (hcount : ∀ c1 c2, order.kind = .dithered c1 c2 → order.length ≤ 65534) :
    ∃ r', (readArguments firstRow).run (afterHeader r op count input) = .ok () r' ∧
      Started r firstRow order rest r' := by
  simp only [parseOrder, hheader, Option.bind_eq_bind, Option.bind_some] at hparse
  split at hparse
  next =>
    cases hparse
    exact Started.background hbi
  next =>
    cases hparse
    refine ⟨_, ?_, Started.foreground none hbi⟩
    simp [readArguments, readOperands]
  next =>
    simp only [Option.bind_eq_some_iff, Option.some.injEq, Prod.mk.injEq, Prod.exists] at hparse
    obtain ⟨masks, rest', hbytes, rfl, rfl⟩ := hparse
    refine ⟨_, ?_, Started.masked none hbi hbytes⟩
    simp [readArguments, readOperands]
  next =>
    simp only [Option.bind_eq_some_iff, Option.some.injEq, Prod.mk.injEq, Prod.exists] at hparse
    obtain ⟨c, rest', hword, rfl, rfl⟩ := hparse
    refine ⟨_, ?_, Started.constant (v := c) rfl rfl rfl (Or.inl ⟨rfl, rfl⟩) (by simp) hbi⟩
    simp [readArguments, readOperands, run_cursor_readU16Le, hword, afterHeader]
  next =>
    simp only [Option.bind_eq_some_iff, Option.some.injEq, Prod.mk.injEq, Prod.exists] at hparse
    obtain ⟨pixels, rest', hwords, rfl, rfl⟩ := hparse
    refine ⟨{ afterHeader r 4 count input with lastopcode := 4, mixmask := 0 },
      by simp [readArguments, readOperands], ?_⟩
    refine Started.of_decodes rfl (by simp) (by simp) rfl rfl rfl ?_
    exact Decodes.literal rfl hbi hwords
  next =>
    simp only [Option.bind_eq_some_iff, Option.some.injEq, Prod.mk.injEq, Prod.exists] at hparse
    obtain ⟨mix, rest', hword, rfl, rfl⟩ := hparse
    refine ⟨_, ?_, Started.foreground (some mix) hbi⟩
    simp [readArguments, readOperands, run_cursor_readU16Le, hword, afterHeader]
  next =>
    simp only [Option.bind_eq_some_iff, Option.some.injEq, Prod.mk.injEq, Prod.exists] at hparse
    obtain ⟨mix, tail, hword, masks, rest', hbytes, rfl, rfl⟩ := hparse
    refine ⟨_, ?_, Started.masked (some mix) hbi hbytes⟩
    simp [readArguments, readOperands, run_cursor_readU16Le, hword, afterHeader]
  next =>
    simp only [Option.bind_eq_some_iff, Option.some.injEq, Prod.mk.injEq, Prod.exists] at hparse
    obtain ⟨c1, tail, hword, c2, rest', hword', rfl, rfl⟩ := hparse
    refine ⟨{ afterHeader r 8 count rest' with
      colour1 := c1, colour2 := c2, lastopcode := 8, mixmask := 0 }, ?_, ?_⟩
    . simp [readArguments, readOperands, run_cursor_readU16Le, hword, hword', afterHeader]
    . refine Started.of_decodes rfl (by simp) (by simp) rfl rfl (by simp [span, Order.size, hbi]) ?_
      exact Decodes.dithered rfl hbi (hcount c1 c2 rfl)
  next =>
    cases hparse
    refine ⟨_, ?_, Started.fixedMask (by decide) hbi⟩
    simp [readArguments, readOperands]
  next =>
    cases hparse
    refine ⟨_, ?_, Started.fixedMask (by decide) hbi⟩
    simp [readArguments, readOperands]
  next =>
    cases hparse
    refine ⟨_, ?_, Started.constant (v := 0xffff) (c := r.colour2) rfl rfl rfl
      (Or.inr (Or.inl ⟨rfl, rfl⟩)) (by simp) hbi⟩
    simp [readArguments, readOperands, afterHeader]
  next =>
    cases hparse
    refine ⟨_, ?_, Started.constant (v := 0) (c := r.colour2) rfl rfl rfl
      (Or.inr (Or.inr ⟨rfl, rfl⟩)) (by simp) hbi⟩
    simp [readArguments, readOperands, afterHeader]
  next => cases hparse

structure Completed (width : Nat) (a : Scan) (order : Order) (rest : Bytes) (a' : Scan) : Prop where
  pixels : a'.pixels = appendPixels width
    (order.kind.value
      (a.insertmix || (order.kind == .background && a.lastopcode == 0 &&
        !(a.pixels.length == 0 || a.pixels.length == width)))
      (order.kind.mix.getD a.mix)) 0 order.size a.pixels
  input : a'.input = rest
  bicolour : a'.bicolour = false
  mix : a'.mix = order.kind.mix.getD a.mix
  lastopcode : (a'.lastopcode == 0) = (order.kind == .background)
  insertmix : a.insertmix = false → 0 < order.size → a'.insertmix = false

theorem header_of_parseOrder {input rest : Bytes} {order : Order}
    (h : parseOrder input = some (order, rest)) : ∃ op count tail, header input = some (op, count, tail) := by
  unfold parseOrder at h
  cases hheader : header input with
  | none => simp [hheader] at h
  | some run => exact ⟨_, _, _, rfl⟩

variable {a : Scan} {order : Order} {rest : Bytes}

variable (width height) in
theorem run_scanOrder_started (hparse : parseOrder a.input = some (order, rest))
    (hbi : a.bicolour = false)
    (hcount : ∀ c1 c2, order.kind = .dithered c1 c2 → order.length ≤ 65534) :
    ∃ r, Started a.toRegs (a.pixels.length == 0 || a.pixels.length == width) order rest r ∧
      (scanOrder width height).run a =
        (paintN width height order.size).run { a with toRegs := r } := by
  obtain ⟨op, count, tail, hheader⟩ := header_of_parseOrder hparse
  obtain ⟨r, hread, hstarted⟩ := run_readArguments_started hheader hparse hbi
    (a.pixels.length == 0 || a.pixels.length == width) hcount
  have hspec := readHeader_spec (r := a.toRegs)
  rw [hheader] at hspec
  refine ⟨r, hstarted, ?_⟩
  rw [scanOrder, EStateM.run_bind]
  simp only [EStateM.run_get]
  rw [EStateM.run_bind, run_scanRegs, EStateM.run_bind]
  simp only [hspec, hread]
  rw [EStateM.run_bind]
  simp only [EStateM.run_get, hstarted.span_eq]

theorem run_scanOrder_fits (hparse : parseOrder a.input = some (order, rest))
    (hbi : a.bicolour = false)
    (hcount : ∀ c1 c2, order.kind = .dithered c1 c2 → order.length ≤ 65534)
    (hroom : a.pixels.length + order.size ≤ width * height) :
    ∃ a', (scanOrder width height).run a = .ok () a' ∧ Completed width a order rest a' := by
  obtain ⟨r, hstarted, hrun⟩ := run_scanOrder_started width height hparse hbi hcount
  obtain ⟨R, hR, hfinished, hstep⟩ := hstarted.decodes
  have hpaint := run_paintN_fits (R := R) (k := 0) (fun j _ hj => hstep j (by omega)) hroom
  rw [hR, Nat.zero_add] at hpaint
  refine ⟨_, hrun.trans hpaint, ?_⟩
  constructor
  . rw [hstarted.insertmix, hstarted.mix]
  . exact hfinished.input
  . exact hfinished.bicolour
  . exact hfinished.mix.trans hstarted.mix
  . rw [← hstarted.lastopcode]
    exact congrArg (· == 0) hfinished.lastopcode
  . intro hmix hsize
    apply hfinished.insertmix
    by_cases hbackground : order.kind = .background
    . exact Or.inr ⟨hstarted.opcode.mpr hbackground, hsize⟩
    . left
      rw [hstarted.insertmix, hmix]
      simp [hbackground]

theorem run_scanOrder_full (hparse : parseOrder a.input = some (order, rest))
    (hbi : a.bicolour = false)
    (hcount : ∀ c1 c2, order.kind = .dithered c1 c2 → order.length ≤ 65534)
    (hle : a.pixels.length ≤ width * height)
    (hfull : width * height < a.pixels.length + order.size) :
    ∃ a', (scanOrder width height).run a =
      .error (.error (.new .invalidData "error during decompress")) a' := by
  obtain ⟨r, hstarted, hrun⟩ := run_scanOrder_started width height hparse hbi hcount
  obtain ⟨R, hR, _, hstep⟩ := hstarted.decodes
  obtain ⟨a', hpaint⟩ := run_paintN_full (R := R) (k := 0) (fun j _ hj => hstep j (by omega)) hle hfull
  rw [hR] at hpaint
  exact ⟨a', hrun.trans hpaint⟩

end Order

end Rle16
end Rdp
