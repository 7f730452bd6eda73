import Rdp.Codec.Rle16.Lemmas.Header
import Rdp.Codec.Rle16.Lemmas.Paint

/-!
The decoder and its `Scan` end every input in the same way.
-/

namespace Rdp
namespace Rle16

variable {width height : Nat} {cells : List UInt16} {s : State} {a : Scan}

theorem Related.regs {x : Prog Error Regs α} (hregs : s.toRegs = a.toRegs)
    (himage : Painted width height cells a.pixels s.output s.trace) :
    Prog.Related (fun v s' v' a' => v = v' ∧
        ∃ r, x.run a.toRegs = .ok v r ∧ s' = { s with toRegs := r } ∧ a' = { a with toRegs := r })
      (Stopped width height cells) ((regs x).run s) ((scanRegs x).run a) := by
  rw [run_regs, run_scanRegs, hregs]
  cases hrun : x.run a.toRegs with
  | ok v r => exact .ok ⟨rfl, r, rfl, rfl, rfl⟩
  | error e r => exact .error himage

theorem Sim.firstRow_eq {rows : Nat} (h : Sim width height rows cells s a)
    (hpos : rows = 0 ∨ 0 < s.x) :
    (s.x == width && s.prevline == none) =
      (a.pixels.length == 0 || a.pixels.length == width) := by
  have hpainted := h.position.painted
  have hx := h.position.x_le
  have hprev := h.position.prevline_eq
  generalize a.pixels.length = n at hpainted
  rw [Bool.eq_iff_iff]
  simp only [Bool.and_eq_true, Bool.or_eq_true, beq_iff_eq, hprev]
  rcases rows with _ | _ | rows
  . simp only [Nat.zero_mul, Nat.zero_le, if_true, and_true] at *
    omega
  . simp only [Nat.zero_add, Nat.one_mul, Nat.le_refl, if_true, and_true] at *
    omega
  . have hle : width ≤ (rows + 1) * width := Nat.le_mul_of_pos_left width (Nat.succ_pos rows)
    rw [Nat.succ_mul] at hpainted
    simp only [show ¬ rows + 1 + 1 ≤ 1 by omega, if_false, reduceCtorEq, and_false, false_iff]
    omega

theorem AtOrder.decodeOrder (h : AtOrder width height cells s a) (hfits : Fits width height cells)
    (hwidth : 0 < width) :
    Prog.Related (fun _ s' _ a' => AtOrder width height cells s' a') (Stopped width height cells)
      ((decodeOrder width).run s) ((scanOrder width height).run a) := by
  obtain ⟨rows, hsim, hpos⟩ := h
  have hfirst := hsim.firstRow_eq hpos
  simp only [Rle16.decodeOrder, scanOrder]
  rw [EStateM.run_bind, EStateM.run_modify]
  simp only
  rw [EStateM.run_bind, EStateM.run_bind]
  simp only [EStateM.run_get]
  rw [hfirst]
  apply Prog.Related.bind
    (Related.regs (s := { s with trace := s.trace ++ [Access.mark] }) hsim.regs hsim.image.order)
  rintro _ s' _ a' ⟨_, r, _, rfl, rfl⟩
  rw [EStateM.run_bind]
  simp only [EStateM.run_get]
  rw [Rle16.paintOrder, EStateM.run_bind]
  simp only [EStateM.run_get]
  have hsim' : Sim width height rows cells
      { s with toRegs := r, trace := s.trace ++ [Access.mark] } { a with toRegs := r } :=
    ⟨rfl, hsim.image.order, { hsim.position with }⟩
  apply hsim'.paintLoop hfits hwidth hpos
  intro _
  simp only
  split <;> omega

section Empty

/--
An image without columns: until the rows are used up, nothing happens.
-/
structure NoColumns (height : Nat) (cells : List UInt16) (s : State) (a : Scan) : Prop where
  regs : s.toRegs = a.toRegs
  image : Painted 0 height cells a.pixels s.output s.trace
  x_eq : s.x = 0
  height_eq : s.height = height
  prevline : s.prevline = none
  insertmix : s.insertmix = false

theorem run_repeatExpr_zero (hx : s.x = 0) (expr : Prog Error State Unit) :
    (repeatExpr 0 expr).run s = .ok () s := by
  have hrepeat : repeatExpr 0 expr = (do
      Prog.whileLoop 0 (moreThanEight 0) (Prog.times 8 do expr; advance)
      Prog.whileLoop 0 (more 0) (do expr; advance)) := rfl
  have height : (moreThanEight 0).run s = .ok false s := by
    rw [run_moreThanEight (by omega)]
    simp
  have hmore : (more 0).run s = .ok false s := by
    rw [run_more]
    simp
  rw [hrepeat, EStateM.run_bind, Prog.run_whileLoop_of_false _ _ _ height]
  exact Prog.run_whileLoop_of_false _ _ _ hmore

theorem run_fillRow_zero (hx : s.x = 0) (hmix : s.insertmix = false) :
    (fillRow 0).run s = if knownOpcode s.opcode then .ok () s else .error (.panic "opcode") s := by
  simp only [Rle16.fillRow, EStateM.run_bind, EStateM.run_get, hmix, Bool.false_eq_true, if_false,
    knownOpcode]
  generalize s.opcode = opcode
  cases s.prevline with
  | none =>
    dsimp only
    split <;> simp [run_repeatExpr_zero hx, *]
  | some line =>
    dsimp only
    split <;> simp [run_repeatExpr_zero hx, *]

theorem run_paintLoop_zero (fuel : Nat) (hx : s.x = 0) (hmix : s.insertmix = false)
    (hcount : 0 < s.count) (hfuel : s.height < fuel) :
    ∃ s', s'.output = s.output ∧ s'.trace = s.trace ∧
      (Prog.whileLoop fuel moreCount do
        nextRow 0
        fillRow 0).run s =
        .error (if s.height = 0 ∨ knownOpcode s.opcode then
          .error (.new .invalidData "error during decompress") else .panic "opcode") s' := by
  -- All rows are started one after another, without a pixel in any of them.
  have hmore : ∀ s : State, 0 < s.count → moreCount.run s = .ok true s := by
    intro s h
    rw [run_moreCount, decide_eq_true h]
  induction fuel generalizing s with
  | zero => omega
  | succ fuel ih =>
    rw [Prog.run_whileLoop_of_true _ _ _ (hmore s hcount), bind_assoc, EStateM.run_bind]
    by_cases hheight : s.height = 0
    . refine ⟨s, rfl, rfl, ?_⟩
      simp [nextRow, hheight]
    . obtain ⟨s', hnext, hregs, hx', hheight', houtput, htrace⟩ : ∃ s', (nextRow 0).run s = .ok () s' ∧
          s'.toRegs = s.toRegs ∧ s'.x = 0 ∧ s'.height = s.height - 1 ∧ s'.output = s.output ∧
          s'.trace = s.trace := by
        refine ⟨{ s with x := 0, height := s.height - 1, prevline := s.line, line := some 0 }, ?_,
          rfl, rfl, rfl, rfl, rfl⟩
        simp [nextRow, hheight, checkedSub_of_le (Nat.pos_of_ne_zero hheight), checkedMul]
      rw [hnext]
      simp only
      rw [EStateM.run_bind, run_fillRow_zero hx' (by rw [hregs]; exact hmix), hregs]
      cases hknown : knownOpcode s.opcode with
      | false =>
        exact ⟨s', houtput, htrace, by simp [hheight]⟩
      | true =>
        obtain ⟨s'', houtput', htrace', hrun⟩ :=
          ih hx' (by rw [hregs]; exact hmix) (by rw [hregs]; exact hcount) (by omega)
        refine ⟨s'', houtput'.trans houtput, htrace'.trans htrace, ?_⟩
        rw [if_pos rfl]
        simp only [hrun, hregs, hknown, or_true, if_true]

instance : IsPreorder Regs (fun r r' => r'.insertmix = r.insertmix) where
  refl _ := rfl
  trans _ _ _ h h' := h'.trans h

theorem readArguments_insertmix :
    Prog.Moves (fun r r' => r'.insertmix = r.insertmix) (readArguments true) :=
  readArguments_moves ((cursor_keeps _).imp fun _ _ h => h.insertmix)
    (fun _ _ _ _ _ _ _ _ _ => rfl) (by simp)

theorem readHeader_insertmix {r r' : Regs} (h : readHeader.run r = .ok () r') :
    r'.insertmix = r.insertmix := by
  have hspec := readHeader_spec (r := r)
  split at hspec
  . rw [h] at hspec
    cases hspec
    rfl
  . obtain ⟨r'', hspec⟩ := hspec
    rw [h] at hspec
    cases hspec

theorem run_paintN_zero {n : Nat} :
    (paintN 0 height (n + 1)).run a =
      .error (if height = 0 ∨ knownOpcode a.opcode then
        .error (.new .invalidData "error during decompress") else .panic "opcode") a := by
  simp only [paintN, EStateM.run_bind, EStateM.run_get, Nat.zero_mul, Nat.zero_le, true_and,
    forall_const, if_true]
  by_cases hheight : height = 0
  . simp [hheight]
  . cases hknown : knownOpcode a.opcode <;> simp [hheight]

theorem NoColumns.decodeOrder (h : NoColumns height cells s a) :
    Prog.Related (fun _ s' _ a' => NoColumns height cells s' a') (Stopped 0 height cells)
      ((decodeOrder 0).run s) ((scanOrder 0 height).run a) := by
  have hfirst : (s.x == 0 && s.prevline == none) = true := by
    simp [h.x_eq, h.prevline]
  have hfirst' : (a.pixels.length == 0 || a.pixels.length == 0) = true := by
    have := h.image.length_pixels
    simp only [Nat.zero_mul, Nat.le_zero] at this
    simp [this]
  simp only [Rle16.decodeOrder, scanOrder]
  rw [EStateM.run_bind, EStateM.run_modify]
  simp only
  rw [EStateM.run_bind, EStateM.run_bind]
  simp only [EStateM.run_get]
  rw [hfirst, hfirst']
  apply Prog.Related.bind
    (Related.regs (s := { s with trace := s.trace ++ [Access.mark] }) h.regs h.image.order)
  rintro _ s' _ a' ⟨_, r, hread, rfl, rfl⟩
  have hmix : r.insertmix = false := by
    rw [EStateM.run_bind] at hread
    split at hread
    next r₁ hheader =>
      have harguments := readArguments_insertmix r₁
      rw [hread, Prog.finalState_ok] at harguments
      rw [harguments, readHeader_insertmix hheader, ← h.regs, h.insertmix]
    next => cases hread
  have hdone : NoColumns height cells { s with toRegs := r, trace := s.trace ++ [Access.mark] }
      { a with toRegs := r } := {
    regs := rfl
    image := h.image.order
    x_eq := h.x_eq
    height_eq := h.height_eq
    prevline := h.prevline
    insertmix := hmix }
  rw [EStateM.run_bind, Rle16.paintOrder, EStateM.run_bind]
  simp only [EStateM.run_get]
  by_cases hcount : r.count = 0
  . have hzero : span r = 0 := by
      have := span_pos (r := r)
      omega
    rw [hzero, Prog.run_whileLoop_of_false _ _ _ (by rw [EStateM.run_bind]; simp [hcount]; rfl)]
    exact .ok hdone
  . obtain ⟨n, hn⟩ : ∃ n, span r = n + 1 := by
      have := span_pos (r := r)
      exact ⟨span r - 1, by omega⟩
    obtain ⟨s', houtput, htrace, hrun⟩ := run_paintLoop_zero (s.height + 2) hdone.x_eq hmix
      (Nat.pos_of_ne_zero hcount) (by simp only; omega)
    simp only [moreCount] at hrun
    rw [hrun, hn, run_paintN_zero]
    rw [h.height_eq]
    apply Prog.Related.error
    rw [Stopped, houtput, htrace]
    exact hdone.image

end Empty

theorem AtOrder.init (input : Bytes) (output : Slice UInt16) :
    AtOrder width height output.cells (init input width height output) (scanInit input) := by
  refine ⟨0, ⟨rfl, Painted.init, ?_⟩, Or.inl rfl⟩
  constructor
  . exact Nat.zero_le _
  . rfl
  . exact Nat.le_refl _
  . simp [Rle16.init, scanInit]
  . rfl
  . rfl

theorem NoColumns.init (input : Bytes) (output : Slice UInt16) :
    NoColumns height output.cells (init input 0 height output) (scanInit input) := by
  constructor
  . rfl
  . exact Painted.init
  . rfl
  . rfl
  . rfl
  . rfl

theorem run_inputLeft (hregs : s.toRegs = a.toRegs) :
    Prog.Related (fun b s' b' a' => b = b' ∧ s' = s ∧ a' = a) (Stopped width height cells)
      ((do
        let s ← get
        return !s.input.isEmpty : Prog Error State Bool).run s)
      (inputLeft.run a) := by
  apply Prog.Related.ok
  rw [hregs]
  exact ⟨rfl, rfl, rfl⟩

theorem rle16Decompress_related (input : Bytes) (width height : Nat) (output : Slice UInt16)
    (hcells : width * height ≤ output.cells.length) :
    Prog.Related (fun _ s _ a => Stopped width height output.cells s a)
      (Stopped width height output.cells)
      (rle16Decompress input width height output) (scan input width height) := by
  have hfits : Fits width height output.cells := ⟨hcells, output.length_lt⟩
  by_cases hwidth : width = 0
  . subst hwidth
    have := Prog.Related.whileLoop (P := NoColumns height output.cells)
      (E := Stopped 0 height output.cells)
      (fun s a h => (run_inputLeft h.regs).imp
        (fun _ _ _ _ ⟨hb, hs, ha⟩ => ⟨hb, by rw [hs, ha]; exact h⟩) (fun _ _ => id))
      (fun _ _ h => h.decodeOrder) (fun _ _ h => h.image) input.length (NoColumns.init input output)
    exact this.imp (fun _ _ _ _ h => h.image) (fun _ _ => id)
  . have := Prog.Related.whileLoop (P := AtOrder width height output.cells)
      (E := Stopped width height output.cells)
      (fun s a h => (run_inputLeft h.choose_spec.1.regs).imp
        (fun _ _ _ _ ⟨hb, hs, ha⟩ => ⟨hb, by rw [hs, ha]; exact h⟩) (fun _ _ => id))
      (fun _ _ h => h.decodeOrder hfits (Nat.pos_of_ne_zero hwidth))
      (fun _ _ h => h.choose_spec.1.image) input.length (AtOrder.init input output)
    exact this.imp (fun _ _ _ _ h => h.choose_spec.1.image) (fun _ _ => id)

end Rle16
end Rdp
