import Rdp.Codec.Rle16.Lemmas.Simulation

/-!
Every order consumes input, so the decoder ends after as many orders as there are bytes at most.
-/

namespace Rdp
namespace Rle16

def Shrinks (r r' : Regs) : Prop := r'.input.length ≤ r.input.length

instance : IsPreorder Regs Shrinks where
  refl r := Nat.le_refl r.input.length
  trans _ _ _ h h' := Nat.le_trans h' h

theorem modify_shrinks {f : Regs → Regs} (hf : ∀ r, (f r).input = r.input) :
    Prog.Moves Shrinks (modify f : Prog Error Regs PUnit) := by
  apply Prog.Moves.modify
  intro r
  rw [Shrinks, hf]

theorem readU8_shrinks : Prog.Moves Shrinks (cursor Cursor.readU8) := by
  intro r
  rw [run_cursor]
  cases hinput : r.input with
  | nil => simp [Shrinks]
  | cons c rest => simp [Shrinks, hinput]

theorem readU16Le_shrinks : Prog.Moves Shrinks (cursor Cursor.readU16Le) := by
  intro r
  rw [run_cursor_readU16Le]
  cases hword : word r.input with
  | none => simp [Shrinks]
  | some v =>
    have := word_length hword
    simp only [Shrinks, Prog.finalState_ok]
    omega

theorem nextMaskBit_shrinks : Prog.Moves Shrinks nextMaskBit :=
  nextMaskBit_moves readU8_shrinks fun _ _ _ => Nat.le_refl _

theorem readArguments_shrinks (firstRow : Bool) : Prog.Moves Shrinks (readArguments firstRow) :=
  readArguments_moves readU16Le_shrinks (fun _ _ _ _ _ _ _ _ _ => Nat.le_refl _)
    fun _ _ => Nat.le_refl _

theorem pixelValue_shrinks (up : Option UInt16) : Prog.Moves Shrinks (pixelValue up) := by
  refine Prog.Moves.bind Prog.Moves.get fun r => ?_
  split
  . exact Prog.Moves.pure _
  . exact Prog.Moves.pure _
  . refine Prog.Moves.bind nextMaskBit_shrinks fun b => ?_
    cases b <;> exact Prog.Moves.pure _
  . exact Prog.Moves.pure _
  . exact readU16Le_shrinks
  . exact Prog.Moves.pure _
  . exact Prog.Moves.pure _
  . exact Prog.Moves.pure _
  . exact Prog.Moves.throw _

theorem afterPixel_shrinks : Prog.Moves Shrinks afterPixel := by
  have hcount : Prog.Moves Shrinks (modify fun r => { r with count := r.count - 1 }) :=
    modify_shrinks fun _ => rfl
  refine Prog.Moves.bind Prog.Moves.get fun r => ?_
  split
  . exact Prog.Moves.bind (modify_shrinks fun _ => rfl) fun _ => hcount
  . dsimp only
    split
    . exact Prog.Moves.bind (modify_shrinks fun _ => rfl) fun _ => hcount
    . refine Prog.Moves.bind (modify_shrinks fun _ => rfl) fun _ => ?_
      refine Prog.Moves.bind (Prog.Moves.lift _) fun count => ?_
      exact Prog.Moves.bind (modify_shrinks fun _ => rfl) fun _ => hcount
  . exact hcount

def ScanShrinks (a a' : Scan) : Prop := Shrinks a.toRegs a'.toRegs

instance : IsPreorder Scan ScanShrinks where
  refl a := Nat.le_refl a.input.length
  trans _ _ _ h h' := Nat.le_trans h' h

theorem scanRegs_shrinks {x : Prog Error Regs α} (hx : Prog.Moves Shrinks x) :
    Prog.Moves ScanShrinks (scanRegs x) := hx.zoom fun _ _ h => h

theorem paintN_shrinks (width height n : Nat) : Prog.Moves ScanShrinks (paintN width height n) := by
  induction n with
  | zero => exact Prog.Moves.pure _
  | succ n ih =>
    refine Prog.Moves.bind Prog.Moves.get fun a => ?_
    split
    . exact Prog.Moves.throw _
    . split
      . split <;> exact Prog.Moves.throw _
      . refine Prog.Moves.bind ?_ fun _ => ih
        refine Prog.Moves.bind Prog.Moves.get fun a => ?_
        refine Prog.Moves.bind (scanRegs_shrinks (pixelValue_shrinks _)) fun v => ?_
        refine Prog.Moves.bind (Prog.Moves.modify fun _ => Nat.le_refl _) fun _ => ?_
        exact scanRegs_shrinks afterPixel_shrinks

theorem readHeader_input_lt {r r' : Regs} (h : readHeader.run r = .ok () r') :
    r'.input.length < r.input.length := by
  have hspec := readHeader_spec (r := r)
  split at hspec
  next hheader =>
    rw [h] at hspec
    cases hspec
    exact header_length hheader
  next =>
    obtain ⟨r'', hspec⟩ := hspec
    rw [h] at hspec
    cases hspec

theorem scanOrder_input_lt {width height : Nat} {a a' : Scan}
    (h : (scanOrder width height).run a = .ok () a') : a'.input.length < a.input.length := by
  rw [scanOrder, EStateM.run_bind] at h
  simp only [EStateM.run_get] at h
  rw [EStateM.run_bind, run_scanRegs] at h
  split at h
  next a₁ hread =>
    split at hread
    next r hregs =>
      cases hread
      rw [EStateM.run_bind] at hregs
      split at hregs
      next r₁ hheader =>
        have hlt := readHeader_input_lt hheader
        have hle := readArguments_shrinks (a.pixels.length == 0 || a.pixels.length == width) r₁
        rw [hregs, Prog.finalState_ok, Shrinks] at hle
        have hpaint := paintN_shrinks width height (span r) { a with toRegs := r }
        rw [EStateM.run_bind] at h
        simp only [EStateM.run_get] at h
        rw [h, Prog.finalState_ok] at hpaint
        exact Nat.lt_of_le_of_lt hpaint (Nat.lt_of_le_of_lt hle hlt)
      next => cases hregs
    next => cases hread
  next => cases h

section Faults

def eof : Fault Error := .error (.io .unexpectedEof)

theorem readU8_faults : Prog.Faults (· = eof) (cursor Cursor.readU8) := by
  intro r e r' h
  rw [run_cursor] at h
  cases hinput : r.input <;> simp [hinput] at h
  exact h.1.symm

theorem readU16Le_faults : Prog.Faults (· = eof) (cursor Cursor.readU16Le) := by
  intro r e r' h
  rw [run_cursor_readU16Le] at h
  cases hword : word r.input <;> simp [hword] at h
  exact h.1.symm

theorem nextMaskBit_faults : Prog.Faults (· = eof) nextMaskBit := by
  have hbit : Prog.Faults (· = eof) (do
      let r ← get
      return r.mask &&& r.mixmask != 0 : Prog Error Regs Bool) :=
    Prog.Faults.bind Prog.Faults.get fun _ => Prog.Faults.pure _
  have hnext : ∀ mask : UInt8, Prog.Faults (· = eof) (do
      modify fun r => { r with mask, mixmask := 1 }
      let r ← get
      return r.mask &&& r.mixmask != 0 : Prog Error Regs Bool) :=
    fun mask => Prog.Faults.bind (Prog.Faults.modify _) fun _ => hbit
  refine Prog.Faults.bind (Prog.Faults.modify _) fun _ => ?_
  refine Prog.Faults.bind Prog.Faults.get fun r => ?_
  split
  . dsimp only
    split
    . exact Prog.Faults.bind (Prog.Faults.pure _) hnext
    . exact Prog.Faults.bind readU8_faults hnext
  . exact hbit

theorem readHeader_faults : Prog.Faults (· = eof) readHeader := by
  intro r e r' h
  have hspec := readHeader_spec (r := r)
  split at hspec
  . rw [h] at hspec
    cases hspec
  . obtain ⟨r'', hspec⟩ := hspec
    rw [h] at hspec
    cases hspec
    rfl

theorem readArguments_faults (firstRow : Bool) : Prog.Faults (· = eof) (readArguments firstRow) := by
  have hmodify : ∀ f : Regs → Regs,
      Prog.Faults (· = eof) (modify f : Prog Error Regs PUnit) := fun f => Prog.Faults.modify f
  refine Prog.Faults.bind ?_ fun _ => hmodify _
  refine Prog.Faults.bind Prog.Faults.get fun r => ?_
  split
  . split
    . exact hmodify _
    . exact Prog.Faults.pure _
  . exact Prog.Faults.bind readU16Le_faults fun _ => Prog.Faults.bind (hmodify _) fun _ =>
      Prog.Faults.bind readU16Le_faults fun _ => hmodify _
  . exact Prog.Faults.bind readU16Le_faults fun _ => hmodify _
  . exact Prog.Faults.bind readU16Le_faults fun _ => hmodify _
  . exact Prog.Faults.bind readU16Le_faults fun _ => hmodify _
  . exact hmodify _
  . exact hmodify _
  . exact Prog.Faults.pure _

theorem pixelValue_error {up : Option UInt16} {r r' : Regs} {e : Fault Error}
    (h : (pixelValue up).run r = .error e r') :
    e = eof ∨ e = .panic "opcode" ∧ knownOpcode r.opcode = false := by
  simp only [pixelValue, EStateM.run_bind, EStateM.run_get] at h
  split at h
  next => cases h
  next => cases h
  next =>
    rw [EStateM.run_bind] at h
    split at h
    next b r₁ _ => cases b <;> cases h
    next hbit =>
      cases h
      exact Or.inl (nextMaskBit_faults _ _ _ hbit)
  next => cases h
  next => exact Or.inl (readU16Le_faults _ _ _ h)
  next => cases h
  next => cases h
  next => cases h
  next =>
    cases h
    exact Or.inr ⟨rfl, by simp [knownOpcode]⟩

theorem afterPixel_faults : Prog.Faults (· = .panic "attempt to add with overflow") afterPixel := by
  have hmodify : ∀ f : Regs → Regs,
      Prog.Faults (· = .panic "attempt to add with overflow") (modify f : Prog Error Regs PUnit) :=
    fun f => Prog.Faults.modify f
  refine Prog.Faults.bind Prog.Faults.get fun r => ?_
  split
  . exact Prog.Faults.bind (hmodify _) fun _ => hmodify _
  . dsimp only
    split
    . exact Prog.Faults.bind (hmodify _) fun _ => hmodify _
    . refine Prog.Faults.bind (hmodify _) fun _ => ?_
      refine Prog.Faults.bind (Prog.Faults.lift fun e h => ?_) fun _ => ?_
      . unfold checkedAdd at h
        split at h
        . cases h
        . cases h
          rfl
      . exact Prog.Faults.bind (hmodify _) fun _ => hmodify _
  . exact hmodify _

theorem paintPixel_error {width : Nat} {a a' : Scan} {e : Fault Error}
    (h : (paintPixel width).run a = .error e a') :
    e = eof ∨ e = .panic "opcode" ∧ knownOpcode a.opcode = false ∨
      e = .panic "attempt to add with overflow" := by
  rw [run_paintPixel] at h
  split at h
  next hvalue =>
    cases h
    rcases pixelValue_error hvalue with heof | hop
    . exact Or.inl heof
    . exact Or.inr (Or.inl hop)
  next =>
    split at h
    next hafter =>
      cases h
      exact Or.inr (Or.inr (afterPixel_faults _ _ _ hafter))
    next => cases h

theorem paintN_faults (width height n : Nat) :
    Prog.Faults (· ≠ .diverge) (paintN width height n) := by
  induction n with
  | zero => exact Prog.Faults.pure _
  | succ n ih =>
    refine Prog.Faults.bind Prog.Faults.get fun a => ?_
    split
    . exact Prog.Faults.throw (by simp)
    . split
      . split <;> exact Prog.Faults.throw (by simp)
      . refine Prog.Faults.bind (fun a e a' h => ?_) fun _ => ih
        rcases paintPixel_error h with heof | ⟨hop, _⟩ | hadd
        . simp [heof, eof]
        . simp [hop]
        . simp [hadd]

theorem scanOrder_faults (width height : Nat) :
    Prog.Faults (· ≠ .diverge) (scanOrder width height) := by
  refine Prog.Faults.bind Prog.Faults.get fun a => ?_
  refine Prog.Faults.bind ?_ fun _ => Prog.Faults.bind Prog.Faults.get fun _ => paintN_faults _ _ _
  apply Prog.Faults.zoom
  have heof : ∀ e, e = eof → e ≠ .diverge := by simp [eof]
  exact Prog.Faults.bind (readHeader_faults.imp heof) fun _ => (readArguments_faults _).imp heof

end Faults

theorem scan_ne_diverge (input : Bytes) (width height : Nat) (a : Scan) :
    scan input width height ≠ .error .diverge a := by
  apply Prog.run_whileLoop_ne_diverge (fun a => a.input.length) (b := fun a => !a.input.isEmpty)
  . exact fun _ => rfl
  . exact scanOrder_faults width height
  . exact fun _ _ _ => scanOrder_input_lt
  . intro a h
    simp [List.eq_nil_of_length_eq_zero h]
  . exact Nat.le_refl _

theorem outcome_scan_ne_diverge (input : Bytes) (width height : Nat) :
    Prog.outcome (scan input width height) ≠ some .diverge := by
  cases hscan : scan input width height with
  | ok _ a => simp [Prog.outcome]
  | error e a =>
    intro h
    cases h
    exact scan_ne_diverge input width height a hscan

section Orders

def orders (trace : Trace UInt16) : Nat := trace.count .mark

def SameOrders (s s' : State) : Prop := orders s'.trace = orders s.trace

instance : IsPreorder State SameOrders where
  refl _ := rfl
  trans _ _ _ h h' := h'.trans h

theorem regs_sameOrders (x : Prog Error Regs α) : Prog.Moves SameOrders (regs x) := by
  have hx : Prog.Moves (fun _ _ => True) x := fun _ => trivial
  exact hx.zoom fun _ _ _ => rfl

theorem load_sameOrders (i : Nat) : Prog.Moves SameOrders (load i) := by
  intro s
  simp only [load, EStateM.run_bind, EStateM.run_get]
  split
  . simp [SameOrders, orders]
  . rfl

theorem store_sameOrders (i : Nat) (v : UInt16) : Prog.Moves SameOrders (store i v) := by
  intro s
  simp only [store, EStateM.run_bind, EStateM.run_get]
  split
  . simp [SameOrders, orders]
  . rfl

theorem readAbove_sameOrders (e : Nat) : Prog.Moves SameOrders (readAbove e) := by
  refine Prog.Moves.bind Prog.Moves.get fun s => ?_
  exact Prog.Moves.bind (Prog.Moves.lift _) fun _ => load_sameOrders _

theorem writePixel_sameOrders (v : UInt16) : Prog.Moves SameOrders (writePixel v) := by
  refine Prog.Moves.bind Prog.Moves.get fun s => ?_
  split
  . exact Prog.Moves.bind (Prog.Moves.lift _) fun _ => store_sameOrders _ _
  . exact Prog.Moves.throw _

theorem advance_sameOrders : Prog.Moves SameOrders advance := by
  intro s
  simp only [advance, EStateM.run_bind, EStateM.run_get]
  cases (checkedSub s.count 1 : Except (Fault Error) Nat) with
  | error e => rfl
  | ok count =>
    simp only [Prog.run_lift_ok]
    cases (checkedAdd 64 s.x 1 : Except (Fault Error) Nat) <;> rfl

theorem repeatExpr_sameOrders (width : Nat) {expr : Prog Error State Unit}
    (hexpr : Prog.Moves SameOrders expr) : Prog.Moves SameOrders (repeatExpr width expr) := by
  have hpixel : Prog.Moves SameOrders (do expr; advance) := hexpr.bind fun _ => advance_sameOrders
  refine Prog.Moves.bind (Prog.Moves.whileLoop ?_ (hpixel.times 8) width) fun _ =>
    Prog.Moves.whileLoop ?_ hpixel width
  . refine Prog.Moves.bind Prog.Moves.get fun s => ?_
    split
    . exact Prog.Moves.bind (Prog.Moves.lift _) fun _ => Prog.Moves.pure _
    . exact Prog.Moves.pure _
  . exact Prog.Moves.bind Prog.Moves.get fun _ => Prog.Moves.pure _

theorem modify_sameOrders {f : State → State} (hf : ∀ s, (f s).trace = s.trace) :
    Prog.Moves SameOrders (modify f : Prog Error State PUnit) := by
  apply Prog.Moves.modify
  intro s
  rw [SameOrders, hf]

theorem paintAbove_sameOrders (e : Nat) (f : UInt16 → UInt16) :
    Prog.Moves SameOrders (do writePixel (f (← readAbove e)) : Prog Error State Unit) :=
  Prog.Moves.bind (readAbove_sameOrders e) fun _ => writePixel_sameOrders _

theorem dithered_sameOrders (colour1 colour2 : UInt16) :
    Prog.Moves SameOrders (do
      if (← get).bicolour then
        writePixel colour2
        modify fun s => { s with bicolour := false }
      else
        writePixel colour1
        modify fun s => { s with bicolour := true }
        let count ← Prog.lift (checkedAdd 16 (← get).count 1)
        modify fun s => { s with count } : Prog Error State Unit) := by
  refine Prog.Moves.bind Prog.Moves.get fun s => ?_
  split
  . exact Prog.Moves.bind (writePixel_sameOrders _) fun _ => modify_sameOrders fun _ => rfl
  . refine Prog.Moves.bind (writePixel_sameOrders _) fun _ => ?_
    refine Prog.Moves.bind (modify_sameOrders fun _ => rfl) fun _ => ?_
    refine Prog.Moves.bind Prog.Moves.get fun _ => ?_
    exact Prog.Moves.bind (Prog.Moves.lift _) fun _ => modify_sameOrders fun _ => rfl

theorem fillRow_sameOrders (width : Nat) : Prog.Moves SameOrders (fillRow width) := by
  have hwrite : ∀ v, Prog.Moves SameOrders (repeatExpr width (writePixel v)) := fun v =>
    repeatExpr_sameOrders width (writePixel_sameOrders v)
  have habove : ∀ e (f : UInt16 → UInt16),
      Prog.Moves SameOrders (repeatExpr width do writePixel (f (← readAbove e))) :=
    fun e f => repeatExpr_sameOrders width (paintAbove_sameOrders e f)
  have hinsert : Prog.Moves SameOrders (modify fun s => { s with insertmix := false }) :=
    modify_sameOrders fun _ => rfl
  have hbit : ∀ {x y : Prog Error State Unit}, Prog.Moves SameOrders x → Prog.Moves SameOrders y →
      Prog.Moves SameOrders (repeatExpr width do if ← regs nextMaskBit then x else y) := by
    intro x y hx hy
    apply repeatExpr_sameOrders
    refine Prog.Moves.bind (regs_sameOrders _) fun b => ?_
    split
    . exact hx
    . exact hy
  refine Prog.Moves.bind Prog.Moves.get fun s => ?_
  cases hprev : s.prevline with
  | none =>
    simp only
    split
    . split
      . exact Prog.Moves.bind (writePixel_sameOrders _) fun _ => Prog.Moves.bind hinsert fun _ =>
          Prog.Moves.bind advance_sameOrders fun _ => hwrite 0
      . exact hwrite 0
    . exact hwrite _
    . exact hbit (writePixel_sameOrders _) (writePixel_sameOrders _)
    . exact hwrite _
    . exact repeatExpr_sameOrders width (Prog.Moves.bind (regs_sameOrders _) writePixel_sameOrders)
    . exact repeatExpr_sameOrders width (dithered_sameOrders _ _)
    . exact hwrite _
    . exact hwrite _
    . exact Prog.Moves.throw _
  | some e =>
    have hmixed := paintAbove_sameOrders e fun v => v ^^^ s.mix
    have hcopy := paintAbove_sameOrders e id
    simp only
    split
    . split
      . exact Prog.Moves.bind (readAbove_sameOrders e) fun _ =>
          Prog.Moves.bind (writePixel_sameOrders _) fun _ => Prog.Moves.bind hinsert fun _ =>
            Prog.Moves.bind advance_sameOrders fun _ => habove e id
      . exact habove e id
    . exact habove e fun v => v ^^^ s.mix
    . exact hbit hmixed hcopy
    . exact hwrite _
    . exact repeatExpr_sameOrders width (Prog.Moves.bind (regs_sameOrders _) writePixel_sameOrders)
    . exact repeatExpr_sameOrders width (dithered_sameOrders _ _)
    . exact hwrite _
    . exact hwrite _
    . exact Prog.Moves.throw _

theorem nextRow_sameOrders (width : Nat) : Prog.Moves SameOrders (nextRow width) := by
  intro s
  simp only [nextRow, EStateM.run_bind, EStateM.run_get]
  split
  . split
    . rfl
    . rw [EStateM.run_bind]
      cases (checkedSub s.height 1 : Except (Fault Error) Nat) with
      | error e => rfl
      | ok height =>
        simp only [Prog.run_lift_ok, EStateM.run_bind]
        cases (checkedMul 64 height width : Except (Fault Error) Nat) <;> rfl
  . rfl

theorem paintOrder_sameOrders (width : Nat) : Prog.Moves SameOrders (paintOrder width) := by
  refine Prog.Moves.bind Prog.Moves.get fun s => Prog.Moves.whileLoop ?_ ?_ _
  . exact Prog.Moves.bind Prog.Moves.get fun _ => Prog.Moves.pure _
  . exact Prog.Moves.bind (nextRow_sameOrders width) fun _ => fillRow_sameOrders width

theorem decodeOrder_orders (width : Nat) :
    Prog.Moves (fun s s' => orders s'.trace = orders s.trace + 1) (decodeOrder width) := by
  have hrest : Prog.Moves SameOrders (do
      let s ← get
      regs do
        readHeader
        readArguments (s.x == width && s.prevline == none)
      paintOrder width : Prog Error State Unit) := by
    refine Prog.Moves.bind Prog.Moves.get fun s => ?_
    exact Prog.Moves.bind (regs_sameOrders _) fun _ => paintOrder_sameOrders width
  intro s
  rw [decodeOrder, EStateM.run_bind, EStateM.run_modify]
  have h := hrest { s with trace := s.trace ++ [Access.mark] }
  rw [SameOrders] at h
  simp only
  rw [h]
  simp [orders]

theorem orders_le (input : Bytes) (width height : Nat) (output : Slice UInt16) :
    orders (Prog.finalState (rle16Decompress input width height output)).trace ≤ input.length := by
  rw [rle16Decompress]
  refine Nat.le_trans (Prog.finalState_whileLoop_le (fun s : State => orders s.trace)
    (fun _ => ⟨_, rfl⟩) (fun s => Nat.le_of_eq (decodeOrder_orders width s)) _ _) ?_
  simp [init, orders]

end Orders

end Rle16
end Rdp
