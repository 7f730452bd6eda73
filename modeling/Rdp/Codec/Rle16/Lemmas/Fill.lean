import Rdp.Codec.Rle16.Lemmas.Draw

/-!
The loops of `repeatExpr`: they paint as many pixels as the order and the row have left.
-/

namespace Rdp
namespace Rle16

variable {width height rows : Nat} {cells : List UInt16} {s₀ s : State} {a : Scan}

def room (width : Nat) (s : State) (a : Scan) : Nat := min (span a.toRegs) (width - s.x)

theorem span_pos {r : Regs} : 0 < span r ↔ 0 < r.count := by
  have : r.bicolour.toNat ≤ 1 := Bool.toNat_le r.bicolour
  unfold span
  split <;> omega

theorem count_le_span (r : Regs) : r.count ≤ span r := by
  have : r.bicolour.toNat ≤ 1 := Bool.toNat_le r.bicolour
  unfold span
  split <;> omega

theorem le_of_land_ne_zero {count : Nat} (h : count &&& 0xfff8 ≠ 0) : 8 ≤ count := by
  by_contra hlt
  have hsmall : ∀ c < 8, c &&& 0xfff8 = 0 := by decide
  exact h (hsmall count (by omega))

theorem Drawn.refl (h : InRow width height rows cells s₀ s a) :
    Drawn width height rows cells 0 s₀ s a s a := ⟨h, rfl, rfl, Nat.le_refl _⟩

theorem Drawn.trans {m n : Nat} {s' s'' : State} {a' a'' : Scan}
    (h : Drawn width height rows cells m s₀ s a s' a')
    (h' : Drawn width height rows cells n s₀ s' a' s'' a'') :
    Drawn width height rows cells (m + n) s₀ s a s'' a'' where
  inRow := h'.inRow
  x_eq := by
    have := h.x_eq
    have := h'.x_eq
    omega
  span_eq := by
    have := h.span_eq
    have := h'.span_eq
    omega
  count_le := by
    have := h.count_le
    have := h'.count_le
    omega

theorem Drawn.room_eq {m : Nat} {s' : State} {a' : Scan}
    (h : Drawn width height rows cells m s₀ s a s' a') : room width s' a' = room width s a - m := by
  have := h.x_eq
  have := h.span_eq
  unfold room
  omega

/--
The conditions of the two loops of `repeatExpr`.
-/
def moreThanEight (width : Nat) : Prog Error State Bool := do
  let s ← get
  if s.count &&& 0xfff8 != 0 then
    let x ← Prog.lift (checkedAdd 64 s.x 8)
    return x < width
  else
    return false

def more (width : Nat) : Prog Error State Bool := do
  let s ← get
  return s.count > 0 && s.x < width

theorem run_moreThanEight (hx : s.x < 2 ^ 63) :
    (moreThanEight width).run s = .ok (s.count &&& 0xfff8 != 0 && s.x + 8 < width) s := by
  have : s.x + 8 < 2 ^ 64 := by omega
  simp only [moreThanEight, EStateM.run_bind, EStateM.run_get]
  split
  next hcount => simp [checkedAdd_of_lt this, hcount]
  next hcount => simp [hcount]

theorem run_more : (more width).run s = .ok (s.count > 0 && s.x < width) s := rfl

theorem room_eq_zero (hregs : s.toRegs = a.toRegs) (h : (s.count > 0 && s.x < width) = false) :
    room width s a = 0 := by
  have hspan := span_pos (r := a.toRegs)
  rw [← hregs] at hspan
  simp only [gt_iff_lt, Bool.and_eq_false_imp, decide_eq_true_eq, decide_eq_false_iff_not] at h
  unfold room
  rw [← hregs]
  omega

section Loops

variable {expr : Prog Error State Unit}

theorem Draws.times (hexpr : Draws width height rows cells s₀ expr) (n : Nat)
    (h : InRow width height rows cells s₀ s a) (hx : s.x + n ≤ width) (hcount : n ≤ s.count) :
    Prog.Related (fun _ s' _ a' => Drawn width height rows cells n s₀ s a s' a')
      (Stopped width height cells)
      ((Prog.times n (do expr; advance)).run s) ((Prog.times n (paintPixel width)).run a) := by
  induction n generalizing s a with
  | zero => exact .ok (Drawn.refl h)
  | succ n ih =>
    rw [Prog.times_succ, Prog.times_succ]
    apply (hexpr s a h (by omega) (by omega)).bind
    intro _ s' _ a' hdrawn
    have hx' := hdrawn.x_eq
    have hcount' := hdrawn.count_le
    apply (ih hdrawn.inRow (by omega) (by omega)).imp
    . intro _ s'' _ a'' h''
      rw [Nat.add_comm]
      exact hdrawn.trans h''
    . exact fun _ _ => id

theorem Draws.loop_step (hexpr : Draws width height rows cells s₀ expr) (n : Nat)
    (h : InRow width height rows cells s₀ s a) (hx : s.x + n ≤ width) (hcount : n ≤ s.count)
    {rest : Prog Error State Unit}
    (hrest : ∀ s' a', InRow width height rows cells s₀ s' a' → s'.x = s.x + n →
      Prog.Related (fun _ s'' _ a'' => Drawn width height rows cells (room width s' a') s₀ s' a' s'' a'')
        (Stopped width height cells)
        (rest.run s') ((Prog.times (room width s' a') (paintPixel width)).run a')) :
    Prog.Related (fun _ s' _ a' => Drawn width height rows cells (room width s a) s₀ s a s' a')
      (Stopped width height cells)
      ((do Prog.times n (do expr; advance); rest : Prog Error State Unit).run s)
      ((Prog.times (room width s a) (paintPixel width)).run a) := by
  -- What one iteration of a loop has drawn and what is drawn after it make up the room there was before.
  have hregs := h.sim.regs
  have hle := count_le_span a.toRegs
  rw [← hregs] at hle
  have hroom : room width s a = n + (room width s a - n) := by
    unfold room
    rw [← hregs]
    omega
  rw [hroom, Prog.times_add]
  apply (hexpr.times n h hx hcount).bind
  intro _ s' _ a' hdrawn
  rw [← hdrawn.room_eq]
  apply (hrest s' a' hdrawn.inRow hdrawn.x_eq).imp
  . exact fun _ _ _ _ => hdrawn.trans
  . exact fun _ _ => id

theorem Draws.whileMore (hexpr : Draws width height rows cells s₀ expr) (fuel : Nat)
    (h : InRow width height rows cells s₀ s a) (hfuel : width ≤ s.x + fuel) :
    Prog.Related (fun _ s' _ a' => Drawn width height rows cells (room width s a) s₀ s a s' a')
      (Stopped width height cells)
      ((Prog.whileLoop fuel (more width) (do expr; advance)).run s)
      ((Prog.times (room width s a) (paintPixel width)).run a) := by
  induction fuel generalizing s a with
  | zero =>
    have hdone : (s.count > 0 && s.x < width) = false := by simp; omega
    rw [Prog.run_whileLoop_of_false _ _ _ (by rw [run_more, hdone]), room_eq_zero h.sim.regs hdone]
    exact .ok (Drawn.refl h)
  | succ fuel ih =>
    cases hmore : (s.count > 0 && s.x < width) with
    | false =>
      rw [Prog.run_whileLoop_of_false _ _ _ (by rw [run_more, hmore]), room_eq_zero h.sim.regs hmore]
      exact .ok (Drawn.refl h)
    | true =>
      rw [Prog.run_whileLoop_of_true _ _ _ (by rw [run_more, hmore])]
      simp only [gt_iff_lt, Bool.and_eq_true, decide_eq_true_eq] at hmore
      have := hexpr.loop_step 1 h hmore.2 hmore.1 fun s' a' h' hx' => ih h' (by omega)
      simpa only [Prog.times_succ, Prog.times_zero, bind_assoc, pure_bind] using this

theorem Draws.repeatExpr (hexpr : Draws width height rows cells s₀ expr) (hfits : Fits width height cells)
    (hrows : 0 < rows) (h : InRow width height rows cells s₀ s a) :
    Prog.Related (fun _ s' _ a' => Drawn width height rows cells (room width s a) s₀ s a s' a')
      (Stopped width height cells)
      ((repeatExpr width expr).run s) ((Prog.times (room width s a) (paintPixel width)).run a) := by
  have hloop : ∀ fuel s a, InRow width height rows cells s₀ s a → width ≤ s.x + fuel →
      Prog.Related (fun _ s' _ a' => Drawn width height rows cells (room width s a) s₀ s a s' a')
        (Stopped width height cells)
        ((do
          Prog.whileLoop fuel (moreThanEight width) (Prog.times 8 do expr; advance)
          Prog.whileLoop width (more width) (do expr; advance) : Prog Error State Unit).run s)
        ((Prog.times (room width s a) (paintPixel width)).run a) := by
    intro fuel s a h hfuel
    have hlt := h.sim.x_lt hfits hrows
    induction fuel generalizing s a with
    | zero =>
      have hdone : (s.count &&& 0xfff8 != 0 && s.x + 8 < width) = false := by simp; omega
      rw [EStateM.run_bind, Prog.run_whileLoop_of_false _ _ _ (by rw [run_moreThanEight hlt, hdone])]
      exact hexpr.whileMore width h (by omega)
    | succ fuel ih =>
      rw [EStateM.run_bind]
      cases hmore : (s.count &&& 0xfff8 != 0 && s.x + 8 < width) with
      | false =>
        rw [Prog.run_whileLoop_of_false _ _ _ (by rw [run_moreThanEight hlt, hmore])]
        exact hexpr.whileMore width h (by omega)
      | true =>
        rw [Prog.run_whileLoop_of_true _ _ _ (by rw [run_moreThanEight hlt, hmore]),
          ← EStateM.run_bind, bind_assoc]
        simp only [Bool.and_eq_true, bne_iff_ne, ne_eq, decide_eq_true_eq] at hmore
        apply hexpr.loop_step 8 h (by omega) (le_of_land_ne_zero hmore.1)
        intro s' a' h' hx'
        exact ih s' a' h' (by omega) (h'.sim.x_lt hfits hrows)
  exact hloop width s a h (by omega)

end Loops

section FillRow

theorem Sim.inRow (h : Sim width height rows cells s a) (h0 : s.opcode = 0 → s.insertmix = false) :
    InRow width height rows cells s s a where
  sim := h
  prevline := rfl
  opcode := rfl
  colour1 := rfl
  colour2 := rfl
  mix := rfl
  insertmix := h0

theorem Sim.writeMixed (h : Sim width height rows cells s a) (hfits : Fits width height cells)
    (hrows : 0 < rows) (hx : s.x < width) :
    ∃ s', (match s.prevline with
        | some e => do Rle16.writePixel ((← Rle16.readAbove e) ^^^ s.mix)
        | none => Rle16.writePixel s.mix).run s = .ok () s' ∧
      Wrote width height rows cells (mixed (above width a.pixels) s.mix) s' a ∧
      s'.x = s.x ∧ s'.prevline = s.prevline := by
  cases hprev : s.prevline with
  | none =>
    rw [h.position.above_eq_none rfl hrows hx hprev, mixed]
    simpa only [hprev] using h.writePixel hfits hrows hx s.mix
  | some e =>
    obtain ⟨u, s₁, hread, habove, hsim, hx₁, hprev₁⟩ := h.readAbove hfits hx hprev
    obtain ⟨s₂, hwrite, hwrote, hx₂, hprev₂⟩ :=
      hsim.writePixel hfits hrows (by omega) (u ^^^ s.mix)
    refine ⟨s₂, ?_, ?_, by omega, by rw [hprev₂, hprev₁, hprev]⟩
    . simp only [EStateM.run_bind, hread, hwrite]
    . rw [habove]
      exact hwrote

theorem Sim.insertPixel (h : Sim width height rows cells s a) (hfits : Fits width height cells)
    (hrows : 0 < rows) (hx : s.x < width) (hcount : 0 < s.count) (hop : s.opcode = 0)
    (hmix : s.insertmix = true) :
    ∃ s' a', ((match s.prevline with
          | some e => do Rle16.writePixel ((← Rle16.readAbove e) ^^^ s.mix)
          | none => Rle16.writePixel s.mix) >>= fun _ => do
        modify fun s => { s with insertmix := false }
        advance : Prog Error State Unit).run s = .ok () s' ∧
      (paintPixel width).run a = .ok () a' ∧ Drawn width height rows cells 1 s s a s' a' := by
  have hregs := h.regs
  have hlt := h.x_lt hfits hrows
  obtain ⟨s₁, hwrite, hwrote, hx₁, hprev₁⟩ := h.writeMixed hfits hrows hx
  have hregs₁ : s₁.toRegs = s.toRegs := hwrote.regs.trans hregs.symm
  obtain ⟨s₂, hadvance, hx₂, hprev₂, hsim⟩ :=
    (hwrote.withRegs { s.toRegs with insertmix := false }).advance (by simp only; omega)
      (by simp only; omega) hcount
  have hregs₂ : s₂.toRegs = { s.toRegs with insertmix := false, count := s.count - 1 } := hsim.regs
  have hvalue : (pixelValue (above width a.pixels)).run a.toRegs =
      .ok (mixed (above width a.pixels) s.mix) a.toRegs := by
    simp [pixelValue, ← hregs, hop, hmix]
  have hafter : afterPixel.run a.toRegs =
      .ok () { s.toRegs with insertmix := false, count := s.count - 1 } := by
    simp [afterPixel, ← hregs, hop]
  refine ⟨s₂, _, ?_, by rw [run_paintPixel, hvalue]; simp only [hafter]; rfl, ?_⟩
  . rw [Prog.run_bind_of_ok hwrite]
    simp only [EStateM.run_bind, EStateM.run_modify, hregs₁]
    exact hadvance
  . constructor
    . constructor
      . exact hsim
      . exact hprev₂.trans hprev₁
      . rw [hregs₂]
      . rw [hregs₂]
      . rw [hregs₂]
      . rw [hregs₂]
      . rw [hregs₂]
        exact fun _ => rfl
    . simp only [hx₂, hx₁]
    . rw [← hregs, span_of_ne (by simp only [hop]; decide), span_of_ne (by simp only [hop]; decide)]
      exact Nat.sub_add_cancel hcount
    . rw [hregs₂]
      simp only
      omega

def Filled (width height rows : Nat) (cells : List UInt16) (s : State) (a : Scan) (s' : State)
    (a' : Scan) : Prop :=
  Sim width height rows cells s' a' ∧ s'.x = s.x + room width s a ∧
    span a'.toRegs + room width s a = span a.toRegs

theorem Sim.fillAbove (h : Sim width height rows cells s a) (hfits : Fits width height cells)
    (hrows : 0 < rows) (hop : s.opcode = 0) (hmix : s.insertmix = false) :
    Prog.Related (fun _ s' _ a' => Drawn width height rows cells (room width s a) s s a s' a')
      (Stopped width height cells)
      ((match s.prevline with
        | some e => repeatExpr width do Rle16.writePixel (← Rle16.readAbove e)
        | none => repeatExpr width do Rle16.writePixel 0).run s)
      ((Prog.times (room width s a) (paintPixel width)).run a) := by
  have hvalue : ∀ up (r : Regs), r.opcode = s.opcode → r.mix = s.mix → r.colour2 = s.colour2 →
      (r.opcode = 0 → r.insertmix = false) → (pixelValue up).run r = .ok (up.getD 0) r := by
    intro up r hr _ _ h0
    rw [hop] at hr
    simp [pixelValue, hr, h0 hr]
  cases hprev : s.prevline with
  | none =>
    have hpaint := Paints.first hfits hrows hprev (fun up => up.getD 0)
    exact (Draws.of_value (by simp [hop]) hpaint hvalue).repeatExpr hfits hrows (h.inRow fun _ => hmix)
  | some e =>
    have hpaint := Paints.next hfits hrows hprev (fun up => up.getD 0)
    exact (Draws.of_value (by simp [hop]) hpaint hvalue).repeatExpr hfits hrows (h.inRow fun _ => hmix)

theorem Drawn.filled {s' : State} {a' : Scan}
    (h : Drawn width height rows cells (room width s a) s s a s' a') :
    Filled width height rows cells s a s' a' := ⟨h.inRow.sim, h.x_eq, h.span_eq⟩

theorem room_pos (hregs : s.toRegs = a.toRegs) (hx : s.x < width) (hcount : 0 < s.count) :
    0 < room width s a := by
  have hspan := span_pos (r := a.toRegs)
  rw [← hregs] at hspan
  unfold room
  rw [← hregs]
  omega

theorem Sim.fillOther (h : Sim width height rows cells s a) (hfits : Fits width height cells)
    (hrows : 0 < rows) (hop : s.opcode ≠ 0) {expr : Prog Error State Unit}
    (hexpr : Draws width height rows cells s expr) :
    Prog.Related (fun _ s' _ a' => Filled width height rows cells s a s' a')
      (Stopped width height cells)
      ((repeatExpr width expr).run s) ((Prog.times (room width s a) (paintPixel width)).run a) := by
  apply (hexpr.repeatExpr hfits hrows (h.inRow fun h0 => absurd h0 hop)).imp
  . exact fun _ _ _ _ hdrawn => hdrawn.filled
  . exact fun _ _ => id

theorem Sim.fillInserted (h : Sim width height rows cells s a) (hfits : Fits width height cells)
    (hrows : 0 < rows) (hx : s.x < width) (hcount : 0 < s.count) (hop : s.opcode = 0)
    (hmix : s.insertmix = true) :
    Prog.Related (fun _ s' _ a' => Filled width height rows cells s a s' a')
      (Stopped width height cells)
      ((do
        match s.prevline with
        | some e => Rle16.writePixel ((← Rle16.readAbove e) ^^^ s.mix)
        | none => Rle16.writePixel s.mix
        modify fun s => { s with insertmix := false }
        advance
        match s.prevline with
        | some e => repeatExpr width do Rle16.writePixel (← Rle16.readAbove e)
        | none => repeatExpr width do Rle16.writePixel 0 : Prog Error State Unit).run s)
      ((Prog.times (room width s a) (paintPixel width)).run a) := by
  obtain ⟨s₁, a₁, hrun, hpaint, hdrawn⟩ := h.insertPixel hfits hrows hx hcount hop hmix
  have hop₁ := hdrawn.inRow.opcode.trans hop
  have hfill := hdrawn.inRow.sim.fillAbove hfits hrows hop₁ (hdrawn.inRow.insertmix hop₁)
  rw [hdrawn.inRow.prevline, hdrawn.room_eq] at hfill
  have hroom : room width s a = room width s a - 1 + 1 :=
    (Nat.sub_add_cancel (room_pos h.regs hx hcount)).symm
  -- The inserted pixel is the first of the room, and the loop fills what is left of it.
  have hrest : Prog.Related (fun _ s' _ a' => Filled width height rows cells s a s' a')
      (Stopped width height cells)
      ((match s.prevline with
        | some e => repeatExpr width do Rle16.writePixel (← Rle16.readAbove e)
        | none => repeatExpr width do Rle16.writePixel 0).run s₁)
      ((Prog.times (room width s a - 1) (paintPixel width)).run a₁) := by
    apply hfill.imp
    . intro _ s' _ a' h'
      have := h'.x_eq
      have := h'.span_eq
      have := hdrawn.x_eq
      have := hdrawn.span_eq
      exact ⟨h'.inRow.sim, by omega, by omega⟩
    . exact fun _ _ => id
  have hscan : (Prog.times (room width s a) (paintPixel width)).run a =
      (Prog.times (room width s a - 1) (paintPixel width)).run a₁ := by
    rw [hroom, Nat.add_sub_cancel, Prog.times_succ, EStateM.run_bind, hpaint]
  rw [hscan]
  cases hprev : s.prevline with
  | none =>
    simp only [hprev, ← bind_assoc] at hrest hrun ⊢
    rw [Prog.run_bind_of_ok hrun]
    exact hrest
  | some e =>
    simp only [hprev, ← bind_assoc] at hrest hrun ⊢
    rw [Prog.run_bind_of_ok hrun]
    exact hrest

theorem Sim.fillMixed (h : Sim width height rows cells s a) (hfits : Fits width height cells)
    (hrows : 0 < rows) (hop : s.opcode = 1) :
    Prog.Related (fun _ s' _ a' => Filled width height rows cells s a s' a')
      (Stopped width height cells)
      ((match s.prevline with
        | some e => repeatExpr width do Rle16.writePixel ((← Rle16.readAbove e) ^^^ s.mix)
        | none => repeatExpr width do Rle16.writePixel s.mix).run s)
      ((Prog.times (room width s a) (paintPixel width)).run a) := by
  have hvalue : ∀ up (r : Regs), r.opcode = s.opcode → r.mix = s.mix → r.colour2 = s.colour2 →
      (r.opcode = 0 → r.insertmix = false) → (pixelValue up).run r = .ok (mixed up s.mix) r := by
    intro up r hr hmix _ _
    simp [pixelValue, hr, hop, hmix]
  cases hprev : s.prevline with
  | none =>
    apply h.fillOther hfits hrows (by simp [hop])
    exact Draws.of_value (by simp [hop]) (Paints.first hfits hrows hprev (mixed · s.mix)) hvalue
  | some e =>
    apply h.fillOther hfits hrows (by simp [hop])
    exact Draws.of_value (by simp [hop]) (Paints.next hfits hrows hprev (mixed · s.mix)) hvalue

theorem Sim.fillMasked (h : Sim width height rows cells s a) (hfits : Fits width height cells)
    (hrows : 0 < rows) (hop : s.opcode = 2) :
    Prog.Related (fun _ s' _ a' => Filled width height rows cells s a s' a')
      (Stopped width height cells)
      ((match s.prevline with
        | some e => repeatExpr width do
            if ← Rle16.regs nextMaskBit then
              Rle16.writePixel ((← Rle16.readAbove e) ^^^ s.mix)
            else
              Rle16.writePixel (← Rle16.readAbove e)
        | none => repeatExpr width do
            if ← Rle16.regs nextMaskBit then Rle16.writePixel s.mix else Rle16.writePixel 0).run s)
      ((Prog.times (room width s a) (paintPixel width)).run a) := by
  have hvalue : ∀ up (r : Regs), r.opcode = s.opcode → r.mix = s.mix → r.colour2 = s.colour2 →
      (r.opcode = 0 → r.insertmix = false) → (pixelValue up).run r =
        (do return if ← nextMaskBit then mixed up s.mix else up.getD 0 : Prog Error Regs UInt16).run r := by
    intro up r hr hmix _ _
    simp only [pixelValue, EStateM.run_bind, EStateM.run_get, hr, hop]
    cases nextMaskBit.run r with
    | error e r' => rfl
    | ok b r' => cases b <;> simp [hmix]
  -- The bit is read first, and each of its values paints with an expression of its own.
  cases hprev : s.prevline with
  | none =>
    apply h.fillOther hfits hrows (by simp [hop])
    apply Draws.of_paints nextMaskBit_keeps (by simp [hop]) _ hvalue
    intro b
    cases b with
    | true => exact Paints.first hfits hrows hprev (fun up => mixed up s.mix)
    | false => exact Paints.first hfits hrows hprev (fun up => up.getD 0)
  | some e =>
    apply h.fillOther hfits hrows (by simp [hop])
    apply Draws.of_paints nextMaskBit_keeps (by simp [hop]) _ hvalue
    intro b
    cases b with
    | true => exact Paints.next hfits hrows hprev (fun up => mixed up s.mix)
    | false => exact Paints.next hfits hrows hprev (fun up => up.getD 0)

theorem Sim.fillPlain (h : Sim width height rows cells s a) (hfits : Fits width height cells)
    (hrows : 0 < rows) (h0 : s.opcode ≠ 0) (h8 : s.opcode ≠ 8) {v : UInt16}
    (hvalue : ∀ up (r : Regs), r.opcode = s.opcode → r.colour2 = s.colour2 →
      (pixelValue up).run r = .ok v r) :
    Prog.Related (fun _ s' _ a' => Filled width height rows cells s a s' a')
      (Stopped width height cells)
      ((repeatExpr width (Rle16.writePixel v)).run s)
      ((Prog.times (room width s a) (paintPixel width)).run a) := by
  apply h.fillOther hfits hrows h0
  apply Draws.of_value h8 (Paints.plain hfits hrows v)
  exact fun up r hr _ hcolour _ => hvalue up r hr hcolour

theorem Sim.fillUndefined (h : Sim width height rows cells s a) (hx : s.x < width) (hcount : 0 < s.count)
    (hvalue : ∀ up, (pixelValue up).run s.toRegs = .error (.panic "opcode") s.toRegs) :
    Prog.Related (fun _ s' _ a' => Filled width height rows cells s a s' a')
      (Stopped width height cells)
      ((Prog.abort "opcode" : Prog Error State Unit).run s)
      ((Prog.times (room width s a) (paintPixel width)).run a) := by
  obtain ⟨k, hk⟩ := Nat.exists_eq_succ_of_ne_zero (Nat.ne_of_gt (room_pos h.regs hx hcount))
  have hvalue' := hvalue (above width a.pixels)
  rw [h.regs] at hvalue'
  rw [hk, Prog.times_succ, EStateM.run_bind, run_paintPixel, hvalue']
  exact .error h.image

theorem Sim.fillRow (h : Sim width height rows cells s a) (hfits : Fits width height cells)
    (hrows : 0 < rows) (hx : s.x < width) (hcount : 0 < s.count) :
    Prog.Related (fun _ s' _ a' => Filled width height rows cells s a s' a')
      (Stopped width height cells)
      ((fillRow width).run s) ((Prog.times (room width s a) (paintPixel width)).run a) := by
  unfold Rle16.fillRow
  rw [EStateM.run_bind]
  simp only [EStateM.run_get]
  -- One case for each opcode, in the order of the source.
  split
  next hop =>
    cases hmix : s.insertmix with
    | true =>
      simp only [if_true]
      exact h.fillInserted hfits hrows hx hcount hop hmix
    | false =>
      simp only [Bool.false_eq_true, if_false]
      apply (h.fillAbove hfits hrows hop hmix).imp
      . exact fun _ _ _ _ hdrawn => hdrawn.filled
      . exact fun _ _ => id
  next hop => exact h.fillMixed hfits hrows hop
  next hop => exact h.fillMasked hfits hrows hop
  next hop =>
    apply h.fillPlain hfits hrows (by simp [hop]) (by simp [hop])
    intro up r hr hcolour
    simp [pixelValue, hr, hop, hcolour]
  next hop =>
    apply h.fillOther hfits hrows (by simp [hop])
    apply Draws.of_paints (cursor_keeps _) (by simp [hop]) (fun v => Paints.plain hfits hrows v)
    intro up r hr _ _ _
    simp [pixelValue, hr, hop]
  next hop =>
    apply h.fillOther hfits hrows (by simp [hop])
    exact Draws.dithered hfits hrows hop
  next hop =>
    apply h.fillPlain hfits hrows (by simp [hop]) (by simp [hop])
    intro up r hr _
    simp [pixelValue, hr, hop]
  next hop =>
    apply h.fillPlain hfits hrows (by simp [hop]) (by simp [hop])
    intro up r hr _
    simp [pixelValue, hr, hop]
  next h0 h1 h2 h3 h4 h8 hd he =>
    apply h.fillUndefined hx hcount
    intro up
    simp [pixelValue]

end FillRow

end Rle16
end Rdp
