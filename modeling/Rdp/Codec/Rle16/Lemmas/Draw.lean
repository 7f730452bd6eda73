import Rdp.Codec.Rle16.Lemmas.Row

/-!
Drawing one pixel: every expression that `fillRow` repeats, followed by `advance`, does what
`paintPixel` does.
-/

namespace Rdp
namespace Rle16

variable (width height rows : Nat) (cells : List UInt16)

structure InRow (s₀ s : State) (a : Scan) : Prop where
  sim : Sim width height rows cells s a
  prevline : s.prevline = s₀.prevline
  opcode : s.opcode = s₀.opcode
  colour1 : s.colour1 = s₀.colour1
  colour2 : s.colour2 = s₀.colour2
  mix : s.mix = s₀.mix
  insertmix : s.opcode = 0 → s.insertmix = false

structure Drawn (n : Nat) (s₀ s : State) (a : Scan) (s' : State) (a' : Scan) : Prop where
  inRow : InRow width height rows cells s₀ s' a'
  x_eq : s'.x = s.x + n
  span_eq : span a'.toRegs + n = span a.toRegs
  count_le : s.count ≤ s'.count + n

def Draws (s₀ : State) (expr : Prog Error State Unit) : Prop :=
  ∀ s a, InRow width height rows cells s₀ s a → s.x < width → 0 < s.count →
    Prog.Related (fun _ s' _ a' => Drawn width height rows cells 1 s₀ s a s' a')
      (Stopped width height cells)
      ((do expr; advance : Prog Error State Unit).run s) ((paintPixel width).run a)

/--
`expr` writes the pixel `value up`, where `up` is the one above it.
-/
def Paints (s₀ : State) (expr : Prog Error State Unit) (value : Option UInt16 → UInt16) : Prop :=
  ∀ s a, Sim width height rows cells s a → s.prevline = s₀.prevline → s.x < width → 0 < a.count →
    ∃ s', (do expr; advance : Prog Error State Unit).run s = .ok () s' ∧
      s'.x = s.x + 1 ∧ s'.prevline = s.prevline ∧
      Sim width height rows cells s'
        { toRegs := { a.toRegs with count := a.count - 1 }
          pixels := a.pixels ++ [value (above width a.pixels)] }

section Paints

variable {width height rows cells} {s₀ : State} (hfits : Fits width height cells) (hrows : 0 < rows)

include hfits hrows

theorem Paints.plain (v : UInt16) :
    Paints width height rows cells s₀ (writePixel v) (fun _ => v) := by
  intro s a h _ hx hcount
  exact h.paintPlain hfits hrows hx hcount v

theorem Paints.first (hprev : s₀.prevline = none) (value : Option UInt16 → UInt16) :
    Paints width height rows cells s₀ (writePixel (value none)) value := by
  intro s a h hs hx hcount
  rw [h.position.above_eq_none rfl hrows hx (by rw [hs, hprev])]
  exact h.paintPlain hfits hrows hx hcount (value none)

theorem Paints.next {e : Nat} (hprev : s₀.prevline = some e) (value : Option UInt16 → UInt16) :
    Paints width height rows cells s₀ (do writePixel (value (some (← readAbove e)))) value := by
  intro s a h hs hx hcount
  obtain ⟨u, s', hrun, habove, hx', hprev', hsim⟩ :=
    h.paintAbove hfits hrows hx hcount (by rw [hs, hprev]) (fun u => value (some u))
  refine ⟨s', ?_, hx', hprev', ?_⟩
  . rw [bind_assoc]
    exact hrun
  . rw [habove]
    exact hsim

end Paints

section Draws

variable {width height rows cells} {s₀ : State}

theorem run_afterPixel {r : Regs} (h8 : r.opcode ≠ 8) (h0 : r.opcode = 0 → r.insertmix = false) :
    afterPixel.run r = .ok () { r with count := r.count - 1 } := by
  simp only [afterPixel, EStateM.run_bind, EStateM.run_get]
  split
  next hop =>
    simp [← h0 hop]
  next hop =>
    exact absurd hop h8
  next =>
    simp

theorem span_of_ne {r : Regs} (h8 : r.opcode ≠ 8) : span r = r.count := by
  simp [span, h8]

theorem InRow.step {s s' : State} {a a' : Scan} (h : InRow width height rows cells s₀ s a)
    (hfixed : Fixed s.toRegs s'.toRegs) (hprev : s'.prevline = s.prevline)
    (hsim : Sim width height rows cells s' a') : InRow width height rows cells s₀ s' a' where
  sim := hsim
  prevline := hprev.trans h.prevline
  opcode := hfixed.opcode.trans h.opcode
  colour1 := hfixed.colour1.trans h.colour1
  colour2 := hfixed.colour2.trans h.colour2
  mix := hfixed.mix.trans h.mix
  insertmix := by
    intro hop
    rw [hfixed.insertmix]
    exact h.insertmix (hfixed.opcode.symm.trans hop)

theorem Draws.of_paints {y : Prog Error Regs α} {expr : α → Prog Error State Unit}
    {value : α → Option UInt16 → UInt16} (hy : Prog.Moves Keeps y) (h8 : s₀.opcode ≠ 8)
    (hpaint : ∀ b, Paints width height rows cells s₀ (expr b) (value b))
    (hvalue : ∀ up (r : Regs), r.opcode = s₀.opcode → r.mix = s₀.mix → r.colour2 = s₀.colour2 →
      (r.opcode = 0 → r.insertmix = false) →
      (pixelValue up).run r = (do return value (← y) up : Prog Error Regs UInt16).run r) :
    Draws width height rows cells s₀ (do expr (← regs y)) := by
  intro s a h hx hcount
  have hregs := h.sim.regs
  have hkeeps := hy s.toRegs
  rw [run_paintPixel, bind_assoc, EStateM.run_bind, run_regs, hvalue _ _ (by rw [← hregs, h.opcode])
    (by rw [← hregs, h.mix]) (by rw [← hregs, h.colour2]) (by rw [← hregs]; exact h.insertmix),
    EStateM.run_bind, ← hregs]
  cases hrun : y.run s.toRegs with
  | error e r =>
    exact .error h.sim.image
  | ok b r =>
    rw [hrun, Prog.finalState_ok] at hkeeps
    have hsim := h.sim.withRegs r
    have hnext : InRow width height rows cells s₀ { s with toRegs := r } { a with toRegs := r } :=
      h.step hkeeps.toFixed rfl hsim
    have hr8 : r.opcode ≠ 8 := by
      rw [hkeeps.opcode, h.opcode]
      exact h8
    have hrcount : 0 < r.count := by
      rw [hkeeps.count]
      exact hcount
    obtain ⟨s', hrun', hx', hprev', hsim'⟩ := hpaint b _ _ hsim hnext.prevline hx hrcount
    have hregs' : s'.toRegs = { r with count := r.count - 1 } := hsim'.regs
    simp only [hrun', EStateM.run_pure, run_afterPixel hr8 hnext.insertmix]
    apply Prog.Related.ok
    constructor
    . apply hnext.step _ hprev' hsim'
      rw [hregs']
      repeat constructor
    . exact hx'
    . have hspan : span a.toRegs = r.count := by
        rw [← hregs, span_of_ne (by rw [h.opcode]; exact h8), hkeeps.count]
      rw [hspan]
      change span { r with count := r.count - 1 } + 1 = r.count
      rw [span_of_ne (by exact hr8)]
      exact Nat.sub_add_cancel hrcount
    . rw [hregs', ← hkeeps.count]
      simp only
      omega

theorem Draws.of_value {expr : Prog Error State Unit} {value : Option UInt16 → UInt16}
    (h8 : s₀.opcode ≠ 8) (hpaint : Paints width height rows cells s₀ expr value)
    (hvalue : ∀ up (r : Regs), r.opcode = s₀.opcode → r.mix = s₀.mix → r.colour2 = s₀.colour2 →
      (r.opcode = 0 → r.insertmix = false) → (pixelValue up).run r = .ok (value up) r) :
    Draws width height rows cells s₀ expr := by
  have hregs : (regs (pure ()) : Prog Error State Unit) = pure () := rfl
  have hdraws : Draws width height rows cells s₀ (do let b ← regs (pure ()); (fun _ => expr) b) :=
    Draws.of_paints (y := pure ()) (Prog.Moves.pure ()) h8 (fun _ => hpaint) (by
      intro up r hop hmix hcolour h0
      simp [hvalue up r hop hmix hcolour h0])
  simpa only [hregs, pure_bind] using hdraws

theorem InRow.drawn {s : State} {a : Scan} {v : UInt16} {y : Prog Error State Unit} {r : Regs}
    (hfits : Fits width height cells) (hrows : 0 < rows)
    (h : InRow width height rows cells s₀ s a) (hx : s.x < width) (hfixed : Fixed s.toRegs r)
    (hcount : 0 < r.count) (hle : s.count ≤ r.count)
    (hspan : span { r with count := r.count - 1 } + 1 = span a.toRegs)
    (hrun : ∀ s' : State, s'.toRegs = s.toRegs → y.run s' = .ok () { s' with toRegs := r })
    (hvalue : (pixelValue (above width a.pixels)).run a.toRegs = .ok v a.toRegs)
    (hafter : afterPixel.run a.toRegs = .ok () { r with count := r.count - 1 }) :
    Prog.Related (fun _ s' _ a' => Drawn width height rows cells 1 s₀ s a s' a')
      (Stopped width height cells)
      ((do writePixel v; y; advance : Prog Error State Unit).run s) ((paintPixel width).run a) := by
  have hregs := h.sim.regs
  have hlt := h.sim.x_lt hfits hrows
  obtain ⟨s₁, hwrite, hwrote, hx₁, hprev₁⟩ := h.sim.writePixel hfits hrows hx v
  have hregs₁ : s₁.toRegs = s.toRegs := hwrote.regs.trans hregs.symm
  obtain ⟨s₂, hadvance, hx₂, hprev₂, hsim⟩ :=
    (hwrote.withRegs r).advance (by simp only; omega) (by simp only; omega) hcount
  have hregs₂ : s₂.toRegs = { r with count := r.count - 1 } := hsim.regs
  rw [run_paintPixel, hvalue]
  simp only [hafter, EStateM.run_bind, hwrite, hrun s₁ hregs₁, hadvance]
  apply Prog.Related.ok
  constructor
  . apply h.step _ (hprev₂.trans hprev₁) hsim
    rw [hregs₂]
    exact Fixed.trans _ _ _ hfixed (by repeat constructor)
  . simp only [hx₂, hx₁]
  . exact hspan
  . rw [hregs₂]
    simp only
    omega

theorem Draws.dithered (hfits : Fits width height cells) (hrows : 0 < rows) (h8 : s₀.opcode = 8) :
    Draws width height rows cells s₀ (do
      if (← get).bicolour then
        writePixel s₀.colour2
        modify fun s => { s with bicolour := false }
      else
        writePixel s₀.colour1
        modify fun s => { s with bicolour := true }
        let count ← Prog.lift (checkedAdd 16 (← get).count 1)
        modify fun s => { s with count }) := by
  intro s a h hx hcount
  have hregs := h.sim.regs
  have hop : s.opcode = 8 := by
    rw [h.opcode, h8]
  rw [bind_assoc, EStateM.run_bind]
  cases hbi : s.bicolour with
  | true =>
    simp only [EStateM.run_get, hbi, if_true, bind_assoc]
    apply h.drawn hfits hrows hx (r := { s.toRegs with bicolour := false }) _ hcount (Nat.le_refl _)
    . simp only [span, ← hregs, hop, hbi, if_true, Bool.toNat_true, Bool.toNat_false]
      omega
    . intro s' hs'
      rw [EStateM.run_modify, hs']
    . simp [pixelValue, ← hregs, hop, hbi, h.colour2]
    . simp [afterPixel, ← hregs, hop, hbi]
    . repeat constructor
  | false =>
    simp only [EStateM.run_get, hbi, Bool.false_eq_true, if_false, bind_assoc]
    by_cases hmax : s.count + 1 < 2 ^ 16
    . have := h.drawn hfits hrows hx (v := s₀.colour1)
        (r := { s.toRegs with bicolour := true, count := s.count + 1 })
        (y := do
          modify fun s => { s with bicolour := true }
          let count ← Prog.lift (checkedAdd 16 (← get).count 1)
          modify fun s => { s with count }) (by repeat constructor) (Nat.succ_pos _) (Nat.le_succ _)
      simp only [bind_assoc] at this
      apply this
      . simp only [span, ← hregs, hop, hbi, if_true, Bool.toNat_true, Bool.toNat_false]
        omega
      . intro s' hs'
        simp [hs', checkedAdd_of_lt hmax]
      . simp [pixelValue, ← hregs, hop, hbi, h.colour1]
      . simp [afterPixel, ← hregs, hop, hbi, checkedAdd_of_lt hmax]
    . obtain ⟨s₁, hwrite, hwrote, _, _⟩ := h.sim.writePixel hfits hrows hx s₀.colour1
      have hregs₁ : s₁.toRegs = s.toRegs := hwrote.regs.trans hregs.symm
      have hvalue : (pixelValue (above width a.pixels)).run a.toRegs = .ok s₀.colour1 a.toRegs := by
        simp [pixelValue, ← hregs, hop, hbi, h.colour1]
      rw [run_paintPixel, hvalue]
      simp only [EStateM.run_bind, hwrite, EStateM.run_modify, EStateM.run_get, hregs₁, afterPixel,
        ← hregs, hop, hbi, Bool.false_eq_true, if_false, checkedAdd_of_le (Nat.not_lt.mp hmax),
        Prog.run_lift_error]
      exact .error hwrote.image

end Draws

end Rle16
end Rdp
