import Rdp.Codec.Rle16.Lemmas.Pixel

/-!
The simulation between the decoder and its `Scan`, for the pixels of an order up to the end of a row.
-/

namespace Rdp
namespace Rle16

variable {width height rows : Nat} {cells : List UInt16}

section Run

variable (s : State) (a : Scan)

theorem run_regs (x : Prog Error Regs α) :
    (regs x).run s =
      match x.run s.toRegs with
      | .ok v r => .ok v { s with toRegs := r }
      | .error e r => .error e { s with toRegs := r } := by
  rw [regs, Prog.run_zoom]
  cases x.run s.toRegs <;> rfl

theorem run_scanRegs (x : Prog Error Regs α) :
    (scanRegs x).run a =
      match x.run a.toRegs with
      | .ok v r => .ok v { a with toRegs := r }
      | .error e r => .error e { a with toRegs := r } := by
  rw [scanRegs, Prog.run_zoom]
  cases x.run a.toRegs <;> rfl

theorem run_advance (hcount : 0 < s.count) (hx : s.x + 1 < 2 ^ 64) :
    advance.run s = .ok () { s with count := s.count - 1, x := s.x + 1 } := by
  simp [advance, checkedSub_of_le hcount, checkedAdd_of_lt hx]

theorem run_paintPixel :
    (paintPixel width).run a =
      match (pixelValue (above width a.pixels)).run a.toRegs with
      | .error e r => .error e { a with toRegs := r }
      | .ok v r =>
        match afterPixel.run r with
        | .error e r' => .error e { toRegs := r', pixels := a.pixels ++ [v] }
        | .ok _ r' => .ok () { toRegs := r', pixels := a.pixels ++ [v] } := by
  simp only [paintPixel, EStateM.run_bind, EStateM.run_get, run_scanRegs]
  cases (pixelValue (above width a.pixels)).run a.toRegs with
  | error e r => rfl
  | ok v r =>
    simp only [EStateM.run_modify]
    cases afterPixel.run r <;> rfl

end Run

section Step

variable {s : State} {a : Scan}

theorem Sim.withRegs (h : Sim width height rows cells s a) (r : Regs) :
    Sim width height rows cells { s with toRegs := r } { a with toRegs := r } where
  regs := rfl
  image := h.image
  position := { h.position with }

theorem Sim.x_lt (h : Sim width height rows cells s a) (hfits : Fits width height cells)
    (hrows : 0 < rows) : s.x < 2 ^ 63 := by
  have := h.position.x_le
  have := hfits.width_lt (by have := h.position.rows_le; omega)
  omega

theorem Wrote.withRegs {v : UInt16} (h : Wrote width height rows cells v s a) (r : Regs) :
    Wrote width height rows cells v { s with toRegs := r } { a with toRegs := r } where
  regs := rfl
  image := h.image
  position := { h.position with }

theorem Wrote.advance {v : UInt16} (h : Wrote width height rows cells v s a)
    (hx : s.x < width) (hx' : s.x + 1 < 2 ^ 64) (hcount : 0 < s.count) :
    ∃ s', advance.run s = .ok () s' ∧ s'.x = s.x + 1 ∧ s'.prevline = s.prevline ∧
      Sim width height rows cells s'
        { toRegs := { a.toRegs with count := a.count - 1 }, pixels := a.pixels ++ [v] } := by
  refine ⟨_, run_advance s hcount hx', rfl, rfl, ?_⟩
  constructor
  . simp only [h.regs]
  . exact h.image
  . have hpainted := h.position.painted
    exact {
      h.position with
      x_le := hx
      painted := by
        simp only [List.length_append, List.length_cons, List.length_nil]
        omega }

theorem Sim.paintPlain (h : Sim width height rows cells s a) (hfits : Fits width height cells)
    (hrows : 0 < rows) (hx : s.x < width) (hcount : 0 < a.count) (v : UInt16) :
    ∃ s', (do Rle16.writePixel v; advance : Prog Error State Unit).run s = .ok () s' ∧
      s'.x = s.x + 1 ∧ s'.prevline = s.prevline ∧
      Sim width height rows cells s'
        { toRegs := { a.toRegs with count := a.count - 1 }, pixels := a.pixels ++ [v] } := by
  obtain ⟨s₁, hwrite, hwrote, hx₁, hprev₁⟩ := h.writePixel hfits hrows hx v
  have hlt := h.x_lt hfits hrows
  have hcount₁ : 0 < s₁.count := by
    rw [hwrote.regs]
    exact hcount
  obtain ⟨s₂, hadvance, hx₂, hprev₂, hsim⟩ :=
    hwrote.advance (by omega) (by omega) hcount₁
  refine ⟨s₂, ?_, by omega, by rw [hprev₂, hprev₁], hsim⟩
  simp only [EStateM.run_bind, hwrite, hadvance]

theorem Sim.paintAbove (h : Sim width height rows cells s a) (hfits : Fits width height cells)
    (hrows : 0 < rows) (hx : s.x < width) (hcount : 0 < a.count) {e : Nat}
    (hprev : s.prevline = some e) (f : UInt16 → UInt16) :
    ∃ u s', (do Rle16.writePixel (f (← Rle16.readAbove e)); advance : Prog Error State Unit).run s = .ok () s' ∧
      above width a.pixels = some u ∧ s'.x = s.x + 1 ∧ s'.prevline = s.prevline ∧
      Sim width height rows cells s'
        { toRegs := { a.toRegs with count := a.count - 1 }, pixels := a.pixels ++ [f u] } := by
  obtain ⟨u, s₁, hread, habove, hsim₁, hx₁, hprev₁⟩ := h.readAbove hfits hx hprev
  obtain ⟨s₂, hrun, hx₂, hprev₂, hsim₂⟩ :=
    hsim₁.paintPlain hfits hrows (by omega) hcount (f u)
  refine ⟨u, s₂, ?_, habove, by omega, by rw [hprev₂, hprev₁], hsim₂⟩
  simp only [EStateM.run_bind] at hrun
  simp only [EStateM.run_bind, hread, hrun]

end Step

/--
The registers that no pixel of an order changes, once its inserted pixel is drawn.
-/
structure Fixed (r r' : Regs) : Prop where
  opcode : r'.opcode = r.opcode
  insertmix : r'.insertmix = r.insertmix
  colour1 : r'.colour1 = r.colour1
  colour2 : r'.colour2 = r.colour2
  mix : r'.mix = r.mix

structure Keeps (r r' : Regs) : Prop extends Fixed r r' where
  count : r'.count = r.count
  bicolour : r'.bicolour = r.bicolour

section Keeps

variable {r r' : Regs}

theorem Fixed.trans (r s t : Regs) (h : Fixed r s) (h' : Fixed s t) : Fixed r t where
  opcode := h'.opcode.trans h.opcode
  insertmix := h'.insertmix.trans h.insertmix
  colour1 := h'.colour1.trans h.colour1
  colour2 := h'.colour2.trans h.colour2
  mix := h'.mix.trans h.mix

theorem Keeps.trans (r s t : Regs) (h : Keeps r s) (h' : Keeps s t) : Keeps r t where
  toFixed := Fixed.trans _ _ _ h.toFixed h'.toFixed
  count := h'.count.trans h.count
  bicolour := h'.bicolour.trans h.bicolour

instance : IsPreorder Regs Keeps where
  refl _ := by repeat constructor
  trans := Keeps.trans

theorem cursor_keeps (x : Reader α) : Prog.Moves Keeps (cursor x) := by
  have hx : Prog.Moves (fun _ _ => True) x := fun _ => trivial
  exact hx.zoom fun r input _ => by repeat constructor

theorem nextMaskBit_moves {R : Regs → Regs → Prop} [IsPreorder Regs R]
    (hread : Prog.Moves R (cursor Cursor.readU8))
    (hset : ∀ r mask mixmask, R r { r with mask, mixmask }) : Prog.Moves R nextMaskBit := by
  have hbit : Prog.Moves R (do
      let r ← get
      return r.mask &&& r.mixmask != 0 : Prog Error Regs Bool) :=
    Prog.Moves.bind Prog.Moves.get fun _ => Prog.Moves.pure _
  have hnext : ∀ mask : UInt8, Prog.Moves R (do
      modify fun r => { r with mask, mixmask := 1 }
      let r ← get
      return r.mask &&& r.mixmask != 0 : Prog Error Regs Bool) := by
    intro mask
    apply Prog.Moves.bind _ fun _ => hbit
    exact Prog.Moves.modify fun r => hset r mask 1
  unfold nextMaskBit
  apply Prog.Moves.bind
  . exact Prog.Moves.modify fun r => hset r r.mask (r.mixmask <<< 1)
  intro _
  refine Prog.Moves.bind Prog.Moves.get fun r => ?_
  split
  . dsimp only
    split
    . exact Prog.Moves.bind (Prog.Moves.pure _) hnext
    . exact Prog.Moves.bind hread hnext
  . exact hbit

theorem nextMaskBit_keeps : Prog.Moves Keeps nextMaskBit :=
  nextMaskBit_moves (cursor_keeps _) fun _ _ _ => by repeat constructor

end Keeps

end Rle16
end Rdp
