import Rdp.Codec.Rle16.Lemmas.Fill

/-!
The loop over the rows of an order paints what `paintN` paints, in an image with columns and in one
without any.
-/

namespace Rdp
namespace Rle16

variable {width height rows : Nat} {cells : List UInt16} {s : State} {a : Scan}

theorem paintPixel_length {a' : Scan} (h : (paintPixel width).run a = .ok () a') :
    a'.pixels.length = a.pixels.length + 1 := by
  rw [run_paintPixel] at h
  split at h
  . cases h
  . split at h
    . cases h
    . cases h
      simp

theorem paintN_eq_times {m n : Nat} (hwidth : 0 < width) (hmn : m ≤ n)
    (hroom : a.pixels.length + m ≤ width * height) :
    (paintN width height n).run a =
      (do Prog.times m (paintPixel width); paintN width height (n - m) : Prog Error Scan Unit).run a := by
  induction m generalizing n a with
  | zero => simp
  | succ m ih =>
    obtain ⟨n, rfl⟩ : ∃ k, n = k + 1 := ⟨n - 1, by omega⟩
    have hfull : ¬ (width * height ≤ a.pixels.length ∧ (width = 0 → height = 0)) := by omega
    rw [paintN, Prog.times_succ, bind_assoc]
    simp only [EStateM.run_bind, EStateM.run_get, if_neg hfull, if_neg (Nat.ne_of_gt hwidth)]
    cases hrun : (paintPixel width).run a with
    | error e a' => rfl
    | ok _ a' =>
      have hlen := paintPixel_length hrun
      have := ih (n := n) (a := a') (by omega) (by omega)
      rw [EStateM.run_bind] at this
      rw [Nat.add_sub_add_right]
      exact this

theorem paintN_full {n : Nat} (hfull : width * height ≤ a.pixels.length)
    (hempty : width = 0 → height = 0) :
    (paintN width height (n + 1)).run a =
      .error (.error (.new .invalidData "error during decompress")) a := by
  have : width * height ≤ a.pixels.length ∧ (width = 0 → height = 0) := ⟨hfull, hempty⟩
  simp only [paintN, EStateM.run_bind, EStateM.run_get]
  rw [if_pos this, Prog.run_fail]

section Rows

/--
The decoder has finished an order: it has not started a row without painting into it.
-/
def AtOrder (width height : Nat) (cells : List UInt16) (s : State) (a : Scan) : Prop :=
  ∃ rows, Sim width height rows cells s a ∧ (rows = 0 ∨ 0 < s.x)

theorem Position.rows_pos {n : Nat} (h : Position width height rows s n) (hx : s.x < width) :
    0 < rows := by
  by_contra hrows
  have := h.painted
  simp only [Nat.eq_zero_of_not_pos hrows, Nat.zero_mul] at this
  omega

theorem Sim.room_le (h : Sim width height rows cells s a) (hx : s.x < width) :
    a.pixels.length + room width s a ≤ width * height := by
  have hrows := h.position.rows_pos hx
  have hstart := h.position.row_start hrows
  have hle : (rows - 1 + 1) * width ≤ height * width :=
    Nat.mul_le_mul_right width (by have := h.position.rows_le; omega)
  rw [Nat.succ_mul, Nat.mul_comm height] at hle
  unfold room
  omega

theorem nextRow_of_lt (hx : s.x < width) : (nextRow width).run s = .ok () s := by
  simp [nextRow, Nat.not_le.mpr hx]

theorem Sim.full (h : Sim width height rows cells s a) (hx : width ≤ s.x) (hheight : s.height = 0) :
    width * height ≤ a.pixels.length := by
  have hrows : rows = height := by
    have := h.position.height_eq
    have := h.position.rows_le
    omega
  have := h.position.painted
  rw [hrows, Nat.mul_comm] at this
  omega

theorem Sim.nextRow (h : Sim width height rows cells s a) (hfits : Fits width height cells)
    (hx : width ≤ s.x) (hheight : s.height ≠ 0) :
    ∃ s', (nextRow width).run s = .ok () s' ∧ Sim width height (rows + 1) cells s' a ∧ s'.x = 0 ∧
      s'.height = s.height - 1 := by
  have hpos := h.position
  have hrows := hpos.height_eq
  have hle : (height - (rows + 1)) * width ≤ width * height := by
    rw [Nat.mul_comm width]
    exact Nat.mul_le_mul_right width (by omega)
  have := hfits.le_length
  have := hfits.length_lt
  have hmul : (s.height - 1) * width = (height - (rows + 1)) * width := by
    rw [hrows]
    rfl
  refine ⟨{ s with
      x := 0
      height := s.height - 1
      prevline := s.line
      line := some ((s.height - 1) * width) }, ?_, ⟨h.regs, h.image, ?_⟩, rfl, rfl⟩
  . simp [Rle16.nextRow, hx, hheight, checkedSub_of_le (Nat.pos_of_ne_zero hheight),
      checkedMul_of_lt (show (s.height - 1) * width < 2 ^ 64 by omega)]
  . have hx' : s.x = width := Nat.le_antisymm hpos.x_le hx
    constructor
    . omega
    . simp only [hrows]
      omega
    . exact Nat.zero_le _
    . have := hpos.painted
      rw [Nat.succ_mul]
      simp only
      omega
    . rw [hmul]
      simp
    . have hrow : height - (rows + 1) + 1 = height - rows := by omega
      simp only [hpos.line_eq, hrow, Nat.le_zero, Nat.reduceLeDiff]

theorem Sim.paintRow (h : Sim width height rows cells s a) (hfits : Fits width height cells)
    (hx : s.x < width) (hcount : 0 < s.count) {rest : Prog Error State Unit}
    (hrest : ∀ s' a', Sim width height rows cells s' a' → 0 < s'.x → (0 < s'.count → s'.x = width) →
      Prog.Related (fun _ s'' _ a'' => AtOrder width height cells s'' a'') (Stopped width height cells)
        (rest.run s') ((paintN width height (span a'.toRegs)).run a')) :
    Prog.Related (fun _ s' _ a' => AtOrder width height cells s' a') (Stopped width height cells)
      ((do Rle16.fillRow width; rest : Prog Error State Unit).run s)
      ((paintN width height (span a.toRegs)).run a) := by
  have hspan := span_pos (r := a.toRegs)
  rw [← h.regs] at hspan
  rw [paintN_eq_times (by omega) (Nat.min_le_left ..) (h.room_le hx)]
  apply (h.fillRow hfits (h.position.rows_pos hx) hx hcount).bind
  intro _ s' _ a' ⟨hsim, hx', hspan'⟩
  have hcount' := span_pos (r := a'.toRegs)
  rw [← hsim.regs] at hcount'
  have hleft : span a.toRegs - min (span a.toRegs) (width - s.x) = span a'.toRegs := by
    unfold room at hspan'
    omega
  rw [hleft]
  unfold room at hx' hspan'
  rw [← h.regs, ← hsim.regs] at hspan'
  rw [← h.regs] at hx'
  apply hrest s' a' hsim
  . omega
  . omega

def moreCount : Prog Error State Bool := do
  let s ← get
  return s.count > 0

theorem run_moreCount : moreCount.run s = .ok (s.count > 0) s := rfl

theorem Sim.paintDone (h : Sim width height rows cells s a) (hpos : rows = 0 ∨ 0 < s.x) {fuel : Nat}
    {body : Prog Error State Unit} (hcount : s.count = 0) :
    Prog.Related (fun _ s' _ a' => AtOrder width height cells s' a') (Stopped width height cells)
      ((Prog.whileLoop fuel moreCount body).run s) ((paintN width height (span a.toRegs)).run a) := by
  have hspan := span_pos (r := a.toRegs)
  have hzero : span a.toRegs = 0 := by
    rw [← h.regs] at hspan ⊢
    omega
  rw [Prog.run_whileLoop_of_false _ _ _ (by rw [run_moreCount, hcount]; rfl), hzero]
  exact .ok ⟨rows, h, hpos⟩

theorem Sim.paintLoop (h : Sim width height rows cells s a) (hfits : Fits width height cells)
    (hwidth : 0 < width) (hpos : rows = 0 ∨ 0 < s.x) (fuel : Nat)
    (hfuel : 0 < s.count → s.height + (if s.x < width then 1 else 0) < fuel) :
    Prog.Related (fun _ s' _ a' => AtOrder width height cells s' a') (Stopped width height cells)
      ((Prog.whileLoop fuel moreCount do
        Rle16.nextRow width
        Rle16.fillRow width).run s)
      ((paintN width height (span a.toRegs)).run a) := by
  -- Every iteration but the first one starts a row.
  induction fuel generalizing rows s a with
  | zero =>
    exact h.paintDone hpos (by omega)
  | succ fuel ih =>
    by_cases hcount : s.count = 0
    . exact h.paintDone hpos hcount
    have hmore : moreCount.run s = .ok true s := by
      rw [run_moreCount, decide_eq_true (Nat.pos_of_ne_zero hcount)]
    replace hfuel := hfuel (Nat.pos_of_ne_zero hcount)
    rw [Prog.run_whileLoop_of_true _ _ _ hmore, bind_assoc, EStateM.run_bind]
    by_cases hx : s.x < width
    . rw [nextRow_of_lt hx]
      apply h.paintRow hfits hx (Nat.pos_of_ne_zero hcount)
      intro s' a' hsim hx' hfull
      apply ih hsim (Or.inr hx')
      intro hcount'
      have := hfull hcount'
      have := hsim.position.height_eq
      have := h.position.height_eq
      rw [if_pos hx] at hfuel
      rw [if_neg (by omega)]
      omega
    . by_cases hheight : s.height = 0
      . have hfull := h.full (by omega) hheight
        have hspan := span_pos (r := a.toRegs)
        rw [← h.regs] at hspan
        obtain ⟨n, hn⟩ : ∃ n, span a.toRegs = n + 1 := ⟨span a.toRegs - 1, by rw [← h.regs]; omega⟩
        have hstop : (Rle16.nextRow width).run s =
            .error (.error (.new .invalidData "error during decompress")) s := by
          simp [Rle16.nextRow, Nat.not_lt.mp hx, hheight]
        rw [hstop, hn, paintN_full hfull (by omega)]
        exact .error h.image
      . obtain ⟨s₁, hrun, hsim, hx₁, hheight₁⟩ := h.nextRow hfits (by omega) hheight
        have hcount₁ : 0 < s₁.count := by
          rw [hsim.regs, ← h.regs]
          exact Nat.pos_of_ne_zero hcount
        rw [hrun]
        apply hsim.paintRow hfits (by omega) hcount₁
        intro s' a' hsim' hx' hfull
        apply ih hsim' (Or.inr hx')
        intro hcount'
        have := hfull hcount'
        have := hsim'.position.height_eq
        have := hsim.position.height_eq
        rw [if_neg hx] at hfuel
        rw [if_neg (by omega)]
        omega

end Rows

end Rle16
end Rdp
