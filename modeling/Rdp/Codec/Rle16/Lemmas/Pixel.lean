import Rdp.Codec.Rle16.Lemmas.Image

/-!
The simulation between the decoder and its `Scan`, for one pixel.
-/

namespace Rdp
namespace Rle16

structure Position (width height rows : Nat) (s : State) (n : Nat) : Prop where
  rows_le : rows ≤ height
  height_eq : s.height = height - rows
  x_le : s.x ≤ width
  painted : n + width = rows * width + s.x
  line_eq : s.line = if rows = 0 then none else some ((height - rows) * width)
  prevline_eq : s.prevline = if rows ≤ 1 then none else some ((height - rows + 1) * width)

structure Sim (width height rows : Nat) (cells : List UInt16) (s : State) (a : Scan) : Prop where
  regs : s.toRegs = a.toRegs
  image : Painted width height cells a.pixels s.output s.trace
  position : Position width height rows s a.pixels.length

/--
What holds between the decoder and its `Scan` even when both have stopped in the middle of a pixel.
-/
def Stopped (width height : Nat) (cells : List UInt16) (s : State) (a : Scan) : Prop :=
  Painted width height cells a.pixels s.output s.trace

/--
The decoder has written the next pixel but still points at it.
-/
structure Wrote (width height rows : Nat) (cells : List UInt16) (v : UInt16) (s : State) (a : Scan) :
    Prop where
  regs : s.toRegs = a.toRegs
  image : Painted width height cells (a.pixels ++ [v]) s.output s.trace
  position : Position width height rows s a.pixels.length

/--
The sizes under which no index and no position overflows.
-/
structure Fits (width height : Nat) (cells : List UInt16) : Prop where
  le_length : width * height ≤ cells.length
  length_lt : cells.length < 2 ^ 63

section Position

variable {width height rows : Nat} {cells : List UInt16} {s : State} {n : Nat}

theorem Position.row_start (h : Position width height rows s n) (hrows : 0 < rows) :
    n = (rows - 1) * width + s.x := by
  have := h.painted
  obtain ⟨k, rfl⟩ : ∃ k, rows = k + 1 := ⟨rows - 1, by omega⟩
  rw [Nat.succ_mul] at this
  simp only [Nat.add_sub_cancel]
  omega

theorem Position.scanIndex_eq (h : Position width height rows s n) (hrows : 0 < rows)
    (hx : s.x < width) : scanIndex width height n = (height - rows) * width + s.x := by
  rw [h.row_start hrows, scanIndex_add hx]
  congr 2
  omega

theorem Position.lt (h : Position width height rows s n) (hrows : 0 < rows) (hx : s.x < width) :
    n < width * height := by
  have hle : (rows - 1 + 1) * width ≤ height * width :=
    Nat.mul_le_mul_right width (by have := h.rows_le; omega)
  rw [Nat.succ_mul] at hle
  rw [h.row_start hrows, Nat.mul_comm width]
  omega

theorem Position.above_eq_none (h : Position width height rows s n) {pixels : List UInt16}
    (hn : pixels.length = n) (hrows : 0 < rows) (hx : s.x < width) (hprev : s.prevline = none) :
    above width pixels = none := by
  have hle : rows ≤ 1 := by
    by_contra hle
    simp [h.prevline_eq, hle] at hprev
  have := h.row_start hrows
  have hone : rows = 1 := by omega
  simp only [hone, Nat.sub_self, Nat.zero_mul, Nat.zero_add] at this
  simp only [above, hn, ite_eq_right_iff]
  omega

theorem Position.exists_above (h : Position width height rows s n) {pixels : List UInt16}
    (hn : pixels.length = n) (hx : s.x < width) {e : Nat}
    (hprev : s.prevline = some e) :
    ∃ i, ∃ (hi : i < pixels.length), above width pixels = some pixels[i] ∧
      e + s.x = scanIndex width height i ∧ i < width * height := by
  have hle : ¬ rows ≤ 1 := by
    intro hle
    simp [h.prevline_eq, hle] at hprev
  have hrow := h.row_start (by omega)
  have hlt := h.lt (by omega) hx
  obtain ⟨k, rfl⟩ : ∃ k, rows = k + 2 := ⟨rows - 2, by omega⟩
  have hk : n = k * width + s.x + width := by
    rw [hrow, Nat.add_right_comm, ← Nat.succ_mul]
    rfl
  have he : e = (height - (k + 2) + 1) * width := by
    simpa [h.prevline_eq] using hprev.symm
  refine ⟨k * width + s.x, by omega, ?_, ?_, by omega⟩
  . have hsub : pixels.length - width = k * width + s.x := by omega
    simp only [above, hsub]
    rw [if_pos (by omega), List.getElem?_eq_getElem]
  . have := h.rows_le
    rw [he, scanIndex_add hx]
    congr 2
    omega

theorem Fits.width_lt (hfits : Fits width height cells) (hheight : 0 < height) :
    width < 2 ^ 63 := by
  have : width * 1 ≤ width * height := Nat.mul_le_mul_left width hheight
  have := hfits.le_length
  have := hfits.length_lt
  omega

end Position

section Access

variable {width height rows : Nat} {cells : List UInt16} {s : State} {a : Scan}

theorem Sim.readAbove (h : Sim width height rows cells s a) (hfits : Fits width height cells)
    (hx : s.x < width) {e : Nat} (hprev : s.prevline = some e) :
    ∃ u s', (readAbove e).run s = .ok u s' ∧ above width a.pixels = some u ∧
      Sim width height rows cells s' a ∧ s'.x = s.x ∧ s'.prevline = s.prevline := by
  obtain ⟨i, hi, habove, hidx, hlt⟩ := h.position.exists_above rfl hx hprev
  have hcell := h.image.written i hi
  have hbound := scanIndex_lt hlt
  have := hfits.le_length
  have := hfits.length_lt
  refine ⟨a.pixels[i], { s with trace := s.trace ++ [.load (scanIndex width height i)] }, ?_,
    habove, ⟨h.regs, h.image.load hi, ?_⟩, rfl, rfl⟩
  . simp only [Rle16.readAbove, EStateM.run_bind, EStateM.run_get]
    rw [checkedAdd_of_lt (by omega)]
    simp [load, hidx, hcell]
  . exact { h.position with }

theorem Sim.writePixel (h : Sim width height rows cells s a) (hfits : Fits width height cells)
    (hrows : 0 < rows) (hx : s.x < width) (v : UInt16) :
    ∃ s', (writePixel v).run s = .ok () s' ∧ Wrote width height rows cells v s' a ∧
      s'.x = s.x ∧ s'.prevline = s.prevline := by
  have hidx := h.position.scanIndex_eq hrows hx
  have hlt := h.position.lt hrows hx
  have hbound := scanIndex_lt hlt
  have hle := hfits.le_length
  have := hfits.length_lt
  have hline : s.line = some ((height - rows) * width) := by
    rw [h.position.line_eq, if_neg (by omega)]
  refine ⟨{ s with
      output := s.output.set (scanIndex width height a.pixels.length) v
      trace := s.trace ++ [.store (scanIndex width height a.pixels.length) v] }, ?_,
    ⟨h.regs, h.image.push v hlt hle, ?_⟩, rfl, rfl⟩
  . simp only [Rle16.writePixel, EStateM.run_bind, EStateM.run_get, hline]
    rw [checkedAdd_of_lt (by omega)]
    have hlen : scanIndex width height a.pixels.length < s.output.length := by
      rw [h.image.length_output]
      omega
    simp [store, ← hidx, hlen, hline]
  . exact { h.position with }

end Access

end Rle16
end Rdp
