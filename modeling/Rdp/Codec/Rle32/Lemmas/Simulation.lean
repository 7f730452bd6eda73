import Rdp.Codec.Rle32.Lemmas.Pixel
import Mathlib.Tactic.Ring

/-!
`process_plane` and its `Scan` end every input in the same way.
-/

namespace Rdp
namespace Rle32

open Trace

section Cursor

theorem run_cursor (x : Reader α) (s : State) :
    (cursor x).run s =
      match x.run s.input with
      | .ok v input => .ok v { s with input }
      | .error e input => .error e { s with input } := by
  rw [cursor, Prog.run_zoom]
  cases x.run s.input <;> rfl

theorem run_scanCursor (x : Reader α) (a : Scan) :
    (scanCursor x).run a =
      match x.run a.input with
      | .ok v input => .ok v { a with input }
      | .error e input => .error e { a with input } := by
  rw [scanCursor, Prog.run_zoom]
  cases x.run a.input <;> rfl

end Cursor

variable {width height offset : Nat} {before s : State} {a : Scan} {known : List UInt8}

theorem InRow.cursor (h : InRow width height offset before known s a) (x : Reader α) :
    Prog.Related (fun v s' v' a' => v = v' ∧ InRow width height offset before known s' a')
      (Stopped offset before) ((cursor x).run s) ((scanCursor x).run a) := by
  rw [run_cursor, run_scanCursor, h.1.input]
  cases x.run a.input with
  | ok v input => exact .ok ⟨rfl, { h.1 with input := rfl }, h.2⟩
  | error e input => exact .error h.1.image

theorem InRow.color (h : InRow width height offset before known s a) {last : UInt8} {color : Int8}
    (hcolor : IsColor known.isEmpty last color) :
    InRow width height offset before known { s with color } { a with last } :=
  ⟨{ h.1 with color := by rwa [h.2] }, h.2⟩

section Segment

variable (hfits : Fits width height offset before)

include hfits in
theorem InRow.firstRowSegment (h : InRow width height offset before [] s a) :
    Prog.Related (fun _ s' _ a' => InRow width height offset before [] s' a') (Stopped offset before)
      ((firstRowSegment offset).run s) ((scanSegment width).run a) := by
  apply (h.cursor readCode).bind
  rintro ⟨collen, replen⟩ s₁ _ a₁ ⟨rfl, h₁⟩
  apply (Prog.Related.times _ collen h₁).bind
  . intro _ s₂ _ a₂ h₂
    exact Prog.Related.times (fun s a h => h.putColor hfits) replen h₂
  . intro s a h
    apply (h.cursor Cursor.readU8).bind
    rintro last s₁ _ a₁ ⟨rfl, h₁⟩
    exact (h₁.color rfl).putColor hfits

include hfits in
theorem InRow.nextRowSegment (h : InRow width height offset before known s a)
    (hne : known.isEmpty = false) :
    Prog.Related (fun _ s' _ a' => InRow width height offset before known s' a') (Stopped offset before)
      ((nextRowSegment offset).run s) ((scanSegment width).run a) := by
  apply (h.cursor readCode).bind
  rintro ⟨collen, replen⟩ s₁ _ a₁ ⟨rfl, h₁⟩
  apply (Prog.Related.times _ collen h₁).bind
  . intro _ s₂ _ a₂ h₂
    exact Prog.Related.times (fun s a h => h.putDelta hfits hne) replen h₂
  . intro s a h
    apply (h.cursor Cursor.readU8).bind
    rintro last s₁ _ a₁ ⟨rfl, h₁⟩
    obtain ⟨color, hcolor, _⟩ := deltaOf_eq last
    rw [EStateM.run_bind, hcolor]
    exact (h₁.color (by simp [IsColor, hne, hcolor])).putDelta hfits hne

theorem InRow.segments (h : InRow width height offset before known s a)
    {segment : Prog Error State Unit}
    (hsegment : ∀ s a, InRow width height offset before known s a →
      Prog.Related (fun _ s' _ a' => InRow width height offset before known s' a')
        (Stopped offset before) (segment.run s) ((scanSegment width).run a)) :
    Prog.Related
      (fun _ s' _ a' => InRow width height offset before known s' a' ∧ width ≤ a'.done.length)
      (Stopped offset before) ((segments width segment).run s) ((scanSegments width).run a) := by
  have hcond : ∀ s a, InRow width height offset before known s a →
      Prog.Related (fun b s' b' a' => b = b' ∧ InRow width height offset before known s' a')
        (Stopped offset before)
        ((do let s ← get; return s.indexw < width : Prog Error State Bool).run s)
        ((rowLeft width).run a) := by
    intro s a h
    refine .ok ⟨?_, h⟩
    rw [h.1.indexw]
  have hloop := (Prog.Related.whileLoop hcond hsegment (fun _ _ h => h.1.image)
    (s.input.length + 1) h).and_run
  simp only [Rle32.segments, scanSegments, EStateM.run_bind, EStateM.run_get, ← h.1.input]
  refine hloop.imp ?_ fun _ _ h => h
  rintro _ s' _ a' ⟨h', hrun⟩
  have hdone := Prog.cond_of_run_whileLoop (b := fun a : Scan => decide (a.done.length < width))
    (fun _ => rfl) _ hrun
  refine ⟨h', ?_⟩
  simpa using hdone

theorem Sim.lastLine_eq_zero (hfits : Fits width height offset before)
    (h : Sim width height offset before s a) : (s.lastLine == 0) = a.known.isEmpty := by
  have hlast := h.lastLine
  have hwidth := hfits.width_pos
  cases hknown : a.known.isEmpty with
  | true => simpa [hknown] using hlast
  | false =>
    rw [hknown, if_neg Bool.false_ne_true] at hlast
    rw [beq_eq_false_iff_ne]
    omega

theorem InRow.fillRow (hfits : Fits width height offset before)
    (h : InRow width height offset before known s a) :
    Prog.Related
      (fun _ s' _ a' => InRow width height offset before known s' a' ∧ width ≤ a'.done.length)
      (Stopped offset before) ((fillRow offset width).run s) ((scanSegments width).run a) := by
  have hlast := h.1.lastLine_eq_zero hfits
  rw [h.2] at hlast
  simp only [Rle32.fillRow, EStateM.run_bind, EStateM.run_get, hlast]
  split
  next hempty =>
    rw [List.isEmpty_iff] at hempty
    subst hempty
    exact h.segments fun s a h => h.firstRowSegment hfits
  next hempty =>
    rw [Bool.not_eq_true] at hempty
    exact h.segments fun s a h => h.nextRowSegment hfits hempty

end Segment

structure AtRow (width height offset : Nat) (before s : State) (a : Scan) : Prop where
  image : Image offset before s.output s.trace a.cells
  input : s.input = a.input
  lastLine : s.lastLine = if a.known.isEmpty then 0 else 4 * a.start
  indexh : s.indexh * width = a.known.length
  room : a.start + a.known.length = width * height
  known : ∀ c, c < a.known.length → s.output[cell offset (a.start + c)]? = a.known[c]?
  known_cells : ∀ c, c < a.known.length → a.start + c ∈ a.cells

theorem run_lineStart (hsize : 4 * (width * height) < 2 ^ 32) {indexh start : Nat}
    (hwidth : 0 < width) (hstart : start + (indexh + 1) * width = width * height) :
    lineStart width height indexh = .ok (4 * start) := by
  have hle : indexh + 1 ≤ (indexh + 1) * width := Nat.le_mul_of_pos_right _ hwidth
  simp only [lineStart]
  rw [checkedMul_of_lt (by omega), checkedAdd_of_lt (by omega)]
  simp only [Except.ok_bind]
  rw [checkedMul_of_lt (by omega), checkedMul_of_lt (by omega)]
  simp only [Except.ok_bind]
  rw [checkedMul_of_lt (by omega)]
  simp only [Except.ok_bind]
  rw [checkedSub_of_le (by omega)]
  congr 1
  omega

theorem AtRow.startRow (hfits : Fits width height offset before)
    (h : AtRow width height offset before s a) (hrow : s.indexh < height) :
    lineStart width height s.indexh = .ok (4 * (a.startRow width).start) ∧
      InRow width height offset before a.known
        { s with out := 4 * (a.startRow width).start, color := 0, indexw := 0 } (a.startRow width) := by
  have hroom := h.room
  have hle : (s.indexh + 1) * width ≤ width * height := by
    rw [Nat.mul_comm width height]
    exact Nat.mul_le_mul_right width hrow
  rw [Nat.succ_mul, h.indexh] at hle
  have hstart : a.start - width + width = a.start := by omega
  refine ⟨run_lineStart hfits.size_lt hfits.width_pos ?_, ?_, rfl⟩
  . rw [Nat.succ_mul, h.indexh]
    simp only [Scan.startRow]
    omega
  . constructor
    . exact h.image
    . exact h.input
    . exact isColor_zero _
    . rfl
    . simp [Scan.startRow]
    . simp only [Scan.startRow, hstart]
      exact h.lastLine
    . exact h.indexh
    . simp only [Scan.startRow, hstart]
      exact hroom
    . simp [Scan.startRow]
    . simp [Scan.startRow]
    . simp only [Scan.startRow, hstart]
      exact fun c _ hc => h.known c hc
    . simp [Scan.startRow]
    . simp only [Scan.startRow, hstart]
      exact h.known_cells

theorem InRow.endRow (hfits : Fits width height offset before)
    (h : InRow width height offset before known s a) (hdone : width ≤ a.done.length) :
    AtRow width height offset before { s with indexh := s.indexh + 1, lastLine := 4 * a.start }
      (a.endRow width) := by
  obtain ⟨hsim, _⟩ := h
  have hroom := hsim.room
  have hlimit := hsim.limit_le
  have hle := hsim.done_le
  have hwidth := hfits.width_pos
  have hlength : (a.endRow width).known.length = a.known.length + width := by
    simp only [Scan.endRow, List.length_append, List.length_drop]
    omega
  have hsplit : ∀ c, a.done.length ≤ c → a.start + c = a.start + width + (c - width) ∧
      c - a.done.length + (a.done.length - width) = c - width := by
    omega
  constructor
  . exact hsim.image
  . exact hsim.input
  . have hne : (a.endRow width).known.isEmpty = false := by
      rw [List.isEmpty_eq_false_iff, ← List.length_pos_iff]
      omega
    simp only [hne, Bool.false_eq_true, if_false]
    rfl
  . rw [hlength, Nat.succ_mul, hsim.indexh]
  . rw [hlength]
    simp only [Scan.endRow]
    omega
  . intro c hc
    rw [hlength] at hc
    simp only [Scan.endRow]
    by_cases hdrop : c < a.done.length
    . rw [List.getElem?_append_left hdrop]
      exact hsim.done c hdrop
    . obtain ⟨hcell, hindex⟩ := hsplit c (by omega)
      rw [List.getElem?_append_right (by omega), List.getElem?_drop, Nat.add_comm _ (c - _), hindex,
        hcell]
      exact hsim.known _ (by omega) (by omega)
  . intro c hc
    rw [hlength] at hc
    simp only [Scan.endRow]
    by_cases hdrop : c < a.done.length
    . exact hsim.done_cells c hdrop
    . rw [(hsplit c (by omega)).1]
      exact hsim.known_cells _ (by omega)

theorem AtRow.processRow (hfits : Fits width height offset before)
    (h : AtRow width height offset before s a) (hrow : s.indexh < height) :
    Prog.Related
      (fun _ s' _ a' => AtRow width height offset before s' a' ∧ s'.indexh = s.indexh + 1)
      (Stopped offset before) ((processRow offset width height).run s) ((scanRow width).run a) := by
  obtain ⟨hline, hinrow⟩ := h.startRow hfits hrow
  have hindexh : s.indexh + 1 < 2 ^ 32 := by
    have := hfits.size_lt
    have := Nat.le_mul_of_pos_left height hfits.width_pos
    omega
  simp only [Rle32.processRow, scanRow]
  rw [EStateM.run_bind, EStateM.run_bind]
  simp only [EStateM.run_get, EStateM.run_modify]
  rw [EStateM.run_bind, hline]
  simp only [Prog.run_lift_ok]
  rw [EStateM.run_bind]
  simp only [EStateM.run_modify]
  apply (hinrow.fillRow hfits).bind
  rintro _ s' _ a' ⟨h', hdone⟩
  have hstart : a'.start = (a.startRow width).start := by
    have hroom := h'.1.room
    have hroom' := hinrow.1.room
    rw [h'.2] at hroom
    rw [hinrow.2] at hroom'
    omega
  have hindexh' : s'.indexh = s.indexh := by
    apply Nat.eq_of_mul_eq_mul_right hfits.width_pos
    rw [h'.1.indexh, h'.2, h.indexh]
  have hend := h'.endRow hfits hdone
  rw [hindexh', hstart] at hend
  rw [EStateM.run_bind, checkedAdd_of_lt hindexh]
  exact .ok ⟨hend, rfl⟩

theorem AtRow.processRows (hfits : Fits width height offset before) {rows : Nat}
    (h : AtRow width height offset before s a) (hrows : s.indexh + rows = height) :
    Prog.Related (fun _ s' _ a' => AtRow width height offset before s' a' ∧ s'.indexh = height)
      (Stopped offset before)
      ((Prog.whileLoop rows (do let s ← get; return s.indexh < height)
        (Rle32.processRow offset width height)).run s)
      ((Prog.times rows (scanRow width)).run a) := by
  induction rows generalizing s a with
  | zero =>
    have hdone : (do let s ← get; return s.indexh < height : Prog Error State Bool).run s =
        .ok false s := by
      simp [← hrows]
    rw [Prog.run_whileLoop_of_false _ _ _ hdone]
    exact .ok ⟨h, hrows⟩
  | succ rows ih =>
    have hleft : (do let s ← get; return s.indexh < height : Prog Error State Bool).run s =
        .ok true s := by
      simp
      omega
    rw [Prog.run_whileLoop_of_true _ _ _ hleft, Prog.times_succ]
    apply (h.processRow hfits (by omega)).bind
    rintro _ s' _ a' ⟨h', hindexh⟩
    exact ih h' (by omega)

theorem processPlane_related (hfits : Fits width height offset s) (hloads : LoadsWritten s.trace) :
    Prog.Related (fun _ s' _ a' => AtRow width height offset s s' a' ∧ s'.indexh = height)
      (Stopped offset s) ((processPlane width height offset).run s)
      ((scanPlane width height).run (scanInit s.input width height)) := by
  have hinit : AtRow width height offset s { s with indexh := 0, lastLine := 0 }
      (scanInit s.input width height) := by
    constructor
    . exact ⟨rfl, fun _ _ => rfl, by simp [scanInit], hloads⟩
    . rfl
    . rfl
    . exact Nat.zero_mul width
    . rfl
    . simp [scanInit]
    . simp [scanInit]
  have hlength : ¬ s.output.length < offset := by
    have := hfits.length_output
    have := hfits.offset_lt
    have := Nat.mul_pos hfits.width_pos hfits.height_pos
    omega
  simp only [processPlane, scanPlane, EStateM.run_bind, EStateM.run_get, if_neg hlength,
    EStateM.run_modify]
  exact hinit.processRows hfits (Nat.zero_add height)

structure PlaneDone (width height offset : Nat) (before s : State) (a : Scan) : Prop where
  image : Image offset before s.output s.trace a.cells
  input : s.input = a.input
  length_known : a.known.length = width * height
  known : ∀ p, p < width * height → s.output[cell offset p]? = a.known[p]?
  covered : ∀ p, p < width * height → p ∈ a.cells

theorem AtRow.planeDone (h : AtRow width height offset before s a) (hindexh : s.indexh = height) :
    PlaneDone width height offset before s a := by
  have hroom := h.room
  have hlength : a.known.length = width * height := by
    rw [← h.indexh, hindexh, Nat.mul_comm]
  have hstart : a.start = 0 := by omega
  have hknown := h.known
  have hcells := h.known_cells
  rw [hstart, hlength] at hcells
  rw [hstart, hlength] at hknown
  simp only [Nat.zero_add] at hknown hcells
  exact ⟨h.image, h.input, hlength, hknown, hcells⟩

theorem processPlane_done (hfits : Fits width height offset s) (hloads : LoadsWritten s.trace) :
    Prog.Related (fun _ s' _ a' => PlaneDone width height offset s s' a') (Stopped offset s)
      ((processPlane width height offset).run s)
      ((scanPlane width height).run (scanInit s.input width height)) :=
  (processPlane_related hfits hloads).imp (fun _ _ _ _ h => h.1.planeDone h.2) fun _ _ h => h

end Rle32
end Rdp
