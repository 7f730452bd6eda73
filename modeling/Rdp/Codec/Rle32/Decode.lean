import Rdp.Codec.Rle32.Lemmas.Planes
import Rdp.Lib.Chunks

/-!
The decoder paints the planes of a conforming stream.
-/

namespace Rdp
namespace Rle32

open Trace

variable {width height : Nat}

section Row

theorem Row.length_values (row : Row width) : row.values.length = width := by
  rw [Row.values, length_expand]
  exact row.sum_length

def emptySegment : Segment := ⟨0, [], rfl⟩

theorem bytesOf_empty (n : Nat) (segments : List Segment) :
    bytesOf (List.replicate n emptySegment ++ segments) = List.replicate n 0 ++ bytesOf segments := by
  induction n with
  | zero => rfl
  | succ n ih =>
    rw [List.replicate_succ, List.cons_append, bytesOf_cons, ih]
    rfl

theorem expand_empty (n : Nat) (segments : List Segment) (last : UInt8) :
    expand last (List.replicate n emptySegment ++ segments) = expand last segments := by
  induction n with
  | zero => rfl
  | succ n ih =>
    rw [List.replicate_succ, List.cons_append, expand]
    exact ih

theorem total_empty (n : Nat) (segments : List Segment) :
    total (List.replicate n emptySegment ++ segments) = total segments := by
  rw [← length_expand 0, expand_empty, length_expand]

/--
The pixels of a row below the rows of which the pixels are `known`.
-/
def line (known : List UInt8) (row : Row width) : Bytes :=
  if known.isEmpty then
    row.values
  else
    List.zipWith addDelta known row.values

theorem exists_row_segments (row : Row width) (z : Nat) :
    ∃ segments n, List.replicate z 0 ++ row.bytes = bytesOf segments ++ List.replicate n 0 ∧
      Within width 0 segments ∧ total segments = width ∧ expand 0 segments = row.values := by
  -- A row can be preceded by empty segments the rows before have left, and leaves some itself.
  obtain ⟨segments, n, hbytes, hwithin, htotal, hexpand⟩ := exists_within
    (show 0 + total (List.replicate z emptySegment ++ row.segments) = width by
      rw [Nat.zero_add, total_empty]
      exact row.sum_length)
  refine ⟨segments, n, ?_, hwithin, ?_, ?_⟩
  . rw [bytesOf_empty] at hbytes
    exact hbytes
  . rw [htotal, total_empty]
    exact row.sum_length
  . rw [hexpand, expand_empty, Row.values]

theorem run_scanRow_row (row : Row width) {a : Scan} {z : Nat} {rest : Bytes}
    (hinput : a.input = List.replicate z 0 ++ (row.bytes ++ rest)) (hroom : width ≤ a.limit width) :
    ∃ n a', (scanRow width).run a = .ok () a' ∧ a'.input = List.replicate n 0 ++ rest ∧
      a'.known = line a.known row ++ a.known := by
  obtain ⟨segments, n, hbytes, hwithin, hwidth, hvalues⟩ := exists_row_segments row z
  have hinput' : a.input = bytesOf segments ++ (List.replicate n 0 ++ rest) := by
    rw [hinput, ← List.append_assoc, ← List.append_assoc, ← hbytes]
  have hlength : (a.inRow width segments (List.replicate n 0 ++ rest)).done.length = total segments :=
    Scan.length_inRow (by omega)
  refine ⟨n, _, run_scanRow hwithin hwidth hroom hinput', rfl, ?_⟩
  have hdone : (a.inRow width segments (List.replicate n 0 ++ rest)).done = line a.known row := by
    rw [Scan.inRow, hvalues]
    rfl
  rw [Scan.endRow]
  simp only
  rw [hlength, hwidth, Nat.sub_self, List.drop_zero, hdone]
  rfl

theorem line_append (row : Row width) {above : Bytes} (habove : above.length = width)
    (hwidth : 0 < width) (older : List UInt8) :
    line (above ++ older) row = List.zipWith addDelta above row.values := by
  have hne : (above ++ older).isEmpty = false := by
    rw [List.isEmpty_eq_false_iff, ← List.length_pos_iff, List.length_append]
    omega
  have hlength : above.length = row.values.length := habove.trans row.length_values.symm
  rw [line, hne, if_neg Bool.false_ne_true]
  calc
    List.zipWith addDelta (above ++ older) row.values =
        List.zipWith addDelta (above ++ older) (row.values ++ []) := by rw [List.append_nil]
    _ = List.zipWith addDelta above row.values ++ List.zipWith addDelta older [] :=
        List.zipWith_append hlength
    _ = List.zipWith addDelta above row.values := by rw [List.zipWith_nil_right, List.append_nil]

end Row

section Plane

theorem run_nextRows (hwidth : 0 < width) (rows : List (Row width)) {a : Scan} {z : Nat}
    {rest above older : Bytes}
    (hinput : a.input = List.replicate z 0 ++ (rows.flatMap Row.bytes ++ rest))
    (habove : above.length = width) (hknown : a.known = above ++ older) :
    ∃ n a', (Prog.times rows.length (scanRow width)).run a = .ok () a' ∧
      a'.input = List.replicate n 0 ++ rest ∧
      a'.known = (Plane.nextRows above rows).reverse.flatten ++ a.known := by
  induction rows generalizing a z above older with
  | nil => exact ⟨z, a, rfl, hinput, rfl⟩
  | cons row rows ih =>
    have hroom : width ≤ a.limit width := by
      unfold Scan.limit
      split
      next => exact Nat.le_refl _
      next =>
        rw [hknown, List.length_append]
        omega
    rw [List.flatMap_cons, List.append_assoc] at hinput
    obtain ⟨n, a₁, hrun, hinput₁, hknown₁⟩ := run_scanRow_row row hinput hroom
    have hline : line a.known row = List.zipWith addDelta above row.values := by
      rw [hknown, line_append row habove hwidth]
    have hlength : (List.zipWith addDelta above row.values).length = width := by
      rw [List.length_zipWith, habove, row.length_values, Nat.min_self]
    rw [hline] at hknown₁
    obtain ⟨m, a₂, hrun₂, hinput₂, hknown₂⟩ := ih hinput₁ hlength hknown₁
    refine ⟨m, a₂, ?_, hinput₂, ?_⟩
    . rw [List.length_cons, Prog.times_succ, EStateM.run_bind, hrun]
      exact hrun₂
    . rw [hknown₂, hknown₁, Plane.nextRows]
      simp

theorem run_scanPlane (hwidth : 0 < width) (plane : Plane width height) {input rest : Bytes} {z : Nat}
    (hinput : input = List.replicate z 0 ++ (plane.bytes ++ rest)) :
    ∃ n a, (scanPlane width height).run (scanInit input width height) = .ok () a ∧
      a.input = List.replicate n 0 ++ rest ∧ a.known = plane.lines.reverse.flatten := by
  obtain ⟨rows, rfl⟩ := plane
  cases rows with
  | nil => exact ⟨z, _, rfl, hinput, rfl⟩
  | cons row rows =>
    rw [Plane.bytes, List.flatMap_cons, List.append_assoc] at hinput
    obtain ⟨n, a₁, hrun, hinput₁, hknown₁⟩ :=
      run_scanRow_row (a := scanInit input width (row :: rows).length) row hinput (Nat.le_refl _)
    have hknown₁ : a₁.known = row.values ++ [] := hknown₁
    obtain ⟨m, a₂, hrun₂, hinput₂, hknown₂⟩ :=
      run_nextRows hwidth rows hinput₁ row.length_values hknown₁
    refine ⟨m, a₂, ?_, hinput₂, ?_⟩
    . change (Prog.times (rows.length + 1) (scanRow width)).run (scanInit input width (row :: rows).length) = _
      rw [Prog.times_succ, EStateM.run_bind, hrun]
      exact hrun₂
    . rw [hknown₂, hknown₁, Plane.lines]
      simp

def Plane.pixel (plane : Plane width height) (row column : Nat) : Option UInt8 :=
  plane.lines[row]?.bind (·[column]?)

theorem run_processPlanes (planes : List (Nat × Plane width height))
    (hoffsets : (planes.map Prod.fst).Nodup) (hlt : ∀ plane ∈ planes, plane.1 < 4) {s : State}
    (hready : Ready width height s) {z : Nat} {rest : Bytes}
    (hinput : s.input = List.replicate z 0 ++ (planes.flatMap (fun plane => plane.2.bytes) ++ rest)) :
    ∃ s', (processPlanes width height (planes.map Prod.fst)).run s = .ok () s' ∧
      s'.output.length = s.output.length ∧
      (∀ plane ∈ planes, ∀ p, p < width * height →
        s'.output[cell plane.1 p]? = plane.2.lines.reverse.flatten[p]?) ∧
      ∀ j, j % 4 ∉ planes.map Prod.fst → s'.output[j]? = s.output[j]? := by
  induction planes generalizing s z with
  | nil => exact ⟨s, rfl, rfl, by simp, fun _ _ => rfl⟩
  | cons plane planes ih =>
    rw [List.flatMap_cons, List.append_assoc] at hinput
    rw [List.map_cons, List.nodup_cons] at hoffsets
    have hoffset := hlt plane List.mem_cons_self
    obtain ⟨n, a, hscan, hinput', hknown⟩ :=
      run_scanPlane hready.width_pos plane.2 hinput
    have hrelated := processPlane_done (hready.fits hoffset) hready.loads
    rw [hscan] at hrelated
    obtain ⟨_, s₁, hrun, hdone⟩ := hrelated.of_ok
    obtain ⟨s', hrun', hlength, hpixels, hkept⟩ := ih hoffsets.2
      (fun p hp => hlt p (List.mem_cons_of_mem _ hp)) (hready.done hdone) (hdone.input.trans hinput')
    refine ⟨s', ?_, hlength.trans hdone.image.length_output, ?_, ?_⟩
    . rw [List.map_cons, processPlanes, EStateM.run_bind, hrun]
      exact hrun'
    . intro p hp i hi
      rcases List.mem_cons.mp hp with rfl | hp
      . have hmod : cell p.1 i % 4 ∉ planes.map Prod.fst := by
          rw [cell_mod hoffset]
          exact hoffsets.1
        rw [hkept _ hmod, hdone.known i hi, hknown]
      . exact hpixels p hp i hi
    . intro j hj
      rw [List.map_cons, List.mem_cons, not_or] at hj
      rw [hkept j hj.2, hdone.image.kept j hj.1]

end Plane

section Picture

theorem Plane.length_nextRows (above : Bytes) (rows : List (Row width)) :
    (nextRows above rows).length = rows.length := by
  induction rows generalizing above with
  | nil => rfl
  | cons row rows ih => rw [nextRows, List.length_cons, ih, List.length_cons]

theorem Plane.length_mem_nextRows {above : Bytes} (habove : above.length = width)
    (rows : List (Row width)) : ∀ l ∈ nextRows above rows, l.length = width := by
  induction rows generalizing above with
  | nil => simp [nextRows]
  | cons row rows ih =>
    have hline : (List.zipWith addDelta above row.values).length = width := by
      rw [List.length_zipWith, habove, row.length_values, Nat.min_self]
    intro l hl
    rcases List.mem_cons.mp hl with rfl | hl
    . exact hline
    . exact ih hline l hl

theorem Plane.length_lines (plane : Plane width height) : plane.lines.length = height := by
  obtain ⟨rows, rfl⟩ := plane
  cases rows with
  | nil => rfl
  | cons row rows => rw [lines, List.length_cons, length_nextRows, List.length_cons]

theorem Plane.length_mem_lines (plane : Plane width height) : ∀ l ∈ plane.lines, l.length = width := by
  obtain ⟨rows, rfl⟩ := plane
  cases rows with
  | nil => simp [lines]
  | cons row rows =>
    intro l hl
    rcases List.mem_cons.mp hl with rfl | hl
    . exact row.length_values
    . exact length_mem_nextRows row.length_values rows l hl

theorem Plane.getElem?_flatten (plane : Plane width height) {row column : Nat} (hrow : row < height)
    (hcolumn : column < width) :
    plane.lines.reverse.flatten[(height - 1 - row) * width + column]? = plane.pixel row column := by
  rw [Chunks.getElem?_flatten (by simpa using plane.length_mem_lines) hcolumn, Plane.pixel,
    List.getElem?_reverse (by rw [plane.length_lines]; omega), plane.length_lines]
  congr 2
  omega

end Picture

theorem run_decompress_stream (alpha red green blue : Plane width height) (trailing : Bytes)
    (output : Slice UInt8) (hwidth : 0 < width) (hheight : 0 < height)
    (hsize : 4 * (width * height) < 2 ^ 32) (hlength : output.cells.length = 4 * (width * height)) :
    ∃ s, rle32Decompress (stream alpha red green blue trailing) width height output = .ok () s ∧
      s.output.length = output.cells.length ∧
      ∀ plane ∈ [(3, alpha), (2, red), (1, green), (0, blue)], ∀ p, p < width * height →
        s.output[cell plane.1 p]? = plane.2.lines.reverse.flatten[p]? := by
  have hready : Ready width height (init (alpha.bytes ++ (red.bytes ++ (green.bytes ++
      (blue.bytes ++ trailing)))) output) := .init hwidth hheight hsize hlength
  have hinput : alpha.bytes ++ (red.bytes ++ (green.bytes ++ (blue.bytes ++ trailing))) =
      List.replicate 0 0 ++ ([(3, alpha), (2, red), (1, green), (0, blue)].flatMap
        (fun plane => plane.2.bytes) ++ trailing) := by
    simp
  obtain ⟨s, hrun, hlength', hpixels, _⟩ :=
    run_processPlanes _ (by simp) (by simp) hready hinput
  exact ⟨s, (run_decompress_cons output _).trans hrun, hlength', hpixels⟩

/--
A conforming stream is decoded to the pixels of its planes, each of which ends up in its byte of
every pixel, the bottom row last in the buffer.
-/
theorem rle32Decompress_stream (alpha red green blue : Plane width height) (trailing : Bytes)
    (output : Slice UInt8) (hwidth : 0 < width) (hheight : 0 < height)
    (hsize : 4 * (width * height) < 2 ^ 32) (hlength : output.cells.length = 4 * (width * height)) :
    ∃ s, rle32Decompress (stream alpha red green blue trailing) width height output = .ok () s ∧
      s.output.length = output.cells.length ∧
      ∀ plane ∈ [(3, alpha), (2, red), (1, green), (0, blue)], ∀ row, row < height →
        ∀ column, column < width →
          s.output[4 * ((height - 1 - row) * width + column) + plane.1]? = plane.2.pixel row column := by
  obtain ⟨s, hrun, hlength', hpixels⟩ := run_decompress_stream alpha red green blue trailing output
    hwidth hheight hsize hlength
  refine ⟨s, hrun, hlength', ?_⟩
  intro plane hplane row hrow column hcolumn
  have hp : (height - 1 - row) * width + column < width * height := by
    calc
      (height - 1 - row) * width + column < (height - 1 - row) * width + width := by omega
      _ = (height - 1 - row + 1) * width := by rw [Nat.succ_mul]
      _ ≤ height * width := Nat.mul_le_mul_right width (by omega)
      _ = width * height := Nat.mul_comm _ _
  rw [← plane.2.getElem?_flatten hrow hcolumn, ← hpixels plane hplane _ hp, cell, Nat.add_comm]

/--
Two rows, the second of which goes down by two and up by two, in all of the planes.
-/
theorem rle32Decompress_stream_two_rows :
    let plane : Plane 2 2 := ⟨[⟨[⟨0x20, [5, 7], rfl⟩], rfl⟩, ⟨[⟨0x20, [3, 4], rfl⟩], rfl⟩], rfl⟩
    ∃ s, rle32Decompress (stream plane plane plane plane [9]) 2 2 ⟨List.replicate 16 0, by decide⟩ =
        .ok () s ∧
      s.output.length = 16 ∧
      ∀ p ∈ [(3, plane), (2, plane), (1, plane), (0, plane)], ∀ row, row < 2 → ∀ column, column < 2 →
        s.output[4 * ((2 - 1 - row) * 2 + column) + p.1]? = p.2.pixel row column :=
  rle32Decompress_stream _ _ _ _ [9] ⟨List.replicate 16 0, by decide⟩ (by decide) (by decide)
    (by decide) (by decide)

example : (⟨[⟨[⟨0x20, [5, 7], rfl⟩], rfl⟩, ⟨[⟨0x20, [3, 4], rfl⟩], rfl⟩], rfl⟩ : Plane 2 2).lines =
    [[5, 7], [3, 9]] := by decide

section Length

def SameLength (s t : State) : Prop := t.output.length = s.output.length

instance : IsPreorder State SameLength where
  refl _ := rfl
  trans _ _ _ h h' := h'.trans h

theorem moves_cursor (x : Reader α) : Prog.Moves SameLength (cursor x) := by
  intro s
  rw [cursor, Prog.run_zoom]
  split <;> exact rfl

theorem moves_load (offset i : Nat) : Prog.Moves SameLength (load offset i) := by
  intro s
  unfold load
  rw [EStateM.run_bind, EStateM.run_get]
  dsimp only
  split <;> exact rfl

theorem moves_put (offset : Nat) (v : UInt8) : Prog.Moves SameLength (put offset v) := by
  unfold put store
  refine Prog.Moves.bind Prog.Moves.get ?_
  intro s
  refine Prog.Moves.bind ?_ ?_
  . intro t
    rw [EStateM.run_bind, EStateM.run_get]
    dsimp only
    split
    . exact List.length_set
    . exact rfl
  . intro _
    refine Prog.Moves.bind (Prog.Moves.lift _) ?_
    intro out
    refine Prog.Moves.bind (Prog.Moves.lift _) ?_
    intro indexw
    exact Prog.Moves.modify fun _ => rfl

theorem moves_putColor (offset : Nat) : Prog.Moves SameLength (putColor offset) := by
  unfold putColor
  refine Prog.Moves.bind Prog.Moves.get ?_
  intro s
  exact moves_put _ _

theorem moves_putDelta (offset : Nat) : Prog.Moves SameLength (putDelta offset) := by
  unfold putDelta
  refine Prog.Moves.bind Prog.Moves.get ?_
  intro s
  refine Prog.Moves.bind (Prog.Moves.lift _) ?_
  intro column
  refine Prog.Moves.bind (Prog.Moves.lift _) ?_
  intro index
  refine Prog.Moves.bind (moves_load _ _) ?_
  intro above
  exact moves_put _ _

theorem moves_firstRowSegment (offset : Nat) : Prog.Moves SameLength (firstRowSegment offset) := by
  unfold firstRowSegment
  refine Prog.Moves.bind (moves_cursor _) ?_
  intro code
  refine Prog.Moves.bind ?_ ?_
  . refine Prog.Moves.times ?_ _
    refine Prog.Moves.bind (moves_cursor _) ?_
    intro color
    refine Prog.Moves.bind (Prog.Moves.modify fun _ => rfl) ?_
    intro _
    exact moves_putColor _
  . intro _
    refine Prog.Moves.times ?_ _
    exact moves_putColor _

theorem moves_nextRowSegment (offset : Nat) : Prog.Moves SameLength (nextRowSegment offset) := by
  unfold nextRowSegment
  refine Prog.Moves.bind (moves_cursor _) ?_
  intro code
  refine Prog.Moves.bind ?_ ?_
  . refine Prog.Moves.times ?_ _
    refine Prog.Moves.bind (moves_cursor _) ?_
    intro x
    refine Prog.Moves.bind (Prog.Moves.lift _) ?_
    intro color
    refine Prog.Moves.bind (Prog.Moves.modify fun _ => rfl) ?_
    intro _
    exact moves_putDelta _
  . intro _
    refine Prog.Moves.times ?_ _
    exact moves_putDelta _

theorem moves_segments (width : Nat) {segment : Prog Error State Unit}
    (h : Prog.Moves SameLength segment) : Prog.Moves SameLength (segments width segment) := by
  unfold segments
  refine Prog.Moves.bind Prog.Moves.get ?_
  intro s
  refine Prog.Moves.whileLoop ?_ h _
  refine Prog.Moves.bind Prog.Moves.get ?_
  intro t
  exact Prog.Moves.pure _

theorem moves_processRow (offset width height : Nat) :
    Prog.Moves SameLength (processRow offset width height) := by
  unfold processRow fillRow
  refine Prog.Moves.bind Prog.Moves.get ?_
  intro s
  refine Prog.Moves.bind (Prog.Moves.lift _) ?_
  intro out
  refine Prog.Moves.bind (Prog.Moves.modify fun _ => rfl) ?_
  intro _
  refine Prog.Moves.bind ?_ ?_
  . refine Prog.Moves.bind Prog.Moves.get ?_
    intro t
    split
    . exact moves_segments width (moves_firstRowSegment offset)
    . exact moves_segments width (moves_nextRowSegment offset)
  . intro _
    refine Prog.Moves.bind (Prog.Moves.lift _) ?_
    intro indexh
    exact Prog.Moves.modify fun _ => rfl

theorem moves_processPlane (width height offset : Nat) :
    Prog.Moves SameLength (processPlane width height offset) := by
  have hplane : Prog.Moves SameLength (do
      modify fun s => { s with indexh := 0, lastLine := 0 }
      Prog.whileLoop height (do let s ← get; return s.indexh < height)
        (processRow offset width height) : Prog Error State Unit) := by
    refine Prog.Moves.bind (Prog.Moves.modify fun _ => rfl) ?_
    intro _
    refine Prog.Moves.whileLoop ?_ (moves_processRow offset width height) _
    refine Prog.Moves.bind Prog.Moves.get ?_
    intro t
    exact Prog.Moves.pure _
  unfold processPlane
  refine Prog.Moves.bind Prog.Moves.get ?_
  intro s
  split
  . refine Prog.Moves.bind (Prog.Moves.throw _) ?_
    intro _
    exact hplane
  . exact hplane

theorem moves_decompress (width height : Nat) :
    Prog.Moves SameLength (decompress width height) := by
  have hplanes : Prog.Moves SameLength (do
      processPlane width height 3
      processPlane width height 2
      processPlane width height 1
      processPlane width height 0 : Prog Error State Unit) := by
    refine Prog.Moves.bind (moves_processPlane width height 3) ?_
    intro _
    refine Prog.Moves.bind (moves_processPlane width height 2) ?_
    intro _
    refine Prog.Moves.bind (moves_processPlane width height 1) ?_
    intro _
    exact moves_processPlane width height 0
  unfold decompress
  refine Prog.Moves.bind (moves_cursor _) ?_
  intro header
  split
  . refine Prog.Moves.bind (Prog.Moves.throw _) ?_
    intro _
    exact hplanes
  . exact hplanes

end Length

end Rle32
end Rdp
