import Rdp.Codec.Rle32.Decode
import Mathlib.Data.List.Nodup

/-!
Which streams the decoder rejects, and what it does with the others that do not conform.
-/

namespace Rdp
namespace Rle32

open Trace

variable {width height : Nat}

section Rows

/--
The pixels that have been written are those from the current row to the end of the plane, each of
them once.
-/
structure Tidy (width height : Nat) (a : Scan) : Prop where
  room : a.start + a.known.length = width * height
  le_limit : width ≤ a.limit width
  nodup : a.cells.Nodup
  mem_cells : ∀ p, p ∈ a.cells ↔ a.start ≤ p ∧ p < width * height

theorem Tidy.init (input : Bytes) : Tidy width height (scanInit input width height) where
  room := rfl
  le_limit := Nat.le_refl _
  nodup := List.nodup_nil
  mem_cells := by
    simp [scanInit]

variable {a : Scan}

theorem Tidy.nodup_append (h : Tidy width height a) (hleft : width ≤ a.start) {m : Nat} (hm : m ≤ width) :
    (a.cells ++ List.range' (a.start - width) m).Nodup := by
  rw [List.nodup_append]
  refine ⟨h.nodup, List.nodup_range', ?_⟩
  intro p hp q hq
  have := ((h.mem_cells p).mp hp).1
  simp only [List.mem_range'_1] at hq
  omega

theorem Tidy.not_nodup_append (h : Tidy width height a) (hleft : width ≤ a.start)
    (hknown : a.known.isEmpty = false) :
    ¬ (a.cells ++ List.range' (a.start - width) (width + 1)).Nodup := by
  rw [List.nodup_append]
  rintro ⟨_, _, hdisjoint⟩
  have hroom := h.room
  have hpos : 0 < a.known.length := by
    rw [List.length_pos_iff]
    simpa using hknown
  refine hdisjoint a.start ((h.mem_cells a.start).mpr ⟨Nat.le_refl _, by omega⟩) a.start ?_ rfl
  simp only [List.mem_range'_1]
  omega

theorem Tidy.endRow (h : Tidy width height a) (hwidth : 0 < width) (hleft : width ≤ a.start)
    {segments : List Segment} {rest : Bytes} (htotal : total segments = width) :
    Tidy width height ((a.inRow width segments rest).endRow width) := by
  have hroom := h.room
  have hlimit := h.le_limit
  have hlength : (a.inRow width segments rest).done.length = width := by
    rw [Scan.length_inRow (by omega), htotal]
  have hknown : ((a.inRow width segments rest).endRow width).known.length =
      width + a.known.length := by
    simp only [Scan.endRow, List.length_append, hlength, Nat.sub_self, List.drop_zero]
    rfl
  have hcells : ((a.inRow width segments rest).endRow width).cells =
      a.cells ++ List.range' (a.start - width) width := by
    simp only [Scan.endRow]
    rw [Scan.cells_inRow, htotal]
  have hstart : ((a.inRow width segments rest).endRow width).start = a.start - width := rfl
  constructor
  . rw [hstart, hknown]
    omega
  . unfold Scan.limit
    split
    next => exact Nat.le_refl _
    next =>
      rw [hknown]
      exact Nat.le_add_right _ _
  . rw [hcells]
    exact h.nodup_append hleft (Nat.le_refl _)
  . intro p
    rw [hcells, hstart, List.mem_append, h.mem_cells]
    simp only [List.mem_range'_1]
    omega

inductive RowsCase (width height n : Nat) (a : Scan) (r : EStateM.Result (Fault Error) Scan Unit) : Prop where
  | complete (rows : List (Row width)) {rest : Bytes} {a' : Scan} (hlength : rows.length = n)
    (hinput : a.input = rows.flatMap Row.bytes ++ rest) (hrun : r = .ok () a') (hrest : a'.input = rest)
    (htidy : Tidy width height a') (hstart : a'.start + n * width = a.start)
    (hover : ∀ m, Overruns width (m + n) 0 a.input ↔ Overruns width m 0 rest)
  | short {a' : Scan} (hrun : r = .error (.error (.io .unexpectedEof)) a') (hnodup : a'.cells.Nodup)
    (hover : ∀ m, ¬ Overruns width m 0 a.input)
  | overrun (hover : ∀ m, Overruns width (m + n) 0 a.input)
    (hbad : Prog.Panics (Prog.outcome r) ∨ ¬ (Prog.finalState r).cells.Nodup)

theorem scanRow_cases (h : Tidy width height a) (hwidth : 0 < width) (hleft : width ≤ a.start) :
    RowsCase width height 1 a ((scanRow width).run a) := by
  obtain ⟨segments, rest, hinput, hwithin, hfits, hend⟩ :=
    exists_rowEnd a.input 0 (Nat.zero_le width)
  have hlimit := h.le_limit
  have hiff : ∀ m, Overruns width (m + 1) 0 a.input ↔
      Overruns width (m + 1) (0 + total segments) rest := fun m => by
    rw [hinput]
    exact overruns_segments hwithin hfits
  simp only [Nat.zero_add] at hfits hend hiff
  have hnone : (∀ m, ¬ Overruns width m (total segments) rest) → ∀ m, ¬ Overruns width m 0 a.input := by
    intro hnone m hover
    cases m with
    | zero => cases hover
    | succ m => exact hnone _ ((hiff m).mp hover)
  cases hend with
  | complete htotal =>
    refine .complete [⟨segments, htotal⟩] rfl ?_ (run_scanRow hwithin htotal hlimit hinput) rfl
      (h.endRow hwidth hleft htotal) ?_ ?_
    . rw [List.flatMap_singleton]
      exact hinput
    . rw [Nat.one_mul]
      exact Nat.sub_add_cancel hleft
    . intro m
      rw [hiff, htotal, overruns_complete]
      rfl
  | ended hlt =>
    refine .short (run_scanRow_ended hwithin hlt hlimit hinput) ?_ (hnone fun m => not_overruns_ended hlt)
    rw [Scan.cells_inRow]
    exact h.nodup_append hleft hfits
  | @short code rest hlt hraw hle =>
    obtain ⟨last, hrun⟩ := run_scanRow_short hwithin hlt hlimit hinput hraw hle
    refine .short hrun ?_ (hnone fun m => not_overruns_short hlt hraw hle)
    rw [Scan.cells_paints_inRow (by omega)]
    exact h.nodup_append hleft hle
  | @overrun code rest hlt hover =>
    refine .overrun (fun m => (hiff m).mpr (.overrun hlt hover)) ?_
    rcases run_scanRow_over hwithin hlt hlimit hinput hover with ⟨a', hrun⟩ | ⟨hknown, hfront⟩
    . left
      rw [hrun]
      exact ⟨_, rfl⟩
    . right
      intro hnodup
      exact h.not_nodup_append hleft hknown (hnodup.sublist hfront.sublist)

theorem scanRows_cases (hwidth : 0 < width) (n : Nat) {a : Scan} (h : Tidy width height a)
    (hleft : n * width ≤ a.start) :
    RowsCase width height n a ((Prog.times n (scanRow width)).run a) := by
  induction n generalizing a with
  | zero =>
    exact .complete [] rfl rfl rfl rfl h (by omega) fun m => Iff.rfl
  | succ n ih =>
    rw [Nat.succ_mul] at hleft
    rw [Prog.times_succ, EStateM.run_bind]
    cases scanRow_cases h hwidth (by omega) with
    | @complete rows rest a₁ hlength hinput hrun hrest htidy hstart hover =>
      rw [hrun]
      simp only
      rw [Nat.one_mul] at hstart
      cases ih htidy (by omega) with
      | @complete rows' rest' a₂ hlength' hinput' hrun' hrest' htidy' hstart' hover' =>
        refine .complete (rows ++ rows') ?_ ?_ hrun' hrest' htidy' ?_ ?_
        . rw [List.length_append, hlength, hlength', Nat.add_comm]
        . rw [hinput, ← hrest, hinput', List.flatMap_append, List.append_assoc]
        . rw [Nat.succ_mul]
          omega
        . intro m
          rw [← Nat.add_assoc, hover, ← hrest, hover']
      | short hrun' hnodup' hover' =>
        refine .short hrun' hnodup' fun m hm => ?_
        cases m with
        | zero => cases hm
        | succ m =>
          rw [hover, ← hrest] at hm
          exact hover' m hm
      | overrun hover' hbad' =>
        refine .overrun (fun m => ?_) hbad'
        rw [← Nat.add_assoc, hover, ← hrest]
        exact hover' m
    | @short a₁ hrun hnodup hover =>
      rw [hrun]
      exact .short rfl hnodup hover
    | overrun hover hbad =>
      refine .overrun (fun m => ?_) ?_
      . rw [← Nat.add_assoc]
        exact hover (m + n)
      . cases hrun : (scanRow width).run a with
        | error e a₁ =>
          rw [hrun] at hbad
          exact hbad
        | ok _ a₁ =>
          rw [hrun] at hbad
          right
          rintro hnodup
          refine hbad.resolve_left Prog.not_panics_none (hnodup.sublist ?_)
          exact (extends_scanRow.times n a₁).sublist

end Rows

section Planes

/--
Nothing has been written twice, and nothing in the planes at `offsets`.
-/
structure Fresh (s : State) (offsets : List Nat) : Prop where
  nodup : (written s).Nodup
  free : ∀ i ∈ written s, i % 4 ∉ offsets

variable {s s' : State} {offset : Nat} {offsets : List Nat} {cells : List Nat}

theorem Image.nodup_iff (h : Image offset s s'.output s'.trace cells) (hoffset : offset < 4)
    (hfresh : Fresh s (offset :: offsets)) : (written s').Nodup ↔ cells.Nodup := by
  have hmap : (cells.map (cell offset)).Nodup ↔ cells.Nodup :=
    List.nodup_map_iff fun p q => cell_inj
  rw [written, h.cells_eq, List.nodup_append, hmap]
  constructor
  . exact fun h => h.2.1
  . refine fun hcells => ⟨hfresh.nodup, hcells, ?_⟩
    rintro i hi j hj rfl
    obtain ⟨p, _, rfl⟩ := List.mem_map.mp hj
    apply hfresh.free _ hi
    rw [cell_mod hoffset]
    exact List.mem_cons_self

theorem Image.fresh (h : Image offset s s'.output s'.trace cells) (hoffset : offset < 4)
    (hfresh : Fresh s (offset :: offsets)) (hoffsets : offset ∉ offsets) (hcells : cells.Nodup) :
    Fresh s' offsets where
  nodup := (h.nodup_iff hoffset hfresh).mpr hcells
  free := by
    intro i hi
    rw [written, h.cells_eq, List.mem_append] at hi
    rcases hi with hi | hi
    . exact fun hmem => hfresh.free i hi (List.mem_cons_of_mem _ hmem)
    . obtain ⟨p, _, rfl⟩ := List.mem_map.mp hi
      rwa [cell_mod hoffset]

inductive PlanesCase (width height n : Nat) (s : State) (r : EStateM.Result (Fault Error) State Unit) :
    Prop where
  | complete (planes : List (Plane width height)) {rest : Bytes} {s' : State} (hlength : planes.length = n)
    (hinput : s.input = planes.flatMap Plane.bytes ++ rest) (hrun : r = .ok () s')
    (hrest : s'.input = rest) (hnodup : (written s').Nodup)
    (hover : ∀ m, Overruns width (m + n * height) 0 s.input ↔ Overruns width m 0 rest)
  | short {s' : State} (hrun : r = .error (.error (.io .unexpectedEof)) s')
    (hnodup : (written s').Nodup) (hover : ∀ m, ¬ Overruns width m 0 s.input)
  | overrun (hover : ∀ m, Overruns width (m + n * height) 0 s.input)
    (hbad : Prog.Panics (Prog.outcome r) ∨ ¬ (written (Prog.finalState r)).Nodup)

theorem processPlanes_cases (offsets : List Nat) (hoffsets : offsets.Nodup)
    (hlt : ∀ offset ∈ offsets, offset < 4) {s : State} (hready : Ready width height s)
    (hfresh : Fresh s offsets) :
    PlanesCase width height offsets.length s ((processPlanes width height offsets).run s) := by
  induction offsets generalizing s with
  | nil => exact .complete [] rfl rfl rfl rfl hfresh.nodup fun m => by rw [List.length_nil, Nat.zero_mul]; rfl
  | cons offset offsets ih =>
    have hoffset := hlt offset List.mem_cons_self
    have hlt' : ∀ o ∈ offsets, o < 4 := fun o ho => hlt o (List.mem_cons_of_mem _ ho)
    rw [List.nodup_cons] at hoffsets
    have hrelated := processPlane_done (hready.fits hoffset) hready.loads
    have hcases : RowsCase width height height (scanInit s.input width height) _ :=
      scanRows_cases hready.width_pos height (.init s.input) (Nat.le_of_eq (Nat.mul_comm _ _))
    rw [processPlanes, EStateM.run_bind, List.length_cons]
    rw [scanPlane] at hrelated
    cases hcases with
    | @complete rows rest a hlength hinput hrun hrest htidy hstart hover =>
      rw [hrun] at hrelated
      obtain ⟨_, s₁, hrun₁, hdone⟩ := hrelated.of_ok
      have hinput₁ : s₁.input = rest := hdone.input.trans hrest
      rw [hrun₁]
      simp only
      have hfresh₁ := hdone.image.fresh hoffset hfresh hoffsets.1 htidy.nodup
      have hover : ∀ m, Overruns width (m + height) 0 s.input ↔ Overruns width m 0 s₁.input := by
        rw [hinput₁]
        exact hover
      have hassoc : ∀ m, m + (offsets.length + 1) * height = m + offsets.length * height + height := by
        intro m
        rw [Nat.succ_mul, Nat.add_assoc]
      cases ih hoffsets.2 hlt' (hready.done hdone) hfresh₁ with
      | complete planes hlength' hinput' hrun' hrest' hnodup' hover' =>
        refine .complete (⟨rows, hlength⟩ :: planes) ?_ ?_ hrun' hrest' hnodup' fun m => ?_
        . rw [List.length_cons, hlength']
        . rw [List.flatMap_cons, List.append_assoc, ← hinput', hinput₁]
          exact hinput
        . rw [hassoc, hover, hover']
      | short hrun' hnodup' hover' =>
        refine .short hrun' hnodup' fun m hm => ?_
        exact hover' m ((hover m).mp (hm.add height))
      | overrun hover' hbad' =>
        refine .overrun (fun m => ?_) hbad'
        rw [hassoc, hover]
        exact hover' m
    | @short a hrun hnodup hover =>
      rw [hrun] at hrelated
      obtain ⟨s₁, hrun₁, himage⟩ := hrelated.of_error
      have himage : Image offset s s₁.output s₁.trace a.cells := himage
      rw [hrun₁]
      exact .short rfl ((himage.nodup_iff hoffset hfresh).mpr hnodup) hover
    | overrun hover hbad =>
      refine .overrun (fun m => ?_) ?_
      . rw [Nat.succ_mul, ← Nat.add_assoc]
        exact hover _
      . generalize (Prog.times height (scanRow width)).run (scanInit s.input width height) = r'
          at hrelated hbad
        generalize hrun : (processPlane width height offset).run s = r at hrelated
        cases hrelated with
        | @ok _ s₁ _ a hdone =>
          right
          intro hnodup
          have hcells := hbad.resolve_left Prog.not_panics_none
          apply hcells
          apply (hdone.image.nodup_iff hoffset hfresh).mp
          exact hnodup.sublist (written_front offsets hlt' (hready.done hdone)).sublist
        | @error e s₁ a himage =>
          have himage : Image offset s s₁.output s₁.trace a.cells := himage
          refine hbad.imp id fun hcells hnodup => hcells ?_
          exact (himage.nodup_iff hoffset hfresh).mp hnodup

end Planes

/--
The call returns, it rejects what does not conform, and no row is written over.
-/
structure Safe (width height : Nat) (input : Bytes) (output : Slice UInt8) : Prop where
  returns : (∃ s, rle32Decompress input width height output = .ok () s) ∨
    ∃ e s, rle32Decompress input width height output = .error (.error e) s
  rejects : ¬ Conforming width height input →
    ∃ e s, rle32Decompress input width height output = .error (.error e) s
  once : (written (Prog.finalState (rle32Decompress input width height output))).Nodup

section Size

variable {output : Slice UInt8} {rest : Bytes}

theorem run_empty (hlength : output.cells.length < 3) :
    (processPlanes width height [3, 2, 1, 0]).run (init rest output) =
      .error (.panic "range start index out of range for slice") (init rest output) := by
  have hshort : (init rest output).output.length < 3 := hlength
  rw [processPlanes, EStateM.run_bind, processPlane, EStateM.run_bind]
  simp only [EStateM.run_get]
  rw [if_pos hshort]
  rfl

theorem lineStart_overflow (hsize : 2 ^ 32 ≤ 4 * (width * height)) :
    lineStart width height 0 = .error (.panic "attempt to multiply with overflow") := by
  rw [lineStart]
  by_cases hpixels : width * height < 2 ^ 32
  . rw [checkedMul_of_lt hpixels, Except.ok_bind, checkedMul_of_le (by omega)]
    rfl
  . rw [checkedMul_of_le (by omega)]
    rfl

theorem run_overflow (hheight : 0 < height) (hsize : 2 ^ 32 ≤ 4 * (width * height))
    (hlength : 3 ≤ output.cells.length) :
    ∃ s, (processPlanes width height [3, 2, 1, 0]).run (init rest output) =
      .error (.panic "attempt to multiply with overflow") s := by
  have hlong : ¬ (init rest output).output.length < 3 := Nat.not_lt.mpr hlength
  obtain ⟨n, rfl⟩ : ∃ n, height = n + 1 := ⟨height - 1, by omega⟩
  have hleft : (do let s ← get; return s.indexh < n + 1 : Prog Error State Bool).run
      { init rest output with indexh := 0, lastLine := 0 } =
        .ok true { init rest output with indexh := 0, lastLine := 0 } := by
    simp
  rw [processPlanes, EStateM.run_bind, processPlane, EStateM.run_bind]
  simp only [EStateM.run_get]
  rw [if_neg hlong, EStateM.run_bind]
  simp only [EStateM.run_modify]
  rw [Prog.run_whileLoop_of_true _ _ _ hleft, EStateM.run_bind, processRow, EStateM.run_bind]
  simp only [EStateM.run_get]
  rw [EStateM.run_bind, lineStart_overflow hsize]
  exact ⟨_, rfl⟩

end Size

theorem Safe.of_error {input : Bytes} {output : Slice UInt8} {e : Error} {s : State}
    (hrun : rle32Decompress input width height output = .error (.error e) s)
    (hnodup : (written s).Nodup) : Safe width height input output where
  returns := Or.inr ⟨e, s, hrun⟩
  rejects := fun _ => ⟨e, s, hrun⟩
  once := by rwa [hrun]

theorem Safe.not_panics {input : Bytes} {output : Slice UInt8} (h : Safe width height input output) :
    ¬ Prog.Panics (Prog.outcome (rle32Decompress input width height output)) := by
  rcases h.returns with ⟨s, hrun⟩ | ⟨e, s, hrun⟩
  . rw [hrun]
    exact Prog.not_panics_none
  . rw [hrun]
    exact Prog.not_panics_error

theorem overruns_rows (rows : List (Row width)) {z m : Nat} (rest : Bytes) :
    ∃ n, Overruns width (m + rows.length) 0 (List.replicate z 0 ++ (rows.flatMap Row.bytes ++ rest)) ↔
      Overruns width m 0 (List.replicate n 0 ++ rest) := by
  induction rows generalizing z with
  | nil => exact ⟨z, Iff.rfl⟩
  | cons row rows ih =>
    obtain ⟨segments, n, hbytes, hwithin, htotal, _⟩ := exists_row_segments row z
    obtain ⟨k, hk⟩ := @ih n
    refine ⟨k, ?_⟩
    rw [List.flatMap_cons, List.append_assoc, ← List.append_assoc (List.replicate z 0), hbytes,
      List.append_assoc, List.length_cons, ← Nat.add_assoc, overruns_segments hwithin (by omega),
      Nat.zero_add, htotal, overruns_complete, hk]

theorem Conforming.not_overruns {rest : Bytes} (h : Conforming width height (0x10 :: rest)) :
    ¬ Overruns width (4 * height) 0 rest := by
  obtain ⟨alpha, red, green, blue, trailing, hstream⟩ := h
  obtain ⟨n, hiff⟩ := overruns_rows (m := 0) (z := 0)
    (alpha.rows ++ (red.rows ++ (green.rows ++ blue.rows))) trailing
  have hlength : 0 + (alpha.rows ++ (red.rows ++ (green.rows ++ blue.rows))).length = 4 * height := by
    simp only [List.length_append, alpha.length_rows, red.length_rows, green.length_rows,
      blue.length_rows]
    omega
  have hrest : rest = List.replicate 0 0 ++
      ((alpha.rows ++ (red.rows ++ (green.rows ++ blue.rows))).flatMap Row.bytes ++ trailing) := by
    simpa [stream, Plane.bytes] using hstream
  rw [hlength, ← hrest] at hiff
  rw [hiff]
  intro hover
  cases hover

theorem conforming_of_planes {planes : List (Plane width height)} (hlength : planes.length = 4)
    (trailing : Bytes) :
    Conforming width height (0x10 :: (planes.flatMap Plane.bytes ++ trailing)) := by
  match planes, hlength with
  | [alpha, red, green, blue], _ => exact ⟨alpha, red, green, blue, trailing, by simp [stream]⟩

/--
The decoder is safe on exactly the streams of which no row is too long, unless they are rejected for
their first byte, for images that have a pixel and of which the size in bytes fits a 32 bit word.
-/
theorem rle32Decompress_safe_iff (input : Bytes) (width height : Nat) (output : Slice UInt8)
    (hlength : output.cells.length = 4 * (width * height)) :
    Safe width height input output ↔
      (input.head? = some 0x10 → 0 < width ∧ 0 < height ∧ 4 * (width * height) < 2 ^ 32 ∧
        ¬ Overruns width (4 * height) 0 input.tail) := by
  match input with
  | [] => exact iff_of_true (.of_error (run_decompress_nil output) List.nodup_nil) (by simp)
  | header :: rest =>
    by_cases hheader : header = 0x10
    swap
    . exact iff_of_true (.of_error (run_decompress_bad output hheader rest) List.nodup_nil)
        (by simp [hheader])
    subst hheader
    have hrun : rle32Decompress (0x10 :: rest) width height output = _ := run_decompress_cons output rest
    simp only [List.head?_cons, List.tail_cons, true_implies]
    have hnot : Prog.Panics (Prog.outcome (rle32Decompress (0x10 :: rest) width height output)) →
        ¬ Safe width height (0x10 :: rest) output := fun hpanics hsafe => hsafe.not_panics hpanics
    by_cases hpixels : 0 < width ∧ 0 < height
    swap
    . refine iff_of_false (hnot ?_) fun h => hpixels ⟨h.1, h.2.1⟩
      have hempty : output.cells.length = 0 := by
        rw [hlength]
        rcases Nat.eq_zero_or_pos width with rfl | hwidth
        . simp
        . rcases Nat.eq_zero_or_pos height with rfl | hheight
          . simp
          . exact absurd ⟨hwidth, hheight⟩ hpixels
      rw [hrun, run_empty (by omega)]
      exact ⟨_, rfl⟩
    obtain ⟨hwidth, hheight⟩ := hpixels
    by_cases hsize : 4 * (width * height) < 2 ^ 32
    swap
    . refine iff_of_false (hnot ?_) fun h => hsize h.2.2.1
      obtain ⟨s, hpanic⟩ := @run_overflow width height output rest hheight (Nat.le_of_not_lt hsize) (by omega)
      rw [hrun, hpanic]
      exact ⟨_, rfl⟩
    simp only [hwidth, hheight, hsize, true_and]
    have hfresh : Fresh (init rest output) [3, 2, 1, 0] := ⟨List.nodup_nil, by simp [written, init]⟩
    have hcases := processPlanes_cases [3, 2, 1, 0] (by decide) (by decide)
      (.init hwidth hheight hsize hlength) hfresh
    rw [← hrun] at hcases
    cases hcases with
    | complete planes hlength hinput hok hrest hnodup hover =>
      refine iff_of_true ⟨Or.inl ⟨_, hok⟩, fun hnot => absurd ?_ hnot, by rwa [hok]⟩ fun h => ?_
      . have hrest : rest = planes.flatMap Plane.bytes ++ _ := hinput
        rw [hrest]
        exact conforming_of_planes hlength _
      . have hzero := (hover 0).mp (by rwa [Nat.zero_add])
        cases hzero
    | short hshort hnodup hover => exact iff_of_true (.of_error hshort hnodup) (hover _)
    | overrun hover hbad =>
      refine iff_of_false (fun hsafe => ?_) fun h => h ?_
      . exact hbad.elim hsafe.not_panics fun hnodup => hnodup hsafe.once
      . have := hover 0
        rwa [Nat.zero_add] at this

/--
A row that ends in the middle of its raw bytes.
-/
theorem rle32Decompress_safe_iff_short :
    Safe 2 1 [0x10, 0x30, 1] ⟨List.replicate 8 0, by decide⟩ ↔
      (([0x10, 0x30, 1] : Bytes).head? = some 0x10 → 0 < 2 ∧ 0 < 1 ∧ 4 * (2 * 1) < 2 ^ 32 ∧
        ¬ Overruns 2 (4 * 1) 0 ([0x10, 0x30, 1] : Bytes).tail) :=
  rle32Decompress_safe_iff [0x10, 0x30, 1] 2 1 ⟨List.replicate 8 0, by decide⟩ (by decide)

/--
A third row that is too long is accepted and changes a pixel of the second one. A first row that is
too long leaves the buffer, and so does the start of a plane of an image without pixels.
-/
theorem rle32Decompress_overruns :
    let input : Bytes := [0x10, 0x10, 1, 0x10, 4, 0x20, 4, 10, 0x10, 0, 0x10, 0, 0x10, 0, 0x10, 0,
      0x10, 0, 0x10, 0, 0x10, 0, 0x10, 0, 0x10, 0]
    let run := rle32Decompress input 1 3 ⟨List.replicate 12 0, by decide⟩
    ¬ Conforming 1 3 input ∧ Prog.outcome run = none ∧
      (stores (Prog.finalState run).trace).filter (fun write => write.1 = 7) = [(7, 3), (7, 6)] ∧
    Prog.outcome (rle32Decompress [0x10, 0x20, 1, 2] 1 1 ⟨List.replicate 4 0, by decide⟩) =
      some (.panic "index out of bounds") ∧
    Prog.outcome (rle32Decompress [0x10] 0 0 ⟨[], by decide⟩) =
      some (.panic "range start index out of range for slice") := by
  refine ⟨fun h => h.not_overruns ?_, by decide +kernel, by decide +kernel, rfl, rfl⟩
  refine .segment (by decide) (by decide) (by decide) (.row ?_)
  refine .segment (by decide) (by decide) (by decide) (.row ?_)
  exact .overrun (by decide) (by decide)

end Rle32
end Rdp
