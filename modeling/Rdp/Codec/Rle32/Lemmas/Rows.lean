import Rdp.Codec.Rle32.Lemmas.Segments

/-!
What a `Scan` does with a row of its input: the row is complete, the input ends within it or it
delivers too many pixels.
-/

namespace Rdp
namespace Rle32

variable {width : Nat}

def total (segments : List Segment) : Nat := (segments.map Segment.length).sum

@[simp]
theorem total_nil : total [] = 0 := rfl

@[simp]
theorem total_cons (s : Segment) (segments : List Segment) :
    total (s :: segments) = s.length + total segments := by
  simp [total]

def bytesOf (segments : List Segment) : Bytes := segments.flatMap Segment.bytes

@[simp]
theorem bytesOf_nil : bytesOf [] = [] := rfl

@[simp]
theorem bytesOf_cons (s : Segment) (segments : List Segment) :
    bytesOf (s :: segments) = s.bytes ++ bytesOf segments := by
  simp [bytesOf]

def lastOf (last : UInt8) (segments : List Segment) : UInt8 :=
  segments.foldl (fun last s => s.last last) last

theorem length_expand (last : UInt8) (segments : List Segment) :
    (expand last segments).length = total segments := by
  induction segments generalizing last with
  | nil => rfl
  | cons s segments ih => rw [expand, List.length_append, ih, Segment.length_expand, total_cons]

theorem length_le_bytesOf (segments : List Segment) : segments.length ≤ (bytesOf segments).length := by
  induction segments with
  | nil => exact Nat.le_refl _
  | cons s segments ih =>
    simp only [bytesOf_cons, List.length_append, Segment.bytes, List.length_cons]
    omega

/--
Every one of the segments starts within a row of which `column` pixels are done.
-/
def Within (width column : Nat) (segments : List Segment) : Prop :=
  match segments with
  | [] => True
  | s :: segments => column < width ∧ Within width (column + s.length) segments

theorem run_segments {segments : List Segment} {rest : Bytes} {a : Scan}
    (hwithin : Within width a.done.length segments)
    (hroom : a.done.length + total segments ≤ a.limit width)
    (hinput : a.input = bytesOf segments ++ rest) (fuel : Nat) :
    (Prog.whileLoop (segments.length + fuel) (rowLeft width) (scanSegment width)).run a =
      (Prog.whileLoop fuel (rowLeft width) (scanSegment width)).run
        ((a.reads rest (lastOf a.last segments)).paints (expand a.last segments)) := by
  induction segments generalizing a with
  | nil =>
    rw [expand, Scan.paints_nil, List.length_nil, Nat.zero_add]
    cases a
    cases hinput
    rfl
  | cons s segments ih =>
    obtain ⟨hcolumn, hwithin⟩ := hwithin
    rw [total_cons] at hroom
    rw [bytesOf_cons, List.append_assoc] at hinput
    have hleft : (rowLeft width).run a = .ok true a := by
      simp [rowLeft, hcolumn]
    have hfits : (a.reads (bytesOf segments ++ rest) (s.last a.last)).done.length +
        (s.expand a.last).length ≤ (a.reads (bytesOf segments ++ rest) (s.last a.last)).limit width := by
      rw [Scan.reads_done, Scan.reads_limit, Segment.length_expand]
      omega
    have hlength := Scan.length_paints hfits
    rw [Scan.reads_done, Segment.length_expand] at hlength
    rw [List.length_cons, Nat.add_right_comm, Prog.run_whileLoop_of_true _ _ _ hleft, EStateM.run_bind,
      run_scanSegment s hinput (by omega)]
    simp only
    rw [ih (by rwa [hlength]) (by rw [hlength, Scan.paints_limit, Scan.reads_limit]; omega) rfl,
      Scan.paints_last, Scan.reads_last, Scan.paints_reads, expand, Scan.paints_append]
    . rfl
    . exact hfits

section Cases

theorem code_of_length_zero (code : UInt8) (h : rawLength code + runLength code = 0) : code = 0 := by
  revert code
  exact forall_uint8 (by decide +kernel)

theorem Segment.eq_of_length_zero {s : Segment} (h : s.length = 0) :
    s.bytes = [0] ∧ ∀ last, s.expand last = [] := by
  obtain ⟨code, raw, hraw⟩ := s
  obtain rfl := code_of_length_zero code h
  obtain rfl := List.length_eq_zero_iff.mp hraw
  exact ⟨rfl, fun _ => rfl⟩

theorem of_total_zero {segments : List Segment} (h : total segments = 0) :
    bytesOf segments = List.replicate segments.length 0 ∧ ∀ last, expand last segments = [] := by
  induction segments with
  | nil => exact ⟨rfl, fun _ => rfl⟩
  | cons s segments ih =>
    rw [total_cons] at h
    obtain ⟨hbytes, hexpand⟩ := Segment.eq_of_length_zero (s := s) (by omega)
    obtain ⟨hbytes', hexpand'⟩ := ih (by omega)
    refine ⟨?_, fun last => ?_⟩
    . rw [bytesOf_cons, hbytes, hbytes']
      rfl
    . rw [expand, hexpand, hexpand']
      rfl

theorem exists_within {segments : List Segment} {column : Nat}
    (htotal : column + total segments = width) :
    ∃ segments' n, bytesOf segments = bytesOf segments' ++ List.replicate n 0 ∧
      Within width column segments' ∧ total segments' = total segments ∧
      ∀ last, expand last segments' = expand last segments := by
  -- Empty segments at the end of a row can be left to the next one.
  induction segments generalizing column with
  | nil => exact ⟨[], 0, rfl, trivial, rfl, fun _ => rfl⟩
  | cons s segments ih =>
    by_cases hcolumn : column < width
    . rw [total_cons] at htotal
      obtain ⟨segments', n, hbytes, hwithin, hsum, hexpand⟩ := @ih (column + s.length) (by omega)
      refine ⟨s :: segments', n, ?_, ⟨hcolumn, hwithin⟩, ?_, fun last => ?_⟩
      . rw [bytesOf_cons, bytesOf_cons, hbytes, List.append_assoc]
      . rw [total_cons, total_cons, hsum]
      . rw [expand, expand, hexpand]
    . have hzero : total (s :: segments) = 0 := by omega
      obtain ⟨hbytes, hexpand⟩ := of_total_zero hzero
      exact ⟨[], (s :: segments).length, hbytes, trivial, hzero.symm, fun last => (hexpand last).symm⟩

inductive RowEnd (width column : Nat) : Bytes → Prop where
  | complete {rest} (h : column = width) : RowEnd width column rest
  | ended (h : column < width) : RowEnd width column []
  | short {code rest} (h : column < width) (hraw : rest.length < rawLength code)
    (hfits : column + rest.length ≤ width) : RowEnd width column (code :: rest)
  | overrun {code rest} (h : column < width) (hover : width < column + delivered code rest) :
    RowEnd width column (code :: rest)

theorem Segment.delivered_eq (s : Segment) (rest : Bytes) :
    delivered s.code (s.raw ++ rest) = s.length := by
  have hraw : rawLength s.code ≤ (s.raw ++ rest).length := by
    rw [List.length_append, s.length_raw]
    exact Nat.le_add_right _ _
  rw [delivered, if_pos hraw, Segment.length]

theorem exists_rowEnd (input : Bytes) (column : Nat) (hcolumn : column ≤ width) :
    ∃ segments rest, input = bytesOf segments ++ rest ∧ Within width column segments ∧
      column + total segments ≤ width ∧ RowEnd width (column + total segments) rest := by
  rcases Nat.eq_or_lt_of_le hcolumn with heq | hlt
  . exact ⟨[], input, rfl, trivial, hcolumn, .complete heq⟩
  match input with
  | [] => exact ⟨[], [], rfl, trivial, hcolumn, .ended hlt⟩
  | code :: rest =>
    by_cases hover : width < column + delivered code rest
    . exact ⟨[], code :: rest, rfl, trivial, hcolumn, .overrun hlt hover⟩
    by_cases hraw : rawLength code ≤ rest.length
    . let s : Segment := ⟨code, rest.take (rawLength code), by rw [List.length_take]; omega⟩
      have hbytes : code :: rest = s.bytes ++ rest.drop (rawLength code) := by
        rw [Segment.bytes, List.cons_append, List.take_append_drop]
      have hlength : delivered code rest = s.length := by
        rw [← Segment.delivered_eq s (rest.drop (rawLength code)), List.take_append_drop]
      have hshort : (rest.drop (rawLength code)).length < (code :: rest).length := by
        rw [List.length_drop, List.length_cons]
        omega
      obtain ⟨segments, rest', hrest, hwithin, hfits, hend⟩ :=
        exists_rowEnd (rest.drop (rawLength code)) (column + s.length) (by omega)
      refine ⟨s :: segments, rest', ?_, ⟨hlt, hwithin⟩, ?_, ?_⟩
      . rw [bytesOf_cons, List.append_assoc, ← hrest, hbytes]
      . rw [total_cons, ← Nat.add_assoc]
        exact hfits
      . rw [total_cons, ← Nat.add_assoc]
        exact hend
    . have hdelivered : delivered code rest = rest.length := if_neg hraw
      exact ⟨[], code :: rest, rfl, trivial, hcolumn,
        .short hlt (Nat.lt_of_not_le hraw) (by rw [total_nil]; omega)⟩
termination_by input.length

end Cases

section Overruns

variable {n column : Nat} {rest : Bytes}

theorem overruns_segment {s : Segment} (hcolumn : column < width) (hfits : column + s.length ≤ width) :
    Overruns width (n + 1) column (s.bytes ++ rest) ↔
      Overruns width (n + 1) (column + s.length) rest := by
  have hdelivered := s.delivered_eq rest
  have hdrop : (s.raw ++ rest).drop (rawLength s.code) = rest := by
    rw [← s.length_raw, List.drop_left]
  rw [Segment.bytes, List.cons_append]
  constructor
  . rintro h
    cases h with
    | overrun _ h => omega
    | segment _ _ _ h => rwa [hdelivered, hdrop] at h
    | row h => omega
  . intro h
    refine .segment hcolumn ?_ ?_ ?_
    . rwa [hdelivered]
    . rw [List.length_append, s.length_raw]
      exact Nat.le_add_right _ _
    . rwa [hdelivered, hdrop]

theorem overruns_segments {segments : List Segment} (hwithin : Within width column segments)
    (hfits : column + total segments ≤ width) :
    Overruns width (n + 1) column (bytesOf segments ++ rest) ↔
      Overruns width (n + 1) (column + total segments) rest := by
  induction segments generalizing column with
  | nil => rfl
  | cons s segments ih =>
    rw [total_cons, ← Nat.add_assoc] at hfits
    rw [bytesOf_cons, List.append_assoc, overruns_segment hwithin.1 (by omega), ih hwithin.2 hfits,
      total_cons, Nat.add_assoc]

theorem overruns_complete : Overruns width (n + 1) width rest ↔ Overruns width n 0 rest := by
  constructor
  . intro h
    cases h with
    | overrun h _ => omega
    | segment h _ _ _ => omega
    | row h => exact h
  . exact .row

theorem Overruns.add (h : Overruns width n column rest) (m : Nat) :
    Overruns width (n + m) column rest := by
  induction h with
  | overrun hcolumn h =>
    rw [Nat.add_right_comm]
    exact .overrun hcolumn h
  | segment hcolumn hfits hraw _ ih =>
    rw [Nat.add_right_comm] at ih ⊢
    exact .segment hcolumn hfits hraw ih
  | row _ ih =>
    rw [Nat.add_right_comm]
    exact .row ih

theorem not_overruns_ended (h : column < width) : ¬ Overruns width n column [] := by
  intro hover
  cases hover with
  | row _ => omega

theorem not_overruns_short {code : UInt8} (h : column < width) (hraw : rest.length < rawLength code)
    (hfits : column + rest.length ≤ width) : ¬ Overruns width n column (code :: rest) := by
  have hdelivered : delivered code rest = rest.length := if_neg (by omega)
  intro hover
  cases hover with
  | overrun _ hover => omega
  | segment _ _ hle _ => omega
  | row _ => omega

end Overruns

section Row

variable {a : Scan} {segments : List Segment} {rest : Bytes}

def Scan.inRow (width : Nat) (a : Scan) (segments : List Segment) (rest : Bytes) : Scan :=
  ((a.startRow width).reads rest (lastOf 0 segments)).paints (expand 0 segments)

theorem Scan.length_inRow (hroom : total segments ≤ a.limit width) :
    (a.inRow width segments rest).done.length = total segments := by
  have hlength := Scan.length_paints
    (show ((a.startRow width).reads rest (lastOf 0 segments)).done.length +
      (expand 0 segments).length ≤ a.limit width by
        rw [length_expand]
        exact (Nat.zero_add _).trans_le hroom)
  rw [length_expand] at hlength
  exact hlength.trans (Nat.zero_add _)

theorem run_scanSegments (hwithin : Within width 0 segments) (hroom : total segments ≤ a.limit width)
    (hinput : a.input = bytesOf segments ++ rest) :
    ∃ fuel, (scanSegments width).run (a.startRow width) =
      (Prog.whileLoop (fuel + 1) (rowLeft width) (scanSegment width)).run
        (a.inRow width segments rest) := by
  have hle := length_le_bytesOf segments
  have hlength : a.input.length = (bytesOf segments).length + rest.length := by
    rw [hinput, List.length_append]
  refine ⟨a.input.length - segments.length, ?_⟩
  have hrun := run_segments (a := a.startRow width) hwithin ((Nat.zero_add _).trans_le hroom) hinput
    (a.input.length - segments.length + 1)
  rw [← Nat.add_assoc, Nat.add_sub_cancel' (by omega)] at hrun
  simp only [scanSegments, EStateM.run_bind, EStateM.run_get]
  exact hrun

theorem run_scanRow (hwithin : Within width 0 segments) (htotal : total segments = width)
    (hroom : width ≤ a.limit width) (hinput : a.input = bytesOf segments ++ rest) :
    (scanRow width).run a = .ok () ((a.inRow width segments rest).endRow width) := by
  obtain ⟨fuel, hrun⟩ := run_scanSegments hwithin (by omega) hinput
  have hdone : (rowLeft width).run (a.inRow width segments rest) =
      .ok false (a.inRow width segments rest) := by
    have hlength : (a.inRow width segments rest).done.length = total segments :=
      Scan.length_inRow (by omega)
    simp [rowLeft, hlength, htotal]
  rw [Prog.run_whileLoop_of_false _ _ _ hdone] at hrun
  simp only [scanRow, EStateM.run_bind, EStateM.run_modify, hrun]

theorem run_scanRow_left (hwithin : Within width 0 segments) (htotal : total segments < width)
    (hroom : width ≤ a.limit width) (hinput : a.input = bytesOf segments ++ rest) :
    ∃ fuel, (scanRow width).run a =
      (do
        scanSegment width
        Prog.whileLoop fuel (rowLeft width) (scanSegment width)
        modify (Scan.endRow width) : Prog Error Scan Unit).run (a.inRow width segments rest) := by
  obtain ⟨fuel, hrun⟩ := run_scanSegments hwithin (by omega) hinput
  have hleft : (rowLeft width).run (a.inRow width segments rest) =
      .ok true (a.inRow width segments rest) := by
    have hlength : (a.inRow width segments rest).done.length = total segments :=
      Scan.length_inRow (by omega)
    simp [rowLeft, hlength, htotal]
  rw [Prog.run_whileLoop_of_true _ _ _ hleft] at hrun
  refine ⟨fuel, ?_⟩
  rw [scanRow, EStateM.run_bind, EStateM.run_modify]
  simp only
  rw [EStateM.run_bind, hrun, EStateM.run_bind, EStateM.run_bind]
  cases (scanSegment width).run (a.inRow width segments rest) with
  | ok _ a' =>
    simp only
    rw [EStateM.run_bind]
  | error e a' => rfl

theorem run_scanRow_ended (hwithin : Within width 0 segments) (htotal : total segments < width)
    (hroom : width ≤ a.limit width) (hinput : a.input = bytesOf segments ++ []) :
    (scanRow width).run a =
      .error (.error (.io .unexpectedEof)) (a.inRow width segments []) := by
  obtain ⟨fuel, hrun⟩ := run_scanRow_left hwithin htotal hroom hinput
  rw [hrun, EStateM.run_bind, run_scanSegment_nil rfl]

theorem run_scanRow_short {code : UInt8} (hwithin : Within width 0 segments)
    (htotal : total segments < width) (hroom : width ≤ a.limit width)
    (hinput : a.input = bytesOf segments ++ code :: rest) (hraw : rest.length < rawLength code)
    (hfits : total segments + rest.length ≤ width) :
    ∃ last, (scanRow width).run a = .error (.error (.io .unexpectedEof))
      (((a.inRow width segments (code :: rest)).reads [] last).paints rest) := by
  obtain ⟨fuel, hrun⟩ := run_scanRow_left hwithin htotal hroom hinput
  have hlength : (a.inRow width segments (code :: rest)).done.length = total segments :=
    Scan.length_inRow (by omega)
  have hshort := run_scanSegment_short (a := a.inRow width segments (code :: rest)) rfl hraw
    (by rw [hlength]; exact hfits.trans hroom)
  rw [hrun, EStateM.run_bind, hshort]
  exact ⟨_, rfl⟩

def Extends (a a' : Scan) : Prop := a.cells <+: a'.cells

instance : IsPreorder Scan Extends where
  refl _ := List.prefix_rfl
  trans _ _ _ := List.IsPrefix.trans

theorem extends_scanCursor (x : Reader α) : Prog.Moves Extends (scanCursor x) :=
  Prog.Moves.zoom (R := fun _ _ => True) (fun _ => trivial) fun _ _ _ => List.prefix_rfl

theorem extends_scanPixel : Prog.Moves Extends (scanPixel width) := by
  intro a
  simp only [scanPixel, EStateM.run_bind, EStateM.run_get]
  cases a.value width with
  | some v => exact List.prefix_append _ _
  | none => exact List.prefix_rfl

theorem extends_scanSegment : Prog.Moves Extends (scanSegment width) := by
  refine (extends_scanCursor readCode).bind fun code => ?_
  refine Prog.Moves.bind ?_ fun _ => extends_scanPixel.times _
  apply Prog.Moves.times
  refine (extends_scanCursor Cursor.readU8).bind fun last => ?_
  refine Prog.Moves.bind ?_ fun _ => extends_scanPixel
  exact Prog.Moves.modify fun _ => List.prefix_rfl

theorem extends_rowLeft : Prog.Moves Extends (rowLeft width) :=
  Prog.Moves.get.bind fun _ => Prog.Moves.pure _

theorem extends_scanRow : Prog.Moves Extends (scanRow width) := by
  refine Prog.Moves.bind (Prog.Moves.modify fun _ => List.prefix_rfl) fun _ => Prog.Moves.bind ?_
    fun _ => Prog.Moves.modify fun _ => List.prefix_rfl
  exact Prog.Moves.get.bind fun a => extends_rowLeft.whileLoop extends_scanSegment _

theorem Scan.cells_inRow : (a.inRow width segments rest).cells =
    a.cells ++ List.range' (a.start - width) (total segments) := by
  rw [Scan.inRow, Scan.paints, length_expand]
  rfl

theorem Scan.cells_paints_inRow (hroom : total segments ≤ a.limit width) (input vs : Bytes)
    (last : UInt8) :
    (((a.inRow width segments rest).reads input last).paints vs).cells =
      a.cells ++ List.range' (a.start - width) (total segments + vs.length) := by
  have hlength : (a.inRow width segments rest).done.length = total segments :=
    Scan.length_inRow hroom
  have hstart : (a.inRow width segments rest).start = a.start - width := rfl
  simp only [Scan.paints, Scan.reads]
  rw [Scan.cells_inRow, hlength, hstart, List.append_assoc, List.range'_append_1]

theorem run_scanRow_over {code : UInt8} (hwithin : Within width 0 segments)
    (htotal : total segments < width) (hroom : width ≤ a.limit width)
    (hinput : a.input = bytesOf segments ++ code :: rest)
    (hover : width < total segments + delivered code rest) :
    (∃ a', (scanRow width).run a = .error (.panic "index out of bounds") a') ∨
    a.known.isEmpty = false ∧ a.cells ++ List.range' (a.start - width) (width + 1) <+:
      (Prog.finalState ((scanRow width).run a)).cells := by
  obtain ⟨fuel, hrun⟩ := run_scanRow_left hwithin htotal hroom hinput
  have hlength : (a.inRow width segments (code :: rest)).done.length = total segments :=
    Scan.length_inRow (by omega)
  have hlimit : (a.inRow width segments (code :: rest)).limit width = a.limit width := rfl
  by_cases hlimit' : a.limit width < total segments + delivered code rest
  . obtain ⟨a', hseg⟩ := run_scanSegment_outside (a := a.inRow width segments (code :: rest)) rfl
      (by rw [hlength, hlimit]; omega) (by rwa [hlength, hlimit])
    rw [hrun, EStateM.run_bind, hseg]
    exact Or.inl ⟨a', rfl⟩
  . right
    have hfront : ∀ vs : Bytes, width < total segments + vs.length →
        a.cells ++ List.range' (a.start - width) (width + 1) <+:
          a.cells ++ List.range' (a.start - width) (total segments + vs.length) := by
      intro vs hvs
      rw [List.prefix_append_right_inj]
      obtain ⟨m, hm⟩ : ∃ m, total segments + vs.length = (width + 1) + m :=
        ⟨total segments + vs.length - (width + 1), by omega⟩
      rw [hm, ← List.range'_append_1 (n := m)]
      exact List.prefix_append _ _
    have hknown : a.known.isEmpty = false := by
      unfold Scan.limit at hlimit'
      split at hlimit'
      next => omega
      next hknown => simpa using hknown
    refine ⟨hknown, ?_⟩
    rw [hrun, EStateM.run_bind]
    unfold delivered at hover hlimit'
    split at hover
    next hraw =>
      rw [if_pos hraw] at hlimit'
      let s : Segment := ⟨code, rest.take (rawLength code), by rw [List.length_take]; omega⟩
      have hbytes : code :: rest = s.bytes ++ rest.drop (rawLength code) := by
        rw [Segment.bytes, List.cons_append, List.take_append_drop]
      rw [run_scanSegment s hbytes (by rw [hlength, hlimit]; exact Nat.le_of_not_lt hlimit')]
      have hmoves : Prog.Moves Extends (do
          Prog.whileLoop fuel (rowLeft width) (scanSegment width)
          modify (Scan.endRow width) : Prog Error Scan Unit) :=
        (extends_rowLeft.whileLoop extends_scanSegment fuel).bind fun _ =>
          Prog.Moves.modify (R := Extends) fun _ => List.prefix_rfl
      refine List.IsPrefix.trans ?_ (hmoves _)
      rw [Scan.cells_paints_inRow (by omega)]
      exact hfront _ (by rw [Segment.length_expand]; exact hover)
    next hraw =>
      rw [if_neg hraw] at hlimit'
      rw [run_scanSegment_short (a := a.inRow width segments (code :: rest)) rfl (by omega)
        (by rw [hlength, hlimit]; omega), Prog.finalState_error, Scan.cells_paints_inRow (by omega)]
      exact hfront _ hover

end Row

end Rle32
end Rdp
