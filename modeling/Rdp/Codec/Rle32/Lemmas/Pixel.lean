import Rdp.Codec.Rle32.Scan

/-!
The simulation between `process_plane` and its `Scan`, for one pixel.
-/

namespace Rdp
namespace Rle32

open Trace

def cell (offset p : Nat) : Nat := offset + 4 * p

/--
The sizes under which no counter overflows.
-/
structure Fits (width height offset : Nat) (before : State) : Prop where
  width_pos : 0 < width
  height_pos : 0 < height
  offset_lt : offset < 4
  size_lt : 4 * (width * height) < 2 ^ 32
  length_output : before.output.length = 4 * (width * height)

/--
What has happened to the buffer since the start of the plane, when the pixels `cells` have been
written.
-/
structure Image (offset : Nat) (before : State) (output : List UInt8) (trace : Trace UInt8)
    (cells : List Nat) : Prop where
  length_output : output.length = before.output.length
  kept : ∀ j, j % 4 ≠ offset → output[j]? = before.output[j]?
  cells_eq : (stores trace).map Prod.fst = (stores before.trace).map Prod.fst ++ cells.map (cell offset)
  loads : LoadsWritten trace

/--
The `color` of the decoder for the last byte of a row.
-/
def IsColor (first : Bool) (last : UInt8) (color : Int8) : Prop :=
  if first then
    color = last.toInt8
  else
    deltaOf last = .ok color

structure Sim (width height offset : Nat) (before s : State) (a : Scan) : Prop where
  image : Image offset before s.output s.trace a.cells
  input : s.input = a.input
  color : IsColor a.known.isEmpty a.last s.color
  indexw : s.indexw = a.done.length
  out : s.out = 4 * (a.start + a.done.length)
  lastLine : s.lastLine = if a.known.isEmpty then 0 else 4 * (a.start + width)
  indexh : s.indexh * width = a.known.length
  room : a.start + width + a.known.length = width * height
  done_le : a.done.length ≤ a.limit width
  done : ∀ c, c < a.done.length → s.output[cell offset (a.start + c)]? = a.done[c]?
  known : ∀ c, a.done.length ≤ c + width → c < a.known.length →
    s.output[cell offset (a.start + width + c)]? = a.known[c]?
  done_cells : ∀ c, c < a.done.length → a.start + c ∈ a.cells
  known_cells : ∀ c, c < a.known.length → a.start + width + c ∈ a.cells

theorem deltaOf_eq (v : UInt8) : ∃ d : Int8, deltaOf v = .ok d ∧ d.toInt = delta v := by
  revert v
  apply forall_uint8
  intro n hn
  have htable : ∀ n < 256, deltaOf (UInt8.ofNat n) = .ok (Int8.ofInt (delta (UInt8.ofNat n))) ∧
      (Int8.ofInt (delta (UInt8.ofNat n))).toInt = delta (UInt8.ofNat n) := by
    decide +kernel
  exact ⟨_, htable n hn⟩

theorem isColor_zero (first : Bool) : IsColor first 0 0 := by
  cases first <;> rfl

theorem IsColor.toUInt8_eq {last : UInt8} {color : Int8} (h : IsColor true last color) :
    color.toUInt8 = last := by
  rw [IsColor, if_pos rfl] at h
  subst h
  simp

theorem IsColor.toInt_eq {last : UInt8} {color : Int8} (h : IsColor false last color) :
    color.toInt = delta last := by
  obtain ⟨d, hd, heq⟩ := deltaOf_eq last
  simp only [IsColor, Bool.false_eq_true, if_false, hd] at h
  cases h
  exact heq

section Put

variable {width height offset : Nat} {before s : State} {a : Scan} {p : Nat} {output : List UInt8}
  {trace : Trace UInt8} {cells : List Nat}

theorem run_put (v : UInt8) (hcell : cell offset p < s.output.length) (hout : s.out = 4 * p)
    (hp : 4 * (p + 1) < 2 ^ 32) (hindexw : s.indexw + 1 < 2 ^ 32) :
    (put offset v).run s =
      .ok () { s with
        output := s.output.set (cell offset p) v, trace := s.trace ++ [Access.store (cell offset p) v],
        out := 4 * (p + 1), indexw := s.indexw + 1 } := by
  have hout' : s.out + 4 = 4 * (p + 1) := by omega
  have hstore : offset + s.out = cell offset p := by rw [hout, cell]
  simp only [put, store, EStateM.run_bind, EStateM.run_get, hstore, if_pos hcell, EStateM.run_set]
  rw [checkedAdd_of_lt (by omega), checkedAdd_of_lt hindexw, hout']
  rfl

theorem run_put_outside (v : UInt8) (hcell : s.output.length ≤ cell offset p) (hout : s.out = 4 * p) :
    (put offset v).run s = .error (.panic "index out of bounds") s := by
  have hstore : offset + s.out = cell offset p := by rw [hout, cell]
  simp only [put, store, EStateM.run_bind, EStateM.run_get, hstore, if_neg (Nat.not_lt.mpr hcell)]
  rfl

theorem run_load {v : UInt8} (h : s.output[cell offset p]? = some v) :
    (load offset (4 * p)).run s =
      .ok v { s with trace := s.trace ++ [Access.load (cell offset p)] } := by
  rw [cell] at h
  simp only [load, EStateM.run_bind, EStateM.run_get, h]
  rfl

theorem run_load_outside (h : s.output.length ≤ cell offset p) :
    (load offset (4 * p)).run s = .error (.panic "index out of bounds") s := by
  rw [cell] at h
  simp only [load, EStateM.run_bind, EStateM.run_get, List.getElem?_eq_none h]
  rfl

theorem cell_lt_iff (hoffset : offset < 4) (size : Nat) : cell offset p < 4 * size ↔ p < size := by
  unfold cell
  omega

theorem cell_mod (hoffset : offset < 4) (p : Nat) : cell offset p % 4 = offset := by
  unfold cell
  omega

theorem cell_inj {q : Nat} (h : cell offset p = cell offset q) : p = q := by
  unfold cell at h
  omega

theorem Image.load (h : Image offset before output trace cells) {q : Nat} (hq : q ∈ cells) :
    Image offset before output (trace ++ [Access.load (cell offset q)]) cells :=
  { h with
    cells_eq := by
      rw [← h.cells_eq, stores_load]
    loads := by
      apply h.loads.concat
      intro i hi
      have hmem : cell offset q ∈ (stores trace).map Prod.fst := by
        rw [h.cells_eq]
        exact List.mem_append_right _ (List.mem_map_of_mem hq)
      obtain ⟨⟨j, v⟩, hv, hj⟩ := List.mem_map.mp hmem
      cases hi
      cases hj
      exact ⟨v, mem_stores.mp hv⟩ }

theorem Image.store (h : Image offset before output trace cells) (hoffset : offset < 4) (p : Nat)
    (v : UInt8) :
    Image offset before (output.set (cell offset p) v) (trace ++ [Access.store (cell offset p) v])
      (cells ++ [p]) where
  length_output := by
    rw [← h.length_output]
    exact List.length_set
  kept := by
    intro j hj
    rw [← h.kept j hj]
    apply List.getElem?_set_ne
    rintro rfl
    exact hj (cell_mod hoffset p)
  cells_eq := by
    simp [h.cells_eq]
  loads := h.loads.concat (by simp)

theorem Sim.load (h : Sim width height offset before s a) {q : Nat} (hq : q ∈ a.cells) :
    Sim width height offset before { s with trace := s.trace ++ [Access.load (cell offset q)] } a :=
  { h with image := h.image.load hq }

theorem Sim.limit_le (h : Sim width height offset before s a) :
    a.start + a.limit width ≤ width * height := by
  have := h.room
  unfold Scan.limit
  split <;> omega

theorem Sim.put (hfits : Fits width height offset before) (h : Sim width height offset before s a)
    (hp : a.done.length < a.limit width) (v : UInt8) :
    ∃ s', (Rle32.put offset v).run s = .ok () s' ∧ Sim width height offset before s' (a.paint v) := by
  have hsize := hfits.size_lt
  have hlimit := h.limit_le
  have hlength : s.output.length = 4 * (width * height) :=
    h.image.length_output.trans hfits.length_output
  have hcell : cell offset (a.start + a.done.length) < s.output.length := by
    rw [hlength]
    exact (cell_lt_iff hfits.offset_lt _).mpr (by omega)
  have hindexw := h.indexw
  refine ⟨_, run_put v hcell h.out (by omega) (by omega), ?_⟩
  constructor
  . exact h.image.store hfits.offset_lt _ v
  . exact h.input
  . exact h.color
  . rw [Scan.length_paint, ← hindexw]
  . rw [Scan.length_paint, ← Nat.add_assoc]
    rfl
  . exact h.lastLine
  . exact h.indexh
  . exact h.room
  . rw [Scan.length_paint]
    exact hp
  . intro c hc
    rw [Scan.length_paint] at hc
    simp only [Scan.paint]
    by_cases hlast : c = a.done.length
    . subst hlast
      simp [hcell]
    . have hne : cell offset (a.start + a.done.length) ≠ cell offset (a.start + c) := by
        intro heq
        have := cell_inj heq
        omega
      rw [List.getElem?_set_ne hne, h.done c (by omega), List.getElem?_append_left (by omega)]
  . intro c hc hknown
    rw [Scan.length_paint] at hc
    simp only [Scan.paint]
    have hne : cell offset (a.start + a.done.length) ≠ cell offset (a.start + width + c) := by
      intro heq
      have := cell_inj heq
      omega
    rw [List.getElem?_set_ne hne]
    exact h.known c (by omega) hknown
  . intro c hc
    rw [Scan.length_paint] at hc
    simp only [Scan.paint, List.mem_append, List.mem_singleton]
    by_cases hlast : c = a.done.length
    . exact Or.inr (by rw [hlast])
    . exact Or.inl (h.done_cells c (by omega))
  . intro c hc
    exact List.mem_append_left _ (h.known_cells c hc)

theorem Sim.put_outside (hfits : Fits width height offset before)
    (h : Sim width height offset before s a) (hp : width * height ≤ a.start + a.done.length)
    (v : UInt8) :
    (Rle32.put offset v).run s = .error (.panic "index out of bounds") s := by
  apply run_put_outside v _ h.out
  rw [h.image.length_output, hfits.length_output]
  have := (cell_lt_iff (p := a.start + a.done.length) hfits.offset_lt (width * height))
  omega

/--
What holds between the decoder and its `Scan` wherever they stop.
-/
def Stopped (offset : Nat) (before : State) (s : State) (a : Scan) : Prop :=
  Image offset before s.output s.trace a.cells

def InRow (width height offset : Nat) (before : State) (known : List UInt8) (s : State) (a : Scan) :
    Prop :=
  Sim width height offset before s a ∧ a.known = known

theorem InRow.putColor (hfits : Fits width height offset before)
    (h : InRow width height offset before [] s a) :
    Prog.Related (fun _ s' _ a' => InRow width height offset before [] s' a') (Stopped offset before)
      ((putColor offset).run s) ((scanPixel width).run a) := by
  obtain ⟨hsim, hknown⟩ := h
  have hroom := hsim.room
  have hcolor := hsim.color
  have hlimit : a.limit width = width := by
    simp [Scan.limit, hknown]
  simp only [hknown, List.isEmpty_nil, List.length_nil, Nat.add_zero] at hroom hcolor
  simp only [Rle32.putColor, scanPixel, EStateM.run_bind, EStateM.run_get, hcolor.toUInt8_eq,
    Scan.value, hknown, List.isEmpty_nil, if_true]
  by_cases hwidth : a.done.length < width
  . rw [if_pos hwidth]
    obtain ⟨s', hrun, hsim'⟩ := hsim.put hfits (by omega) a.last
    rw [hrun]
    exact .ok ⟨hsim', hknown⟩
  . rw [if_neg hwidth, hsim.put_outside hfits (by omega)]
    exact .error hsim.image

theorem InRow.putDelta (hfits : Fits width height offset before) {known : List UInt8}
    (h : InRow width height offset before known s a) (hne : known.isEmpty = false) :
    Prog.Related (fun _ s' _ a' => InRow width height offset before known s' a') (Stopped offset before)
      ((putDelta offset).run s) ((scanPixel width).run a) := by
  obtain ⟨hsim, hknown⟩ := h
  have hroom := hsim.room
  have hcolor := hsim.color
  have hlast := hsim.lastLine
  have hsize := hfits.size_lt
  have hdone := hsim.done_le
  have hindexw := hsim.indexw
  have hwidth := hfits.width_pos
  have hlimit : a.limit width = known.length := by
    simp [Scan.limit, hknown, hne]
  simp only [hknown, hne, Bool.false_eq_true, if_false] at hroom hcolor hlast
  have hlength : s.output.length = 4 * (width * height) :=
    hsim.image.length_output.trans hfits.length_output
  have hcolumn : s.indexw * 4 = 4 * a.done.length := by omega
  have hadd : s.lastLine + 4 * a.done.length = 4 * (a.start + width + a.done.length) := by omega
  have hvalue : a.value width = known[a.done.length]?.map fun above => addDelta above a.last := by
    simp [Scan.value, hknown, hne]
  simp only [Rle32.putDelta, scanPixel, EStateM.run_bind, EStateM.run_get, hvalue]
  rw [checkedMul_of_lt (by omega), hcolumn]
  simp only [Prog.run_lift_ok]
  by_cases hc : a.done.length < known.length
  . have hget : s.output[cell offset (a.start + width + a.done.length)]? =
        some known[a.done.length] := by
      rw [hsim.known _ (by omega) (by rwa [hknown])]
      simp [hknown, hc]
    rw [checkedAdd_of_lt (by omega), hadd]
    simp only [Prog.run_lift_ok]
    rw [run_load hget]
    have hload : Sim width height offset before
        { s with trace := s.trace ++ [Access.load (cell offset (a.start + width + a.done.length))] } a :=
      hsim.load (hsim.known_cells _ (by rwa [hknown]))
    obtain ⟨s', hrun, hsim'⟩ := hload.put hfits (by omega) (addDelta known[a.done.length] a.last)
    simp only [hcolor.toInt_eq, List.getElem?_eq_getElem hc, Option.map_some]
    rw [← addDelta, hrun]
    exact .ok ⟨hsim', hknown⟩
  . rw [List.getElem?_eq_none (by omega)]
    rw [checkedAdd_of_lt (by omega), hadd]
    simp only [Prog.run_lift_ok]
    rw [run_load_outside]
    . exact .error hsim.image
    . rw [hlength]
      have := cell_lt_iff (p := a.start + width + a.done.length) hfits.offset_lt (width * height)
      omega

end Put

end Rle32
end Rdp
