import Rdp.Codec.Rle16.Lemmas.Termination
import Mathlib.Data.List.Nodup

/-!
What the decoder does to its buffer, for every input.
-/

namespace Rdp
namespace Rle16

open Trace

/--
The accesses of a run up to some point: one pixel after another is written, bottom row first and
left to right, and only pixels that were written are read.
-/
structure ScanOrdered (width height : Nat) (trace : Trace UInt16) : Prop where
  indices : (stores trace).map Prod.fst =
    (List.range (stores trace).length).map (scanIndex width height)
  length_le : (stores trace).length ≤ width * height
  nodup : ((stores trace).map Prod.fst).Nodup
  lt : ∀ i ∈ (stores trace).map Prod.fst, i < width * height
  loads : LoadsWritten trace

variable {width height : Nat}

variable (width height) in
theorem placed_fst (pixels : List UInt16) :
    (placed width height pixels).map Prod.fst = (List.range pixels.length).map (scanIndex width height) := by
  apply List.ext_getElem <;> simp [placed]

theorem scanIndex_nodup {n : Nat} (hn : n ≤ width * height) :
    ((List.range n).map (scanIndex width height)).Nodup := by
  apply List.Nodup.map_on _ List.nodup_range
  intro i hi j hj
  simp only [List.mem_range] at hi hj
  exact scanIndex_inj (by omega) (by omega)

theorem Painted.scanOrdered {cells pixels output : List UInt16} {before trace : Trace UInt16}
    (h : Painted width height cells pixels output trace) (hfront : before <+: trace) :
    ScanOrdered width height before := by
  have hstores : (stores before).map Prod.fst =
      (List.range (stores before).length).map (scanIndex width height) := by
    have hall := placed_fst width height pixels
    rw [← h.stores_eq] at hall
    have htake := (stores_front hfront).map Prod.fst
    rw [hall] at htake
    have hlength := htake.length_le
    simp only [List.length_map, List.length_range] at hlength
    rw [List.prefix_iff_eq_take.mp htake, List.length_map, ← List.map_take, List.take_range,
      Nat.min_eq_left hlength]
  have hlength : (stores before).length ≤ width * height := by
    have hle := (stores_front hfront).length_le
    have := h.length_pixels
    rw [h.stores_eq, placed, List.length_mapIdx] at hle
    omega
  constructor
  . exact hstores
  . exact hlength
  . rw [hstores]
    exact scanIndex_nodup hlength
  . rw [hstores]
    intro i hi
    simp only [List.mem_map, List.mem_range] at hi
    obtain ⟨k, hk, rfl⟩ := hi
    exact scanIndex_lt (by omega)
  . exact h.loads.front hfront

theorem Related.painted {cells : List UInt16} {r : EStateM.Result (Fault Error) State Unit}
    {r' : EStateM.Result (Fault Error) Scan Unit}
    (h : Prog.Related (fun _ s _ a => Stopped width height cells s a) (Stopped width height cells) r r') :
    Painted width height cells (Prog.finalState r').pixels (Prog.finalState r).output
      (Prog.finalState r).trace := by
  cases h with
  | ok h => exact h
  | error h => exact h

/--
Whatever the input and the size of the image are, at every point of a run the pixels written so far
are the first ones of the image, each written once, and no pixel was read that was not written
before. The run comes to an end, the buffer is the one before the run with these writes applied, and
the writes and the end of the run do not depend on what the buffer held.
-/
theorem rle16Decompress_writes (input : Bytes) (width height : Nat) (output : Slice UInt16)
    (hcells : width * height ≤ output.cells.length) :
    let run := rle16Decompress input width height output
    let s := Prog.finalState run
    (∀ before, before <+: s.trace → ScanOrdered width height before) ∧
    s.output = replay output.cells (stores s.trace) ∧
    (∀ j, width * height ≤ j → s.output[j]? = output.cells[j]?) ∧
    orders s.trace ≤ input.length ∧
    Prog.outcome run ≠ some .diverge ∧
    ∀ output' : Slice UInt16, width * height ≤ output'.cells.length →
      let run' := rle16Decompress input width height output'
      Prog.outcome run' = Prog.outcome run ∧ stores (Prog.finalState run').trace = stores s.trace := by
  have hrelated := rle16Decompress_related input width height output hcells
  have hpainted := Related.painted hrelated
  refine ⟨fun before => hpainted.scanOrdered, hpainted.replayed, ?_, orders_le input width height output,
    ?_, ?_⟩
  . intro j hj
    apply hpainted.kept
    intro i hi
    have : scanIndex width height i < width * height := scanIndex_lt
      (Nat.lt_of_lt_of_le hi hpainted.length_pixels)
    omega
  . rw [hrelated.outcome_eq]
    exact outcome_scan_ne_diverge input width height
  . intro output' hcells'
    have hrelated' := rle16Decompress_related input width height output' hcells'
    refine ⟨hrelated'.outcome_eq.trans hrelated.outcome_eq.symm, ?_⟩
    rw [(Related.painted hrelated').stores_eq, hpainted.stores_eq]

/--
A run that stops at an undefined order in the second row of the image.
-/
theorem rle16Decompress_writes_undefined :
    let run := rle16Decompress [0x62, 0x34, 0x12, 0x21, 0xFB] 2 2 ⟨[7, 7, 7, 7, 7], by decide⟩
    let s := Prog.finalState run
    (∀ before, before <+: s.trace → ScanOrdered 2 2 before) ∧
    s.output = replay [7, 7, 7, 7, 7] (stores s.trace) ∧
    (∀ j, 2 * 2 ≤ j → s.output[j]? = [7, 7, 7, 7, 7][j]?) ∧
    orders s.trace ≤ 5 ∧
    Prog.outcome run ≠ some .diverge ∧
    ∀ output' : Slice UInt16, 2 * 2 ≤ output'.cells.length →
      let run' := rle16Decompress [0x62, 0x34, 0x12, 0x21, 0xFB] 2 2 output'
      Prog.outcome run' = Prog.outcome run ∧
        stores (Prog.finalState run').trace = stores s.trace :=
  rle16Decompress_writes [0x62, 0x34, 0x12, 0x21, 0xFB] 2 2 ⟨[7, 7, 7, 7, 7], by decide⟩ (by decide)

end Rle16
end Rdp
