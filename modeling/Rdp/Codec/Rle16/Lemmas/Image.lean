import Rdp.Codec.Rle16.Scan
import Mathlib.Tactic.Ring

/-!
The place of a pixel in the image and the relation between the pixels of a `Scan` and the buffer
and events of the decoder.
-/

namespace Rdp
namespace Rle16

open Trace

/--
The cell of the `i`-th pixel: bottom row first, left to right.
-/
def scanIndex (width height i : Nat) : Nat := (height - 1 - i / width) * width + i % width

theorem scanIndex_add {width height row x : Nat} (hx : x < width) :
    scanIndex width height (row * width + x) = (height - 1 - row) * width + x := by
  have hdiv : (row * width + x) / width = row := by
    rw [Nat.mul_comm, Nat.mul_add_div (by omega), Nat.div_eq_of_lt hx, Nat.add_zero]
  have hmod : (row * width + x) % width = x := by
    rw [Nat.mul_comm, Nat.mul_add_mod, Nat.mod_eq_of_lt hx]
  rw [scanIndex, hdiv, hmod]

theorem div_lt_of_lt_mul {width height i : Nat} (hi : i < width * height) : i / width < height := by
  exact Nat.div_lt_of_lt_mul hi

theorem scanIndex_lt {width height i : Nat} (hi : i < width * height) :
    scanIndex width height i < width * height := by
  have hw : 0 < width := by
    by_contra hw
    simp [Nat.eq_zero_of_not_pos hw] at hi
  have hdiv := div_lt_of_lt_mul hi
  have hmod := Nat.mod_lt i hw
  have hle : (height - 1 - i / width) + 1 ≤ height := by
    generalize i / width = row at hdiv
    omega
  calc
    scanIndex width height i < (height - 1 - i / width) * width + width := by
      rw [scanIndex]
      omega
    _ = ((height - 1 - i / width) + 1) * width := by ring
    _ ≤ height * width := Nat.mul_le_mul_right width hle
    _ = width * height := Nat.mul_comm ..

theorem scanIndex_inj {width height i j : Nat} (hi : i < width * height) (hj : j < width * height)
    (h : scanIndex width height i = scanIndex width height j) : i = j := by
  have hw : 0 < width := by
    by_contra hw
    simp [Nat.eq_zero_of_not_pos hw] at hi
  have hi' := div_lt_of_lt_mul hi
  have hj' := div_lt_of_lt_mul hj
  have hmod : i % width = j % width := by
    have := congrArg (· % width) h
    simpa [scanIndex, Nat.mul_add_mod'] using this
  have hrow : height - 1 - i / width = height - 1 - j / width := by
    rw [scanIndex, scanIndex, hmod] at h
    exact Nat.eq_of_mul_eq_mul_right hw (by omega)
  have hdiv : i / width = j / width := by omega
  rw [← Nat.div_add_mod i width, ← Nat.div_add_mod j width, hdiv, hmod]

def placed (width height : Nat) (pixels : List UInt16) : List (Nat × UInt16) :=
  pixels.mapIdx fun i v => (scanIndex width height i, v)

theorem placed_concat (width height : Nat) (pixels : List UInt16) (v : UInt16) :
    placed width height (pixels ++ [v]) =
      placed width height pixels ++ [(scanIndex width height pixels.length, v)] := by
  simp [placed, List.mapIdx_append]

structure Painted (width height : Nat) (cells pixels output : List UInt16) (trace : Trace UInt16) :
    Prop where
  length_output : output.length = cells.length
  length_pixels : pixels.length ≤ width * height
  written : ∀ i (hi : i < pixels.length), output[scanIndex width height i]? = some pixels[i]
  kept : ∀ j, (∀ i, i < pixels.length → scanIndex width height i ≠ j) → output[j]? = cells[j]?
  stores_eq : stores trace = placed width height pixels
  replayed : output = replay cells (stores trace)
  loads : LoadsWritten trace

namespace Painted

variable {width height : Nat} {cells pixels output : List UInt16} {trace : Trace UInt16}

theorem init : Painted width height cells [] cells [] where
  length_output := rfl
  length_pixels := Nat.zero_le _
  written := by simp
  kept := by simp
  stores_eq := rfl
  replayed := rfl
  loads := .nil

theorem order (h : Painted width height cells pixels output trace) :
    Painted width height cells pixels output (trace ++ [Access.mark]) :=
  { h with
    stores_eq := by simp [h.stores_eq]
    replayed := by
      rw [stores_mark]
      exact h.replayed
    loads := h.loads.concat (by simp) }

theorem mem_trace (h : Painted width height cells pixels output trace) {i : Nat}
    (hi : i < pixels.length) : Access.store (scanIndex width height i) pixels[i] ∈ trace := by
  have hmem : (scanIndex width height i, pixels[i]) ∈ stores trace := by
    rw [h.stores_eq, placed, List.mem_mapIdx]
    exact ⟨i, hi, rfl⟩
  exact mem_stores.mp hmem

theorem load (h : Painted width height cells pixels output trace) {i : Nat}
    (hi : i < pixels.length) :
    Painted width height cells pixels output
      (trace ++ [Access.load (scanIndex width height i)]) :=
  { h with
    stores_eq := by simp [h.stores_eq]
    replayed := by
      rw [stores_load]
      exact h.replayed
    loads := by
      apply h.loads.concat
      intro j hj
      simp only [Access.load.injEq] at hj
      subst hj
      exact ⟨_, h.mem_trace hi⟩ }

theorem push (h : Painted width height cells pixels output trace) (v : UInt16)
    (hpixels : pixels.length < width * height) (hcells : width * height ≤ cells.length) :
    Painted width height cells (pixels ++ [v])
      (output.set (scanIndex width height pixels.length) v)
      (trace ++ [Access.store (scanIndex width height pixels.length) v]) where
  length_output := by simp [h.length_output]
  length_pixels := by
    simp only [List.length_append, List.length_cons, List.length_nil]
    omega
  written := by
    intro i hi
    simp only [List.length_append, List.length_cons, List.length_nil] at hi
    rw [List.getElem?_set]
    by_cases hlast : i = pixels.length
    . subst hlast
      have := scanIndex_lt hpixels
      simp [h.length_output]
      omega
    . have hi' : i < pixels.length := by omega
      have hne : scanIndex width height pixels.length ≠ scanIndex width height i := by
        intro heq
        have := scanIndex_inj hpixels (by omega) heq
        omega
      simp [hne, h.written i hi', List.getElem_append_left hi']
  kept := by
    intro j hj
    have hne : scanIndex width height pixels.length ≠ j := hj pixels.length (by simp)
    rw [List.getElem?_set_ne hne]
    apply h.kept
    intro i hi
    apply hj
    simp only [List.length_append, List.length_cons, List.length_nil]
    omega
  stores_eq := by rw [placed_concat, stores_store, h.stores_eq]
  replayed := by
    rw [stores_store, replay, List.foldl_append, h.replayed]
    rfl
  loads := h.loads.concat (by simp)

end Painted

end Rle16
end Rdp
