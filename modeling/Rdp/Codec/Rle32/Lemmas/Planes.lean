import Rdp.Codec.Rle32.Lemmas.Rows

/-!
The planes are decoded one after the other.
-/

namespace Rdp
namespace Rle32

open Trace

variable {width height : Nat}

def processPlanes (width height : Nat) (offsets : List Nat) : Prog Error State Unit :=
  match offsets with
  | [] => pure ()
  | offset :: offsets => do
    processPlane width height offset
    processPlanes width height offsets

theorem decompress_eq (width height : Nat) :
    decompress width height = (do
      let header ← cursor Cursor.readU8
      if header != 0x10 then
        Prog.fail (.new .unexpectedType "Bad header")
      processPlanes width height [3, 2, 1, 0]) := by
  simp [decompress, processPlanes]

theorem run_decompress_nil (output : Slice UInt8) :
    rle32Decompress [] width height output =
      .error (.error (.io .unexpectedEof)) (init [] output) := rfl

theorem run_decompress_bad (output : Slice UInt8) {header : UInt8} (hheader : header ≠ 0x10)
    (rest : Bytes) :
    rle32Decompress (header :: rest) width height output =
      .error (.error (.new .unexpectedType "Bad header")) { init rest output with input := rest } := by
  have hne : (header != 0x10) = true := by simpa using hheader
  simp only [rle32Decompress, decompress_eq, EStateM.run_bind, run_cursor, init,
    Cursor.run_readU8_cons, hne, if_true, Prog.run_fail]

theorem run_decompress_cons (output : Slice UInt8) (rest : Bytes) :
    rle32Decompress (0x10 :: rest) width height output =
      (processPlanes width height [3, 2, 1, 0]).run (init rest output) := by
  simp only [rle32Decompress, decompress_eq, EStateM.run_bind, run_cursor, init,
    Cursor.run_readU8_cons]
  rfl

structure Ready (width height : Nat) (s : State) : Prop where
  width_pos : 0 < width
  height_pos : 0 < height
  size_lt : 4 * (width * height) < 2 ^ 32
  length_output : s.output.length = 4 * (width * height)
  loads : LoadsWritten s.trace

theorem Ready.fits {s : State} (h : Ready width height s) {offset : Nat} (hoffset : offset < 4) :
    Fits width height offset s :=
  ⟨h.width_pos, h.height_pos, hoffset, h.size_lt, h.length_output⟩

theorem Ready.init {input : Bytes} {output : Slice UInt8} (hwidth : 0 < width) (hheight : 0 < height)
    (hsize : 4 * (width * height) < 2 ^ 32) (hlength : output.cells.length = 4 * (width * height)) :
    Ready width height (init input output) :=
  ⟨hwidth, hheight, hsize, hlength, .nil⟩

theorem Ready.done {s s' : State} {a : Scan} {offset : Nat} (h : Ready width height s)
    (hdone : PlaneDone width height offset s s' a) : Ready width height s' :=
  ⟨h.width_pos, h.height_pos, h.size_lt, hdone.image.length_output.trans h.length_output,
    hdone.image.loads⟩

def written (s : State) : List Nat := (stores s.trace).map Prod.fst

theorem written_front (offsets : List Nat) (hlt : ∀ offset ∈ offsets, offset < 4) {s : State}
    (hready : Ready width height s) :
    written s <+: written (Prog.finalState ((processPlanes width height offsets).run s)) := by
  induction offsets generalizing s with
  | nil => exact List.prefix_rfl
  | cons offset offsets ih =>
    have hrelated := processPlane_done (hready.fits (hlt offset List.mem_cons_self)) hready.loads
    rw [processPlanes, EStateM.run_bind]
    generalize (processPlane width height offset).run s = r at hrelated
    generalize (scanPlane width height).run (scanInit s.input width height) = r' at hrelated
    cases hrelated with
    | @ok _ s₁ _ a hdone =>
      refine List.IsPrefix.trans ?_
        (ih (fun o ho => hlt o (List.mem_cons_of_mem _ ho)) (hready.done hdone))
      rw [written, written, hdone.image.cells_eq]
      exact List.prefix_append _ _
    | @error e s₁ a himage =>
      have himage : Image offset s s₁.output s₁.trace a.cells := himage
      rw [Prog.finalState_error, written, written, himage.cells_eq]
      exact List.prefix_append _ _

end Rle32
end Rdp
