import Rdp.Codec.Rle32.Lemmas.Planes
import Rdp.Lib.Local

/-!
What the pixels of a decoded image depend on.
-/

namespace Rdp
namespace Rle32

open Trace
open Prog (Local Faults Moves)

variable {width height : Nat}

section Local

def setInput (input : Bytes) (a : Scan) : Scan := { a with input }

abbrev ScanLocal (x : Prog Error Scan α) : Prop := Local Scan.input setInput x

theorem readU8_local : Local id (fun rest _ => rest) Cursor.readU8 := by
  intro input v rest h
  cases input with
  | nil => cases h
  | cons b input =>
    cases h
    exact ⟨[v], rfl, fun _ => rfl⟩

theorem readCode_local : Local id (fun rest _ => rest) readCode := by
  apply readU8_local.bind
  intro code
  dsimp only
  split <;> exact Local.pure _

theorem scanCursor_local {x : Reader α} (hx : Local id (fun rest _ => rest) x) :
    ScanLocal (scanCursor x) :=
  hx.zoom (fun _ _ => rfl) fun _ _ _ => rfl

theorem scanPixel_local : ScanLocal (scanPixel width) := by
  intro a u a' h
  simp only [scanPixel, EStateM.run_bind, EStateM.run_get] at h
  cases hvalue : a.value width with
  | none =>
    rw [hvalue] at h
    cases h
  | some v =>
    rw [hvalue] at h
    cases h
    refine ⟨[], rfl, fun rest => ?_⟩
    have hvalue' : (setInput rest a).value width = some v := hvalue
    simp only [scanPixel, EStateM.run_bind, EStateM.run_get, List.nil_append, hvalue']
    rfl

theorem scanRaw_local : ScanLocal (scanRaw width) := by
  refine (scanCursor_local readU8_local).bind fun last => ?_
  refine Local.bind ?_ fun _ => scanPixel_local
  exact Local.modify (fun _ => rfl) fun _ _ => rfl

theorem scanSegment_local : ScanLocal (scanSegment width) := by
  refine (scanCursor_local readCode_local).bind fun code => ?_
  exact (scanRaw_local.times _).bind fun _ => scanPixel_local.times _

theorem rowLeft_local : ScanLocal (rowLeft width) :=
  Local.get_bind (fun _ _ => rfl) fun _ => Local.pure _

theorem readU8_faults : Faults (· ≠ .diverge) Cursor.readU8 := by
  intro input e rest h
  cases input with
  | nil =>
    cases h
    simp
  | cons b input => cases h

theorem scanPixel_faults : Faults (· ≠ .diverge) (scanPixel width) := by
  intro a e a' h
  simp only [scanPixel, EStateM.run_bind, EStateM.run_get] at h
  cases hvalue : a.value width with
  | none =>
    rw [hvalue] at h
    cases h
    simp
  | some v =>
    rw [hvalue] at h
    cases h

theorem scanSegment_faults : Faults (· ≠ .diverge) (scanSegment width) := by
  refine Faults.bind (Faults.zoom ?_) fun code => ?_
  . refine readU8_faults.bind fun code => ?_
    dsimp only
    split <;> exact Faults.pure _
  . refine Faults.bind (Faults.times ?_ _) fun _ => scanPixel_faults.times _
    refine Faults.bind (Faults.zoom readU8_faults) fun last => ?_
    exact Faults.bind (Faults.modify _) fun _ => scanPixel_faults

theorem scanSegment_consumes {a a' : Scan} (h : (scanSegment width).run a = .ok () a') :
    a'.input.length < a.input.length := by
  obtain ⟨part, hpart, hrest⟩ := scanSegment_local _ _ _ h
  cases part with
  | nil =>
    have hrun := hrest []
    rw [run_scanSegment_nil rfl] at hrun
    cases hrun
  | cons b part =>
    rw [hpart, List.length_append, List.length_cons]
    omega

theorem scanSegments_local : ScanLocal (scanSegments width) :=
  Local.whileLoop_length (b := fun a => decide (a.done.length < width)) (fun _ => rfl) rowLeft_local
    scanSegment_local scanSegment_faults fun _ _ => scanSegment_consumes

theorem scanPlane_local : ScanLocal (scanPlane width height) := by
  apply Local.times
  refine Local.bind (Local.modify (fun _ => rfl) fun _ _ => rfl) fun _ => ?_
  exact scanSegments_local.bind fun _ => Local.modify (fun _ => rfl) fun _ _ => rfl

theorem channel_of_run {input : Bytes} {a : Scan}
    (h : (scanPlane width height).run (scanInit input width height) = .ok () a) :
    ∃ part, input = part ++ a.input ∧ channel width height part = some a.known := by
  obtain ⟨part, hpart, hrest⟩ := scanPlane_local _ _ _ h
  refine ⟨part, hpart, ?_⟩
  have hrun := hrest []
  rw [List.append_nil] at hrun
  have hrun : (scanPlane width height).run (scanInit part width height) = .ok () (setInput [] a) := hrun
  rw [channel, hrun]
  rfl

end Local

section Planes

/--
Two runs over the same input, from `s` to `t` and from `s'` to `t'`, have decoded the planes at
`offsets`.
-/
structure Decoded (width height : Nat) (offsets : List Nat) (s s' t t' : State) : Prop where
  loads : LoadsWritten t.trace
  same : ∀ offset ∈ offsets, ∀ p, p < width * height →
    t'.output[cell offset p]? = t.output[cell offset p]?
  grown : written s <+: written t
  stored : ∀ offset ∈ offsets, ∀ p, p < width * height → cell offset p ∈ written t
  kept : ∀ j, j % 4 ∉ offsets → t.output[j]? = s.output[j]?
  kept' : ∀ j, j % 4 ∉ offsets → t'.output[j]? = s'.output[j]?
  length_output : t.output.length = s.output.length
  length_output' : t'.output.length = s'.output.length
  parts : ∃ parts rest, parts.length = offsets.length ∧ s.input = parts.flatten ++ rest ∧
    ∀ q ∈ offsets.zip parts, ∃ pixels, channel width height q.2 = some pixels ∧
      ∀ p, p < width * height → t.output[cell q.1 p]? = pixels[p]?

theorem Decoded.nil {s s' : State} (hloads : LoadsWritten s.trace) :
    Decoded width height [] s s' s s' where
  loads := hloads
  same := by simp
  grown := List.prefix_rfl
  stored := by simp
  kept _ _ := rfl
  kept' _ _ := rfl
  length_output := rfl
  length_output' := rfl
  parts := ⟨[], s.input, rfl, rfl, by simp⟩

theorem Decoded.cons {offset : Nat} {offsets : List Nat} {s s' s₁ s₁' t t' : State} {a : Scan}
    (hoffset : offset < 4) (hfresh : offset ∉ offsets)
    (hscan : (scanPlane width height).run (scanInit s.input width height) = .ok () a)
    (hdone : PlaneDone width height offset s s₁ a) (hdone' : PlaneDone width height offset s' s₁' a)
    (h : Decoded width height offsets s₁ s₁' t t') :
    Decoded width height (offset :: offsets) s s' t t' := by
  have hmod : ∀ p, cell offset p % 4 ∉ offsets := by
    intro p
    rw [cell_mod hoffset]
    exact hfresh
  have hgrown : written s <+: written s₁ := by
    rw [written, written, hdone.image.cells_eq]
    exact List.prefix_append _ _
  have hpixels : ∀ p, p < width * height → t.output[cell offset p]? = a.known[p]? := by
    intro p hp
    rw [h.kept _ (hmod p), hdone.known p hp]
  constructor
  . exact h.loads
  . intro o ho p hp
    rcases List.mem_cons.mp ho with rfl | ho
    . -- Both runs scan the same plane, so its pixels are those of the scan in both buffers.
      rw [hpixels p hp, h.kept' _ (hmod p), hdone'.known p hp]
    . exact h.same o ho p hp
  . exact hgrown.trans h.grown
  . intro o ho p hp
    rcases List.mem_cons.mp ho with rfl | ho
    . apply h.grown.mem
      rw [written, hdone.image.cells_eq]
      exact List.mem_append_right _ (List.mem_map_of_mem (hdone.covered p hp))
    . exact h.stored o ho p hp
  . intro j hj
    rw [List.mem_cons, not_or] at hj
    rw [h.kept j hj.2, hdone.image.kept j hj.1]
  . intro j hj
    rw [List.mem_cons, not_or] at hj
    rw [h.kept' j hj.2, hdone'.image.kept j hj.1]
  . exact h.length_output.trans hdone.image.length_output
  . exact h.length_output'.trans hdone'.image.length_output
  . obtain ⟨parts, rest, hlength, hsplit, hparts⟩ := h.parts
    obtain ⟨part, hpart, hchannel⟩ := channel_of_run hscan
    refine ⟨part :: parts, rest, ?_, ?_, ?_⟩
    . rw [List.length_cons, List.length_cons, hlength]
    . rw [List.flatten_cons, List.append_assoc, ← hsplit, hdone.input]
      exact hpart
    . intro q hq
      rcases List.mem_cons.mp hq with rfl | hq
      . exact ⟨a.known, hchannel, hpixels⟩
      . exact hparts q hq

theorem processPlanes_decoded (offsets : List Nat) (hoffsets : offsets.Nodup)
    (hlt : ∀ offset ∈ offsets, offset < 4) {s s' : State} (hready : Ready width height s)
    (hready' : Ready width height s') (hinput : s'.input = s.input) :
    Prog.Related (fun _ t _ t' => Decoded width height offsets s s' t t')
      (fun t _ => LoadsWritten t.trace) ((processPlanes width height offsets).run s)
      ((processPlanes width height offsets).run s') := by
  induction offsets generalizing s s' with
  | nil =>
    apply Prog.Related.ok
    exact Decoded.nil hready.loads
  | cons offset offsets ih =>
    have hoffset := hlt offset List.mem_cons_self
    have hlt' : ∀ o ∈ offsets, o < 4 := fun o ho => hlt o (List.mem_cons_of_mem _ ho)
    rw [List.nodup_cons] at hoffsets
    have hrelated := processPlane_done (hready.fits hoffset) hready.loads
    have hrelated' := processPlane_done (hready'.fits hoffset) hready'.loads
    rw [hinput] at hrelated'
    simp only [processPlanes]
    cases hscan : (scanPlane width height).run (scanInit s.input width height) with
    | error e a =>
      rw [hscan] at hrelated hrelated'
      obtain ⟨s₁, hrun, himage⟩ := hrelated.of_error
      obtain ⟨s₁', hrun', _⟩ := hrelated'.of_error
      rw [Prog.run_bind_of_error hrun, Prog.run_bind_of_error hrun']
      exact .error himage.loads
    | ok _ a =>
      rw [hscan] at hrelated hrelated'
      obtain ⟨_, s₁, hrun, hdone⟩ := hrelated.of_ok
      obtain ⟨_, s₁', hrun', hdone'⟩ := hrelated'.of_ok
      rw [Prog.run_bind_of_ok hrun, Prog.run_bind_of_ok hrun']
      have hih := ih hoffsets.2 hlt' (hready.done hdone) (hready'.done hdone')
        (hdone'.input.trans hdone.input.symm)
      exact hih.imp (fun _ _ _ _ h => h.cons hoffset hoffsets.1 hscan hdone hdone') fun _ _ h => h

end Planes

/--
The call does not depend on what the buffer held: it ends in the same way for any two buffers, with
the same pixels. Every byte is written, each plane depends on its own part of the input only, and
nothing is read that was not written before.
-/
theorem rle32Decompress_determined (input : Bytes) (width height : Nat) (output output' : Slice UInt8)
    (hwidth : 0 < width) (hheight : 0 < height) (hsize : 4 * (width * height) < 2 ^ 32)
    (hlength : output.cells.length = 4 * (width * height))
    (hlength' : output'.cells.length = 4 * (width * height)) :
    let run := rle32Decompress input width height output
    let run' := rle32Decompress input width height output'
    Prog.outcome run' = Prog.outcome run ∧
    LoadsWritten (Prog.finalState run).trace ∧
    ∀ s, run = .ok () s →
      (∃ s', run' = .ok () s' ∧ s'.output = s.output) ∧
      (∀ j, j < 4 * (width * height) → ∃ v, Access.store j v ∈ s.trace) ∧
      ∃ alpha red green blue rest, input = 0x10 :: (alpha ++ (red ++ (green ++ (blue ++ rest)))) ∧
        ∀ part ∈ [(3, alpha), (2, red), (1, green), (0, blue)],
          ∃ pixels, channel width height part.2 = some pixels ∧
            ∀ p, p < width * height → s.output[4 * p + part.1]? = pixels[p]? := by
  cases input with
  | nil =>
    rw [run_decompress_nil, run_decompress_nil]
    exact ⟨rfl, .nil, by simp⟩
  | cons header rest =>
    by_cases hheader : header = 0x10
    swap
    . rw [run_decompress_bad output hheader, run_decompress_bad output' hheader]
      exact ⟨rfl, .nil, by simp⟩
    subst hheader
    rw [run_decompress_cons, run_decompress_cons]
    have hrelated := processPlanes_decoded [3, 2, 1, 0] (by decide) (by decide)
      (Ready.init hwidth hheight hsize hlength) (Ready.init hwidth hheight hsize hlength')
      (show (init rest output').input = (init rest output).input from rfl)
    generalize (processPlanes width height [3, 2, 1, 0]).run (init rest output) = r at hrelated
    generalize (processPlanes width height [3, 2, 1, 0]).run (init rest output') = r' at hrelated
    cases hrelated with
    | error h => exact ⟨rfl, h, by simp⟩
    | @ok _ t _ t' h =>
      refine ⟨rfl, h.loads, ?_⟩
      rintro s ⟨⟩
      -- The four planes share out the bytes of the buffer.
      have hcell : ∀ j, j % 4 ∈ [3, 2, 1, 0] ∧ cell (j % 4) (j / 4) = j := by
        intro j
        have := Nat.mod_lt j (show 4 > 0 by decide)
        refine ⟨?_, ?_⟩
        . simp only [List.mem_cons, List.not_mem_nil, or_false]
          omega
        . rw [cell]
          omega
      have hlength_t : t.output.length = 4 * (width * height) := h.length_output.trans hlength
      have hlength_t' : t'.output.length = 4 * (width * height) := h.length_output'.trans hlength'
      refine ⟨⟨t', rfl, ?_⟩, ?_, ?_⟩
      . apply List.ext_getElem?
        intro j
        by_cases hj : j < 4 * (width * height)
        . have hsame := h.same _ (hcell j).1 (j / 4) (by omega)
          rwa [(hcell j).2] at hsame
        . rw [List.getElem?_eq_none (by omega), List.getElem?_eq_none (by omega)]
      . intro j hj
        have hstored := h.stored _ (hcell j).1 (j / 4) (by omega)
        rw [(hcell j).2, written, List.mem_map] at hstored
        obtain ⟨⟨i, v⟩, hmem, rfl⟩ := hstored
        exact ⟨v, mem_stores.mp hmem⟩
      . obtain ⟨parts, rest', hparts, hinput, hchannels⟩ := h.parts
        obtain ⟨alpha, red, green, blue, rfl⟩ := List.length_eq_four.mp hparts
        refine ⟨alpha, red, green, blue, rest', ?_, ?_⟩
        . have hinput : rest = [alpha, red, green, blue].flatten ++ rest' := hinput
          rw [hinput]
          simp
        . intro part hpart
          obtain ⟨pixels, hchannel, hpixels⟩ := hchannels part hpart
          refine ⟨pixels, hchannel, fun p hp => ?_⟩
          rw [← hpixels p hp, cell, Nat.add_comm]

/--
A third row that is too long.
-/
theorem rle32Decompress_determined_overrun :
    let input : Bytes := [0x10, 0x10, 1, 0x10, 4, 0x20, 4, 10, 0x10, 0, 0x10, 0, 0x10, 0, 0x10, 0,
      0x10, 0, 0x10, 0, 0x10, 0, 0x10, 0, 0x10, 0]
    let run := rle32Decompress input 1 3 ⟨List.replicate 12 0, by decide⟩
    let run' := rle32Decompress input 1 3 ⟨List.replicate 12 7, by decide⟩
    Prog.outcome run' = Prog.outcome run ∧
    LoadsWritten (Prog.finalState run).trace ∧
    ∀ s, run = .ok () s →
      (∃ s', run' = .ok () s' ∧ s'.output = s.output) ∧
      (∀ j, j < 4 * (1 * 3) → ∃ v, Access.store j v ∈ s.trace) ∧
      ∃ alpha red green blue rest, input = 0x10 :: (alpha ++ (red ++ (green ++ (blue ++ rest)))) ∧
        ∀ part ∈ [(3, alpha), (2, red), (1, green), (0, blue)],
          ∃ pixels, channel 1 3 part.2 = some pixels ∧
            ∀ p, p < 1 * 3 → s.output[4 * p + part.1]? = pixels[p]? :=
  rle32Decompress_determined _ 1 3 ⟨List.replicate 12 0, by decide⟩ ⟨List.replicate 12 7, by decide⟩
    (by decide) (by decide) (by decide) (by decide) (by decide)

end Rle32
end Rdp
