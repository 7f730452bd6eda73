import Rdp.Codec.Rle16.Lemmas.Stop

/-!
The inputs that make the decoder abort.
-/

namespace Rdp
namespace Rle16

open Prog (Panics not_panics_error not_panics_none)

/--
After `n` pixels, the input leads the decoder to an undefined order or to a dithered run of 65535
pairs that has a pixel to paint. The orders before it are complete and fit into the image.
-/
inductive Hostile (width height : Nat) : Nat → Bytes → Prop where
  | undefined {n input op count rest} (h : header input = some (op, count, rest))
      (hop : UndefinedOpcode op) (hcount : 0 < count)
      (hroom : n < width * height ∨ width = 0 ∧ 0 < height) : Hostile width height n input
  | overflow {n input c1 c2 rest} (h : parseOrder input = some (⟨.dithered c1 c2, 65535⟩, rest))
      (hroom : n < width * height) : Hostile width height n input
  | skip {n input op rest} (h : header input = some (op, 0, rest)) (hop : UndefinedOpcode op)
      (hrest : Hostile width height n rest) : Hostile width height n input
  | next {n input order rest} (h : parseOrder input = some (order, rest))
      (hroom : n + order.size ≤ width * height)
      (hrest : Hostile width height (n + order.size) rest) : Hostile width height n input

variable {width height : Nat} {n : Nat} {input : Bytes}

theorem Hostile.header_ne_none (h : Hostile width height n input) : header input ≠ none := by
  cases h with
  | undefined h => simp [h]
  | overflow h =>
    obtain ⟨_, _, _, hheader⟩ := header_of_parseOrder h
    simp [hheader]
  | skip h => simp [h]
  | next h =>
    obtain ⟨_, _, _, hheader⟩ := header_of_parseOrder h
    simp [hheader]

theorem hostile_undefined_iff {op : UInt8} {count : Nat} {rest : Bytes}
    (hheader : header input = some (op, count, rest)) (hop : UndefinedOpcode op) :
    Hostile width height n input ↔
      if count = 0 then
        Hostile width height n rest
      else
        n < width * height ∨ width = 0 ∧ 0 < height := by
  have hparse := parseOrder_undefined hheader hop
  constructor
  . intro h
    cases h with
    | undefined h hop hcount hroom =>
      rw [hheader] at h
      cases h
      rw [if_neg (by omega)]
      exact hroom
    | overflow h => simp [hparse] at h
    | skip h hop hrest =>
      rw [hheader] at h
      cases h
      rw [if_pos rfl]
      exact hrest
    | next h => simp [hparse] at h
  . intro h
    split at h
    next hcount =>
      subst hcount
      exact .skip hheader hop h
    next hcount => exact .undefined hheader hop (Nat.pos_of_ne_zero hcount) h

theorem hostile_incomplete {op : UInt8} {count : Nat} {rest : Bytes}
    (hheader : header input = some (op, count, rest)) (hop : ¬ UndefinedOpcode op)
    (hparse : parseOrder input = none) : ¬ Hostile width height n input := by
  intro h
  cases h with
  | undefined h hop' =>
    rw [hheader] at h
    cases h
    exact hop hop'
  | overflow h => simp [hparse] at h
  | skip h hop' =>
    rw [hheader] at h
    cases h
    exact hop hop'
  | next h => simp [hparse] at h

theorem hostile_complete_iff {order : Order} {rest : Bytes}
    (hparse : parseOrder input = some (order, rest)) :
    Hostile width height n input ↔
      ((∃ c1 c2, order = ⟨.dithered c1 c2, 65535⟩) ∧ n < width * height) ∨
      (n + order.size ≤ width * height ∧ Hostile width height (n + order.size) rest) := by
  constructor
  . intro h
    cases h with
    | undefined h hop => simp [parseOrder_undefined h hop] at hparse
    | overflow h hroom =>
      rw [hparse] at h
      cases h
      exact Or.inl ⟨⟨_, _, rfl⟩, hroom⟩
    | skip h hop => simp [parseOrder_undefined h hop] at hparse
    | next h hroom hrest =>
      rw [hparse] at h
      cases h
      exact Or.inr ⟨hroom, hrest⟩
  . rintro (⟨⟨c1, c2, rfl⟩, hroom⟩ | ⟨hroom, hrest⟩)
    . exact .overflow hparse hroom
    . exact .next hparse hroom hrest

theorem hostile_nil : ¬ Hostile width height n [] := fun h => h.header_ne_none rfl

theorem run_scan_nil (fuel : Nat) {a : Scan} (hinput : a.input = []) :
    (Prog.whileLoop fuel inputLeft (scanOrder width height)).run a = .ok () a :=
  Prog.run_whileLoop_of_false _ _ _ (by simp [inputLeft, hinput])

section Turn

variable {op : UInt8} {count : Nat} {rest : Bytes} {a : Scan} {loop : Prog Error Scan Unit}

-- The orders that are left after the next one, which is what the loop runs on in the next turn.
variable
  (hloop : ∀ {a'}, (scanOrder width height).run a = .ok () a' → a'.bicolour = false →
    a'.pixels.length ≤ width * height →
    (Panics (Prog.outcome (loop.run a')) ↔ Hostile width height a'.pixels.length a'.input))
  (hbi : a.bicolour = false) (hle : a.pixels.length ≤ width * height)

theorem not_panics_of_error (h : ∃ e a', (scanOrder width height).run a = .error (.error e) a') :
    ¬ Panics (Prog.outcome ((do scanOrder width height; loop : Prog Error Scan Unit).run a)) := by
  obtain ⟨e, a', hrun⟩ := h
  rw [Prog.run_bind_of_error hrun]
  exact not_panics_error

theorem panics_of_panic {msg : String}
    (h : ∃ a', (scanOrder width height).run a = .error (.panic msg) a') :
    Panics (Prog.outcome ((do scanOrder width height; loop : Prog Error Scan Unit).run a)) := by
  obtain ⟨a', hrun⟩ := h
  rw [Prog.run_bind_of_error hrun]
  exact ⟨msg, rfl⟩

include hloop hbi hle in
theorem turn_undefined_panics_iff (hheader : header a.input = some (op, count, rest))
    (hop : UndefinedOpcode op) :
    Panics (Prog.outcome ((do scanOrder width height; loop : Prog Error Scan Unit).run a)) ↔
      Hostile width height a.pixels.length a.input := by
  rw [hostile_undefined_iff hheader hop]
  split
  next hcount =>
    -- An order of no pixels has nothing to paint, and the next header follows it.
    subst hcount
    have hrun := run_scanOrder_undefined width height hheader hop
    rw [Prog.run_bind_of_ok hrun]
    exact hloop hrun hbi hle
  next hcount =>
    have hpos := Nat.pos_of_ne_zero hcount
    by_cases hroom : a.pixels.length < width * height ∨ width = 0 ∧ 0 < height
    . have hpanic := run_scanOrder_undefined_panic hheader hop hpos hroom
      exact iff_of_true (panics_of_panic hpanic) hroom
    . have herror := run_scanOrder_undefined_full hheader hop hpos hroom
      exact iff_of_false (not_panics_of_error herror) hroom

include hbi in
theorem turn_overflow_panics_iff {c1 c2 : UInt16}
    (hparse : parseOrder a.input = some (⟨.dithered c1 c2, 65535⟩, rest)) :
    Panics (Prog.outcome ((do scanOrder width height; loop : Prog Error Scan Unit).run a)) ↔
      Hostile width height a.pixels.length a.input := by
  rw [hostile_complete_iff hparse]
  have hrun := run_scanOrder_overflow width height hparse hbi
  split at hrun
  next hroom => exact iff_of_true (panics_of_panic hrun) (Or.inl ⟨⟨c1, c2, rfl⟩, hroom⟩)
  next hroom =>
    refine iff_of_false (not_panics_of_error hrun) ?_
    rintro (⟨_, h⟩ | ⟨h, _⟩)
    . exact hroom h
    . simp only [Order.size] at h
      omega

theorem dithered_length_le {order : Order} (hparse : parseOrder a.input = some (order, rest))
    (hshort : ¬ ∃ c1 c2, order = ⟨.dithered c1 c2, 65535⟩) {c1 c2 : UInt16}
    (hkind : order.kind = .dithered c1 c2) : order.length ≤ 65534 := by
  obtain ⟨kind, length⟩ := order
  simp only at hkind ⊢
  subst hkind
  obtain ⟨_, _, hheader, _⟩ := parseOrder_dithered hparse
  have hlt := header_count_lt hheader
  have hne : length ≠ 65535 := by
    rintro rfl
    exact hshort ⟨c1, c2, rfl⟩
  omega

include hloop hbi hle in
theorem turn_complete_panics_iff {order : Order} (hparse : parseOrder a.input = some (order, rest)) :
    Panics (Prog.outcome ((do scanOrder width height; loop : Prog Error Scan Unit).run a)) ↔
      Hostile width height a.pixels.length a.input := by
  by_cases hlong : ∃ c1 c2, order = ⟨.dithered c1 c2, 65535⟩
  . obtain ⟨c1, c2, rfl⟩ := hlong
    exact turn_overflow_panics_iff hbi hparse
  have hcount : ∀ c1 c2, order.kind = .dithered c1 c2 → order.length ≤ 65534 :=
    fun _ _ hkind => dithered_length_le hparse hlong hkind
  rw [hostile_complete_iff hparse, or_iff_right (fun h => hlong h.1)]
  by_cases hroom : a.pixels.length + order.size ≤ width * height
  . obtain ⟨a', hrun, hcompleted⟩ := run_scanOrder_fits hparse hbi hcount hroom
    have hlength : a'.pixels.length = a.pixels.length + order.size := by
      rw [hcompleted.pixels, length_appendPixels]
    rw [and_iff_right hroom, ← hlength, ← hcompleted.input, Prog.run_bind_of_ok hrun]
    exact hloop hrun hcompleted.bicolour (by omega)
  . -- The order paints up to the last pixel, and the row it wants next is not there.
    have herror := run_scanOrder_full hparse hbi hcount hle (Nat.lt_of_not_le hroom)
    obtain ⟨a', hrun⟩ := herror
    exact iff_of_false (not_panics_of_error ⟨_, a', hrun⟩) fun h => hroom h.1

end Turn

variable (width height) in
theorem scan_panics_iff (fuel : Nat) {a : Scan} (hbi : a.bicolour = false)
    (hle : a.pixels.length ≤ width * height) (hfuel : a.input.length ≤ fuel) :
    Panics (Prog.outcome ((Prog.whileLoop fuel inputLeft (scanOrder width height)).run a)) ↔
      Hostile width height a.pixels.length a.input := by
  induction fuel generalizing a with
  | zero =>
    have hinput : a.input = [] := List.length_eq_zero_iff.mp (by omega)
    rw [run_scan_nil 0 hinput, hinput]
    exact iff_of_false not_panics_none hostile_nil
  | succ fuel ih =>
    by_cases hinput : a.input = []
    . rw [run_scan_nil (fuel + 1) hinput, hinput]
      exact iff_of_false not_panics_none hostile_nil
    have hmore : inputLeft.run a = .ok true a := by
      simp [inputLeft, hinput]
    -- Every order takes its header, so the fuel lasts for the orders after it.
    have hloop : ∀ {a'}, (scanOrder width height).run a = .ok () a' → a'.bicolour = false →
        a'.pixels.length ≤ width * height →
        (Panics (Prog.outcome ((Prog.whileLoop fuel inputLeft (scanOrder width height)).run a')) ↔
          Hostile width height a'.pixels.length a'.input) := by
      intro a' hrun hbi' hle'
      have := scanOrder_input_lt hrun
      exact ih hbi' hle' (by omega)
    rw [Prog.run_whileLoop_of_true _ _ _ hmore]
    cases hheader : header a.input with
    | none =>
      exact iff_of_false (not_panics_of_error (run_scanOrder_header_none hheader)) fun h =>
        h.header_ne_none hheader
    | some run =>
      obtain ⟨op, count, rest⟩ := run
      by_cases hop : UndefinedOpcode op
      . exact turn_undefined_panics_iff hloop hbi hle hheader hop
      cases hparse : parseOrder a.input with
      | none =>
        exact iff_of_false (not_panics_of_error (run_scanOrder_incomplete hheader hop hparse))
          (hostile_incomplete hheader hop hparse)
      | some run =>
        obtain ⟨order, rest⟩ := run
        exact turn_complete_panics_iff hloop hbi hle hparse

theorem returns_iff {r : EStateM.Result (Fault Error) State Unit}
    (hdiverge : Prog.outcome r ≠ some .diverge) :
    ((∃ s, r = .ok () s) ∨ ∃ e s, r = .error (.error e) s) ↔ ¬ Panics (Prog.outcome r) := by
  cases r with
  | ok _ s => exact iff_of_true (Or.inl ⟨s, rfl⟩) fun ⟨_, h⟩ => by cases h
  | error e s =>
    cases e with
    | error e => exact iff_of_true (Or.inr ⟨e, s, rfl⟩) not_panics_error
    | panic msg =>
      refine iff_of_false ?_ fun h => h ⟨msg, rfl⟩
      rintro (⟨_, h⟩ | ⟨_, _, h⟩) <;> cases h
    | diverge => exact absurd rfl hdiverge

/--
The decoder returns, with a result or an error, on exactly the inputs that are not hostile.
-/
theorem rle16Decompress_returns_iff (input : Bytes) (width height : Nat) (output : Slice UInt16)
    (hcells : width * height ≤ output.cells.length) :
    ((∃ s, rle16Decompress input width height output = .ok () s) ∨
      ∃ e s, rle16Decompress input width height output = .error (.error e) s) ↔
      ¬ Hostile width height 0 input := by
  have houtcome := (rle16Decompress_related input width height output hcells).outcome_eq
  have hiff := scan_panics_iff width height input.length
    (a := scanInit input) rfl (Nat.zero_le _) (Nat.le_refl _)
  rw [returns_iff (by rw [houtcome]; exact outcome_scan_ne_diverge input width height), houtcome]
  exact not_congr hiff

/--
An input that is not hostile although its last order does not fit.
-/
theorem rle16Decompress_returns_iff_too_long :
    ((∃ s, rle16Decompress [0xFD, 0xFD] 1 1 ⟨[7], by decide⟩ = .ok () s) ∨
      ∃ e s, rle16Decompress [0xFD, 0xFD] 1 1 ⟨[7], by decide⟩ = .error (.error e) s) ↔
      ¬ Hostile 1 1 0 [0xFD, 0xFD] :=
  rle16Decompress_returns_iff [0xFD, 0xFD] 1 1 ⟨[7], by decide⟩ (by decide)

/--
An undefined order, and a dithered run that is too long to count.
-/
theorem rle16Decompress_panics :
    Prog.outcome (rle16Decompress [0xA1] 4 2 ⟨List.replicate 8 0, by decide⟩) =
      some (.panic "opcode") ∧
    Prog.outcome (rle16Decompress [0xF8, 0xFF, 0xFF, 1, 0, 2, 0] 4 2 ⟨List.replicate 8 0, by decide⟩) =
      some (.panic "attempt to add with overflow") := by
  constructor <;> rfl

end Rle16
end Rdp
