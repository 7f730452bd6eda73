import Rdp.Bin.Mstsc.Row

/-!
This module contains the bounds of the copies without overflow checks: whatever wraps around in the
offsets and the counts, no copy leaves the image or the buffer.
-/

namespace Rdp.Mstsc

open Prog

namespace Screen

/--
The number of cells that are copied for a row, modulo the size of a word.
-/
def wrappedCount (bitmap : BitmapEvent) : Nat :=
  ((bitmap.destRight.toNat + (2 ^ 64 - bitmap.destLeft.toNat)) % 2 ^ 64 + 1) % 2 ^ 64

theorem wrappedCount_cases (bitmap : BitmapEvent) :
    wrappedCount bitmap ≤ 2 ^ 16 ∨ (2 ^ 63 ≤ wrappedCount bitmap ∧ wrappedCount bitmap < 2 ^ 64) := by
  have hleft := bitmap.destLeft.toNat_lt
  have hright := bitmap.destRight.toNat_lt
  unfold wrappedCount
  omega

section Release

variable {width i : Nat} {bitmap : BitmapEvent} {image : List UInt32}

theorem copyOf_release (width : Nat) (bitmap : BitmapEvent) (i : Nat) :
    ∃ copy, copyOf .release width bitmap i = .ok copy ∧ copy.count = wrappedCount bitmap ∧
      copy.srcI = i * bitmap.width.toNat % 2 ^ 64 :=
  ⟨_, rfl, rfl, rfl⟩

structure InBounds (image : List UInt32) (length : Nat) (s : Screen) : Prop where
  buffer : s.buffer.length = length
  copies : ∀ copy ∈ s.copies, copy.destI + copy.count ≤ length ∧ copy.srcI + copy.count ≤ image.length

def Keeps (image : List UInt32) (length : Nat) (s t : Screen) : Prop :=
  InBounds image length s → InBounds image length t

instance (image : List UInt32) (length : Nat) : IsPreorder Screen (Keeps image length) where
  refl _ := id
  trans _ _ _ h h' := h' ∘ h

theorem keeps_copied {length : Nat} {copy : Copy} {s : Screen} (hwithin : copy.Within image s.buffer) :
    Keeps image length s (s.copied image copy) := by
  intro h
  constructor
  . exact (length_copyNonoverlapping hwithin.2 hwithin.1).trans h.buffer
  . intro other hother
    rcases List.mem_append.mp hother with hother | hother
    . exact h.copies other hother
    . rw [List.mem_singleton.mp hother, ← h.buffer]
      exact hwithin

theorem moves_copyRow {length : Nat} (hlength : length < 2 ^ 62) (himage : image.length < 2 ^ 62)
    (hcount : wrappedCount bitmap ≤ 2 ^ 16) (i : Nat) :
    Moves (Keeps image length) (copyRow .release width bitmap image i) := by
  intro s h
  obtain ⟨copy, hcopy, hwrapped, _⟩ := copyOf_release width bitmap i
  have hbuffer := h.buffer
  -- an offset that passes its own comparison is small, so the sum with the count does not wrap around
  obtain ⟨b, hrefused, hiff⟩ := refused_eq .release image copy s.buffer (by omega) (by omega)
  rw [run_copyRow hcopy hrefused]
  cases b with
  | true => exact h
  | false => exact keeps_copied (hiff.mp rfl) h

theorem moves_copyRows {length : Nat} (hlength : length < 2 ^ 62) (himage : image.length < 2 ^ 62)
    (hcount : wrappedCount bitmap ≤ 2 ^ 16) (rows i : Nat) :
    Moves (Keeps image length) (copyRows .release width bitmap image rows i) := by
  induction rows generalizing i with
  | zero => exact Moves.pure ()
  | succ rows ih =>
    apply (moves_copyRow hlength himage hcount i).bind
    exact fun _ => ih (i + 1)

theorem run_copyRow_of_huge (himage : image.length < 2 ^ 62) (hcount : 2 ^ 63 ≤ wrappedCount bitmap)
    (hlt : wrappedCount bitmap < 2 ^ 64) (s : Screen) :
    (copyRow .release width bitmap image 0).run s = .error (.error invalidSize) s := by
  -- A count that wrapped around is larger than any image, and the first row reads from its start.
  obtain ⟨copy, hcopy, hwrapped, hsrc⟩ := copyOf_release width bitmap 0
  rw [Nat.zero_mul, Nat.zero_mod] at hsrc
  have hrefused : refused .release image copy s.buffer = .ok true := by
    have hend : image.length < (copy.srcI + copy.count) % 2 ^ 64 := by
      rw [hsrc, Nat.zero_add, hwrapped, Nat.mod_eq_of_lt hlt]
      omega
    -- the last comparison refuses the row where none before it does
    simp only [refused, Build.add, Except.ok_bind, hend, decide_true]
    split
    next => rfl
    next =>
      split
      next => rfl
      next => split <;> rfl
  rw [run_copyRow hcopy hrefused]
  rfl

end Release

/--
Every copy is in bounds, for a rectangle whose ends are out of order and for offsets that wrap around
as well.
-/
theorem copies_within (width : Nat) (bitmap : BitmapEvent) (data : Bytes) (buffer : List UInt32)
    (hbuffer : buffer.length < 2 ^ 62) (hdata : (transmuteVec data).length < 2 ^ 62) :
    ∀ copy ∈ (finalState ((transfer .release width bitmap data).run ⟨buffer, []⟩)).copies,
      copy.destI + copy.count ≤ buffer.length ∧
        copy.srcI + copy.count ≤ (transmuteVec data).length := by
  obtain ⟨rows, hrows⟩ : ∃ rows, transfer .release width bitmap data =
      copyRows .release width bitmap (transmuteVec data) rows 0 := ⟨_, rfl⟩
  have hstart : InBounds (transmuteVec data) buffer.length ⟨buffer, []⟩ := ⟨rfl, by simp⟩
  rw [hrows]
  rcases wrappedCount_cases bitmap with hcount | ⟨hhuge, hlt⟩
  . exact (moves_copyRows hbuffer hdata hcount rows 0 _ hstart).copies
  . cases rows with
    | zero => exact hstart.copies
    | succ rows =>
      rw [copyRows, run_bind_of_error (run_copyRow_of_huge hdata hhuge hlt _)]
      exact hstart.copies

/--
The offset of the row is 2 ^ 64 + 1, which wraps around to the first line of the window.
-/
def wrapped : Screen :=
  finalState ((transfer .release (2 ^ 63) ⟨1, 2, 2, 2, 2, 1, 32, false, []⟩ (List.replicate 8 7)).run
    ⟨[0, 0, 0, 0], []⟩)

theorem copies_within_wrapped : ⟨0, 1, 2⟩ ∈ wrapped.copies ∧ 1 + 2 ≤ 4 ∧ 0 + 2 ≤ 2 := by
  have hcopy : ⟨0, 1, 2⟩ ∈ wrapped.copies := by decide +kernel
  exact ⟨hcopy, copies_within (2 ^ 63) ⟨1, 2, 2, 2, 2, 1, 32, false, []⟩ (List.replicate 8 7)
    [0, 0, 0, 0] (by decide) (by decide) _ hcopy⟩

end Screen

end Rdp.Mstsc
