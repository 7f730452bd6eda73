import Rdp.Bin.Mstsc.Row

/-!
This module contains what becomes of the buffer of the window when a bitmap is copied into it: when
the cells of the rectangle are those of the image and all others are left alone, and when the bitmap
is refused.
-/

namespace Rdp.Mstsc

open Prog

namespace Screen

def Inside (bitmap : BitmapEvent) (x y : Nat) : Prop :=
  (bitmap.destLeft.toNat ≤ x ∧ x ≤ bitmap.destRight.toNat) ∧
    bitmap.destTop.toNat ≤ y ∧ y ≤ bitmap.destBottom.toNat

instance (bitmap : BitmapEvent) (x y : Nat) : Decidable (Inside bitmap x y) :=
  inferInstanceAs (Decidable (_ ∧ _))

/--
The columns of the rectangle are columns of the window and of the image.
-/
def Fits (width : Nat) (bitmap : BitmapEvent) : Prop :=
  bitmap.destRight.toNat < width ∧
    bitmap.destRight.toNat - bitmap.destLeft.toNat + 1 ≤ bitmap.width.toNat

instance (width : Nat) (bitmap : BitmapEvent) : Decidable (Fits width bitmap) :=
  inferInstanceAs (Decidable (_ ∧ _))

/--
The cells of the rectangle have been replaced by those of the image, and no others.
-/
structure Blitted (width : Nat) (bitmap : BitmapEvent) (image before after : List UInt32) : Prop where
  length : after.length = before.length
  cells : ∀ x y, x < width → y * width + x < before.length →
    after[y * width + x]? =
      if Inside bitmap x y then
        image[(y - bitmap.destTop.toNat) * bitmap.width.toNat + (x - bitmap.destLeft.toNat)]?
      else
        before[y * width + x]?

/--
A bitmap that is accepted is blitted, and one that does not fit is refused with an error.
-/
def Faithful (width : Nat) (bitmap : BitmapEvent) (image before : List UInt32)
    (result : EStateM.Result (Fault Error) Screen Unit) : Prop :=
  (∀ screen, result = .ok () screen → Blitted width bitmap image before screen.buffer) ∧
    (¬ Fits width bitmap → ∃ e screen, result = .error (.error e) screen)

/--
A row of the bitmap has an offset, and lies partly outside of the buffer or of the image.
-/
def Overruns (width : Nat) (bitmap : BitmapEvent) (image buffer : List UInt32) : Prop :=
  ∃ i, HasRow bitmap i ∧ (rowCopy width bitmap i).destI < 2 ^ 64 ∧
    ¬ (rowCopy width bitmap i).Within image buffer

structure Painted (width : Nat) (bitmap : BitmapEvent) (image : List UInt32) (i j : Nat)
    (before after : List UInt32) : Prop where
  length : after.length = before.length
  cells : ∀ x y, x < width → y * width + x < before.length →
    after[y * width + x]? =
      if (bitmap.destLeft.toNat ≤ x ∧ x ≤ bitmap.destRight.toNat) ∧
          i + bitmap.destTop.toNat ≤ y ∧ y < j + bitmap.destTop.toNat then
        image[(y - bitmap.destTop.toNat) * bitmap.width.toNat + (x - bitmap.destLeft.toNat)]?
      else
        before[y * width + x]?

section Painted

variable {width : Nat} {bitmap : BitmapEvent} {image : List UInt32}

theorem Painted.refl (width : Nat) (bitmap : BitmapEvent) (image : List UInt32) (i : Nat)
    (buffer : List UInt32) : Painted width bitmap image i i buffer buffer where
  length := rfl
  cells x y _ _ := by rw [if_neg (by omega)]

theorem Painted.trans {i j k : Nat} {a b c : List UInt32} (hij : i ≤ j) (hjk : j ≤ k)
    (hab : Painted width bitmap image i j a b) (hbc : Painted width bitmap image j k b c) :
    Painted width bitmap image i k a c where
  length := hbc.length.trans hab.length
  cells x y hx hlt := by
    rw [hbc.cells x y hx (by rw [hab.length]; exact hlt), hab.cells x y hx hlt]
    split_ifs <;> first
      | rfl
      | omega

theorem mem_row_iff {x left right : Nat} (y row : Nat) (hx : x < width) (hright : right < width)
    (hle : left ≤ right) :
    row * width + left ≤ y * width + x ∧
        y * width + x < row * width + left + (right - left + 1) ↔
      (left ≤ x ∧ x ≤ right) ∧ row ≤ y ∧ y < row + 1 := by
  rcases Nat.lt_trichotomy y row with hlt | rfl | hlt
  . have hrows : (y + 1) * width ≤ row * width := Nat.mul_le_mul_right width hlt
    rw [Nat.succ_mul] at hrows
    omega
  . omega
  . have hrows : (row + 1) * width ≤ y * width := Nat.mul_le_mul_right width hlt
    rw [Nat.succ_mul] at hrows
    omega

theorem Painted.copied {i : Nat} {s : Screen} (hfits : Fits width bitmap) (h : HasRow bitmap i)
    (hwithin : (rowCopy width bitmap i).Within image s.buffer) :
    Painted width bitmap image i (i + 1) s.buffer (s.copied image (rowCopy width bitmap i)).buffer where
  length := length_copyNonoverlapping hwithin.2 hwithin.1
  cells x y hx hlt := by
    have hiff := mem_row_iff y (i + bitmap.destTop.toNat) hx hfits.1 h.left_le
    rw [Screen.copied, getElem?_copyNonoverlapping hwithin.2 hwithin.1]
    simp only [rowCopy, hiff, Nat.add_right_comm i 1]
    split
    next hin =>
      have hy : y = i + bitmap.destTop.toNat := by omega
      subst hy
      congr 1
      rw [Nat.add_sub_cancel]
      omega
    next => rfl

end Painted

section Rows

variable {build : Build} {width rows i : Nat} {bitmap : BitmapEvent} {image : List UInt32}
  {s t : Screen}

theorem length_copied (hwithin : (rowCopy width bitmap i).Within image s.buffer) :
    (s.copied image (rowCopy width bitmap i)).buffer.length = s.buffer.length :=
  length_copyNonoverlapping hwithin.2 hwithin.1

theorem painted_of_run (hexact : Exact build width bitmap) (hfits : Fits width bitmap)
    (hrows : ∀ k, i ≤ k → k < i + rows → HasRow bitmap k) (hlength : s.buffer.length < 2 ^ 63)
    (h : (copyRows build width bitmap image rows i).run s = .ok () t) :
    Painted width bitmap image i (i + rows) s.buffer t.buffer := by
  induction rows generalizing i s with
  | zero =>
    cases h
    exact Painted.refl width bitmap image i _
  | succ rows ih =>
    have hrow := hrows i (Nat.le_refl i) (by omega)
    rcases cases_copyRow image hexact hrow hlength with
      ⟨hwithin, hrun⟩ | ⟨_, _, hrun⟩ | ⟨_, msg, hrun⟩
    . rw [copyRows, run_bind_of_ok hrun] at h
      have hrest := ih (fun k hk hlt => hrows k (by omega) (by omega))
        (by rwa [length_copied hwithin]) h
      have hfirst := Painted.copied hfits hrow hwithin
      have hall := hfirst.trans (by omega) (by omega) hrest
      rwa [Nat.add_right_comm i 1] at hall
    . rw [copyRows, run_bind_of_error hrun] at h
      cases h
    . rw [copyRows, run_bind_of_error hrun] at h
      cases h

theorem refuses_iff (image : List UInt32) (hexact : Exact build width bitmap)
    (hrows : ∀ k, i ≤ k → k < i + rows → HasRow bitmap k) (hlength : s.buffer.length < 2 ^ 63) :
    (∃ e u, (copyRows build width bitmap image rows i).run s = .error (.error e) u) ↔
      ∃ k, i ≤ k ∧ k < i + rows ∧ (rowCopy width bitmap k).destI < 2 ^ 64 ∧
        ¬ (rowCopy width bitmap k).Within image s.buffer := by
  induction rows generalizing i s with
  | zero =>
    constructor
    . rintro ⟨e, u, h⟩
      cases h
    . rintro ⟨k, hle, hlt, _⟩
      omega
  | succ rows ih =>
    have hrow := hrows i (Nat.le_refl i) (by omega)
    rcases cases_copyRow image hexact hrow hlength with
      ⟨hwithin, hrun⟩ | ⟨hlt, hwithin, hrun⟩ | ⟨hle, msg, hrun⟩
    . have hcopied := length_copied hwithin
      rw [copyRows, run_bind_of_ok hrun,
        ih (fun k hk hlt => hrows k (by omega) (by omega)) (by rwa [hcopied])]
      simp only [Copy.Within, hcopied]
      constructor
      . rintro ⟨k, hle, hlt, hrest⟩
        exact ⟨k, by omega, by omega, hrest⟩
      . rintro ⟨k, hle, hlt, hk, hnot⟩
        have hne : k ≠ i := by
          rintro rfl
          exact hnot hwithin
        exact ⟨k, by omega, by omega, hk, hnot⟩
    . rw [copyRows, run_bind_of_error hrun]
      constructor
      . intro _
        exact ⟨i, Nat.le_refl i, by omega, hlt, hwithin⟩
      . exact fun _ => ⟨_, s, rfl⟩
    . rw [copyRows, run_bind_of_error hrun]
      constructor
      . rintro ⟨e, u, h⟩
        cases h
      . -- the offsets of the rows behind this one are even larger
        rintro ⟨k, hk, _, hlt, _⟩
        have hmul : (i + bitmap.destTop.toNat) * width ≤ (k + bitmap.destTop.toNat) * width :=
          Nat.mul_le_mul_right width (by omega)
        simp only [rowCopy] at hle hlt
        omega

end Rows

section Transfer

variable {width : Nat} {bitmap : BitmapEvent} {data : Bytes} {before : Slice UInt32}
  {copies : List Copy}

theorem exact_release
    (h : bitmap.destBottom.toNat * width + bitmap.destLeft.toNat < 2 ^ 64) :
    Exact .release width bitmap := by
  refine .inr ?_
  intro i hrow
  have hmul : (i + bitmap.destTop.toNat) * width ≤ bitmap.destBottom.toNat * width :=
    Nat.mul_le_mul_right width hrow.row_le
  simp only [rowCopy]
  omega

theorem run_fastBitmapTransfer (h : bitmap.decompress = .ok data) (s : Screen) :
    (fastBitmapTransfer width bitmap).run s = (transfer .debug width bitmap data).run s := by
  rw [fastBitmapTransfer, h, lift_ok, pure_bind]

theorem transfer_eq (build : Build) (htop : bitmap.destTop.toNat ≤ bitmap.destBottom.toNat) :
    transfer build width bitmap data =
      copyRows build width bitmap (transmuteVec data)
        (bitmap.destBottom.toNat - bitmap.destTop.toNat + 1) 0 := by
  have hbottom := bitmap.destBottom.toNat_lt
  rw [transfer, build.sub_of_le htop (by omega), Except.ok_bind, build.add_of_lt (by omega), lift_ok,
    pure_bind]

theorem Painted.blitted {image buffer after : List UInt32}
    (htop : bitmap.destTop.toNat ≤ bitmap.destBottom.toNat)
    (h : Painted width bitmap image 0 (bitmap.destBottom.toNat - bitmap.destTop.toNat + 1) buffer after) :
    Blitted width bitmap image buffer after where
  length := h.length
  cells x y hx hlt := by
    rw [h.cells x y hx hlt]
    have hiff : (bitmap.destLeft.toNat ≤ x ∧ x ≤ bitmap.destRight.toNat) ∧
        0 + bitmap.destTop.toNat ≤ y ∧
          y < bitmap.destBottom.toNat - bitmap.destTop.toNat + 1 + bitmap.destTop.toNat ↔
        Inside bitmap x y := by
      unfold Inside
      omega
    simp only [hiff]

theorem faithful_iff_of_exact {build : Build} (hexact : Exact build width bitmap)
    (hleft : bitmap.destLeft.toNat ≤ bitmap.destRight.toNat)
    (htop : bitmap.destTop.toNat ≤ bitmap.destBottom.toNat) :
    Faithful width bitmap (transmuteVec data) before.cells
        ((transfer build width bitmap data).run ⟨before.cells, copies⟩) ↔
      Fits width bitmap ∨ Overruns width bitmap (transmuteVec data) before.cells := by
  have hrows (k : Nat) (_ : 0 ≤ k)
      (hk : k < 0 + (bitmap.destBottom.toNat - bitmap.destTop.toNat + 1)) : HasRow bitmap k :=
    ⟨hleft, by omega⟩
  have hrefuses := refuses_iff (s := ⟨before.cells, copies⟩) (transmuteVec data) hexact hrows
    before.length_lt
  rw [transfer_eq build htop]
  constructor
  . rintro ⟨_, hrefused⟩
    by_cases hfits : Fits width bitmap
    . exact .inl hfits
    . obtain ⟨k, hk, hlt, hoverruns⟩ := hrefuses.mp (hrefused hfits)
      exact .inr ⟨k, hrows k hk hlt, hoverruns⟩
  . rintro (hfits | ⟨k, hrow, hoverruns⟩)
    . refine ⟨?_, fun hnot => absurd hfits hnot⟩
      intro screen hrun
      have hpainted := painted_of_run hexact hfits hrows before.length_lt hrun
      rw [Nat.zero_add] at hpainted
      exact hpainted.blitted htop
    . have hlt := hrow.row_le
      have hrefused := hrefuses.mpr ⟨k, Nat.zero_le k, by omega, hoverruns⟩
      refine ⟨?_, fun _ => hrefused⟩
      obtain ⟨e, u, herror⟩ := hrefused
      intro screen hrun
      cases herror.symm.trans hrun

end Transfer

/--
Only the ends of the buffer and of the image are looked at: a bitmap that overhangs its row is refused
exactly when one of its rows also overruns one of the two. Without overflow checks this is so as long
as the offset of the last row fits a word.
-/
theorem faithful_iff (width : Nat) (bitmap : BitmapEvent) (data : Bytes) (before : Slice UInt32)
    (copies : List Copy) (hleft : bitmap.destLeft.toNat ≤ bitmap.destRight.toNat)
    (htop : bitmap.destTop.toNat ≤ bitmap.destBottom.toNat) :
    (bitmap.decompress = .ok data →
      (Faithful width bitmap (transmuteVec data) before.cells
          ((fastBitmapTransfer width bitmap).run ⟨before.cells, copies⟩) ↔
        Fits width bitmap ∨ Overruns width bitmap (transmuteVec data) before.cells)) ∧
    (bitmap.destBottom.toNat * width + bitmap.destLeft.toNat < 2 ^ 64 →
      (Faithful width bitmap (transmuteVec data) before.cells
          ((transfer .release width bitmap data).run ⟨before.cells, copies⟩) ↔
        Fits width bitmap ∨ Overruns width bitmap (transmuteVec data) before.cells)) := by
  constructor
  . intro hdata
    rw [run_fastBitmapTransfer hdata]
    exact faithful_iff_of_exact (.inl rfl) hleft htop
  . intro hoffset
    exact faithful_iff_of_exact (exact_release hoffset) hleft htop

def square (left right : UInt16) : BitmapEvent :=
  ⟨left, 0, right, 1, 2, 2, 32, false, List.replicate 16 7⟩

def black : Slice UInt32 := ⟨List.replicate 12 0, by decide⟩

theorem faithful_iff_square :
    Faithful 4 (square 1 2) (transmuteVec (List.replicate 16 7)) black.cells
        ((fastBitmapTransfer 4 (square 1 2)).run ⟨black.cells, []⟩) ∧
      Faithful 4 (square 1 2) (transmuteVec (List.replicate 16 7)) black.cells
        ((transfer .release 4 (square 1 2) (List.replicate 16 7)).run ⟨black.cells, []⟩) := by
  have hiff := faithful_iff 4 (square 1 2) (List.replicate 16 7) black [] (by decide) (by decide)
  have hfits : Fits 4 (square 1 2) := by decide
  exact ⟨(hiff.1 rfl).mpr (.inl hfits), (hiff.2 (by decide)).mpr (.inl hfits)⟩

/--
The second column of the bitmap is copied into the first column of the window.
-/
theorem not_faithful :
    ¬ Faithful 4 (square 3 4) (transmuteVec (List.replicate 16 7)) black.cells
      ((fastBitmapTransfer 4 (square 3 4)).run ⟨black.cells, []⟩) := by
  rintro ⟨_, hrefused⟩
  obtain ⟨e, screen, hrun⟩ := hrefused (by decide)
  have hok : outcome ((fastBitmapTransfer 4 (square 3 4)).run ⟨black.cells, []⟩) = none := by
    decide +kernel
  rw [hrun] at hok
  cases hok

end Screen

end Rdp.Mstsc
