import Rdp.Bin.Mstsc.Impl

/-!
This module contains the copy of one row of a bitmap: where it reads and writes, and when it is made.
-/

namespace Rdp.Mstsc

open Prog

def Copy.Within (image buffer : List UInt32) (copy : Copy) : Prop :=
  copy.destI + copy.count ≤ buffer.length ∧ copy.srcI + copy.count ≤ image.length

namespace Screen

def rowCopy (width : Nat) (bitmap : BitmapEvent) (i : Nat) : Copy where
  srcI := i * bitmap.width.toNat
  destI := (i + bitmap.destTop.toNat) * width + bitmap.destLeft.toNat
  count := bitmap.destRight.toNat - bitmap.destLeft.toNat + 1

structure HasRow (bitmap : BitmapEvent) (i : Nat) : Prop where
  left_le : bitmap.destLeft.toNat ≤ bitmap.destRight.toNat
  row_le : i + bitmap.destTop.toNat ≤ bitmap.destBottom.toNat

section Row

variable {width i : Nat} {bitmap : BitmapEvent}

theorem rowCopy_count_le (width : Nat) (bitmap : BitmapEvent) (i : Nat) :
    (rowCopy width bitmap i).count ≤ 2 ^ 16 := by
  have := bitmap.destRight.toNat_lt
  simp only [rowCopy]
  omega

theorem rowCopy_srcI_lt (width : Nat) (h : HasRow bitmap i) : (rowCopy width bitmap i).srcI < 2 ^ 32 := by
  have hrow := h.row_le
  have hbottom := bitmap.destBottom.toNat_lt
  have hwidth := bitmap.width.toNat_lt
  calc
    i * bitmap.width.toNat ≤ i * 2 ^ 16 := Nat.mul_le_mul_left i (by omega)
    _ < 2 ^ 16 * 2 ^ 16 := Nat.mul_lt_mul_of_pos_right (by omega) (by decide)
    _ = 2 ^ 32 := by decide

theorem refused_eq (build : Build) (image : List UInt32) (copy : Copy) (buffer : List UInt32)
    (hdest : copy.destI ≤ buffer.length → copy.destI + copy.count < 2 ^ 64)
    (hsrc : copy.srcI ≤ image.length → copy.srcI + copy.count < 2 ^ 64) :
    ∃ b, refused build image copy buffer = .ok b ∧ (b = false ↔ copy.Within image buffer) := by
  unfold refused Copy.Within
  by_cases h₁ : buffer.length < copy.destI
  . refine ⟨true, if_pos h₁, ?_⟩
    simp
    omega
  rw [if_neg h₁, build.add_of_lt (hdest (Nat.le_of_not_lt h₁)), Except.ok_bind]
  by_cases h₂ : buffer.length < copy.destI + copy.count
  . refine ⟨true, if_pos h₂, ?_⟩
    simp
    omega
  rw [if_neg h₂]
  by_cases h₃ : image.length < copy.srcI
  . refine ⟨true, if_pos h₃, ?_⟩
    simp
    omega
  rw [if_neg h₃, build.add_of_lt (hsrc (Nat.le_of_not_lt h₃)), Except.ok_bind]
  refine ⟨_, rfl, ?_⟩
  simp
  omega

theorem copyOf_eq (build : Build) (h : HasRow bitmap i)
    (hlt : (rowCopy width bitmap i).destI < 2 ^ 64) :
    copyOf build width bitmap i = .ok (rowCopy width bitmap i) := by
  have hrow := h.row_le
  have hbottom := bitmap.destBottom.toNat_lt
  have hright := bitmap.destRight.toNat_lt
  have hsrc := rowCopy_srcI_lt width h
  simp only [rowCopy] at hlt hsrc
  simp only [copyOf, build.add_of_lt (show i + bitmap.destTop.toNat < 2 ^ 64 by omega),
    build.mul_of_lt (show (i + bitmap.destTop.toNat) * width < 2 ^ 64 by omega),
    build.add_of_lt hlt, build.mul_of_lt (show i * bitmap.width.toNat < 2 ^ 64 by omega),
    build.sub_of_le h.left_le (show bitmap.destRight.toNat < 2 ^ 64 by omega),
    build.add_of_lt (show bitmap.destRight.toNat - bitmap.destLeft.toNat + 1 < 2 ^ 64 by omega),
    Except.ok_bind]
  rfl

theorem copyOf_of_le (h : HasRow bitmap i) (hle : 2 ^ 64 ≤ (rowCopy width bitmap i).destI) :
    ∃ msg, copyOf .debug width bitmap i = .error (.panic msg) := by
  -- With overflow checks a row whose offset does not fit a word aborts.
  have hrow := h.row_le
  have hbottom := bitmap.destBottom.toNat_lt
  simp only [rowCopy] at hle
  simp only [copyOf, Build.add_of_lt .debug (show i + bitmap.destTop.toNat < 2 ^ 64 by omega),
    Except.ok_bind]
  by_cases hmul : (i + bitmap.destTop.toNat) * width < 2 ^ 64
  . simp only [Build.mul_of_lt .debug hmul, Except.ok_bind, Build.add, checkedAdd_of_le hle]
    exact ⟨_, rfl⟩
  . simp only [Build.mul, checkedMul_of_le (Nat.le_of_not_lt hmul)]
    exact ⟨_, rfl⟩

end Row

section Run

variable {build : Build} {width i : Nat} {bitmap : BitmapEvent} {image : List UInt32} {s : Screen}

theorem run_copyRow {copy : Copy} {b : Bool} (hcopy : copyOf build width bitmap i = .ok copy)
    (hrefused : refused build image copy s.buffer = .ok b) :
    (copyRow build width bitmap image i).run s =
      if b then .error (.error invalidSize) s else .ok () (s.copied image copy) := by
  simp only [copyRow, hcopy, lift_ok, pure_bind, EStateM.run_bind, EStateM.run_get, hrefused]
  cases b <;> rfl

theorem run_copyRow_of_within (h : HasRow bitmap i) (hlength : s.buffer.length < 2 ^ 63)
    (hlt : (rowCopy width bitmap i).destI < 2 ^ 64)
    (hwithin : (rowCopy width bitmap i).Within image s.buffer) :
    (copyRow build width bitmap image i).run s = .ok () (s.copied image (rowCopy width bitmap i)) := by
  have hcount := rowCopy_count_le width bitmap i
  have hsrc := rowCopy_srcI_lt width h
  obtain ⟨b, hrefused, hiff⟩ := refused_eq build image (rowCopy width bitmap i) s.buffer
    (by omega) (by omega)
  rw [run_copyRow (copyOf_eq build h hlt) hrefused, hiff.mpr hwithin]
  rfl

theorem run_copyRow_of_not_within (h : HasRow bitmap i) (hlength : s.buffer.length < 2 ^ 63)
    (hlt : (rowCopy width bitmap i).destI < 2 ^ 64)
    (hwithin : ¬ (rowCopy width bitmap i).Within image s.buffer) :
    (copyRow build width bitmap image i).run s = .error (.error invalidSize) s := by
  have hcount := rowCopy_count_le width bitmap i
  have hsrc := rowCopy_srcI_lt width h
  obtain ⟨b, hrefused, hiff⟩ := refused_eq build image (rowCopy width bitmap i) s.buffer
    (by omega) (by omega)
  rw [run_copyRow (copyOf_eq build h hlt) hrefused]
  cases b with
  | true => rfl
  | false => exact absurd (hiff.mp rfl) hwithin

theorem run_copyRow_of_le (h : HasRow bitmap i) (hle : 2 ^ 64 ≤ (rowCopy width bitmap i).destI) :
    ∃ msg, (copyRow .debug width bitmap image i).run s = .error (.panic msg) s := by
  obtain ⟨msg, hcopy⟩ := copyOf_of_le h hle
  refine ⟨msg, ?_⟩
  rw [copyRow, hcopy]
  rfl

/--
The offsets of the rows are the exact ones, or an offset that is not aborts.
-/
def Exact (build : Build) (width : Nat) (bitmap : BitmapEvent) : Prop :=
  build = .debug ∨ ∀ i, HasRow bitmap i → (rowCopy width bitmap i).destI < 2 ^ 64

theorem cases_copyRow (image : List UInt32) (hexact : Exact build width bitmap) (h : HasRow bitmap i)
    (hlength : s.buffer.length < 2 ^ 63) :
    ((rowCopy width bitmap i).Within image s.buffer ∧
      (copyRow build width bitmap image i).run s = .ok () (s.copied image (rowCopy width bitmap i))) ∨
    ((rowCopy width bitmap i).destI < 2 ^ 64 ∧ ¬ (rowCopy width bitmap i).Within image s.buffer ∧
      (copyRow build width bitmap image i).run s = .error (.error invalidSize) s) ∨
    (2 ^ 64 ≤ (rowCopy width bitmap i).destI ∧
      ∃ msg, (copyRow build width bitmap image i).run s = .error (.panic msg) s) := by
  by_cases hlt : (rowCopy width bitmap i).destI < 2 ^ 64
  . by_cases hwithin : (rowCopy width bitmap i).Within image s.buffer
    . exact .inl ⟨hwithin, run_copyRow_of_within h hlength hlt hwithin⟩
    . exact .inr (.inl ⟨hlt, hwithin, run_copyRow_of_not_within h hlength hlt hwithin⟩)
  . rcases hexact with rfl | hexact
    . exact .inr (.inr ⟨Nat.le_of_not_lt hlt, run_copyRow_of_le h (Nat.le_of_not_lt hlt)⟩)
    . exact absurd (hexact i h) hlt

end Run

end Screen

end Rdp.Mstsc
