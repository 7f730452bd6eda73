import Rdp.Bin.Mstsc.Transfer
import Rdp.Lib.Painting

/-!
This module contains what the window shows after any number of bitmaps: every bitmap that was accepted
is painted over the ones before it.
-/

namespace Rdp.Mstsc.Screen

open Prog

def transferAll (width : Nat) (bitmaps : List BitmapEvent) : Prog Error Screen Unit :=
  match bitmaps with
  | [] => return ()
  | bitmap :: bitmaps => do
    fastBitmapTransfer width bitmap
    transferAll width bitmaps

/--
`vec![0; width * height]`.
-/
def blank (width height : Nat) : Screen := ⟨List.replicate (width * height) 0, []⟩

def imagePicture (bitmap : BitmapEvent) (image : List UInt32) (cell : Nat × Nat) : Option UInt32 :=
  if Inside bitmap cell.1 cell.2 then
    image[(cell.2 - bitmap.destTop.toNat) * bitmap.width.toNat + (cell.1 - bitmap.destLeft.toNat)]?
  else
    none

def picture (bitmap : BitmapEvent) (cell : Nat × Nat) : Option UInt32 :=
  match bitmap.decompress with
  | .ok data => imagePicture bitmap (transmuteVec data) cell
  | .error _ => none

/--
The corners of a bitmap are in order, and its columns are columns of the window and of its image.
-/
structure Placed (width : Nat) (bitmap : BitmapEvent) : Prop where
  left_le : bitmap.destLeft.toNat ≤ bitmap.destRight.toNat
  top_le : bitmap.destTop.toNat ≤ bitmap.destBottom.toNat
  fits : Fits width bitmap

/--
The image of a bitmap can be decompressed, and all of its rows are in the buffer and in the image.
-/
def Accepted (width length : Nat) (bitmap : BitmapEvent) : Prop :=
  ∃ data, bitmap.decompress = .ok data ∧ ∀ i, HasRow bitmap i →
    (rowCopy width bitmap i).destI + (rowCopy width bitmap i).count ≤ length ∧
      (rowCopy width bitmap i).srcI + (rowCopy width bitmap i).count ≤ (transmuteVec data).length

def Shows (width : Nat) (canvas : Nat × Nat → UInt32) (buffer : List UInt32) : Prop :=
  ∀ x y, x < width → y * width + x < buffer.length → buffer[y * width + x]? = some (canvas (x, y))

section Transfer

variable {width : Nat} {bitmap : BitmapEvent} {bitmaps : List BitmapEvent} {image : List UInt32}
  {s t : Screen}

theorem run_copyRows_of_within {rows i : Nat} (hrows : ∀ k, i ≤ k → k < i + rows → HasRow bitmap k)
    (hlength : s.buffer.length < 2 ^ 63)
    (hwithin : ∀ k, i ≤ k → k < i + rows → (rowCopy width bitmap k).Within image s.buffer) :
    ∃ t, (copyRows .debug width bitmap image rows i).run s = .ok () t := by
  induction rows generalizing i s with
  | zero => exact ⟨s, rfl⟩
  | succ rows ih =>
    have hfirst := hwithin i (Nat.le_refl i) (by omega)
    have hlt : (rowCopy width bitmap i).destI < 2 ^ 64 := by
      have hdest := hfirst.1
      omega
    have hcopied := length_copied hfirst
    rw [copyRows, run_bind_of_ok (run_copyRow_of_within (hrows i (Nat.le_refl i) (by omega)) hlength
      hlt hfirst)]
    apply ih (fun k hk hlt => hrows k (by omega) (by omega)) (by rwa [hcopied])
    intro k hk hlt
    have hrow := hwithin k (by omega) (by omega)
    rwa [Copy.Within, hcopied]

theorem within_of_run_copyRows {rows i : Nat}
    (hrows : ∀ k, i ≤ k → k < i + rows → HasRow bitmap k) (hlength : s.buffer.length < 2 ^ 63)
    (h : (copyRows .debug width bitmap image rows i).run s = .ok () t) :
    ∀ k, i ≤ k → k < i + rows → (rowCopy width bitmap k).Within image s.buffer := by
  induction rows generalizing i s with
  | zero =>
    intro k hk hlt
    omega
  | succ rows ih =>
    have hrow := hrows i (Nat.le_refl i) (by omega)
    rcases cases_copyRow image (.inl rfl) hrow hlength with
      ⟨hfirst, hrun⟩ | ⟨_, _, hrun⟩ | ⟨_, msg, hrun⟩
    . have hcopied := length_copied hfirst
      rw [copyRows, run_bind_of_ok hrun] at h
      have hrest := ih (fun k hk hlt => hrows k (by omega) (by omega)) (by rwa [hcopied]) h
      intro k hk hlt
      rcases Nat.eq_or_lt_of_le hk with rfl | hk
      . exact hfirst
      . have hwithin := hrest k hk (by omega)
        rwa [Copy.Within, hcopied] at hwithin
    . rw [copyRows, run_bind_of_error hrun] at h
      cases h
    . rw [copyRows, run_bind_of_error hrun] at h
      cases h

theorem hasRow_iff (h : Placed width bitmap) (k : Nat) :
    HasRow bitmap k ↔ k < bitmap.destBottom.toNat - bitmap.destTop.toNat + 1 := by
  have htop := h.top_le
  constructor
  . intro hrow
    have hle := hrow.row_le
    omega
  . exact fun hk => ⟨h.left_le, by omega⟩

theorem run_fastBitmapTransfer_iff (h : Placed width bitmap) (hlength : s.buffer.length < 2 ^ 63) :
    (∃ t, (fastBitmapTransfer width bitmap).run s = .ok () t) ↔
      Accepted width s.buffer.length bitmap := by
  cases hdata : bitmap.decompress with
  | error e =>
    have hrun : (fastBitmapTransfer width bitmap).run s = .error e s := by
      rw [fastBitmapTransfer, hdata]
      rfl
    simp [hrun, Accepted, hdata]
  | ok data =>
    have hrows (k : Nat) (_ : 0 ≤ k)
        (hk : k < 0 + (bitmap.destBottom.toNat - bitmap.destTop.toNat + 1)) : HasRow bitmap k :=
      (hasRow_iff h k).mpr (by omega)
    rw [run_fastBitmapTransfer hdata, transfer_eq .debug h.top_le]
    constructor
    . rintro ⟨t, ht⟩
      refine ⟨data, hdata, ?_⟩
      intro k hk
      have hlt := (hasRow_iff h k).mp hk
      exact within_of_run_copyRows hrows hlength ht k (Nat.zero_le k) (by omega)
    . rintro ⟨data', hdata', hwithin⟩
      cases hdata.symm.trans hdata'
      exact run_copyRows_of_within hrows hlength fun k hk hlt => hwithin k (hrows k hk hlt)

theorem blitted_of_run {data : Bytes} (h : Placed width bitmap) (hlength : s.buffer.length < 2 ^ 63)
    (hdata : bitmap.decompress = .ok data)
    (hrun : (fastBitmapTransfer width bitmap).run s = .ok () t) :
    Blitted width bitmap (transmuteVec data) s.buffer t.buffer := by
  have hrows (k : Nat) (_ : 0 ≤ k)
      (hk : k < 0 + (bitmap.destBottom.toNat - bitmap.destTop.toNat + 1)) : HasRow bitmap k :=
    (hasRow_iff h k).mpr (by omega)
  rw [run_fastBitmapTransfer hdata, transfer_eq .debug h.top_le] at hrun
  have hpainted := painted_of_run (.inl rfl) h.fits hrows hlength hrun
  rw [Nat.zero_add] at hpainted
  exact hpainted.blitted h.top_le

theorem shows_of_run (h : Placed width bitmap) (hlength : s.buffer.length < 2 ^ 63)
    {canvas : Nat × Nat → UInt32} (hshows : Shows width canvas s.buffer)
    (hrun : (fastBitmapTransfer width bitmap).run s = .ok () t) :
    t.buffer.length = s.buffer.length ∧
      Shows width (Painting.paint canvas (picture bitmap)) t.buffer := by
  obtain ⟨data, hdata, _⟩ := (run_fastBitmapTransfer_iff h hlength).mp ⟨t, hrun⟩
  have hblitted := blitted_of_run h hlength hdata hrun
  refine ⟨hblitted.length, ?_⟩
  intro x y hx hlt
  have hcell := hblitted.cells x y hx (by rwa [← hblitted.length])
  have hsome : t.buffer[y * width + x]? = some t.buffer[y * width + x] := List.getElem?_eq_getElem hlt
  rw [Painting.paint, picture, hdata]
  dsimp only [imagePicture]
  by_cases hinside : Inside bitmap x y
  . rw [if_pos hinside] at hcell ⊢
    rw [← hcell, hsome]
    rfl
  . rw [if_neg hinside] at hcell ⊢
    rw [hcell]
    exact hshows x y hx (by rwa [← hblitted.length])

theorem shows_of_transferAll (hplaced : ∀ bitmap ∈ bitmaps, Placed width bitmap)
    (hlength : s.buffer.length < 2 ^ 63) {canvas : Nat × Nat → UInt32}
    (hshows : Shows width canvas s.buffer) (h : (transferAll width bitmaps).run s = .ok () t) :
    t.buffer.length = s.buffer.length ∧
      Shows width (Painting.paintAll canvas (bitmaps.map picture)) t.buffer := by
  induction bitmaps generalizing s canvas with
  | nil =>
    cases h
    exact ⟨rfl, hshows⟩
  | cons bitmap bitmaps ih =>
    rw [List.forall_mem_cons] at hplaced
    obtain ⟨⟨⟩, u, hfirst, hrest⟩ := run_bind_eq_ok h
    obtain ⟨hu, hushows⟩ := shows_of_run hplaced.1 hlength hshows hfirst
    obtain ⟨ht, htshows⟩ := ih hplaced.2 (by rwa [hu]) hushows hrest
    exact ⟨ht.trans hu, htshows⟩

theorem run_transferAll_iff (hplaced : ∀ bitmap ∈ bitmaps, Placed width bitmap)
    (hlength : s.buffer.length < 2 ^ 63) :
    (∃ t, (transferAll width bitmaps).run s = .ok () t) ↔
      ∀ bitmap ∈ bitmaps, Accepted width s.buffer.length bitmap := by
  induction bitmaps generalizing s with
  | nil => exact iff_of_true ⟨s, rfl⟩ (by simp)
  | cons bitmap bitmaps ih =>
    rw [List.forall_mem_cons] at hplaced ⊢
    rw [← run_fastBitmapTransfer_iff hplaced.1 hlength]
    have hone (u : Screen) (hu : (fastBitmapTransfer width bitmap).run s = .ok () u) :
        u.buffer.length = s.buffer.length := by
      obtain ⟨data, hdata, _⟩ := (run_fastBitmapTransfer_iff hplaced.1 hlength).mp ⟨u, hu⟩
      exact (blitted_of_run hplaced.1 hlength hdata hu).length
    constructor
    . rintro ⟨t, ht⟩
      obtain ⟨⟨⟩, u, hfirst, hrest⟩ := run_bind_eq_ok ht
      have hu := hone u hfirst
      refine ⟨⟨u, hfirst⟩, ?_⟩
      rw [← hu]
      exact (ih hplaced.2 (by rwa [hu])).mp ⟨t, hrest⟩
    . rintro ⟨⟨u, hfirst⟩, haccepted⟩
      have hu := hone u hfirst
      rw [← hu] at haccepted
      obtain ⟨t, ht⟩ := (ih hplaced.2 (by rwa [hu])).mpr haccepted
      exact ⟨t, run_bind_eq_ok_iff.mpr ⟨(), u, hfirst, ht⟩⟩

end Transfer

theorem shows_blank (width height : Nat) : Shows width (fun _ => 0) (blank width height).buffer := by
  intro x y _ hlt
  rw [blank, List.length_replicate] at hlt
  exact List.getElem?_replicate_of_lt hlt

theorem cell_lt {width height x y : Nat} (hx : x < width) (hy : y < height) :
    y * width + x < width * height := by
  calc
    y * width + x < y * width + width := Nat.add_lt_add_left hx _
    _ = (y + 1) * width := (Nat.succ_mul y width).symm
    _ ≤ height * width := Nat.mul_le_mul_right width hy
    _ = width * height := Nat.mul_comm height width

/--
The window after any number of bitmaps that lie in its columns. They are all transferred if and only if
each of them can be decompressed and has all of its rows in the window and in its image. Every cell is
then the one of the last bitmap that covers it, and black where there is none.
-/
theorem window_shows_topmost {width height : Nat} (hsize : width * height < 2 ^ 63)
    {bitmaps : List BitmapEvent} (hplaced : ∀ bitmap ∈ bitmaps, Placed width bitmap) :
    ((∃ t, (transferAll width bitmaps).run (blank width height) = .ok () t) ↔
      ∀ bitmap ∈ bitmaps, Accepted width (width * height) bitmap) ∧
    ∀ t, (transferAll width bitmaps).run (blank width height) = .ok () t →
      ∀ x y, x < width → y < height →
        t.buffer[y * width + x]? = some ((Painting.topmost (bitmaps.map picture) (x, y)).getD 0) := by
  have hlength : (blank width height).buffer.length = width * height := List.length_replicate
  constructor
  . rw [← hlength] at hsize ⊢
    exact run_transferAll_iff hplaced hsize
  . intro t ht x y hx hy
    obtain ⟨hsame, hshows⟩ :=
      shows_of_transferAll hplaced (by rwa [hlength]) (shows_blank width height) ht
    rw [hshows x y hx (by rw [hsame, hlength]; exact cell_lt hx hy), Painting.paintAll_apply]

namespace Topmost

def bitmaps : List BitmapEvent := [square 0 1, square 1 2]

theorem placed_bitmaps : ∀ bitmap ∈ bitmaps, Placed 4 bitmap := by
  simp only [bitmaps, List.forall_mem_cons, List.not_mem_nil, false_implies, implies_true, and_true]
  exact ⟨⟨by decide, by decide, by decide⟩, ⟨by decide, by decide, by decide⟩⟩

theorem run_bitmaps : ∃ t, (transferAll 4 bitmaps).run (blank 4 3) = .ok () t := by
  have hok : outcome ((transferAll 4 bitmaps).run (blank 4 3)) = none := by
    decide +kernel
  cases hrun : (transferAll 4 bitmaps).run (blank 4 3) with
  | ok u t => exact ⟨t, rfl⟩
  | error e t =>
    rw [hrun] at hok
    cases hok

end Topmost

open Topmost in
theorem window_shows_topmost_two :
    (∀ bitmap ∈ bitmaps, Accepted 4 12 bitmap) ∧
      ∃ t, (transferAll 4 bitmaps).run (blank 4 3) = .ok () t ∧
        t.buffer[1 * 4 + 2]? = some ((Painting.topmost (bitmaps.map picture) (2, 1)).getD 0) := by
  obtain ⟨t, ht⟩ := run_bitmaps
  have h := @window_shows_topmost 4 3 (by decide) bitmaps placed_bitmaps
  exact ⟨h.1.mp ⟨t, ht⟩, t, ht, h.2 t ht 2 1 (by decide) (by decide)⟩

end Rdp.Mstsc.Screen
