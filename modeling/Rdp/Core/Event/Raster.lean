import Rdp.Codec.Rle16.Lemmas.Image
import Rdp.Core.Event.Impl
import Rdp.Lib.Chunks
import Rdp.Lib.Fold

/-!
This module contains the loops over the pixels of a bitmap: the conversion of its colours, and the
copy that turns the rows of an uncompressed bitmap around.
-/

namespace Rdp

section ForPixels

variable {α : Type} {height width : Nat} {body : Nat → Nat → α → RdpResult α} {result result' : α}

theorem forPixels_of_step (P : Nat → α → Prop) (h : P 0 result)
    (hstep : ∀ i < height, ∀ j < width, ∀ result, P (i * width + j) result →
      ∃ result', body i j result = .ok result' ∧ P (i * width + j + 1) result') :
    ∃ result', forPixels height width body result = .ok result' ∧ P (height * width) result' := by
  have hrow (i : Nat) (hi : i < height) (row : α) (hrow : P (i * width) row) :
      ∃ row', (List.range width).foldlM (fun row j => body i j row) row = .ok row' ∧
        P ((i + 1) * width) row' := by
    rw [Nat.succ_mul]
    exact Except.foldlM_range_of_step (fun j row => P (i * width + j) row) hrow (hstep i hi)
  refine Except.foldlM_range_of_step (fun i result => P (i * width) result) ?_ hrow
  rwa [Nat.zero_mul]

theorem forPixels_of_ok (P : α → Prop) (h : P result)
    (hstep : ∀ i j result result', P result → body i j result = .ok result' → P result')
    (hpixels : forPixels height width body result = .ok result') : P result' := by
  refine Except.foldlM_range_of_ok P h ?_ hpixels
  intro i _ row row' hrow
  exact Except.foldlM_range_of_ok P hrow fun j _ => hstep i j

theorem step_of_forPixels (h : forPixels height width body result = .ok result') {i j : Nat}
    (hi : i < height) (hj : j < width) : ∃ before after, body i j before = .ok after := by
  obtain ⟨row, row', hrow⟩ := Except.step_of_foldlM_range h i hi
  exact Except.step_of_foldlM_range hrow j hj

theorem forPixels_eq_error {e : Fault Error}
    (h : forPixels height width body result = .error e) :
    ∃ i < height, ∃ j < width, ∃ before, body i j before = .error e := by
  obtain ⟨i, hi, row, hrow⟩ := Except.foldlM_range_eq_error h
  obtain ⟨j, hj, before, hbefore⟩ := Except.foldlM_range_eq_error hrow
  exact ⟨i, hi, j, hj, before, hbefore⟩

end ForPixels

section Convert

variable {width height : Nat} {input : List UInt16}

theorem length_rgb32 (v : UInt16) : (rgb32 v).length = 4 := rfl

theorem pixel_lt {i j : Nat} (hi : i < height) (hj : j < width) : i * width + j < height * width := by
  calc
    i * width + j < i * width + width := by omega
    _ = (i + 1) * width := (Nat.succ_mul i width).symm
    _ ≤ height * width := Nat.mul_le_mul_right width hi

theorem convertPixel_append {i j : Nat} {v : UInt16} (h : input[i * width + j]? = some v)
    {front old rest : Bytes} (hfront : front.length = (i * width + j) * 4) (hold : old.length = 4) :
    convertPixel input width i j (front ++ old ++ rest) = .ok (front ++ rgb32 v ++ rest) := by
  have hlt : (i * width + j) * 4 + 3 < (front ++ old ++ rest).length := by
    rw [List.length_append, List.length_append, hfront, hold]
    omega
  have htake : (front ++ old ++ rest).take ((i * width + j) * 4) = front := by
    rw [List.append_assoc, ← hfront, List.take_left]
  have hdrop : (front ++ old ++ rest).drop ((i * width + j) * 4 + 4) = rest := by
    rw [← hfront, ← hold, ← List.length_append, List.drop_left]
  rw [convertPixel, indexed, h, Except.ok_bind, if_pos hlt, htake, hdrop]
  rfl

/--
The pixels that were converted, and zeros for the others.
-/
def Converted (input : List UInt16) (cells k : Nat) (result : Bytes) : Prop :=
  result = (input.take k).flatMap rgb32 ++ List.replicate ((cells - k) * 4) 0

theorem Converted.step {result : Bytes} {i j : Nat}
    (h : Converted input (height * width) (i * width + j) result)
    (hinput : height * width ≤ input.length) (hi : i < height) (hj : j < width) :
    ∃ result', convertPixel input width i j result = .ok result' ∧
      Converted input (height * width) (i * width + j + 1) result' := by
  have hlt := pixel_lt hi hj
  obtain ⟨m, hm⟩ : ∃ m, height * width - (i * width + j) = m + 1 :=
    ⟨height * width - (i * width + j) - 1, by omega⟩
  have hv : input[i * width + j]? = some (input.getD (i * width + j) 0) := by
    rw [List.getD_eq_getElem?_getD, List.getElem?_eq_getElem (by omega), Option.getD_some]
  have hresult : result = (input.take (i * width + j)).flatMap rgb32 ++ List.replicate 4 0 ++
      List.replicate (m * 4) 0 := by
    rw [h, hm, List.append_assoc, List.replicate_append_replicate]
    congr 2
    omega
  refine ⟨(input.take (i * width + j)).flatMap rgb32 ++ rgb32 (input.getD (i * width + j) 0) ++
    List.replicate (m * 4) 0, ?_, ?_⟩
  . rw [hresult]
    apply convertPixel_append hv
    . rw [Chunks.length_flatMap length_rgb32, List.length_take, Nat.min_eq_left (by omega)]
    . exact List.length_replicate
  . have hnext : height * width - (i * width + j + 1) = m := by omega
    rw [Converted, hnext, List.take_add_one, hv, List.flatMap_append]
    simp

theorem rgb565torgb32_eq (hinput : width * height ≤ input.length) (hlt : width * height * 4 < 2 ^ 64) :
    rgb565torgb32 input width height = .ok ((input.take (width * height)).flatMap rgb32) := by
  have hsize : (do checkedMul 64 (← checkedMul 64 width height) 4 : RdpResult Nat) =
      .ok (width * height * 4) := by
    rw [checkedMul_of_lt (by omega), Except.ok_bind, checkedMul_of_lt hlt]
  have hstart : Converted input (height * width) 0 (List.replicate (width * height * 4) 0) := by
    rw [Converted, Nat.mul_comm height width]
    rfl
  obtain ⟨result, hresult, hdone⟩ := forPixels_of_step (Converted input (height * width)) hstart
    fun i hi j hj result h => h.step (by rwa [Nat.mul_comm]) hi hj
  rw [Converted, Nat.sub_self, Nat.zero_mul, List.replicate_zero, List.append_nil] at hdone
  unfold rgb565torgb32
  rw [← bind_assoc, hsize, Except.ok_bind, hresult, hdone, Nat.mul_comm]

theorem length_of_rgb565torgb32 {result : Bytes}
    (h : rgb565torgb32 input width height = .ok result) : result.length = width * height * 4 := by
  obtain ⟨cells, hcells, h⟩ := Except.bind_eq_ok h
  obtain ⟨size, hsize, h⟩ := Except.bind_eq_ok h
  refine forPixels_of_ok (fun result : Bytes => result.length = width * height * 4) ?_ ?_ h
  . unfold checkedMul at hcells hsize
    split at hcells <;> cases hcells
    split at hsize <;> cases hsize
    exact List.length_replicate
  . intro i j result result' hlength hstep
    obtain ⟨v, _, hstep⟩ := Except.bind_eq_ok hstep
    split at hstep
    next hlt =>
      cases hstep
      rw [← hlength]
      simp only [List.length_append, List.length_take, List.length_drop, length_rgb32]
      omega
    next => cases hstep

end Convert

def wordAt (data : Bytes) (k : Nat) : UInt16 := le16 (data.getD (2 * k) 0) (data.getD (2 * k + 1) 0)

theorem le16_eq_or (low high : UInt8) : high.toUInt16 <<< 8 ||| low.toUInt16 = le16 low high := by
  have hlow := low.toNat_lt
  have hhigh := high.toNat_lt
  have hshift : high.toNat <<< 8 = high.toNat * 256 := Nat.shiftLeft_eq _ _
  apply UInt16.toNat_inj.mp
  simp only [le16, UInt16.toNat_or, UInt16.toNat_shiftLeft, UInt8.toNat_toUInt16, UInt16.toNat_ofNat',
    UInt16.reduceToNat, Nat.reduceMod, hshift]
  rw [Nat.mod_eq_of_lt (show high.toNat * 256 < 2 ^ 16 by omega),
    Nat.mod_eq_of_lt (show low.toNat + 256 * high.toNat < 2 ^ 16 by omega), ← hshift,
    ← Nat.shiftLeft_add_eq_or_of_lt hlow, hshift]
  omega

theorem noErrors_indexed (data : List α) (index : Nat) : Except.NoErrors (indexed data index) := by
  unfold indexed
  split
  . apply Except.NoErrors.ok
  . apply Except.NoErrors.panic

theorem indexed_eq_ok {data : List α} {index : Nat} {a : α} :
    indexed data index = .ok a ↔ data[index]? = some a := by
  unfold indexed
  split <;> simp [*]

namespace BitmapEvent

variable {self : BitmapEvent} {i j : Nat}

theorem noErrors_copyPixel (i j : Nat) (result : List UInt16) :
    Except.NoErrors (self.copyPixel i j result) := by
  unfold copyPixel
  apply Except.NoErrors.bind (Except.NoErrors.of_checkedSub _ _)
  intro below
  apply Except.NoErrors.bind (Except.NoErrors.of_checkedSub _ _)
  intro row
  apply Except.NoErrors.bind (Except.NoErrors.of_checkedMul _ _ _)
  intro start
  apply Except.NoErrors.bind (Except.NoErrors.of_checkedAdd _ _ _)
  intro pixel
  apply Except.NoErrors.bind (Except.NoErrors.of_checkedMul _ _ _)
  intro src
  apply Except.NoErrors.bind (noErrors_indexed _ _)
  intro high
  apply Except.NoErrors.bind (noErrors_indexed _ _)
  intro low
  apply Except.NoErrors.bind (Except.NoErrors.of_checkedMul _ _ _)
  intro above
  apply Except.NoErrors.bind (Except.NoErrors.of_checkedAdd _ _ _)
  intro index
  split
  . apply Except.NoErrors.ok
  . apply Except.NoErrors.panic

theorem copyPixel_eq {result : List UInt16} (hi : i < self.height.toNat) (hj : j < self.width.toNat)
    (hcells : self.height.toNat * self.width.toNat ≤ 2 ^ 15)
    (hdata : 2 * (self.height.toNat * self.width.toNat) ≤ self.data.length)
    (hresult : i * self.width.toNat + j < result.length) :
    self.copyPixel i j result = .ok (result.set (i * self.width.toNat + j)
      (wordAt self.data ((self.height.toNat - 1 - i) * self.width.toNat + j))) := by
  have hsource := pixel_lt (show self.height.toNat - 1 - i < self.height.toNat by omega) hj
  have htarget := pixel_lt hi hj
  have hrow : self.height.toNat - i - 1 = self.height.toNat - 1 - i := by omega
  have hbyte (k : Nat) (hk : k < self.data.length) : indexed self.data k = .ok (self.data.getD k 0) := by
    rw [indexed_eq_ok, List.getD_eq_getElem?_getD, List.getElem?_eq_getElem hk, Option.getD_some]
  unfold copyPixel
  rw [checkedSub_of_le (by omega), Except.ok_bind, checkedSub_of_le (by omega), Except.ok_bind, hrow,
    checkedMul_of_lt (by omega), Except.ok_bind, checkedAdd_of_lt (by omega), Except.ok_bind,
    checkedMul_of_lt (by omega), Except.ok_bind, hbyte _ (by omega), Except.ok_bind,
    hbyte _ (by omega), Except.ok_bind, checkedMul_of_lt (by omega), Except.ok_bind,
    checkedAdd_of_lt (by omega), Except.ok_bind, if_pos hresult, le16_eq_or, wordAt, Nat.mul_comm 2]
  rfl

/--
The pixels that were copied, and zeros for the others.
-/
def Copied (self : BitmapEvent) (k : Nat) (result : List UInt16) : Prop :=
  result = (List.range k).map (fun p =>
    wordAt self.data (Rle16.scanIndex self.width.toNat self.height.toNat p)) ++
    List.replicate (self.height.toNat * self.width.toNat - k) 0

theorem Copied.step {result : List UInt16} (h : Copied self (i * self.width.toNat + j) result)
    (hi : i < self.height.toNat) (hj : j < self.width.toNat)
    (hcells : self.height.toNat * self.width.toNat ≤ 2 ^ 15)
    (hdata : 2 * (self.height.toNat * self.width.toNat) ≤ self.data.length) :
    ∃ result', self.copyPixel i j result = .ok result' ∧
      Copied self (i * self.width.toNat + j + 1) result' := by
  have hlt := pixel_lt hi hj
  obtain ⟨m, hm⟩ : ∃ m, self.height.toNat * self.width.toNat - (i * self.width.toNat + j) = m + 1 :=
    ⟨self.height.toNat * self.width.toNat - (i * self.width.toNat + j) - 1, by omega⟩
  have hnext : self.height.toNat * self.width.toNat - (i * self.width.toNat + j + 1) = m := by omega
  refine ⟨_, copyPixel_eq hi hj hcells hdata ?_, ?_⟩
  . rw [h]
    simp only [List.length_append, List.length_map, List.length_range, List.length_replicate]
    omega
  . rw [Copied, hnext, List.range_succ, List.map_append, h, hm, List.replicate_succ,
      List.set_append_right _ _ (by simp)]
    simp [Rle16.scanIndex_add hj]

theorem decompress16_raw (hraw : self.isCompress = false)
    (hcells : self.height.toNat * self.width.toNat ≤ 2 ^ 15)
    (hdata : 2 * (self.height.toNat * self.width.toNat) ≤ self.data.length) :
    self.decompress16 = .ok ((List.range (self.height.toNat * self.width.toNat)).map fun p =>
      wordAt self.data (Rle16.scanIndex self.width.toNat self.height.toNat p)) := by
  have hstart : Copied self 0 (List.replicate (self.width.toNat * self.height.toNat) 0) := by
    rw [Copied, Nat.mul_comm]
    rfl
  obtain ⟨result, hresult, hdone⟩ := forPixels_of_step (Copied self) hstart
    fun i hi j hj result h => h.step hi hj hcells hdata
  rw [Copied, Nat.sub_self, List.replicate_zero, List.append_nil] at hdone
  rw [decompress16, hraw, if_neg Bool.false_ne_true, hresult, hdone]

theorem fits_of_decompress16 (hraw : self.isCompress = false) {result : List UInt16}
    (h : self.decompress16 = .ok result) :
    2 * (self.height.toNat * self.width.toNat) ≤ self.data.length ∧
      self.height.toNat * self.width.toNat ≤ 2 ^ 15 := by
  rw [decompress16, hraw, if_neg Bool.false_ne_true] at h
  by_cases hempty : self.height.toNat = 0 ∨ self.width.toNat = 0
  . rcases hempty with hempty | hempty <;> simp [hempty]
  . -- the last pixel of the first row has the highest source index
    rw [not_or] at hempty
    obtain ⟨m, hm⟩ : ∃ m, self.height.toNat = m + 1 := ⟨self.height.toNat - 1, by omega⟩
    obtain ⟨before, after, hpixel⟩ := step_of_forPixels h (i := 0) (j := self.width.toNat - 1)
      (by omega) (by omega)
    obtain ⟨below, hbelow, hpixel⟩ := Except.bind_eq_ok hpixel
    obtain ⟨row, hrow, hpixel⟩ := Except.bind_eq_ok hpixel
    obtain ⟨start, hstart, hpixel⟩ := Except.bind_eq_ok hpixel
    obtain ⟨pixel, hindex, hpixel⟩ := Except.bind_eq_ok hpixel
    obtain ⟨src, hsrc, hpixel⟩ := Except.bind_eq_ok hpixel
    obtain ⟨high, hhigh, _⟩ := Except.bind_eq_ok hpixel
    obtain ⟨_, rfl⟩ := checkedSub_eq_ok.mp hbelow
    obtain ⟨_, rfl⟩ := checkedSub_eq_ok.mp hrow
    obtain ⟨_, rfl⟩ := checkedMul_eq_ok.mp hstart
    obtain ⟨_, rfl⟩ := checkedAdd_eq_ok.mp hindex
    obtain ⟨hlt, rfl⟩ := checkedMul_eq_ok.mp hsrc
    obtain ⟨hdata, _⟩ := List.getElem?_eq_some_iff.mp (indexed_eq_ok.mp hhigh)
    rw [hm, Nat.sub_zero, Nat.add_sub_cancel] at hlt hdata
    have hcells : self.height.toNat * self.width.toNat = m * self.width.toNat + self.width.toNat := by
      rw [hm, Nat.succ_mul]
    omega

theorem noErrors_decompress16 (hraw : self.isCompress = false) :
    Except.NoErrors self.decompress16 := by
  intro e h
  rw [decompress16, hraw, if_neg Bool.false_ne_true] at h
  obtain ⟨i, _, j, _, before, hpixel⟩ := forPixels_eq_error h
  exact noErrors_copyPixel i j before e hpixel

/--
Data that is too short is an error, and otherwise the pixels are the ones of the data, converted and
with the rows turned around.
-/
def Flips (self : BitmapEvent) : Prop :=
  (self.data.length < 2 * (self.height.toNat * self.width.toNat) →
    ∃ e, self.decompress = .error (.error e)) ∧
  (2 * (self.height.toNat * self.width.toNat) ≤ self.data.length →
    ∃ pixels, self.decompress = .ok pixels ∧
      pixels.length = 4 * (self.height.toNat * self.width.toNat) ∧
      ∀ i < self.height.toNat, ∀ j < self.width.toNat,
        (pixels.drop (4 * (i * self.width.toNat + j))).take 4 =
          rgb32 (wordAt self.data ((self.height.toNat - 1 - i) * self.width.toNat + j)))

theorem cells_lt_of_lt (self : BitmapEvent) : self.width.toNat * self.height.toNat * 4 < 2 ^ 64 := by
  have := self.cells_lt 4 (by decide)
  omega

theorem decompress_eq_of_raw16 (hbpp : self.bpp = 16) :
    self.decompress = (do
      rgb565torgb32 (← self.decompress16) self.width.toNat self.height.toNat) := by
  rw [decompress, hbpp]
  rfl

theorem take_flatMap_rgb32 {input : List UInt16} {k : Nat} {v : UInt16} (h : input[k]? = some v) :
    ((input.flatMap rgb32).drop (4 * k)).take 4 = rgb32 v := by
  obtain ⟨hk, hv⟩ := List.getElem?_eq_some_iff.mp h
  rw [Chunks.drop_flatMap length_rgb32, List.drop_eq_getElem_cons hk, List.flatMap_cons, hv,
    List.take_left' (length_rgb32 v)]

theorem flips_of_fits (hbpp : self.bpp = 16) (hraw : self.isCompress = false)
    (hdata : 2 * (self.height.toNat * self.width.toNat) ≤ self.data.length)
    (hcells : self.height.toNat * self.width.toNat ≤ 2 ^ 15) : self.Flips := by
  refine ⟨fun hlt => absurd hdata (Nat.not_le_of_lt hlt), ?_⟩
  intro _
  obtain ⟨input, hinput⟩ : ∃ input : List UInt16,
      input = (List.range (self.height.toNat * self.width.toNat)).map fun p =>
        wordAt self.data (Rle16.scanIndex self.width.toNat self.height.toNat p) := ⟨_, rfl⟩
  have hlength : input.length = self.width.toNat * self.height.toNat := by
    rw [hinput, List.length_map, List.length_range, Nat.mul_comm]
  have hconvert := rgb565torgb32_eq (Nat.le_of_eq hlength.symm) self.cells_lt_of_lt
  rw [← hlength, List.take_length] at hconvert
  refine ⟨input.flatMap rgb32, ?_, ?_, ?_⟩
  . rw [decompress_eq_of_raw16 hbpp, decompress16_raw hraw hcells hdata, ← hinput]
    exact hconvert
  . rw [Chunks.length_flatMap length_rgb32, hlength, Nat.mul_comm _ 4, Nat.mul_comm self.height.toNat]
  . intro i hi j hj
    apply take_flatMap_rgb32
    rw [hinput, List.getElem?_map, List.getElem?_range (pixel_lt hi hj), Option.map_some,
      Rle16.scanIndex_add hj]

theorem fits_of_flips (hbpp : self.bpp = 16) (hraw : self.isCompress = false) (h : self.Flips) :
    2 * (self.height.toNat * self.width.toNat) ≤ self.data.length ∧
      self.height.toNat * self.width.toNat ≤ 2 ^ 15 := by
  rw [Flips, decompress_eq_of_raw16 hbpp] at h
  by_cases hdata : 2 * (self.height.toNat * self.width.toNat) ≤ self.data.length
  . obtain ⟨pixels, hpixels, _⟩ := h.2 hdata
    obtain ⟨result, hresult, _⟩ := Except.bind_eq_ok hpixels
    exact fits_of_decompress16 hraw hresult
  . -- what is too short aborts
    obtain ⟨e, he⟩ := h.1 (Nat.lt_of_not_le hdata)
    cases hresult : self.decompress16 with
    | ok result => exact absurd (fits_of_decompress16 hraw hresult).1 hdata
    | error e' =>
      rw [hresult] at he
      cases he
      exact absurd (Fault.isError_error e) (noErrors_decompress16 hraw _ hresult)

/--
Uncompressed bitmaps of 16 bits a pixel are decoded right where their data is complete and all of
its bytes have an index of 16 bits.
-/
theorem flips_iff (hbpp : self.bpp = 16) (hraw : self.isCompress = false) :
    self.Flips ↔ 2 * (self.height.toNat * self.width.toNat) ≤ self.data.length ∧
      self.height.toNat * self.width.toNat ≤ 2 ^ 15 := by
  constructor
  . exact fits_of_flips hbpp hraw
  . rintro ⟨hdata, hcells⟩
    exact flips_of_fits hbpp hraw hdata hcells

namespace Flips

def raw (width height : UInt16) (data : Bytes) : BitmapEvent where
  destLeft := 0
  destTop := 0
  destRight := 0
  destBottom := 0
  width := width
  height := height
  bpp := 16
  isCompress := false
  data := data

end Flips

theorem flips_two_rows : (Flips.raw 1 2 [1, 2, 3, 4]).Flips := by
  apply (flips_iff rfl rfl).mpr
  decide

/--
A complete image of 256 times 256 pixels.
-/
theorem not_flips_square : ¬ (Flips.raw 256 256 (List.replicate (2 ^ 17) 0)).Flips := by
  intro h
  have hfits := (fits_of_flips rfl rfl h).2
  revert hfits
  decide

end BitmapEvent

end Rdp
