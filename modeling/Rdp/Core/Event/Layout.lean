import Rdp.Codec.Rle16.Decode
import Rdp.Codec.Rle32.Reject
import Rdp.Core.Event.Raster

/-!
This module compares the ways in which a bitmap is sent: which of them are decoded to the same
pixels, the top row first.
-/

namespace Rdp

/--
The rows of an image, the bottom row first.
-/
structure Picture (α : Type) (width height : Nat) where
  rows : List (List α)
  length_rows : rows.length = height
  length_row : ∀ row ∈ rows, row.length = width

structure Colour where
  blue : UInt8
  green : UInt8
  red : UInt8
  alpha : UInt8
  deriving DecidableEq, Repr

def Colour.bytes (c : Colour) : Bytes := [c.blue, c.green, c.red, c.alpha]

inductive Bitmap (width height : Nat) where
  | deep16 (picture : Picture UInt16 width height)
  | deep32 (picture : Picture Colour width height)

namespace Bitmap

variable {width height : Nat}

def bpp (bitmap : Bitmap width height) : UInt16 :=
  match bitmap with
  | deep16 _ => 16
  | deep32 _ => 32

/--
The pixels with four bytes each, the top row first.
-/
def shown (bitmap : Bitmap width height) : Bytes :=
  match bitmap with
  | deep16 picture => picture.rows.reverse.flatten.flatMap rgb32
  | deep32 picture => picture.rows.reverse.flatten.flatMap Colour.bytes

/--
The pixels as they are sent without a compression, the bottom row first.
-/
def wire (bitmap : Bitmap width height) : Bytes :=
  match bitmap with
  | deep16 picture => picture.rows.flatten.flatMap fun v => [.ofNat v.toNat, .ofNat (v.toNat / 256)]
  | deep32 picture => picture.rows.flatten.flatMap Colour.bytes

def Encoded (bitmap : Bitmap width height) (data : Bytes) : Prop :=
  match bitmap with
  | deep16 picture => ∃ orders, Rle16.Orders data orders ∧ (∀ order ∈ orders, order.Valid) ∧
    Rle16.render width orders = picture.rows.flatten
  | deep32 picture => ∃ (alpha red green blue : Rle32.Plane width height) (trailing : Bytes),
    data = Rle32.stream alpha red green blue trailing ∧
    alpha.lines = picture.rows.map (·.map Colour.alpha) ∧
    red.lines = picture.rows.map (·.map Colour.red) ∧
    green.lines = picture.rows.map (·.map Colour.green) ∧
    blue.lines = picture.rows.map (·.map Colour.blue)

end Bitmap

namespace BitmapEvent

/--
The event carries this bitmap, with the compression it announces.
-/
def Carries (self : BitmapEvent) (bitmap : Bitmap self.width.toNat self.height.toNat) : Prop :=
  self.bpp = bitmap.bpp ∧
    if self.isCompress then bitmap.Encoded self.data else self.data = bitmap.wire

/--
The event is decoded to the pixels it carries: uncompressed ones of 32 bits are not turned around,
and the indices of the other ones have to fit their words.
-/
def Lays (self : BitmapEvent) (bitmap : Bitmap self.width.toNat self.height.toNat) : Prop :=
  match bitmap with
  | .deep16 _ => self.isCompress = false → self.height.toNat * self.width.toNat ≤ 2 ^ 15
  | .deep32 picture =>
    if self.isCompress then 4 * (self.width.toNat * self.height.toNat) < 2 ^ 32
    else picture.rows = picture.rows.reverse

/--
The data of an uncompressed bitmap of 32 bits has the size of its pixels.
-/
def Sized (self : BitmapEvent) : Prop :=
  self.bpp = 32 → self.isCompress = false →
    self.data.length = self.width.toNat * self.height.toNat * 4

end BitmapEvent

theorem Rle16.scanIndex_scanIndex {width height i : Nat} (hi : i < width * height) :
    scanIndex width height (scanIndex width height i) = i := by
  have hwidth : 0 < width := Nat.pos_of_mul_pos_right (Nat.lt_of_le_of_lt (Nat.zero_le i) hi)
  have hrow : i / width < height := div_lt_of_lt_mul hi
  have hback : height - 1 - (height - 1 - i / width) = i / width :=
    Nat.sub_sub_self (Nat.le_sub_one_of_lt hrow)
  rw [scanIndex.eq_def width height i, scanIndex_add (Nat.mod_lt i hwidth), hback, Nat.mul_comm]
  exact Nat.div_add_mod i width

namespace Picture

variable {α : Type} {width height : Nat}

theorem length_flatten (picture : Picture α width height) :
    picture.rows.flatten.length = width * height := by
  rw [List.length_flatten, List.map_congr_left picture.length_row, List.map_const', List.sum_replicate_nat,
    picture.length_rows, Nat.mul_comm]

theorem getElem?_reverse (picture : Picture α width height) {p : Nat} (hp : p < width * height) :
    picture.rows.reverse.flatten[p]? = picture.rows.flatten[Rle16.scanIndex width height p]? := by
  have hwidth : 0 < width := Nat.pos_of_mul_pos_right (Nat.lt_of_le_of_lt (Nat.zero_le p) hp)
  have hcolumn := Nat.mod_lt p hwidth
  have hrow : p / width < height := Nat.div_lt_of_lt_mul hp
  have hsplit : p / width * width + p % width = p := by
    rw [Nat.mul_comm]
    exact Nat.div_add_mod p width
  have hlength : ∀ row ∈ picture.rows.reverse, row.length = width := by
    simpa using picture.length_row
  rw [Rle16.scanIndex, Chunks.getElem?_flatten picture.length_row hcolumn]
  calc
    picture.rows.reverse.flatten[p]? =
        picture.rows.reverse.flatten[p / width * width + p % width]? := by rw [hsplit]
    _ = picture.rows.reverse[p / width]?.bind (·[p % width]?) :=
        Chunks.getElem?_flatten hlength hcolumn
    _ = picture.rows[height - 1 - p / width]?.bind (·[p % width]?) := by
        rw [List.getElem?_reverse (by rwa [picture.length_rows]), picture.length_rows]

end Picture

namespace Colour

theorem length_bytes (c : Colour) : c.bytes.length = 4 := rfl

theorem bytes_inj (c c' : Colour) (h : c.bytes = c'.bytes) : c = c' := by
  cases c
  cases c'
  simpa [bytes] using h

end Colour

namespace BitmapEvent

variable {self : BitmapEvent}

theorem wordAt_flatMap {l : List UInt16} {k : Nat} {v : UInt16} (h : l[k]? = some v) :
    wordAt (l.flatMap fun v => [.ofNat v.toNat, .ofNat (v.toNat / 256)]) k = v := by
  have hbyte (o : Nat) (ho : o < 2) := Chunks.getElem?_flatMap
    (f := fun v : UInt16 => [UInt8.ofNat v.toNat, UInt8.ofNat (v.toNat / 256)]) (n := 2)
    (fun _ => rfl) l k ho
  have hlow := hbyte 0 (by decide)
  have hhigh := hbyte 1 (by decide)
  rw [h, Nat.mul_comm, Nat.add_zero] at hlow
  rw [h, Nat.mul_comm] at hhigh
  rw [wordAt, List.getD_eq_getElem?_getD, List.getD_eq_getElem?_getD, hlow, hhigh]
  exact le16_bytes v

section Deep16

variable {picture : Picture UInt16 self.width.toNat self.height.toNat}

theorem decompress_shown {input : List UInt16} (hbpp : self.bpp = 16)
    (hinput : self.decompress16 = .ok input)
    (hlength : self.width.toNat * self.height.toNat ≤ input.length)
    (hpixels : ∀ p < self.width.toNat * self.height.toNat,
      input[p]? = picture.rows.flatten[Rle16.scanIndex self.width.toNat self.height.toNat p]?) :
    self.decompress = .ok (Bitmap.deep16 picture).shown := by
  have htake : input.take (self.width.toNat * self.height.toNat) = picture.rows.reverse.flatten := by
    apply List.ext_getElem?
    intro p
    by_cases hp : p < self.width.toNat * self.height.toNat
    . rw [List.getElem?_take_of_lt hp, hpixels p hp, picture.getElem?_reverse hp]
    . have hreverse : picture.rows.reverse.flatten.length = self.width.toNat * self.height.toNat := by
        rw [← picture.length_flatten, List.length_flatten, List.length_flatten, List.map_reverse,
          List.sum_reverse]
      rw [List.getElem?_eq_none (by rw [List.length_take]; omega), List.getElem?_eq_none (by omega)]
  rw [decompress_eq_of_raw16 hbpp, hinput, Except.ok_bind,
    rgb565torgb32_eq hlength self.cells_lt_of_lt, htake, Bitmap.shown]

theorem decompress_rle16 (hbpp : self.bpp = 16) (hcompress : self.isCompress = true)
    (h : (Bitmap.deep16 picture).Encoded self.data) :
    self.decompress = .ok (Bitmap.deep16 picture).shown := by
  obtain ⟨orders, horders, hvalid, hrender⟩ := h
  have hlength := picture.length_flatten
  have hcells : self.width.toNat * self.height.toNat ≤
      (self.zeros (α := UInt16) 2 (by decide)).cells.length := by
    rw [zeros, List.length_replicate]
    omega
  obtain ⟨s, hrun, hpainted⟩ := Rle16.painted_of_orders hcells horders hvalid (by rw [hrender, hlength])
  have hinput : self.decompress16 = .ok s.output := by
    rw [decompress16, hcompress, if_pos rfl, hrun]
  apply decompress_shown hbpp hinput
  . rw [hpainted.length_output]
    exact hcells
  . intro p hp
    have hindex : Rle16.scanIndex self.width.toNat self.height.toNat p <
        (Rle16.render self.width.toNat orders).length := by
      rw [hrender, hlength]
      exact Rle16.scanIndex_lt hp
    have hwritten := hpainted.written _ hindex
    rw [Rle16.scanIndex_scanIndex hp] at hwritten
    rw [hwritten, ← List.getElem?_eq_getElem hindex, hrender]

theorem decompress_raw16 (hbpp : self.bpp = 16) (hraw : self.isCompress = false)
    (hdata : self.data = (Bitmap.deep16 picture).wire)
    (hcells : self.height.toNat * self.width.toNat ≤ 2 ^ 15) :
    self.decompress = .ok (Bitmap.deep16 picture).shown := by
  have hlength := picture.length_flatten
  have hbytes : self.data.length = 2 * (self.height.toNat * self.width.toNat) := by
    rw [hdata, Bitmap.wire, Chunks.length_flatMap (n := 2) fun _ => rfl, hlength]
    rw [Nat.mul_comm self.width.toNat, Nat.mul_comm]
  apply decompress_shown hbpp (decompress16_raw hraw hcells (Nat.le_of_eq hbytes.symm))
  . rw [List.length_map, List.length_range, Nat.mul_comm]
  . intro p hp
    have hindex : Rle16.scanIndex self.width.toNat self.height.toNat p < picture.rows.flatten.length := by
      rw [hlength]
      exact Rle16.scanIndex_lt hp
    have hv := List.getElem?_eq_getElem hindex
    rw [List.getElem?_map, List.getElem?_range (by rwa [Nat.mul_comm]), Option.map_some, hv, hdata,
      Bitmap.wire, wordAt_flatMap hv]

theorem decompress_raw16_iff (hbpp : self.bpp = 16) (hraw : self.isCompress = false)
    (hdata : self.data = (Bitmap.deep16 picture).wire) :
    self.decompress = .ok (Bitmap.deep16 picture).shown ↔
      self.height.toNat * self.width.toNat ≤ 2 ^ 15 := by
  -- Without a compression the indices have to fit their words.
  constructor
  . intro h
    rw [decompress_eq_of_raw16 hbpp] at h
    obtain ⟨input, hinput, _⟩ := Except.bind_eq_ok h
    exact (fits_of_decompress16 hraw hinput).2
  . exact decompress_raw16 hbpp hraw hdata

end Deep16

section Deep32

variable {picture : Picture Colour self.width.toNat self.height.toNat}

theorem decompress_eq_of_32 (hbpp : self.bpp = 32) : self.decompress = self.decompress32 := by
  rw [decompress, hbpp]
  rfl

theorem decompress_raw32_iff (hbpp : self.bpp = 32) (hraw : self.isCompress = false)
    (hdata : self.data = (Bitmap.deep32 picture).wire) (hwidth : 0 < self.width.toNat) :
    self.decompress = .ok (Bitmap.deep32 picture).shown ↔ picture.rows = picture.rows.reverse := by
  -- The pixels of an uncompressed bitmap stay in the order of the data.
  have hdecompress : self.decompress = .ok (picture.rows.flatten.flatMap Colour.bytes) := by
    rw [decompress_eq_of_32 hbpp, decompress32, hraw, if_neg Bool.false_ne_true, hdata, Bitmap.wire]
  rw [hdecompress, Bitmap.shown]
  constructor
  . intro h
    have hpixels : picture.rows.flatten = picture.rows.reverse.flatten :=
      Chunks.eq_of_flatMap Colour.length_bytes (by decide) Colour.bytes_inj (Except.ok.inj h)
    exact Chunks.eq_of_flatten hwidth picture.length_row (by simpa using picture.length_row) hpixels
  . intro h
    rw [← h]

theorem shown_cell (f : Colour → UInt8) {o p : Nat} (hf : ∀ c : Colour, c.bytes[o]? = some (f c))
    (ho : o < 4) : (Bitmap.deep32 picture).shown[p * 4 + o]? =
      (picture.rows.map (·.map f)).reverse.flatten[p]? := by
  have hchannel : (fun c : Colour => c.bytes[o]?) = fun c => some (f c) := funext hf
  rw [Bitmap.shown, Chunks.getElem?_flatMap Colour.length_bytes _ p ho, hchannel, ← List.map_reverse,
    ← List.map_flatten, List.getElem?_map, Option.map_eq_bind]
  rfl

theorem length_shown (picture : Picture Colour self.width.toNat self.height.toNat) :
    (Bitmap.deep32 picture).shown.length =
    4 * (self.width.toNat * self.height.toNat) := by
  have hreverse : picture.rows.reverse.flatten.length = picture.rows.flatten.length := by
    rw [List.length_flatten, List.length_flatten, List.map_reverse, List.sum_reverse]
  rw [Bitmap.shown, Chunks.length_flatMap Colour.length_bytes, hreverse, picture.length_flatten, Nat.mul_comm]

theorem decompress_rle32 (hbpp : self.bpp = 32) (hcompress : self.isCompress = true)
    (h : (Bitmap.deep32 picture).Encoded self.data) (hwidth : 0 < self.width.toNat)
    (hheight : 0 < self.height.toNat)
    (hsize : 4 * (self.width.toNat * self.height.toNat) < 2 ^ 32) :
    self.decompress = .ok (Bitmap.deep32 picture).shown := by
  obtain ⟨alpha, red, green, blue, trailing, hdata, halpha, hred, hgreen, hblue⟩ := h
  have hcells : (self.zeros (α := UInt8) 4 (by decide)).cells.length =
      4 * (self.width.toNat * self.height.toNat) := by
    rw [zeros, List.length_replicate, Nat.mul_comm]
  obtain ⟨s, hrun, hlength, hplanes⟩ := Rle32.run_decompress_stream alpha red green blue trailing
    (self.zeros 4 (by decide)) hwidth hheight hsize hcells
  have hbyte (p : Nat) (hp : p < self.width.toNat * self.height.toNat) :
      ∀ o < 4, s.output[Rle32.cell o p]? = (Bitmap.deep32 picture).shown[p * 4 + o]? := by
    have hat := fun plane hplane => hplanes plane hplane p hp
    simp only [List.forall_mem_cons] at hat
    obtain ⟨hat3, hat2, hat1, hat0, _⟩ := hat
    rw [halpha, ← shown_cell (o := 3) Colour.alpha (fun _ => rfl) (by decide)] at hat3
    rw [hred, ← shown_cell (o := 2) Colour.red (fun _ => rfl) (by decide)] at hat2
    rw [hgreen, ← shown_cell (o := 1) Colour.green (fun _ => rfl) (by decide)] at hat1
    rw [hblue, ← shown_cell (o := 0) Colour.blue (fun _ => rfl) (by decide)] at hat0
    intro o ho
    match o with
    | 0 => exact hat0
    | 1 => exact hat1
    | 2 => exact hat2
    | 3 => exact hat3
  have houtput : s.output = (Bitmap.deep32 picture).shown := by
    apply List.ext_getElem?
    intro j
    by_cases hj : j / 4 < self.width.toNat * self.height.toNat
    . have hcell := hbyte (j / 4) hj (j % 4) (Nat.mod_lt j (by decide))
      have hj : Rle32.cell (j % 4) (j / 4) = j := Nat.mod_add_div j 4
      have hj' : j / 4 * 4 + j % 4 = j := by omega
      rwa [hj, hj'] at hcell
    . have hshown := length_shown picture
      rw [List.getElem?_eq_none (by omega), List.getElem?_eq_none (by omega)]
  rw [decompress_eq_of_32 hbpp, decompress32, hcompress, if_pos rfl, hdata, hrun, ← houtput]

theorem decompress_rle32_iff (hbpp : self.bpp = 32) (hcompress : self.isCompress = true)
    (h : (Bitmap.deep32 picture).Encoded self.data) (hwidth : 0 < self.width.toNat)
    (hheight : 0 < self.height.toNat) :
    self.decompress = .ok (Bitmap.deep32 picture).shown ↔
      4 * (self.width.toNat * self.height.toNat) < 2 ^ 32 := by
  -- A compressed bitmap has to be smaller than what 32 bits count.
  constructor
  . intro hdecompress
    by_contra hsize
    obtain ⟨alpha, red, green, blue, trailing, hdata, _⟩ := h
    have hcells : (self.zeros (α := UInt8) 4 (by decide)).cells.length =
        self.width.toNat * self.height.toNat * 4 := List.length_replicate
    have hlong : 3 ≤ (self.zeros (α := UInt8) 4 (by decide)).cells.length := by omega
    obtain ⟨s, hrun⟩ := @Rle32.run_overflow _ _ _
      (alpha.bytes ++ (red.bytes ++ (green.bytes ++ (blue.bytes ++ trailing)))) hheight
      (Nat.le_of_not_lt hsize) hlong
    rw [decompress_eq_of_32 hbpp, decompress32, hcompress, if_pos rfl, hdata, Rle32.stream,
      Rle32.run_decompress_cons, hrun] at hdecompress
    cases hdecompress
  . exact decompress_rle32 hbpp hcompress h hwidth hheight

end Deep32

section Size

theorem length_decompress16 (hbpp : self.bpp = 16) {pixels : Bytes} (h : self.decompress = .ok pixels) :
    pixels.length = self.width.toNat * self.height.toNat * 4 := by
  rw [decompress_eq_of_raw16 hbpp] at h
  obtain ⟨input, _, hpixels⟩ := Except.bind_eq_ok h
  exact length_of_rgb565torgb32 hpixels

theorem length_decompress32 (hbpp : self.bpp = 32) (hcompress : self.isCompress = true) {pixels : Bytes}
    (h : self.decompress = .ok pixels) :
    pixels.length = self.width.toNat * self.height.toNat * 4 := by
  have hlength := Rle32.moves_decompress self.width.toNat self.height.toNat
    (Rle32.init self.data (self.zeros 4 (by decide)))
  rw [decompress_eq_of_32 hbpp, decompress32, hcompress, if_pos rfl, rle32Decompress] at h
  cases hrun : (Rle32.decompress self.width.toNat self.height.toNat).run
      (Rle32.init self.data (self.zeros 4 (by decide))) with
  | ok _ s =>
    rw [hrun] at h hlength
    cases h
    exact hlength.trans List.length_replicate
  | error e s =>
    rw [hrun] at h
    cases h

theorem length_decompress_iff (hbpp : self.bpp = 16 ∨ self.bpp = 32) :
    (∀ pixels, self.decompress = .ok pixels →
      pixels.length = self.width.toNat * self.height.toNat * 4) ↔ self.Sized := by
  constructor
  . intro h hdeep hraw
    apply h
    rw [decompress_eq_of_32 hdeep, decompress32, hraw, if_neg Bool.false_ne_true]
  . intro hsized pixels hpixels
    rcases hbpp with hbpp | hbpp
    . exact length_decompress16 hbpp hpixels
    . cases hcompress : self.isCompress with
      | true => exact length_decompress32 hbpp hcompress hpixels
      | false =>
        rw [decompress_eq_of_32 hbpp, decompress32, hcompress, if_neg Bool.false_ne_true] at hpixels
        cases hpixels
        exact hsized hbpp hcompress

end Size

theorem decompress_shown_iff {bitmap : Bitmap self.width.toNat self.height.toNat}
    (h : self.Carries bitmap) (hwidth : 0 < self.width.toNat) (hheight : 0 < self.height.toNat) :
    self.decompress = .ok bitmap.shown ↔ self.Lays bitmap := by
  obtain ⟨hbpp, hdata⟩ := h
  cases bitmap with
  | deep16 picture =>
    cases hcompress : self.isCompress with
    | true =>
      rw [hcompress, if_pos rfl] at hdata
      simp [Lays, hcompress, decompress_rle16 hbpp hcompress hdata]
    | false =>
      rw [hcompress, if_neg Bool.false_ne_true] at hdata
      simp [Lays, hcompress, decompress_raw16_iff hbpp hcompress hdata]
  | deep32 picture =>
    cases hcompress : self.isCompress with
    | true =>
      rw [hcompress, if_pos rfl] at hdata
      simp [Lays, hcompress, decompress_rle32_iff hbpp hcompress hdata hwidth hheight]
    | false =>
      rw [hcompress, if_neg Bool.false_ne_true] at hdata
      simp [Lays, hcompress, decompress_raw32_iff hbpp hcompress hdata hwidth]

/--
Which of the ways to send a bitmap are decoded to its pixels, the top row first, and for which data
of any kind the result has the size of the image.
-/
theorem layout_iff (self : BitmapEvent) :
    (∀ bitmap, self.Carries bitmap → 0 < self.width.toNat → 0 < self.height.toNat →
      (self.decompress = .ok bitmap.shown ↔ self.Lays bitmap)) ∧
    (self.bpp = 16 ∨ self.bpp = 32 →
      ((∀ pixels, self.decompress = .ok pixels →
        pixels.length = self.width.toNat * self.height.toNat * 4) ↔ self.Sized)) := by
  refine ⟨?_, length_decompress_iff⟩
  intro bitmap hcarries hwidth hheight
  exact decompress_shown_iff hcarries hwidth hheight

namespace Layout

def picture : Picture Colour 1 2 where
  rows := [[⟨0, 0, 0, 0⟩], [⟨0xff, 0xff, 0xff, 0⟩]]
  length_rows := rfl
  length_row := by decide

def event : BitmapEvent where
  destLeft := 0
  destTop := 0
  destRight := 0
  destBottom := 1
  width := 1
  height := 2
  bpp := 32
  isCompress := false
  data := [0, 0, 0, 0, 0xff, 0xff, 0xff, 0]

end Layout

theorem not_layout_two_rows : ¬ ∀ (event : BitmapEvent)
    (bitmap : Bitmap event.width.toNat event.height.toNat), event.Carries bitmap →
      0 < event.width.toNat → 0 < event.height.toNat → event.decompress = .ok bitmap.shown := by
  intro h
  have hshown := h Layout.event (.deep32 Layout.picture) ⟨rfl, rfl⟩ (by decide) (by decide)
  revert hshown
  decide

end BitmapEvent

end Rdp
