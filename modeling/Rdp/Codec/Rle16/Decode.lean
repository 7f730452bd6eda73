import Rdp.Codec.Rle16.Lemmas.Meaning

/-!
The decoder paints the pixels that a sequence of orders stands for.
-/

namespace Rdp
namespace Rle16

variable {width height : Nat}

theorem length_renderFrom_ge (width : Nat) (mix : UInt16) (afterBackground : Bool) (pixels : List UInt16)
    (orders : List Order) : pixels.length ≤ (renderFrom width mix afterBackground pixels orders).length := by
  induction orders generalizing mix afterBackground pixels with
  | nil => exact Nat.le_refl _
  | cons order orders ih =>
    refine Nat.le_trans ?_ (ih _ _ _)
    rw [length_appendPixels]
    exact Nat.le_add_right _ _

theorem value_eq_of_ne {kind : Kind} (h : kind ≠ .background) (insert insert' : Bool) (mix : UInt16) :
    kind.value insert mix = kind.value insert' mix := by
  cases kind with
  | background => exact absurd rfl h
  | _ => rfl

/--
A `Scan` between two orders: what it remembers of the ones before is their foreground colour and
whether the last one was a background order.
-/
structure Ready (width height : Nat) (mix : UInt16) (afterBackground : Bool) (a : Scan) : Prop where
  bicolour : a.bicolour = false
  insertmix : a.insertmix = false
  mix_eq : a.mix = mix
  lastopcode : (a.lastopcode == 0) = afterBackground
  pixels_pos : afterBackground = true → a.pixels.length ≠ 0
  pixels_le : a.pixels.length ≤ width * height

theorem Order.Valid.size_pos {order : Order} (h : order.Valid) : 0 < order.size := by
  have := h.1
  unfold Order.size
  split <;> omega

theorem Ready.completed {mix : UInt16} {afterBackground : Bool} {a a' : Scan} {order : Order}
    {rest : Bytes} (h : Ready width height mix afterBackground a) (hvalid : order.Valid)
    (hroom : a.pixels.length + order.size ≤ width * height)
    (hcompleted : Completed width a order rest a') :
    Ready width height (order.kind.mix.getD mix) (order.kind == .background) a' ∧
      a'.pixels = appendPixels width
        (order.kind.value (afterBackground && a.pixels.length != width) (order.kind.mix.getD mix))
        0 order.size a.pixels := by
  have hpixels := hcompleted.pixels
  have hlength := congrArg List.length hpixels
  rw [length_appendPixels] at hlength
  have hsize := hvalid.size_pos
  refine ⟨?_, ?_⟩
  . constructor
    . exact hcompleted.bicolour
    . exact hcompleted.insertmix h.insertmix hsize
    . rw [hcompleted.mix, h.mix_eq]
    . exact hcompleted.lastopcode
    . intro _
      omega
    . omega
  . rw [hpixels, h.mix_eq, h.insertmix, h.lastopcode]
    by_cases hbackground : order.kind = .background
    . have hinsert : (false || (order.kind == .background && afterBackground &&
          !(a.pixels.length == 0 || a.pixels.length == width))) =
          (afterBackground && a.pixels.length != width) := by
        have := h.pixels_pos
        rw [hbackground]
        cases afterBackground with
        | false => simp
        | true => simp [this rfl, bne]
      rw [hinsert]
    . rw [value_eq_of_ne hbackground _ (afterBackground && a.pixels.length != width)]

variable (width height) in
theorem run_scan_orders {input : Bytes} {orders : List Order}
    (horders : Orders input orders) (hvalid : ∀ order ∈ orders, order.Valid) {mix : UInt16}
    {afterBackground : Bool} {a : Scan} (h : Ready width height mix afterBackground a)
    (hinput : a.input = input) (fuel : Nat) (hfuel : input.length ≤ fuel) :
    let pixels := renderFrom width mix afterBackground a.pixels orders
    let run := (Prog.whileLoop fuel inputLeft (scanOrder width height)).run a
    (pixels.length ≤ width * height → ∃ a', run = .ok () a' ∧ a'.pixels = pixels) ∧
    (width * height < pixels.length →
      ∃ a', run = .error (.error (.new .invalidData "error during decompress")) a') := by
  induction horders generalizing mix afterBackground a fuel with
  | nil =>
    have hdone : inputLeft.run a = .ok false a := by
      simp [inputLeft, hinput]
    simp only [renderFrom, Prog.run_whileLoop_of_false _ _ _ hdone]
    refine ⟨fun _ => ⟨a, rfl, rfl⟩, fun hfull => ?_⟩
    have := h.pixels_le
    omega
  | @cons input rest order orders hparse hrest ih =>
    have hmore : inputLeft.run a = .ok true a := by
      obtain ⟨op, count, tail, hheader⟩ := header_of_parseOrder hparse
      have := header_length hheader
      cases input with
      | nil => simp at this
      | cons c cs => simp [inputLeft, hinput]
    have hpos : 0 < input.length := by
      obtain ⟨op, count, tail, hheader⟩ := header_of_parseOrder hparse
      have := header_length hheader
      omega
    obtain ⟨fuel, rfl⟩ : ∃ n, fuel = n + 1 := ⟨fuel - 1, by omega⟩
    have hcurrent := hvalid order List.mem_cons_self
    rw [← hinput] at hparse
    simp only [renderFrom]
    rw [Prog.run_whileLoop_of_true _ _ _ hmore, EStateM.run_bind]
    by_cases hroom : a.pixels.length + order.size ≤ width * height
    . obtain ⟨a₁, hrun, hcompleted⟩ :=
        run_scanOrder_fits hparse h.bicolour hcurrent.2 hroom
      obtain ⟨hready, hpixels⟩ := h.completed hcurrent hroom hcompleted
      have hlt := scanOrder_input_lt hrun
      rw [hcompleted.input, hinput] at hlt
      rw [hrun, ← hpixels]
      exact ih (fun o ho => hvalid o (List.mem_cons_of_mem _ ho)) hready hcompleted.input fuel
        (by omega)
    . obtain ⟨a', hrun⟩ := run_scanOrder_full hparse h.bicolour hcurrent.2 h.pixels_le
        (Nat.lt_of_not_le hroom)
      rw [hrun]
      refine ⟨fun hle => ?_, fun _ => ⟨a', rfl⟩⟩
      have := length_renderFrom_ge width (order.kind.mix.getD mix)
        (order.kind == .background) (appendPixels width
          (order.kind.value (afterBackground && a.pixels.length != width) (order.kind.mix.getD mix))
          0 order.size a.pixels) orders
      rw [length_appendPixels] at this
      omega

theorem Ready.init (input : Bytes) : Ready width height 0xffff false (scanInit input) where
  bicolour := rfl
  insertmix := rfl
  mix_eq := rfl
  lastopcode := rfl
  pixels_pos := by simp
  pixels_le := Nat.zero_le _

theorem painted_of_orders {input : Bytes} {orders : List Order} {output : Slice UInt16}
    (hcells : width * height ≤ output.cells.length) (horders : Orders input orders)
    (hvalid : ∀ order ∈ orders, order.Valid)
    (hroom : (render width orders).length ≤ width * height) :
    ∃ s, rle16Decompress input width height output = .ok () s ∧
      Painted width height output.cells (render width orders) s.output s.trace := by
  obtain ⟨a, hrun, hpixels⟩ := (run_scan_orders width height horders hvalid
    (Ready.init input) rfl input.length (Nat.le_refl _)).1 hroom
  have hrelated := rle16Decompress_related input width height output hcells
  rw [show scan input width height = .ok () a from hrun] at hrelated
  obtain ⟨_, s, hdecompress, himage⟩ := hrelated.of_ok
  rw [Stopped, hpixels] at himage
  exact ⟨s, hdecompress, himage⟩

/--
A sequence of complete orders is decoded to the pixels it stands for, each written to its place in
the image, if they fit into it, and is rejected if they do not.
-/
theorem rle16Decompress_orders (input : Bytes) (orders : List Order) (width height : Nat)
    (output : Slice UInt16) (hcells : width * height ≤ output.cells.length)
    (horders : Orders input orders) (hvalid : ∀ order ∈ orders, order.Valid) :
    let pixels := render width orders
    (pixels.length ≤ width * height →
      ∃ s, rle16Decompress input width height output = .ok () s ∧
        s.output.length = output.cells.length ∧
        (∀ i (hi : i < pixels.length), s.output[scanIndex width height i]? = some pixels[i]) ∧
        ∀ j, (∀ i, i < pixels.length → scanIndex width height i ≠ j) →
          s.output[j]? = output.cells[j]?) ∧
    (width * height < pixels.length →
      ∃ s, rle16Decompress input width height output =
        .error (.error (.new .invalidData "error during decompress")) s) := by
  refine ⟨fun hroom => ?_, fun hover => ?_⟩
  . obtain ⟨s, hdecompress, himage⟩ := painted_of_orders hcells horders hvalid hroom
    exact ⟨s, hdecompress, himage.length_output, himage.written, himage.kept⟩
  . obtain ⟨a, hrun⟩ := (run_scan_orders width height horders hvalid
      (Ready.init input) rfl input.length (Nat.le_refl _)).2 hover
    have hrelated := rle16Decompress_related input width height output hcells
    rw [show scan input width height = .error _ a from hrun] at hrelated
    obtain ⟨s, hdecompress, _⟩ := hrelated.of_error
    exact ⟨s, hdecompress⟩

/--
A coloured run of two pixels, then a foreground one below the first and a black one below the second.
-/
theorem rle16Decompress_orders_two_rows :
    let pixels := render 2 [⟨.colour 0x1234, 2⟩, ⟨.foreground none, 1⟩, ⟨.black, 1⟩]
    (pixels.length ≤ 2 * 2 →
      ∃ s, rle16Decompress [0x62, 0x34, 0x12, 0x21, 0xFE] 2 2 ⟨[7, 7, 7, 7, 7], by decide⟩ = .ok () s ∧
        s.output.length = 5 ∧
        (∀ i (hi : i < pixels.length), s.output[scanIndex 2 2 i]? = some pixels[i]) ∧
        ∀ j, (∀ i, i < pixels.length → scanIndex 2 2 i ≠ j) →
          s.output[j]? = [7, 7, 7, 7, 7][j]?) ∧
    (2 * 2 < pixels.length →
      ∃ s, rle16Decompress [0x62, 0x34, 0x12, 0x21, 0xFE] 2 2 ⟨[7, 7, 7, 7, 7], by decide⟩ =
        .error (.error (.new .invalidData "error during decompress")) s) :=
  rle16Decompress_orders [0x62, 0x34, 0x12, 0x21, 0xFE]
    [⟨.colour 0x1234, 2⟩, ⟨.foreground none, 1⟩, ⟨.black, 1⟩] 2 2 ⟨[7, 7, 7, 7, 7], by decide⟩
    (by decide)
    (.cons rfl (.cons rfl (.cons rfl .nil)))
    (by simp [Order.Valid])

example : render 2 [⟨.colour 0x1234, 2⟩, ⟨.foreground none, 1⟩, ⟨.black, 1⟩] =
    [0x1234, 0x1234, 0xEDCB, 0] := by decide

end Rle16
end Rdp
