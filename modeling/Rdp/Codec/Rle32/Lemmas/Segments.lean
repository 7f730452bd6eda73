import Rdp.Codec.Rle32.Lemmas.Simulation

/-!
What a `Scan` does with the segments of its input.
-/

namespace Rdp
namespace Rle32

variable {width : Nat}

def Scan.pixels (a : Scan) (vs : Bytes) : List UInt8 :=
  if a.known.isEmpty then
    vs
  else
    List.zipWith addDelta (a.known.drop a.done.length) vs

def Scan.paints (a : Scan) (vs : Bytes) : Scan :=
  { a with
    done := a.done ++ a.pixels vs
    cells := a.cells ++ (List.range' (a.start + a.done.length) vs.length) }

/--
What a `Scan` becomes when it reads its input up to `input`, the last raw byte of which is `last`.
-/
def Scan.reads (a : Scan) (input : Bytes) (last : UInt8) : Scan := { a with input, last }

section Simp

variable (a : Scan) (input : Bytes) (last : UInt8) (vs : Bytes)

@[simp]
theorem Scan.reads_input : (a.reads input last).input = input := rfl

@[simp]
theorem Scan.reads_last : (a.reads input last).last = last := rfl

@[simp]
theorem Scan.reads_done : (a.reads input last).done = a.done := rfl

@[simp]
theorem Scan.reads_limit : (a.reads input last).limit width = a.limit width := rfl

@[simp]
theorem Scan.paints_input : (a.paints vs).input = a.input := rfl

@[simp]
theorem Scan.paints_last : (a.paints vs).last = a.last := rfl

@[simp]
theorem Scan.paints_limit : (a.paints vs).limit width = a.limit width := rfl

theorem Scan.paints_reads : (a.paints vs).reads input last = (a.reads input last).paints vs := rfl

end Simp

theorem Scan.length_pixels {a : Scan} {vs : Bytes} (h : a.done.length + vs.length ≤ a.limit width) :
    (a.pixels vs).length = vs.length := by
  unfold Scan.limit at h
  unfold Scan.pixels
  split at h
  next hempty => rw [if_pos hempty]
  next hempty =>
    rw [if_neg hempty, List.length_zipWith, List.length_drop]
    omega

theorem Scan.length_paints {a : Scan} {vs : Bytes} (h : a.done.length + vs.length ≤ a.limit width) :
    (a.paints vs).done.length = a.done.length + vs.length := by
  rw [Scan.paints, List.length_append, Scan.length_pixels h]

@[simp]
theorem Scan.paints_nil (a : Scan) : a.paints [] = a := by
  simp [Scan.paints, Scan.pixels]

theorem zipWith_append_right (f : α → β → γ) (as : List α) (bs bs' : List β) :
    List.zipWith f as (bs ++ bs') = List.zipWith f as bs ++ List.zipWith f (as.drop bs.length) bs' := by
  induction bs generalizing as with
  | nil => simp
  | cons b bs ih =>
    cases as with
    | nil => simp
    | cons a as => simp [ih]

theorem Scan.pixels_append {a : Scan} {vs ws : Bytes}
    (h : a.done.length + vs.length ≤ a.limit width) :
    a.pixels (vs ++ ws) = a.pixels vs ++ (a.paints vs).pixels ws := by
  have hlength := Scan.length_paints h
  unfold Scan.pixels
  rw [hlength]
  unfold Scan.limit at h
  simp only [Scan.paints]
  split at h
  next hempty => simp [hempty]
  next hempty =>
    simp only [hempty, if_false, Bool.false_eq_true]
    rw [zipWith_append_right, List.drop_drop]

theorem Scan.paints_append {a : Scan} {vs ws : Bytes}
    (h : a.done.length + vs.length ≤ a.limit width) :
    a.paints (vs ++ ws) = (a.paints vs).paints ws := by
  have hlength := Scan.length_paints h
  rw [Scan.paints, Scan.pixels_append h]
  unfold Scan.paints at hlength ⊢
  simp only at hlength ⊢
  rw [hlength, List.append_assoc, List.append_assoc, List.length_append, ← Nat.add_assoc,
    List.range'_append_1]

theorem Scan.length_paints_one {a : Scan} (h : a.done.length < a.limit width) (v : UInt8) :
    (a.paints [v]).done.length = a.done.length + 1 :=
  Scan.length_paints (show a.done.length + [v].length ≤ a.limit width from h)

theorem Scan.paints_cons {a : Scan} (h : a.done.length < a.limit width) (v : UInt8) (vs : Bytes) :
    a.paints (v :: vs) = (a.paints [v]).paints vs :=
  Scan.paints_append (show a.done.length + [v].length ≤ a.limit width from h)

theorem run_scanPixel {a : Scan} (h : a.done.length < a.limit width) :
    (scanPixel width).run a = .ok () (a.paints [a.last]) := by
  have hvalue : ∃ v, a.value width = some v ∧ a.pixels [a.last] = [v] := by
    unfold Scan.limit at h
    unfold Scan.value Scan.pixels
    split at h
    next hempty => exact ⟨a.last, by simp [hempty, h], by simp [hempty]⟩
    next hempty =>
      refine ⟨addDelta a.known[a.done.length] a.last, ?_, ?_⟩
      . simp [hempty, h]
      . rw [if_neg hempty, List.drop_eq_getElem_cons h, List.zipWith_cons_cons, List.zipWith_nil_right]
  obtain ⟨v, hvalue, hpixels⟩ := hvalue
  simp only [scanPixel, EStateM.run_bind, EStateM.run_get, hvalue, EStateM.run_set]
  rw [Scan.paint, Scan.paints, hpixels]
  rfl

theorem run_scanPixel_outside {a : Scan} (h : a.limit width ≤ a.done.length) :
    (scanPixel width).run a = .error (.panic "index out of bounds") a := by
  have hvalue : a.value width = none := by
    unfold Scan.limit at h
    unfold Scan.value
    split at h
    next hempty => simp [hempty, Nat.not_lt.mpr h]
    next hempty => simp [hempty, h]
  simp only [scanPixel, EStateM.run_bind, EStateM.run_get, hvalue]
  rfl

section Times

theorem run_times_scanPixel {n : Nat} {a : Scan} (h : a.done.length + n ≤ a.limit width) :
    (Prog.times n (scanPixel width)).run a = .ok () (a.paints (List.replicate n a.last)) := by
  induction n generalizing a with
  | zero =>
    rw [List.replicate_zero, Scan.paints_nil]
    rfl
  | succ n ih =>
    have hlt : a.done.length < a.limit width := by omega
    have hone := Scan.length_paints_one hlt a.last
    rw [Prog.times_succ, EStateM.run_bind, run_scanPixel hlt]
    simp only
    rw [ih (by rw [hone, Scan.paints_limit]; omega), List.replicate_succ]
    exact congrArg _ (Scan.paints_cons hlt _ _).symm

theorem run_times_scanPixel_outside {n : Nat} {a : Scan} (hle : a.done.length ≤ a.limit width)
    (h : a.limit width < a.done.length + n) :
    ∃ a', (Prog.times n (scanPixel width)).run a = .error (.panic "index out of bounds") a' := by
  obtain ⟨m, hm⟩ : ∃ m, n = (a.limit width - a.done.length) + (m + 1) :=
    ⟨n - (a.limit width - a.done.length) - 1, by omega⟩
  have hfits : a.done.length + (List.replicate (a.limit width - a.done.length) a.last).length ≤
      a.limit width := by
    rw [List.length_replicate]
    omega
  have hlength := Scan.length_paints hfits
  rw [List.length_replicate] at hlength
  rw [hm, Prog.times_add, EStateM.run_bind, run_times_scanPixel (by omega)]
  simp only
  rw [Prog.times_succ, EStateM.run_bind, run_scanPixel_outside]
  . exact ⟨_, rfl⟩
  . rw [hlength, Scan.paints_limit]
    omega

theorem run_scanRaw_cons {a : Scan} {v : UInt8} {rest : Bytes} (hinput : a.input = v :: rest) :
    (scanRaw width).run a = (scanPixel width).run (a.reads rest v) := by
  rw [scanRaw, EStateM.run_bind, run_scanCursor, hinput]
  rfl

theorem run_scanRaw_nil {a : Scan} (hinput : a.input = []) :
    (scanRaw width).run a = .error (.error (.io .unexpectedEof)) a := by
  rw [scanRaw, EStateM.run_bind, run_scanCursor, hinput]
  cases a
  cases hinput
  rfl

theorem run_times_scanRaw {raw rest : Bytes} {a : Scan} (hinput : a.input = raw ++ rest)
    (h : a.done.length + raw.length ≤ a.limit width) :
    (Prog.times raw.length (scanRaw width)).run a =
      .ok () ((a.reads rest (raw.getLastD a.last)).paints raw) := by
  induction raw generalizing a with
  | nil =>
    rw [Scan.paints_nil]
    cases a
    cases hinput
    rfl
  | cons v raw ih =>
    have hlength : a.done.length + (raw.length + 1) ≤ a.limit width := h
    have hcons : a.input = v :: (raw ++ rest) := hinput
    have hlt : (a.reads (raw ++ rest) v).done.length < (a.reads (raw ++ rest) v).limit width := by
      rw [Scan.reads_limit, Scan.reads_done]
      omega
    have hone := Scan.length_paints_one hlt v
    have hrun := ih (a := (a.reads (raw ++ rest) v).paints [v]) rfl (by
      rw [hone, Scan.paints_limit, Scan.reads_limit, Scan.reads_done]
      omega)
    rw [List.length_cons, Prog.times_succ, EStateM.run_bind, run_scanRaw_cons hcons,
      run_scanPixel hlt]
    simp only [Scan.reads_last]
    rw [hrun, Scan.paints_reads, ← Scan.paints_cons (by exact hlt)]
    cases raw <;> rfl

theorem run_times_scanRaw_short {n : Nat} {a : Scan} (hinput : a.input.length < n)
    (h : a.done.length + a.input.length ≤ a.limit width) :
    (Prog.times n (scanRaw width)).run a =
      .error (.error (.io .unexpectedEof))
        ((a.reads [] (a.input.getLastD a.last)).paints a.input) := by
  obtain ⟨m, rfl⟩ : ∃ m, n = a.input.length + (m + 1) := ⟨n - a.input.length - 1, by omega⟩
  rw [Prog.times_add, EStateM.run_bind, run_times_scanRaw (List.append_nil _).symm h]
  simp only
  rw [Prog.times_succ, EStateM.run_bind, run_scanRaw_nil rfl]

theorem run_times_scanRaw_outside {n : Nat} {a : Scan} (hle : a.done.length ≤ a.limit width)
    (hinput : a.limit width < a.done.length + a.input.length)
    (h : a.limit width < a.done.length + n) :
    ∃ a', (Prog.times n (scanRaw width)).run a = .error (.panic "index out of bounds") a' := by
  obtain ⟨k, hk⟩ : ∃ k, k = a.limit width - a.done.length := ⟨_, rfl⟩
  obtain ⟨m, rfl⟩ : ∃ m, n = k + (m + 1) := ⟨n - k - 1, by omega⟩
  have htake : (a.input.take k).length = k := by
    rw [List.length_take]
    omega
  have hdrop : a.input.drop k = a.input[k] :: a.input.drop (k + 1) :=
    List.drop_eq_getElem_cons (by omega)
  have hfits : a.done.length + (a.input.take k).length ≤ a.limit width := by omega
  have hrun := run_times_scanRaw (List.take_append_drop k a.input).symm hfits
  have hlength := Scan.length_paints
    (show (a.reads (a.input.drop k) ((a.input.take k).getLastD a.last)).done.length +
      (a.input.take k).length ≤ a.limit width from hfits)
  rw [htake] at hrun hlength
  rw [Prog.times_add, EStateM.run_bind, hrun]
  simp only
  rw [Prog.times_succ, EStateM.run_bind, run_scanRaw_cons hdrop, run_scanPixel_outside]
  . exact ⟨_, rfl⟩
  . rw [Scan.reads_limit, Scan.paints_limit, Scan.reads_limit, Scan.reads_done, hlength,
      Scan.reads_done]
    omega

end Times

section Segment

theorem readCode_eq (code : UInt8) :
    (if ((code &&& 0xf) <<< 4 ||| (code >>> 4 &&& 0xf)) ≤ 47 &&
        ((code &&& 0xf) <<< 4 ||| (code >>> 4 &&& 0xf)) ≥ 16 then
      (0, ((code &&& 0xf) <<< 4 ||| (code >>> 4 &&& 0xf)).toNat)
    else
      ((code >>> 4 &&& 0xf).toNat, (code &&& 0xf).toNat)) = (rawLength code, runLength code) := by
  revert code
  exact forall_uint8 (by decide +kernel)

theorem run_readCode {a : Scan} {code : UInt8} {rest : Bytes} (hinput : a.input = code :: rest) :
    (scanCursor readCode).run a = .ok (rawLength code, runLength code) { a with input := rest } := by
  have hcode : readCode.run (code :: rest) = .ok (rawLength code, runLength code) rest := by
    rw [← readCode_eq, readCode, EStateM.run_bind, Cursor.run_readU8_cons]
    simp only
    split <;> rfl
  rw [run_scanCursor, hinput, hcode]

theorem run_scanSegment_nil {a : Scan} (hinput : a.input = []) :
    (scanSegment width).run a = .error (.error (.io .unexpectedEof)) a := by
  rw [scanSegment, EStateM.run_bind, run_scanCursor, hinput]
  cases a
  cases hinput
  rfl

variable (s : Segment)

theorem Segment.length_expand (last : UInt8) : (s.expand last).length = s.length := by
  rw [Segment.expand, List.length_append, List.length_replicate, s.length_raw, Segment.length]

theorem run_scanSegment_cons {a : Scan} {code : UInt8} {rest : Bytes} (hinput : a.input = code :: rest) :
    (scanSegment width).run a =
      (do
        Prog.times (rawLength code) (scanRaw width)
        Prog.times (runLength code) (scanPixel width) : Prog Error Scan Unit).run
          (a.reads rest a.last) := by
  rw [scanSegment, EStateM.run_bind, run_readCode hinput]
  rfl

theorem run_scanSegment {a : Scan} {rest : Bytes} (hinput : a.input = s.bytes ++ rest)
    (h : a.done.length + s.length ≤ a.limit width) :
    (scanSegment width).run a = .ok () ((a.reads rest (s.last a.last)).paints (s.expand a.last)) := by
  have hcons : a.input = s.code :: (s.raw ++ rest) := hinput
  have hlength : s.length = s.raw.length + runLength s.code := by
    rw [Segment.length, s.length_raw]
  have hroom : (a.reads rest (s.last a.last)).done.length + s.raw.length ≤
      (a.reads rest (s.last a.last)).limit width := by
    rw [Scan.reads_done, Scan.reads_limit]
    omega
  have hpaints := Scan.length_paints hroom
  have hinput' : (a.reads (s.raw ++ rest) a.last).input = s.raw ++ rest := rfl
  have hraw := run_times_scanRaw hinput' hroom
  have hlast : ((a.reads (s.raw ++ rest) a.last).reads rest (s.raw.getLastD a.last)).paints s.raw =
      (a.reads rest (s.last a.last)).paints s.raw := rfl
  rw [run_scanSegment_cons hcons, EStateM.run_bind, ← s.length_raw, hraw]
  simp only [Scan.reads_last, hlast]
  rw [run_times_scanPixel, Scan.paints_last, Scan.reads_last, ← Scan.paints_append hroom]
  . rfl
  . rw [hpaints, Scan.paints_limit, Scan.reads_limit, Scan.reads_done]
    omega

variable {code : UInt8} {rest : Bytes}

theorem run_scanSegment_short {a : Scan} (hinput : a.input = code :: rest)
    (hraw : rest.length < rawLength code) (h : a.done.length + rest.length ≤ a.limit width) :
    (scanSegment width).run a =
      .error (.error (.io .unexpectedEof)) ((a.reads [] (rest.getLastD a.last)).paints rest) := by
  rw [run_scanSegment_cons hinput, EStateM.run_bind, run_times_scanRaw_short hraw h]
  rfl

theorem run_scanSegment_outside {a : Scan} (hinput : a.input = code :: rest)
    (hle : a.done.length ≤ a.limit width)
    (h : a.limit width < a.done.length + delivered code rest) :
    ∃ a', (scanSegment width).run a = .error (.panic "index out of bounds") a' := by
  have hstart : (a.reads rest a.last).done.length ≤ (a.reads rest a.last).limit width := hle
  rw [run_scanSegment_cons hinput, EStateM.run_bind]
  unfold delivered at h
  split at h
  next hraw =>
    by_cases hroom : a.done.length + rawLength code ≤ a.limit width
    . have htake : (rest.take (rawLength code)).length = rawLength code := by
        rw [List.length_take]
        omega
      have hsplit : (a.reads rest a.last).input = rest.take (rawLength code) ++ rest.drop (rawLength code) :=
        (List.take_append_drop (rawLength code) rest).symm
      have hfits : (a.reads rest a.last).done.length + (rest.take (rawLength code)).length ≤
          (a.reads rest a.last).limit width := by
        rw [htake]
        exact hroom
      have hrun := run_times_scanRaw hsplit hfits
      have hlength := Scan.length_paints
        (show ((a.reads rest a.last).reads (rest.drop (rawLength code))
          ((rest.take (rawLength code)).getLastD (a.reads rest a.last).last)).done.length +
            (rest.take (rawLength code)).length ≤ (a.reads rest a.last).limit width from hfits)
      rw [htake] at hrun hlength
      rw [hrun]
      simp only
      apply run_times_scanPixel_outside
      . rw [hlength]
        exact hroom
      . rw [hlength]
        simp only [Scan.paints_limit, Scan.reads_limit, Scan.reads_done]
        omega
    . obtain ⟨a', hrun⟩ := run_times_scanRaw_outside (n := rawLength code) hstart
        (by simp only [Scan.reads_limit, Scan.reads_done, Scan.reads_input]; omega)
        (Nat.lt_of_not_le hroom)
      rw [hrun]
      exact ⟨a', rfl⟩
  next hraw =>
    obtain ⟨a', hrun⟩ := run_times_scanRaw_outside (n := rawLength code) hstart h
      (by simp only [Scan.reads_limit, Scan.reads_done]; omega)
    rw [hrun]
    exact ⟨a', rfl⟩

end Segment

end Rle32
end Rdp
