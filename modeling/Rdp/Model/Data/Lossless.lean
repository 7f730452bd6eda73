import Rdp.Model.Data.Elements

/-!
This module contains what an array takes from a stream: which elements, and which bytes are theirs.
-/

namespace Rdp

open Prog

namespace Cursor

/--
The elements that are read one after the other, and the bytes that none of them takes.
-/
inductive Takes (x : Reader α) : Bytes → List α → Bytes → Prop where
  | nil (input : Bytes) : Takes x input [] input
  | cons {input rest tail : Bytes} {a : α} {as : List α} (head : x.run input = .ok a rest)
    (next : Takes x rest as tail) : Takes x input (a :: as) tail

/--
How the elements of an array look on the wire. Some are whole only where nothing follows them.
-/
structure Format where
  element : Bytes → Prop
  last : Bytes → Prop

namespace Format

def of (encode : α → Bytes) (whole : α → Prop) : Format where
  element piece := ∃ a, whole a ∧ piece = encode a
  last _ := False

/--
A stream that the elements fill to its end.
-/
inductive Whole (format : Format) : Bytes → Prop where
  | nil : Whole format []
  | last {input : Bytes} (h : format.last input) : Whole format input
  | cons {piece rest : Bytes} (head : format.element piece) (next : Whole format rest) :
    Whole format (piece ++ rest)

end Format

structure Reads (format : Format) (x : Reader α) : Prop where
  consumes : Consumes x
  run_nil : ∃ e, x.run [] = .error (.error e) []
  run_element : ∀ piece, format.element piece → ∀ rest, ∃ a, x.run (piece ++ rest) = .ok a rest
  run_last : ∀ input, format.last input → ∃ a, x.run input = .ok a []
  of_run : ∀ input a rest, x.run input = .ok a rest →
    (∃ piece, format.element piece ∧ input = piece ++ rest) ∨ format.last input ∧ rest = []

/--
The reader takes exactly the encoding of a value, whatever follows it.
-/
structure Exact (encode : α → Bytes) (whole : α → Prop) (x : Reader α) : Prop where
  run_eq_ok : ∀ a input rest, x.run input = .ok a rest ↔ whole a ∧ input = encode a ++ rest
  length_pos : ∀ a, 0 < (encode a).length
  run_nil : ∃ e, x.run [] = .error (.error e) []

theorem Exact.consumes {encode : α → Bytes} {whole : α → Prop} {x : Reader α} (hx : Exact encode whole x) :
    Consumes x := by
  intro input a rest h
  obtain ⟨_, rfl⟩ := (hx.run_eq_ok a input rest).mp h
  have hpos := hx.length_pos a
  rw [List.length_append]
  omega

theorem Exact.reads {encode : α → Bytes} {whole : α → Prop} {x : Reader α} (hx : Exact encode whole x) :
    Reads (.of encode whole) x where
  consumes := hx.consumes
  run_nil := hx.run_nil
  run_element := by
    rintro _ ⟨a, hwhole, rfl⟩ rest
    exact ⟨a, (hx.run_eq_ok a _ rest).mpr ⟨hwhole, rfl⟩⟩
  run_last _ h := h.elim
  of_run := by
    intro input a rest h
    obtain ⟨hwhole, rfl⟩ := (hx.run_eq_ok a input rest).mp h
    exact .inl ⟨encode a, ⟨a, hwhole, rfl⟩, rfl⟩

section Takes

variable {x : Reader α} {input rest tail : Bytes} {as : List α} {format : Format}

theorem Takes.run_elements (hx : Consumes x) (h : Takes x input as tail) {e : Error}
    (hend : x.run tail = .error (.error e) rest) : (elements x).run input = .ok as rest := by
  induction h with
  | nil => exact run_elements_of_error hend
  | cons head _ ih =>
    rw [run_elements_of_ok hx head, EStateM.run_bind, ih hend]
    rfl

theorem takes_of_run_elements (hx : Consumes x) (h : (elements x).run input = .ok as rest) :
    ∃ tail e, Takes x input as tail ∧ x.run tail = .error (.error e) rest := by
  induction hn : input.length using Nat.strongRecOn generalizing input as with
  | ind n ih =>
    have habort : ¬ x.Aborts input := fun habort =>
      not_aborts_of_run_ok h (aborts_elements_of_aborts habort)
    rcases cases_of_not_aborts habort with ⟨a, rest', hrun⟩ | ⟨e, rest', hrun⟩
    . have hlt := hx input a rest' hrun
      rw [run_elements_of_ok hx hrun] at h
      obtain ⟨bs, s, hbs, h⟩ := run_bind_eq_ok h
      cases h
      obtain ⟨tail, e, htakes, hend⟩ := ih rest'.length (by omega) hbs rfl
      exact ⟨tail, e, .cons hrun htakes, hend⟩
    . rw [run_elements_of_error hrun] at h
      cases h
      exact ⟨input, e, .nil input, hrun⟩

theorem Takes.whole (hx : Reads format x) (h : Takes x input as tail) (hend : tail = []) :
    format.Whole input := by
  induction h with
  | nil input =>
    subst hend
    exact .nil
  | cons head htail ih =>
    rcases hx.of_run _ _ _ head with ⟨piece, hpiece, rfl⟩ | ⟨hlast, _⟩
    . exact .cons hpiece (ih hend)
    . exact .last hlast

theorem Format.Whole.takes (hx : Reads format x) (h : format.Whole input) : ∃ as, Takes x input as [] := by
  induction h with
  | nil => exact ⟨[], .nil []⟩
  | last hlast =>
    obtain ⟨a, hrun⟩ := hx.run_last _ hlast
    exact ⟨[a], .cons hrun (.nil [])⟩
  | cons hpiece _ ih =>
    obtain ⟨as, has⟩ := ih
    obtain ⟨a, hrun⟩ := hx.run_element _ hpiece _
    exact ⟨a :: as, .cons hrun has⟩

theorem Reads.map (hx : Reads format x) (f : α → β) : Reads format (f <$> x) where
  consumes := by
    intro input b rest h
    obtain ⟨a, hrun, _⟩ := run_map_eq_ok.mp h
    exact hx.consumes input a rest hrun
  run_nil := by
    obtain ⟨e, hrun⟩ := hx.run_nil
    refine ⟨e, ?_⟩
    rw [run_map, hrun]
  run_element := by
    intro piece hpiece rest
    obtain ⟨a, hrun⟩ := hx.run_element piece hpiece rest
    exact ⟨f a, run_map_eq_ok.mpr ⟨a, hrun, rfl⟩⟩
  run_last := by
    intro input hlast
    obtain ⟨a, hrun⟩ := hx.run_last input hlast
    exact ⟨f a, run_map_eq_ok.mpr ⟨a, hrun, rfl⟩⟩
  of_run := by
    intro input b rest h
    obtain ⟨a, hrun, _⟩ := run_map_eq_ok.mp h
    exact hx.of_run input a rest hrun

section Exact

variable {encode : α → Bytes} {whole : α → Prop}

theorem Exact.takes_iff (hx : Exact encode whole x) :
    Takes x input as rest ↔ (∀ a ∈ as, whole a) ∧ input = as.flatMap encode ++ rest := by
  constructor
  . intro h
    induction h with
    | nil => simp
    | cons head _ ih =>
      obtain ⟨hwhole, rfl⟩ := (hx.run_eq_ok _ _ _).mp head
      rw [List.forall_mem_cons, List.flatMap_cons, List.append_assoc, ← ih.2]
      exact ⟨⟨hwhole, ih.1⟩, rfl⟩
  . rintro ⟨hwhole, rfl⟩
    induction as with
    | nil => exact .nil rest
    | cons a as ih =>
      rw [List.forall_mem_cons] at hwhole
      rw [List.flatMap_cons, List.append_assoc]
      exact .cons ((hx.run_eq_ok _ _ _).mpr ⟨hwhole.1, rfl⟩) (ih hwhole.2)

theorem Exact.run_elements (hx : Exact encode whole x) (h : ∀ a ∈ as, whole a) :
    (elements x).run (as.flatMap encode) = .ok as [] := by
  obtain ⟨e, hnil⟩ := hx.run_nil
  have htakes : Takes x (as.flatMap encode) as [] := hx.takes_iff.mpr ⟨h, (List.append_nil _).symm⟩
  exact htakes.run_elements hx.consumes hnil

theorem Exact.of_run_elements (hx : Exact encode whole x) (h : (elements x).run input = .ok as rest) :
    ∃ tail, (∀ a ∈ as, whole a) ∧ input = as.flatMap encode ++ tail := by
  obtain ⟨tail, _, htakes, _⟩ := takes_of_run_elements hx.consumes h
  exact ⟨tail, hx.takes_iff.mp htakes⟩

end Exact

end Takes

theorem exact_readU16 (e : Endian) : Exact e.encode16 (fun _ => True) (readU16 e) where
  run_eq_ok v input rest := by
    rw [run_readU16_iff_encode16]
    simp
  length_pos v := by cases e <;> exact Nat.succ_pos 1
  run_nil := ⟨_, rfl⟩

end Cursor

open Cursor

namespace Message

/--
An array of these elements that was read without an error has taken the whole stream, and a stream
that it cannot take is reported as an error. An abort is no report.
-/
def Lossless (element : Message) (stream : Bytes) : Prop :=
  match (array [] (some element)).reader.run stream with
  | .ok (.array inner _) _ => Takes element.reader stream inner []
  | .ok _ _ => False
  | .error (.error _) _ => True
  | .error _ _ => False

theorem lossless_iff_of_reads {element : Message} {format : Format} (h : Reads format element.reader)
    (stream : Bytes) : element.Lossless stream ↔ format.Whole stream := by
  unfold Lossless
  rw [reader_array, EStateM.run_bind]
  constructor
  . intro hlossless
    by_cases habort : (elements element.reader).Aborts stream
    . obtain ⟨e, rest, hrun, hnot⟩ := habort
      rw [hrun] at hlossless
      cases e with
      | error e => exact absurd (Fault.isError_error e) hnot
      | panic msg => exact hlossless.elim
      | diverge => exact hlossless.elim
    . obtain ⟨inner, rest, hrun⟩ := exists_run_elements h.consumes habort
      rw [hrun] at hlossless
      exact Takes.whole h hlossless rfl
  . intro hwhole
    obtain ⟨inner, htakes⟩ := hwhole.takes h
    obtain ⟨e, hnil⟩ := h.run_nil
    rw [htakes.run_elements h.consumes hnil]
    exact htakes

end Message

end Rdp
