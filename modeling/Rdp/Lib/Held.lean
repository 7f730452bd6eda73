import Mathlib.Data.List.Forall2
import Mathlib.Data.Set.Insert
import Mathlib.Logic.Relator

/-!
This module contains what is held down after a sequence of strokes, each of which presses or releases
something.
-/

namespace Held

variable {α : Type}

/--
What is held after one stroke, which presses if its second component is `true`.
-/
def stroke (held : Set α) (s : α × Bool) : Set α :=
  if s.2 then
    insert s.1 held
  else
    held \ {s.1}

def after (strokes : List (α × Bool)) (held : Set α) : Set α := strokes.foldl stroke held

variable {strokes : List (α × Bool)} {held : Set α} {keys : List α} {a : α}

@[simp]
theorem after_nil (held : Set α) : after [] held = held := rfl

@[simp]
theorem after_cons (s : α × Bool) (strokes : List (α × Bool)) (held : Set α) :
    after (s :: strokes) held = after strokes (stroke held s) := rfl

theorem after_append (front back : List (α × Bool)) (held : Set α) :
    after (front ++ back) held = after back (after front held) := List.foldl_append

theorem mem_stroke_false {b : α} : a ∈ stroke held (b, false) ↔ a ∈ held ∧ a ≠ b := Iff.rfl

theorem mem_stroke_true {b : α} : a ∈ stroke held (b, true) ↔ a = b ∨ a ∈ held := Iff.rfl

theorem mem_after_release :
    a ∈ after (keys.map fun key => (key, false)) held ↔ a ∈ held ∧ a ∉ keys := by
  induction keys generalizing held with
  | nil => simp
  | cons key keys ih => rw [List.map_cons, after_cons, ih, mem_stroke_false, List.mem_cons, and_assoc,
      not_or]

theorem mem_after_press :
    a ∈ after (keys.map fun key => (key, true)) held ↔ a ∈ keys ∨ a ∈ held := by
  induction keys generalizing held with
  | nil => simp
  | cons key keys ih => rw [List.map_cons, after_cons, ih, mem_stroke_true, List.mem_cons, or_left_comm,
      or_assoc]

section Names

variable {β : Type} {R : α → β → Prop} (hR : Relator.BiUnique R)

def names (R : α → β → Prop) (held : Set α) : Set β := { b | ∃ a ∈ held, R a b }

include hR

theorem stroke_names {a : α} {b : β} (h : R a b) (down : Bool) (held : Set α) :
    stroke (names R held) (b, down) = names R (stroke held (a, down)) := by
  ext b'
  cases down with
  | true =>
    constructor
    . rintro (rfl | ⟨a', ha', hname⟩)
      . exact ⟨a, .inl rfl, h⟩
      . exact ⟨a', .inr ha', hname⟩
    . rintro ⟨a', rfl | ha', hname⟩
      . exact .inl (hR.2 hname h)
      . exact .inr ⟨a', ha', hname⟩
  | false =>
    constructor
    . rintro ⟨⟨a', ha', hname⟩, hne⟩
      refine ⟨a', ⟨ha', ?_⟩, hname⟩
      rintro rfl
      exact hne (hR.2 hname h)
    . rintro ⟨a', ⟨ha', hne⟩, hname⟩
      refine ⟨⟨a', ha', hname⟩, ?_⟩
      rintro rfl
      exact hne (hR.1 hname h)

theorem after_names {strokes : List (α × Bool)} {named : List (β × Bool)}
    (h : List.Forall₂ (fun s t => R s.1 t.1 ∧ s.2 = t.2) strokes named) (held : Set α) :
    after named (names R held) = names R (after strokes held) := by
  induction h generalizing held with
  | nil => rfl
  | @cons s t strokes named hst _ ih =>
    obtain ⟨a, down⟩ := s
    obtain ⟨b, down'⟩ := t
    obtain ⟨hname, rfl⟩ := hst
    rw [after_cons, after_cons, stroke_names hR hname, ih]

end Names

end Held
