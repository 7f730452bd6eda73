import Mathlib.Data.List.Induction

/-!
This module contains pictures that are painted over each other: a picture covers some cells of a
canvas, and the one that was painted last is the one that is seen.
-/

namespace Painting

variable {ι α : Type}

/--
The canvas under a picture, which has no value where it covers nothing.
-/
def paint (canvas : ι → α) (picture : ι → Option α) : ι → α := fun i => (picture i).getD (canvas i)

def paintAll (canvas : ι → α) (pictures : List (ι → Option α)) : ι → α := pictures.foldl paint canvas

/--
What the last picture that covers a cell has there.
-/
def topmost (pictures : List (ι → Option α)) (i : ι) : Option α :=
  pictures.reverse.findSome? fun picture => picture i

theorem topmost_concat (pictures : List (ι → Option α)) (picture : ι → Option α) (i : ι) :
    topmost (pictures ++ [picture]) i = (picture i).or (topmost pictures i) := by
  rw [topmost, List.reverse_append, List.reverse_singleton, List.singleton_append,
    List.findSome?_cons]
  cases picture i <;> rfl

theorem paintAll_concat (canvas : ι → α) (pictures : List (ι → Option α)) (picture : ι → Option α) :
    paintAll canvas (pictures ++ [picture]) = paint (paintAll canvas pictures) picture := by
  rw [paintAll, List.foldl_append]
  rfl

theorem paintAll_apply (canvas : ι → α) (pictures : List (ι → Option α)) (i : ι) :
    paintAll canvas pictures i = (topmost pictures i).getD (canvas i) := by
  induction pictures using List.reverseRecOn with
  | nil => rfl
  | append_singleton pictures picture ih =>
    rw [paintAll_concat, topmost_concat, paint, ih]
    cases picture i <;> rfl

end Painting
