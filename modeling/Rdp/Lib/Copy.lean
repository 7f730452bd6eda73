import Mathlib.Data.List.Basic

/-!
The copy of a block of one list into another one, of which the block overwrites as many elements.
-/

variable {α : Type}

def copyNonoverlapping (source : List α) (src : Nat) (target : List α) (dst count : Nat) : List α :=
  target.take dst ++ ((source.drop src).take count ++ target.drop (dst + count))

section Copy

variable {source target : List α} {src dst count : Nat}

theorem length_block (h : src + count ≤ source.length) :
    ((source.drop src).take count).length = count := by
  rw [List.length_take, List.length_drop]
  omega

theorem length_copyNonoverlapping (hsource : src + count ≤ source.length)
    (htarget : dst + count ≤ target.length) :
    (copyNonoverlapping source src target dst count).length = target.length := by
  rw [copyNonoverlapping, List.length_append, List.length_append, length_block hsource,
    List.length_take, List.length_drop]
  omega

theorem getElem?_copyNonoverlapping (hsource : src + count ≤ source.length)
    (htarget : dst + count ≤ target.length) (i : Nat) :
    (copyNonoverlapping source src target dst count)[i]? =
      if dst ≤ i ∧ i < dst + count then source[src + (i - dst)]? else target[i]? := by
  have htake : (target.take dst).length = dst := List.length_take_of_le (by omega)
  unfold copyNonoverlapping
  by_cases hlt : i < dst
  . rw [List.getElem?_append_left (by omega), List.getElem?_take_of_lt hlt, if_neg (by omega)]
  . rw [List.getElem?_append_right (by omega), htake]
    by_cases hblock : i < dst + count
    . rw [List.getElem?_append_left (by rw [length_block hsource]; omega),
        List.getElem?_take_of_lt (by omega), List.getElem?_drop, if_pos (by omega)]
    . rw [List.getElem?_append_right (by rw [length_block hsource]; omega), length_block hsource,
        List.getElem?_drop, if_neg (by omega)]
      congr 1
      omega

end Copy
