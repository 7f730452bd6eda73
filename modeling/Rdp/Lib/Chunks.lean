import Mathlib.Data.List.Flatten

/-!
This module contains lists that are put together from pieces of one length: how long they are, where an
element of a piece stands, and that the pieces are known from the whole.
-/

namespace Chunks

variable {α β : Type} {n : Nat}

theorem getElem?_flatten {lists : List (List α)} (hlength : ∀ l ∈ lists, l.length = n) {i o : Nat}
    (ho : o < n) : lists.flatten[i * n + o]? = lists[i]?.bind (·[o]?) := by
  induction lists generalizing i with
  | nil => rw [List.flatten_nil, List.getElem?_nil, List.getElem?_nil, Option.bind_none]
  | cons l lists ih =>
    have hl := hlength l List.mem_cons_self
    rw [List.flatten_cons]
    cases i with
    | zero =>
      rw [Nat.zero_mul, Nat.zero_add, List.getElem?_append_left (by omega)]
      rfl
    | succ i =>
      rw [Nat.succ_mul, List.getElem?_append_right (by omega), List.getElem?_cons_succ,
        ← ih (fun l hl => hlength l (List.mem_cons_of_mem _ hl)), hl]
      congr 1
      omega

theorem eq_of_flatten {lists lists' : List (List α)} (hn : 0 < n)
    (h : ∀ l ∈ lists, l.length = n) (h' : ∀ l ∈ lists', l.length = n)
    (heq : lists.flatten = lists'.flatten) : lists = lists' := by
  induction lists generalizing lists' with
  | nil =>
    cases lists' with
    | nil => rfl
    | cons l' lists' =>
      have hlength := congrArg List.length heq
      rw [List.flatten_nil, List.flatten_cons, List.length_append, h' l' List.mem_cons_self,
        List.length_nil] at hlength
      omega
  | cons l lists ih =>
    rw [List.forall_mem_cons] at h
    cases lists' with
    | nil =>
      have hlength := congrArg List.length heq
      rw [List.flatten_nil, List.flatten_cons, List.length_append, h.1, List.length_nil] at hlength
      omega
    | cons l' lists' =>
      rw [List.forall_mem_cons] at h'
      rw [List.flatten_cons, List.flatten_cons] at heq
      obtain ⟨hhead, htail⟩ := List.append_inj heq (h.1.trans h'.1.symm)
      rw [hhead, ih h.2 h'.2 htail]

section Map

variable {f : α → List β} (hf : ∀ a, (f a).length = n)
include hf

theorem length_mem_map (l : List α) : ∀ piece ∈ l.map f, piece.length = n := by
  intro piece hpiece
  obtain ⟨a, _, rfl⟩ := List.mem_map.mp hpiece
  exact hf a

theorem length_flatMap (l : List α) : (l.flatMap f).length = l.length * n := by
  induction l with
  | nil => rw [List.flatMap_nil, List.length_nil, List.length_nil, Nat.zero_mul]
  | cons a l ih =>
    rw [List.flatMap_cons, List.length_append, ih, hf, List.length_cons, Nat.succ_mul, Nat.add_comm]

theorem eq_of_flatMap (hn : 0 < n) (hinj : ∀ a a', f a = f a' → a = a') {l l' : List α}
    (h : l.flatMap f = l'.flatMap f) : l = l' := by
  rw [List.flatMap_def, List.flatMap_def] at h
  have hmap := eq_of_flatten hn (length_mem_map hf l) (length_mem_map hf l') h
  exact List.map_inj_right hinj |>.mp hmap

theorem getElem?_flatMap (l : List α) (p : Nat) {o : Nat} (ho : o < n) :
    (l.flatMap f)[p * n + o]? = l[p]?.bind fun a => (f a)[o]? := by
  rw [List.flatMap_def, getElem?_flatten (length_mem_map hf l) ho, List.getElem?_map, Option.bind_map]
  rfl

theorem drop_flatMap (k : Nat) (l : List α) : (l.flatMap f).drop (n * k) = (l.drop k).flatMap f := by
  induction k generalizing l with
  | zero => rw [Nat.mul_zero, List.drop_zero, List.drop_zero]
  | succ k ih =>
    cases l with
    | nil => rw [List.flatMap_nil, List.drop_nil, List.drop_nil, List.flatMap_nil]
    | cons a l =>
      rw [List.flatMap_cons, List.drop_succ_cons, ← ih, Nat.mul_succ, Nat.add_comm, ← List.drop_drop,
        List.drop_left' (hf a)]

end Map

end Chunks
