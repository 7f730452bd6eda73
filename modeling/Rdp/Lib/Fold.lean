import Rdp.Lib.Aborts

/-!
This module contains the rules for loops that count up and carry a result: what such a loop comes to
when every step keeps an invariant, and what a step has done when the loop is through.
-/

namespace Except

variable {ε α β : Type} {f : β → Nat → Except (Fault ε) β} {n : Nat} {b b' : β}

theorem foldlM_range_of_step (P : Nat → β → Prop) (h : P 0 b)
    (hstep : ∀ i < n, ∀ b, P i b → ∃ b', f b i = .ok b' ∧ P (i + 1) b') :
    ∃ b', (List.range n).foldlM f b = .ok b' ∧ P n b' := by
  induction n with
  | zero => exact ⟨b, rfl, h⟩
  | succ n ih =>
    obtain ⟨b₁, hfold, hb₁⟩ := ih fun i hi => hstep i (by omega)
    obtain ⟨b₂, hlast, hb₂⟩ := hstep n (by omega) b₁ hb₁
    refine ⟨b₂, ?_, hb₂⟩
    rw [List.range_succ, List.foldlM_append, hfold, ok_bind, List.foldlM_cons, hlast, ok_bind]
    rfl

theorem foldlM_range_of_ok (P : β → Prop) (h : P b)
    (hstep : ∀ i < n, ∀ b b', P b → f b i = .ok b' → P b')
    (hfold : (List.range n).foldlM f b = .ok b') : P b' := by
  induction n generalizing b' with
  | zero =>
    cases hfold
    exact h
  | succ n ih =>
    rw [List.range_succ, List.foldlM_append] at hfold
    obtain ⟨b₁, hfold, hlast⟩ := bind_eq_ok hfold
    rw [List.foldlM_cons] at hlast
    obtain ⟨b₂, hlast, hdone⟩ := bind_eq_ok hlast
    cases hdone
    exact hstep n (by omega) b₁ b' (ih (fun i hi => hstep i (by omega)) hfold) hlast

theorem step_of_foldlM_range (h : (List.range n).foldlM f b = .ok b') :
    ∀ i < n, ∃ c c', f c i = .ok c' := by
  induction n generalizing b' with
  | zero => simp
  | succ n ih =>
    rw [List.range_succ, List.foldlM_append] at h
    obtain ⟨b₁, hfold, hlast⟩ := bind_eq_ok h
    rw [List.foldlM_cons] at hlast
    obtain ⟨b₂, hlast, _⟩ := bind_eq_ok hlast
    intro i hi
    by_cases hn : i = n
    . subst hn
      exact ⟨b₁, b₂, hlast⟩
    . exact ih hfold i (by omega)

theorem foldlM_range_eq_error {e : Fault ε} (h : (List.range n).foldlM f b = .error e) :
    ∃ i < n, ∃ c, f c i = .error e := by
  induction n with
  | zero => cases h
  | succ n ih =>
    rw [List.range_succ, List.foldlM_append] at h
    cases hfold : (List.range n).foldlM f b with
    | error e' =>
      rw [hfold] at h
      cases h
      obtain ⟨i, hi, c, hc⟩ := ih hfold
      exact ⟨i, by omega, c, hc⟩
    | ok b₁ =>
      rw [hfold, ok_bind, List.foldlM_cons] at h
      cases hlast : f b₁ n with
      | error e' =>
        rw [hlast] at h
        cases h
        exact ⟨n, by omega, b₁, hlast⟩
      | ok b₂ =>
        rw [hlast] at h
        cases h

end Except
