import Rdp.Lib.Program

/-!
This module contains the runs of one program from two states that a relation holds between: the
program does not tell the states apart when both runs end in the same way with the same result, in
states that are related again.
-/

namespace Prog

variable {ε σ τ α β : Type}

def Same (P : σ → σ → Prop) (x : Prog ε σ α) : Prop :=
  ∀ s t, P s t → Related (fun a s' b t' => a = b ∧ P s' t') P (x.run s) (x.run t)

namespace Same

variable {P : σ → σ → Prop}

theorem pure (a : α) : Same P (Pure.pure a : Prog ε σ α) := fun _ _ h => .ok ⟨rfl, h⟩

theorem throw (e : Fault ε) : Same P (MonadExcept.throw e : Prog ε σ α) := fun _ _ h => .error h

theorem lift (x : Except (Fault ε) α) : Same P (Prog.lift x) := by
  cases x with
  | ok a => exact Same.pure a
  | error e => exact Same.throw e

theorem on (r : τ) (x : Prog ε τ α) : Same P (Prog.on r x : Prog ε σ (α × τ)) := by
  intro s t h
  simp only [run_on]
  cases x.run r with
  | ok a r' => exact .ok ⟨rfl, h⟩
  | error e r' => exact .error h

theorem bind {x : Prog ε σ α} {f : α → Prog ε σ β} (hx : Same P x) (hf : ∀ a, Same P (f a)) :
    Same P (x >>= f) := by
  intro s t h
  apply (hx s t h).bind
  rintro a s' _ t' ⟨rfl, h'⟩
  exact hf a s' t' h'

theorem get_bind {f : σ → Prog ε σ β} (heq : ∀ s t, P s t → f s = f t) (hf : ∀ s, Same P (f s)) :
    Same P (get >>= f) := by
  intro s t h
  change Related _ P ((f s).run s) ((f t).run t)
  rw [← heq s t h]
  exact hf s s t h

theorem modify {f : σ → σ} (hf : ∀ s t, P s t → P (f s) (f t)) :
    Same P (modifyThe σ f : Prog ε σ PUnit) := fun s t h => .ok ⟨rfl, hf s t h⟩

theorem zoom {Q : τ → τ → Prop} {x : Prog ε τ α} (hx : Same Q x) {view : σ → τ} {put : τ → σ → σ}
    (hview : ∀ s t, P s t → Q (view s) (view t))
    (hput : ∀ s t u v, P s t → Q u v → P (put u s) (put v t)) : Same P (Prog.zoom view put x) := by
  intro s t h
  have hxs := hx _ _ (hview s t h)
  simp only [run_zoom]
  generalize x.run (view s) = r at hxs
  generalize x.run (view t) = r' at hxs
  cases hxs with
  | ok h' => exact .ok ⟨h'.1, hput s t _ _ h h'.2⟩
  | error h' => exact .error (hput s t _ _ h h')

theorem of_eq (x : Prog ε σ α) : Same Eq x := by
  rintro s _ rfl
  cases x.run s with
  | ok a s' => exact .ok ⟨rfl, rfl⟩
  | error e s' => exact .error rfl

end Same

end Prog
