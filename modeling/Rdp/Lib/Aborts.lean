import Rdp.Lib.Machine

/-!
This module contains the runs that neither return nor report an error: the ones that abort, or that
run out of the fuel of a loop. The rules say of every construct of the language when it has such a
run, so that the exact condition for a program is put together from its parts.
-/

namespace Fault

def IsError (e : Fault ε) : Prop :=
  match e with
  | .error _ => True
  | _ => False

@[simp]
theorem isError_error (e : ε) : (error e : Fault ε).IsError := trivial

@[simp]
theorem not_isError_panic (msg : String) : ¬ (panic msg : Fault ε).IsError := not_false

@[simp]
theorem not_isError_diverge : ¬ (diverge : Fault ε).IsError := not_false

end Fault

namespace Except

variable {ε α β : Type}

def Aborts (x : Except (Fault ε) α) : Prop := ∃ e, x = .error e ∧ ¬ e.IsError

@[simp]
theorem not_aborts_ok (a : α) : ¬ (ok a : Except (Fault ε) α).Aborts := by
  rintro ⟨e, h, _⟩
  cases h

@[simp]
theorem not_aborts_pure (a : α) : ¬ (pure a : Except (Fault ε) α).Aborts := not_aborts_ok a

@[simp]
theorem aborts_error (e : Fault ε) : (error e : Except (Fault ε) α).Aborts ↔ ¬ e.IsError := by
  constructor
  . rintro ⟨_, h, hnot⟩
    cases h
    exact hnot
  . intro h
    exact ⟨e, rfl, h⟩

@[simp]
theorem aborts_map {f : α → β} {x : Except (Fault ε) α} : (f <$> x).Aborts ↔ x.Aborts := by
  cases x with
  | ok a =>
    change (ok (f a) : Except (Fault ε) β).Aborts ↔ _
    simp
  | error e =>
    change (error e : Except (Fault ε) β).Aborts ↔ _
    simp

theorem aborts_bind {x : Except (Fault ε) α} {f : α → Except (Fault ε) β} :
    (x >>= f).Aborts ↔ x.Aborts ∨ ∃ a, x = .ok a ∧ (f a).Aborts := by
  cases x with
  | ok a =>
    change (f a).Aborts ↔ _
    simp
  | error e =>
    change (error e : Except (Fault ε) β).Aborts ↔ _
    simp

theorem aborts_checkedSub {a b : Nat} : (checkedSub a b : Except (Fault ε) Nat).Aborts ↔ a < b := by
  by_cases h : b ≤ a
  . simp [checkedSub_of_le h, h]
  . have hlt := Nat.lt_of_not_le h
    simp [checkedSub_of_lt hlt, hlt]

theorem aborts_checkedAdd {w a b : Nat} :
    (checkedAdd w a b : Except (Fault ε) Nat).Aborts ↔ 2 ^ w ≤ a + b := by
  by_cases h : a + b < 2 ^ w
  . simp [checkedAdd_of_lt h, h]
  . have hle := Nat.le_of_not_lt h
    simp [checkedAdd_of_le hle, hle]

def NoErrors (x : Except (Fault ε) α) : Prop := ∀ e, x = .error e → ¬ e.IsError

namespace NoErrors

theorem ok (a : α) : NoErrors (.ok a : Except (Fault ε) α) := by
  intro e h
  cases h

theorem panic (msg : String) : NoErrors (.error (.panic msg) : Except (Fault ε) α) := by
  intro e h
  cases h
  exact Fault.not_isError_panic msg

theorem bind {x : Except (Fault ε) α} {f : α → Except (Fault ε) β} (hx : NoErrors x)
    (hf : ∀ a, NoErrors (f a)) : NoErrors (x >>= f) := by
  intro e h
  cases x with
  | ok a => exact hf a e h
  | error e' =>
    cases h
    exact hx e rfl

theorem of_checkedAdd (w a b : Nat) : NoErrors (checkedAdd w a b : Except (Fault ε) Nat) := by
  unfold checkedAdd
  split
  . apply ok
  . apply panic

theorem of_checkedSub (a b : Nat) : NoErrors (checkedSub a b : Except (Fault ε) Nat) := by
  unfold checkedSub
  split
  . apply ok
  . apply panic

theorem of_checkedMul (w a b : Nat) : NoErrors (checkedMul w a b : Except (Fault ε) Nat) := by
  unfold checkedMul
  split
  . apply ok
  . apply panic

end NoErrors

theorem cases_of_not_aborts {x : Except (Fault ε) α} (h : ¬ x.Aborts) :
    (∃ a, x = .ok a) ∨ ∃ e, x = .error (.error e) := by
  match x with
  | .ok a => exact .inl ⟨a, rfl⟩
  | .error (.error e) => exact .inr ⟨e, rfl⟩
  | .error (.panic msg) => exact absurd ((aborts_error _).mpr (by simp)) h
  | .error .diverge => exact absurd ((aborts_error _).mpr (by simp)) h

end Except

namespace Prog

variable {ε σ τ α β : Type}

def Aborts (x : Prog ε σ α) (s : σ) : Prop := ∃ e t, x.run s = .error e t ∧ ¬ e.IsError

section Aborts

variable {x : Prog ε σ α} {f : α → Prog ε σ β} {s : σ}

theorem aborts_of_run_error {e : Fault ε} {t : σ} (h : x.run s = .error e t) :
    x.Aborts s ↔ ¬ e.IsError := by
  constructor
  . rintro ⟨_, _, h', hnot⟩
    cases h.symm.trans h'
    exact hnot
  . intro hnot
    exact ⟨e, t, h, hnot⟩

theorem not_aborts_of_run_ok {a : α} {t : σ} (h : x.run s = .ok a t) : ¬ x.Aborts s := by
  rintro ⟨_, _, h', _⟩
  cases h.symm.trans h'

theorem cases_of_not_aborts (h : ¬ x.Aborts s) :
    (∃ a t, x.run s = .ok a t) ∨ ∃ e t, x.run s = .error (.error e) t := by
  cases hrun : x.run s with
  | ok a t => exact .inl ⟨a, t, rfl⟩
  | error e t =>
    rw [aborts_of_run_error hrun, not_not] at h
    match e with
    | .error e => exact .inr ⟨e, t, rfl⟩

theorem not_aborts_iff :
    ¬ x.Aborts s ↔ (∃ a t, x.run s = .ok a t) ∨ ∃ e t, x.run s = .error (.error e) t := by
  refine ⟨cases_of_not_aborts, ?_⟩
  rintro (⟨a, t, hrun⟩ | ⟨e, t, hrun⟩)
  . exact not_aborts_of_run_ok hrun
  . rw [aborts_of_run_error hrun, not_not]
    exact Fault.isError_error e

@[simp]
theorem not_aborts_pure (a : α) (s : σ) : ¬ (pure a : Prog ε σ α).Aborts s :=
  not_aborts_of_run_ok (EStateM.run_pure a s)

@[simp]
theorem aborts_throw (e : Fault ε) (s : σ) : (throw e : Prog ε σ α).Aborts s ↔ ¬ e.IsError :=
  aborts_of_run_error (run_throw s e)

@[simp]
theorem not_aborts_fail (e : ε) (s : σ) : ¬ (fail e : Prog ε σ α).Aborts s := by
  rw [fail, aborts_throw, not_not]
  exact Fault.isError_error e

@[simp]
theorem aborts_lift (x : Except (Fault ε) α) (s : σ) : (lift x : Prog ε σ α).Aborts s ↔ x.Aborts := by
  cases x with
  | ok a =>
    rw [lift_ok]
    simp
  | error e => rw [lift_error, aborts_throw, Except.aborts_error]

@[simp]
theorem not_aborts_get (s : σ) : ¬ (get : Prog ε σ σ).Aborts s :=
  not_aborts_of_run_ok (EStateM.run_get s)

@[simp]
theorem not_aborts_modify (f : σ → σ) (s : σ) : ¬ (modify f : Prog ε σ PUnit).Aborts s := by
  rintro ⟨_, _, h, _⟩
  cases h

theorem aborts_bind :
    (x >>= f).Aborts s ↔ x.Aborts s ∨ ∃ a t, x.run s = .ok a t ∧ (f a).Aborts t := by
  cases hrun : x.run s with
  | ok a t =>
    have hbind : (x >>= f).run s = (f a).run t := run_bind_of_ok hrun
    have hx : ¬ x.Aborts s := not_aborts_of_run_ok hrun
    have hf : (x >>= f).Aborts s ↔ (f a).Aborts t := by
      unfold Aborts
      rw [hbind]
    rw [hf]
    simp [hx]
  | error e t =>
    have hbind : (x >>= f).run s = .error e t := run_bind_of_error hrun
    rw [aborts_of_run_error hbind, aborts_of_run_error hrun]
    simp

theorem aborts_bind_of_run {a : α} {t : σ} (h : x.run s = .ok a t) :
    (x >>= f).Aborts s ↔ (f a).Aborts t := by
  rw [aborts_bind, h]
  simp [not_aborts_of_run_ok h]

@[simp]
theorem aborts_get_bind {f : σ → Prog ε σ β} : (get >>= f).Aborts s ↔ (f s).Aborts s :=
  aborts_bind_of_run (EStateM.run_get s)

theorem aborts_lift_bind {y : Except (Fault ε) α} :
    (lift y >>= f).Aborts s ↔ y.Aborts ∨ ∃ a, y = .ok a ∧ (f a).Aborts s := by
  cases y with
  | ok a =>
    rw [lift_ok, pure_bind]
    simp
  | error e =>
    rw [aborts_bind]
    simp

@[simp]
theorem aborts_map {g : α → β} : (g <$> x).Aborts s ↔ x.Aborts s := by
  rw [← bind_pure_comp, aborts_bind]
  simp

theorem aborts_bind_pure {g : α → β} : (do return g (← x) : Prog ε σ β).Aborts s ↔ x.Aborts s := by
  rw [aborts_bind]
  simp

theorem run_attempt :
    (attempt x).run s =
      match x.run s with
      | .ok a t => .ok (some a) t
      | .error (.error _) t => .ok none t
      | .error e t => .error e t := by
  cases hrun : x.run s with
  | ok a t =>
    change attempt x s = _
    unfold attempt
    rw [show x s = _ from hrun]
  | error e t =>
    have hx : x s = .error e t := hrun
    change attempt x s = _
    cases e <;> simp only [attempt, hx]

@[simp]
theorem aborts_attempt : (attempt x).Aborts s ↔ x.Aborts s := by
  unfold Aborts
  rw [run_attempt]
  match x.run s with
  | .ok a t => simp
  | .error (.error e) t => simp
  | .error (.panic msg) t => simp
  | .error .diverge t => simp

theorem aborts_zoom {view : σ → τ} {put : τ → σ → σ} {x : Prog ε τ α} :
    (zoom view put x).Aborts s ↔ x.Aborts (view s) := by
  unfold Aborts
  rw [run_zoom]
  cases x.run (view s) <;> simp

theorem aborts_on {t : τ} {x : Prog ε τ α} : (on t x : Prog ε σ (α × τ)).Aborts s ↔ x.Aborts t := by
  unfold Aborts
  rw [run_on]
  cases x.run t <;> simp

theorem aborts_on_bind {t : τ} {x : Prog ε τ α} {f : α × τ → Prog ε σ β} :
    (on t x >>= f).Aborts s ↔ x.Aborts t ∨ ∃ a t', x.run t = .ok a t' ∧ (f (a, t')).Aborts s := by
  rw [aborts_bind, aborts_on]
  refine or_congr_right ⟨?_, ?_⟩
  . rintro ⟨⟨a, t'⟩, s', hrun, h⟩
    obtain ⟨hx, rfl⟩ := run_on_eq_ok hrun
    exact ⟨a, t', hx, h⟩
  . rintro ⟨a, t', hrun, h⟩
    exact ⟨(a, t'), s, by rw [run_on, hrun], h⟩

end Aborts

def Returns (x : Prog ε σ α) : Prop := ∀ s, ¬ x.Aborts s

namespace Returns

variable {x : Prog ε σ α}

theorem pure (a : α) : Returns (Pure.pure a : Prog ε σ α) := not_aborts_pure a

theorem fail (e : ε) : Returns (Prog.fail e : Prog ε σ α) := not_aborts_fail e

theorem lift {x : Except (Fault ε) α} (h : ¬ x.Aborts) : Returns (Prog.lift x : Prog ε σ α) := by
  intro s
  rwa [aborts_lift]

theorem bind {f : α → Prog ε σ β} (hx : Returns x) (hf : ∀ a, Returns (f a)) :
    Returns (x >>= f) := by
  intro s h
  rcases aborts_bind.mp h with h | ⟨a, t, _, h⟩
  . exact hx s h
  . exact hf a t h

theorem bind_pure (hx : Returns x) (g : α → β) : Returns (do return g (← x) : Prog ε σ β) :=
  hx.bind fun _ => pure _

theorem attempt (hx : Returns x) : Returns (Prog.attempt x) := by
  intro s
  rw [aborts_attempt]
  exact hx s

theorem faults (hx : Returns x) : Faults (· ≠ .diverge) x := by
  rintro s _ t hrun rfl
  exact hx s ((aborts_of_run_error hrun).mpr Fault.not_isError_diverge)

end Returns

theorem faults_checkedSub (a b : Nat) :
    Faults (· ≠ .diverge) (lift (checkedSub a b) : Prog ε σ Nat) := by
  apply Faults.lift
  intro e h
  unfold checkedSub at h
  split at h <;> cases h
  simp

end Prog
