import Mathlib.Data.UInt
import Mathlib.Order.Defs.Unbundled
import Mathlib.Tactic.Common

/-!
This module contains the language the model is written in: programs over a mutable state that
return a result, report an error, abort, or run out of the fuel of a loop. It also contains the
rules for relating a run of one program to a run of another one, possibly over another state.
-/

/--
The ways in which a program stops without a result.
-/
inductive Fault (ε : Type) where
  /--
  An error value, which the caller can inspect.
  -/
  | error (e : ε)
  /--
  An abort: a failed assertion, an index out of range or an arithmetic overflow.
  -/
  | panic (msg : String)
  /--
  A loop that ran out of its fuel.
  -/
  | diverge
  deriving DecidableEq, Repr

/--
Programs keep the state they reached when they stop with a `Fault`.
-/
abbrev Prog (ε σ α : Type) := EStateM (Fault ε) σ α

namespace Prog

variable {ε σ τ ρ α β γ δ : Type}

def fail (e : ε) : Prog ε σ α := throw (.error e)

def abort (msg : String) : Prog ε σ α := throw (.panic msg)

def lift (x : Except (Fault ε) α) : Prog ε σ α :=
  match x with
  | .ok a => pure a
  | .error e => throw e

/--
Run a program on the part of the state that `view` shows and `put` replaces.
-/
def zoom (view : σ → τ) (put : τ → σ → σ) (x : Prog ε τ α) : Prog ε σ α := fun s =>
  match x (view s) with
  | .ok a t => .ok a (put t s)
  | .error e t => .error e (put t s)

/--
Run a program on a state of its own, which is returned with the result and lost with a fault.
-/
def on (t : τ) (x : Prog ε τ α) : Prog ε σ (α × τ) := fun s =>
  match x t with
  | .ok a t => .ok (a, t) s
  | .error e _ => .error e s

/--
Go on after an error of `x`, which leaves nothing. An abort is no error.
-/
def attempt (x : Prog ε σ α) : Prog ε σ (Option α) := fun s =>
  match x s with
  | .ok a s => .ok (some a) s
  | .error (.error _) s => .ok none s
  | .error e s => .error e s

def final (x : Prog ε σ α) (s : σ) : Option σ :=
  match x s with
  | .ok _ s => some s
  | .error _ _ => none

def times (n : Nat) (x : Prog ε σ Unit) : Prog ε σ Unit :=
  match n with
  | 0 => pure ()
  | n + 1 => do
    x
    times n x

/--
`while cond { body }`, cut off with `Fault.diverge` after `fuel` iterations.
-/
def whileLoop (fuel : Nat) (cond : Prog ε σ Bool) (body : Prog ε σ Unit) : Prog ε σ Unit :=
  match fuel with
  | 0 => do
    if ← cond then
      throw .diverge
  | fuel + 1 => do
    if ← cond then
      body
      whileLoop fuel cond body

@[simp]
theorem lift_ok (a : α) : (lift (.ok a) : Prog ε σ α) = pure a := rfl

@[simp]
theorem lift_error (e : Fault ε) : (lift (.error e) : Prog ε σ α) = throw e := rfl

@[simp]
theorem lift_map (f : α → β) (x : Except (Fault ε) α) :
    (lift (f <$> x) : Prog ε σ β) = f <$> lift x := by
  cases x <;> rfl

section Run

variable (s : σ)

@[simp]
theorem run_fail (e : ε) : (fail e : Prog ε σ α).run s = .error (.error e) s := rfl

@[simp]
theorem run_abort (msg : String) : (abort msg : Prog ε σ α).run s = .error (.panic msg) s := rfl

@[simp]
theorem run_throw (e : Fault ε) : (throw e : Prog ε σ α).run s = .error e s := rfl

@[simp]
theorem run_lift_ok (a : α) : (lift (.ok a) : Prog ε σ α).run s = .ok a s := rfl

@[simp]
theorem run_lift_error (e : Fault ε) : (lift (.error e) : Prog ε σ α).run s = .error e s := rfl

@[simp]
theorem run_map (f : α → β) (x : Prog ε σ α) :
    (f <$> x).run s =
      match x.run s with
      | .ok a s' => .ok (f a) s'
      | .error e s' => .error e s' := by
  rw [← bind_pure_comp]
  simp only [EStateM.run_bind, EStateM.run_pure]
  cases x.run s <;> rfl

theorem run_zoom (view : σ → τ) (put : τ → σ → σ) (x : Prog ε τ α) :
    (zoom view put x).run s =
      match x.run (view s) with
      | .ok a t => .ok a (put t s)
      | .error e t => .error e (put t s) := rfl

theorem run_on (t : τ) (x : Prog ε τ α) :
    (on t x : Prog ε σ (α × τ)).run s =
      match x.run t with
      | .ok a t => .ok (a, t) s
      | .error e _ => .error e s := rfl

theorem run_bind_of_ok {x : Prog ε σ α} {f : α → Prog ε σ β} {a : α} {s t : σ}
    (h : x.run s = .ok a t) : (x >>= f).run s = (f a).run t := by
  rw [EStateM.run_bind, h]

theorem run_bind_of_error {x : Prog ε σ α} {f : α → Prog ε σ β} {e : Fault ε} {s t : σ}
    (h : x.run s = .error e t) : (x >>= f).run s = .error e t := by
  rw [EStateM.run_bind, h]

theorem run_bind_eq_ok_iff {x : Prog ε σ α} {f : α → Prog ε σ β} {b : β} {s u : σ} :
    (x >>= f).run s = .ok b u ↔ ∃ a t, x.run s = .ok a t ∧ (f a).run t = .ok b u := by
  constructor
  . intro h
    rw [EStateM.run_bind] at h
    split at h
    next a t hrun => exact ⟨a, t, hrun, h⟩
    next => cases h
  . rintro ⟨a, t, hrun, h⟩
    rw [EStateM.run_bind, hrun]
    exact h

theorem run_bind_eq_ok {x : Prog ε σ α} {f : α → Prog ε σ β} {b : β} {s u : σ}
    (h : (x >>= f).run s = .ok b u) : ∃ a t, x.run s = .ok a t ∧ (f a).run t = .ok b u :=
  run_bind_eq_ok_iff.mp h

theorem exists_run_of_final {x : Prog ε σ α} {f : σ → β} {b : β} {s : σ} (h : (x.final s).map f = some b) :
    ∃ a t, x.run s = .ok a t ∧ f t = b := by
  unfold final at h
  cases hx : x s with
  | ok a t =>
    rw [hx] at h
    exact ⟨a, t, hx, Option.some.inj h⟩
  | error e t =>
    rw [hx] at h
    cases h

theorem run_map_eq_ok {f : α → β} {x : Prog ε σ α} {b : β} {s t : σ} :
    (f <$> x).run s = .ok b t ↔ ∃ a, x.run s = .ok a t ∧ f a = b := by
  rw [run_map]
  cases x.run s with
  | ok a u => simp [and_comm]
  | error e u => simp

theorem run_lift_eq_ok {x : Except (Fault ε) α} {a : α} {s t : σ}
    (h : (lift x : Prog ε σ α).run s = .ok a t) : x = .ok a ∧ t = s := by
  cases x with
  | ok b =>
    cases h
    exact ⟨rfl, rfl⟩
  | error e => cases h

theorem run_zoom_eq_ok {view : σ → τ} {put : τ → σ → σ} {x : Prog ε τ α} {a : α} {s t : σ}
    (h : (zoom view put x).run s = .ok a t) : ∃ u, x.run (view s) = .ok a u ∧ t = put u s := by
  rw [run_zoom] at h
  split at h
  next u hrun =>
    cases h
    exact ⟨u, hrun, rfl⟩
  next => cases h

theorem run_on_eq_ok {x : Prog ε τ α} {r : τ} {a : α × τ} {s t : σ}
    (h : (on r x : Prog ε σ (α × τ)).run s = .ok a t) : x.run r = .ok a.1 a.2 ∧ t = s := by
  rw [run_on] at h
  split at h
  next hrun =>
    cases h
    exact ⟨hrun, rfl⟩
  next => cases h

theorem run_get_bind_eq_ok {f : σ → Prog ε σ β} {b : β} {s u : σ}
    (h : (get >>= f).run s = .ok b u) : (f s).run s = .ok b u := h

theorem run_lift_bind_eq_ok {x : Except (Fault ε) α} {f : α → Prog ε σ β} {b : β} {s u : σ}
    (h : (lift x >>= f).run s = .ok b u) : ∃ a, x = .ok a ∧ (f a).run s = .ok b u := by
  cases x with
  | ok a => exact ⟨a, rfl, h⟩
  | error e => cases h

theorem run_on_bind_eq_ok {x : Prog ε τ α} {f : α × τ → Prog ε σ β} {r : τ} {b : β} {s u : σ}
    (h : (on r x >>= f).run s = .ok b u) :
    ∃ a r', x.run r = .ok a r' ∧ (f (a, r')).run s = .ok b u := by
  obtain ⟨⟨a, r'⟩, _, hon, hrest⟩ := run_bind_eq_ok h
  obtain ⟨hrun, rfl⟩ := run_on_eq_ok hon
  exact ⟨a, r', hrun, hrest⟩

@[simp]
theorem times_zero (x : Prog ε σ Unit) : times 0 x = pure () := rfl

theorem times_succ (n : Nat) (x : Prog ε σ Unit) :
    times (n + 1) x = (do x; times n x) := rfl

theorem times_add (m n : Nat) (x : Prog ε σ Unit) :
    times (m + n) x = (do times m x; times n x) := by
  induction m with
  | zero => simp
  | succ m ih =>
    rw [Nat.add_right_comm, times_succ, times_succ, ih]
    simp

theorem run_whileLoop_of_false {cond : Prog ε σ Bool} {s'} (fuel : Nat) (body : Prog ε σ Unit)
    (h : cond.run s = .ok false s') : (whileLoop fuel cond body).run s = .ok () s' := by
  cases fuel <;> simp [whileLoop, h]

theorem run_whileLoop_of_true {cond : Prog ε σ Bool} {s'} (fuel : Nat) (body : Prog ε σ Unit)
    (h : cond.run s = .ok true s') :
    (whileLoop (fuel + 1) cond body).run s = (do body; whileLoop fuel cond body : Prog ε σ Unit).run s' := by
  simp [whileLoop, h]

theorem run_whileLoop_of_error {cond : Prog ε σ Bool} {e s'} (fuel : Nat) (body : Prog ε σ Unit)
    (h : cond.run s = .error e s') : (whileLoop fuel cond body).run s = .error e s' := by
  cases fuel <;> simp [whileLoop, h]

end Run

def finalState (r : EStateM.Result (Fault ε) σ α) : σ :=
  match r with
  | .ok _ s => s
  | .error _ s => s

@[simp]
theorem finalState_ok (a : α) (s : σ) :
    finalState (.ok a s : EStateM.Result (Fault ε) σ α) = s := rfl

@[simp]
theorem finalState_error (e : Fault ε) (s : σ) :
    finalState (.error e s : EStateM.Result (Fault ε) σ α) = s := rfl

def outcome (r : EStateM.Result (Fault ε) σ α) : Option (Fault ε) :=
  match r with
  | .ok _ _ => none
  | .error e _ => some e

def Panics (e : Option (Fault ε)) : Prop := ∃ msg, e = some (.panic msg)

theorem not_panics_error {e : ε} : ¬ Panics (some (.error e)) := by
  rintro ⟨msg, h⟩
  cases h

theorem not_panics_none : ¬ Panics (none : Option (Fault ε)) := by
  rintro ⟨msg, h⟩
  cases h

/--
Every run of `x` ends in a state that is `R` of the one it starts in.
-/
def Moves (R : σ → σ → Prop) (x : Prog ε σ α) : Prop :=
  ∀ s, R s (finalState (x.run s))

section Moves

variable {R : σ → σ → Prop}

theorem Moves.modify {f : σ → σ} (h : ∀ s, R s (f s)) :
    Moves R (modifyThe σ f : Prog ε σ PUnit) := h

theorem Moves.zoom {R : τ → τ → Prop} {Q : σ → σ → Prop} {x : Prog ε τ α} (hx : Moves R x)
    {view : σ → τ} {put : τ → σ → σ} (h : ∀ s t, R (view s) t → Q s (put t s)) :
    Moves Q (zoom view put x) := by
  intro s
  have hxs := hx (view s)
  rw [run_zoom]
  cases hrun : x.run (view s) <;>
    rw [hrun] at hxs <;>
    exact h _ _ hxs

theorem Moves.imp {R Q : σ → σ → Prop} {x : Prog ε σ α} (hx : Moves R x)
    (h : ∀ s t, R s t → Q s t) : Moves Q x := fun s => h _ _ (hx s)

variable [IsPreorder σ R]

theorem Moves.pure (a : α) : Moves R (Pure.pure a : Prog ε σ α) := fun s => refl_of R s

theorem Moves.throw (e : Fault ε) : Moves R (MonadExcept.throw e : Prog ε σ α) :=
  fun s => refl_of R s

theorem Moves.get : Moves R (MonadState.get : Prog ε σ σ) := fun s => refl_of R s

theorem Moves.lift (x : Except (Fault ε) α) : Moves R (lift x) := by
  cases x <;> exact fun s => refl_of R s

theorem Moves.on (r : τ) (x : Prog ε τ α) : Moves R (on r x : Prog ε σ (α × τ)) := by
  intro s
  rw [run_on]
  split <;> exact refl_of R s

theorem Moves.bind {x : Prog ε σ α} {f : α → Prog ε σ β} (hx : Moves R x)
    (hf : ∀ a, Moves R (f a)) : Moves R (x >>= f) := by
  intro s
  have hxs := hx s
  simp only [EStateM.run_bind]
  cases hrun : x.run s with
  | ok a s' =>
    rw [hrun] at hxs
    exact trans_of R hxs (hf a s')
  | error e s' =>
    rw [hrun] at hxs
    exact hxs

theorem Moves.times {x : Prog ε σ Unit} (hx : Moves R x) (n : Nat) : Moves R (times n x) := by
  induction n with
  | zero => exact Moves.pure ()
  | succ n ih => exact hx.bind fun _ => ih

theorem Moves.whileLoop {cond : Prog ε σ Bool} {body : Prog ε σ Unit} (hcond : Moves R cond)
    (hbody : Moves R body) (fuel : Nat) : Moves R (whileLoop fuel cond body) := by
  induction fuel with
  | zero =>
    apply hcond.bind
    intro b
    cases b with
    | true => exact Moves.throw _
    | false => exact Moves.pure ()
  | succ fuel ih =>
    apply hcond.bind
    intro b
    cases b with
    | true => exact hbody.bind fun _ => ih
    | false => exact Moves.pure ()

end Moves

/--
Every fault of `x` is in `F`.
-/
def Faults (F : Fault ε → Prop) (x : Prog ε σ α) : Prop :=
  ∀ s e s', x.run s = .error e s' → F e

section Faults

variable {F : Fault ε → Prop}

theorem Faults.imp {F F' : Fault ε → Prop} {x : Prog ε σ α} (hx : Faults F x)
    (h : ∀ e, F e → F' e) : Faults F' x := fun s e s' hrun => h e (hx s e s' hrun)

theorem Faults.pure (a : α) : Faults F (Pure.pure a : Prog ε σ α) := by
  intro s e s' h
  cases h

theorem Faults.throw {e : Fault ε} (h : F e) : Faults F (MonadExcept.throw e : Prog ε σ α) := by
  intro s e' s' hrun
  cases hrun
  exact h

theorem Faults.get : Faults F (MonadState.get : Prog ε σ σ) := by
  intro s e s' h
  cases h

theorem Faults.modify (f : σ → σ) : Faults F (modifyThe σ f : Prog ε σ PUnit) := by
  intro s e s' h
  cases h

theorem Faults.lift {x : Except (Fault ε) α} (h : ∀ e, x = .error e → F e) :
    Faults F (lift x : Prog ε σ α) := by
  intro s e s' hrun
  cases x with
  | ok a => cases hrun
  | error e' =>
    cases hrun
    exact h _ rfl

theorem Faults.bind {x : Prog ε σ α} {f : α → Prog ε σ β} (hx : Faults F x)
    (hf : ∀ a, Faults F (f a)) : Faults F (x >>= f) := by
  intro s e s' h
  rw [EStateM.run_bind] at h
  split at h
  next a s₁ _ => exact hf a s₁ e s' h
  next e₁ s₁ hrun =>
    cases h
    exact hx s e s' hrun

theorem Faults.map {x : Prog ε σ α} (hx : Faults F x) (f : α → β) : Faults F (f <$> x) := by
  rw [← bind_pure_comp]
  exact hx.bind fun _ => Faults.pure _

theorem Faults.times {x : Prog ε σ Unit} (hx : Faults F x) (n : Nat) : Faults F (times n x) := by
  induction n with
  | zero => exact Faults.pure ()
  | succ n ih => exact hx.bind fun _ => ih

theorem Faults.zoom {x : Prog ε τ α} (hx : Faults F x) {view : σ → τ} {put : τ → σ → σ} :
    Faults F (zoom view put x) := by
  intro s e s' h
  rw [run_zoom] at h
  split at h
  next => cases h
  next e₁ t hrun =>
    cases h
    exact hx _ e t hrun

theorem Faults.on {x : Prog ε τ α} (hx : Faults F x) (t : τ) :
    Faults F (on t x : Prog ε σ (α × τ)) := by
  intro s e s' h
  rw [run_on] at h
  split at h
  next => cases h
  next hrun =>
    cases h
    exact hx _ _ _ hrun

end Faults

theorem run_whileLoop_ne_diverge {cond : Prog ε σ Bool} {body : Prog ε σ Unit} {b : σ → Bool}
    (measure : σ → Nat) (hcond : ∀ s, cond.run s = .ok (b s) s)
    (hbody : Faults (· ≠ .diverge) body)
    (hmeasure : ∀ s s', b s = true → body.run s = .ok () s' → measure s' < measure s)
    (hzero : ∀ s, measure s = 0 → b s = false) (fuel : Nat) {s s' : σ} (hfuel : measure s ≤ fuel) :
    (whileLoop fuel cond body).run s ≠ .error .diverge s' := by
  -- By induction on the fuel: an iteration makes the measure smaller, so the fuel is not used up before
  -- it.
  induction fuel generalizing s with
  | zero =>
    rw [run_whileLoop_of_false _ _ _ (by rw [hcond, hzero s (by omega)])]
    simp
  | succ fuel ih =>
    cases hb : b s with
    | false =>
      rw [run_whileLoop_of_false _ _ _ (by rw [hcond, hb])]
      simp
    | true =>
      rw [run_whileLoop_of_true _ _ _ (by rw [hcond, hb]), EStateM.run_bind]
      cases hrun : body.run s with
      | ok _ s₁ =>
        have := hmeasure s s₁ hb hrun
        exact ih (by omega)
      | error e s₁ =>
        intro h
        cases h
        exact hbody _ _ _ hrun rfl

theorem cond_of_run_whileLoop {cond : Prog ε σ Bool} {body : Prog ε σ Unit} {b : σ → Bool}
    (hcond : ∀ s, cond.run s = .ok (b s) s) (fuel : Nat) {s s' : σ}
    (h : (whileLoop fuel cond body).run s = .ok () s') : b s' = false := by
  induction fuel generalizing s with
  | zero =>
    cases hb : b s with
    | false =>
      rw [run_whileLoop_of_false _ _ _ (by rw [hcond, hb])] at h
      cases h
      exact hb
    | true => simp [whileLoop, hcond, hb] at h
  | succ fuel ih =>
    cases hb : b s with
    | false =>
      rw [run_whileLoop_of_false _ _ _ (by rw [hcond, hb])] at h
      cases h
      exact hb
    | true =>
      rw [run_whileLoop_of_true _ _ _ (by rw [hcond, hb]), EStateM.run_bind] at h
      split at h
      next => exact ih h
      next => cases h

theorem run_whileLoop_mono {cond : Prog ε σ Bool} {body : Prog ε σ Unit} {fuel fuel' : Nat}
    (hle : fuel ≤ fuel') {s : σ} (h : ∀ s', (whileLoop fuel cond body).run s ≠ .error .diverge s') :
    (whileLoop fuel' cond body).run s = (whileLoop fuel cond body).run s := by
  induction fuel generalizing fuel' s with
  | zero =>
    cases hcond : cond.run s with
    | ok b s₁ =>
      cases b with
      | false => rw [run_whileLoop_of_false _ _ _ hcond, run_whileLoop_of_false _ _ _ hcond]
      | true => exact absurd (by simp [whileLoop, hcond]) (h s₁)
    | error e s₁ => rw [run_whileLoop_of_error _ _ _ hcond, run_whileLoop_of_error _ _ _ hcond]
  | succ fuel ih =>
    obtain ⟨fuel', rfl⟩ : ∃ n, fuel' = n + 1 := ⟨fuel' - 1, by omega⟩
    cases hcond : cond.run s with
    | ok b s₁ =>
      cases b with
      | false => rw [run_whileLoop_of_false _ _ _ hcond, run_whileLoop_of_false _ _ _ hcond]
      | true =>
        rw [run_whileLoop_of_true _ _ _ hcond] at h ⊢
        rw [run_whileLoop_of_true _ _ _ hcond, EStateM.run_bind, EStateM.run_bind]
        rw [EStateM.run_bind] at h
        cases hbody : body.run s₁ with
        | ok _ s₂ =>
          rw [hbody] at h
          exact ih (by omega) h
        | error e s₂ => rfl
    | error e s₁ => rw [run_whileLoop_of_error _ _ _ hcond, run_whileLoop_of_error _ _ _ hcond]

theorem finalState_whileLoop_le {cond : Prog ε σ Bool} {body : Prog ε σ Unit} (count : σ → Nat)
    (hcond : ∀ s, ∃ b, cond.run s = .ok b s)
    (hbody : Moves (fun s s' => count s' ≤ count s + 1) body) (fuel : Nat) (s : σ) :
    count (finalState ((whileLoop fuel cond body).run s)) ≤ count s + fuel := by
  -- By induction on the fuel, where the steps of the first iteration and of the others add up.
  induction fuel generalizing s with
  | zero =>
    obtain ⟨b, hb⟩ := hcond s
    rw [whileLoop, EStateM.run_bind, hb]
    cases b <;> exact Nat.le_refl _
  | succ fuel ih =>
    obtain ⟨b, hb⟩ := hcond s
    cases b with
    | false =>
      rw [run_whileLoop_of_false _ _ _ hb, finalState_ok]
      omega
    | true =>
      have hstep := hbody s
      rw [run_whileLoop_of_true _ _ _ hb, EStateM.run_bind]
      cases hrun : body.run s with
      | ok _ s₁ =>
        rw [hrun, finalState_ok] at hstep
        have := ih s₁
        simp only
        omega
      | error e s₁ =>
        rw [hrun, finalState_error] at hstep
        simp only [finalState_error]
        omega

/--
Two runs that end in the same way: both return, with results and states in `Q`, or both stop with
the same fault, with states in `E`.
-/
inductive Related (Q : α → σ → β → τ → Prop) (E : σ → τ → Prop) :
    EStateM.Result (Fault ε) σ α → EStateM.Result (Fault ε) τ β → Prop where
  | ok {a s b t} (h : Q a s b t) : Related Q E (.ok a s) (.ok b t)
  | error {e s t} (h : E s t) : Related Q E (.error e s) (.error e t)

theorem Related.imp {Q Q' : α → σ → β → τ → Prop} {E E' : σ → τ → Prop}
    {r : EStateM.Result (Fault ε) σ α} {r'} (hQ : ∀ a s b t, Q a s b t → Q' a s b t)
    (hE : ∀ s t, E s t → E' s t) (h : Related Q E r r') : Related Q' E' r r' := by
  cases h with
  | ok h => exact .ok (hQ _ _ _ _ h)
  | error h => exact .error (hE _ _ h)

theorem Related.and_run {Q : α → σ → β → τ → Prop} {E : σ → τ → Prop}
    {r : EStateM.Result (Fault ε) σ α} {r'} (h : Related Q E r r') :
    Related (fun a s b t => Q a s b t ∧ r' = .ok b t) E r r' := by
  cases h with
  | ok h => exact .ok ⟨h, rfl⟩
  | error h => exact .error h

theorem Related.of_ok {Q : α → σ → β → τ → Prop} {E : σ → τ → Prop}
    {r : EStateM.Result (Fault ε) σ α} {b t} (h : Related Q E r (.ok b t)) :
    ∃ a s, r = .ok a s ∧ Q a s b t := by
  cases h with
  | ok h => exact ⟨_, _, rfl, h⟩

theorem Related.of_error {Q : α → σ → β → τ → Prop} {E : σ → τ → Prop}
    {r : EStateM.Result (Fault ε) σ α} {e t} (h : Related Q E r (.error e t)) :
    ∃ s, r = .error e s ∧ E s t := by
  cases h with
  | error h => exact ⟨_, rfl, h⟩

theorem Related.outcome_eq {Q : α → σ → β → τ → Prop} {E : σ → τ → Prop}
    {r : EStateM.Result (Fault ε) σ α} {r' : EStateM.Result (Fault ε) τ β} (h : Related Q E r r') :
    outcome r = outcome r' := by
  cases h <;> rfl

theorem Related.finalState {E : σ → τ → Prop} {r : EStateM.Result (Fault ε) σ α}
    {r' : EStateM.Result (Fault ε) τ β} (h : Related (fun _ s _ t => E s t) E r r') :
    E (finalState r) (finalState r') := by
  cases h with
  | ok h => exact h
  | error h => exact h

theorem Related.bind {Q : α → σ → β → τ → Prop} {E : σ → τ → Prop} {Q' : γ → σ → δ → τ → Prop}
    {x : Prog ε σ α} {y : Prog ε τ β} {f : α → Prog ε σ γ} {g : β → Prog ε τ δ} {s t}
    (h : Related Q E (x.run s) (y.run t))
    (hfg : ∀ a s b t, Q a s b t → Related Q' E ((f a).run s) ((g b).run t)) :
    Related Q' E ((x >>= f).run s) ((y >>= g).run t) := by
  simp only [EStateM.run_bind]
  generalize x.run s = r at h
  generalize y.run t = r' at h
  cases h with
  | ok h => exact hfg _ _ _ _ h
  | error h => exact .error h

theorem Related.times {P : σ → τ → Prop} {E : σ → τ → Prop} {x : Prog ε σ Unit} {y : Prog ε τ Unit}
    (hxy : ∀ s t, P s t → Related (fun _ s' _ t' => P s' t') E (x.run s) (y.run t)) (n : Nat)
    {s : σ} {t : τ} (h : P s t) :
    Related (fun _ s' _ t' => P s' t') E ((Prog.times n x).run s) ((Prog.times n y).run t) := by
  induction n generalizing s t with
  | zero => exact .ok h
  | succ n ih =>
    apply (hxy s t h).bind
    exact fun _ _ _ _ h' => ih h'

theorem Related.whileLoop {P : σ → τ → Prop} {E : σ → τ → Prop} {cond : Prog ε σ Bool}
    {cond' : Prog ε τ Bool} {body : Prog ε σ Unit} {body' : Prog ε τ Unit}
    (hcond : ∀ s t, P s t →
      Related (fun b s' b' t' => b = b' ∧ P s' t') E (cond.run s) (cond'.run t))
    (hbody : ∀ s t, P s t → Related (fun _ s' _ t' => P s' t') E (body.run s) (body'.run t))
    (hE : ∀ s t, P s t → E s t) (fuel : Nat) {s : σ} {t : τ} (h : P s t) :
    Related (fun _ s' _ t' => P s' t') E ((Prog.whileLoop fuel cond body).run s)
      ((Prog.whileLoop fuel cond' body').run t) := by
  -- By induction on the fuel, which the two loops share.
  induction fuel generalizing s t with
  | zero =>
    apply (hcond s t h).bind
    rintro b s' _ t' ⟨rfl, h'⟩
    cases b with
    | true => exact .error (hE _ _ h')
    | false => exact .ok h'
  | succ fuel ih =>
    apply (hcond s t h).bind
    rintro b s' _ t' ⟨rfl, h'⟩
    cases b with
    | true =>
      apply (hbody s' t' h').bind
      exact fun _ _ _ _ h'' => ih h''
    | false => exact .ok h'

end Prog
