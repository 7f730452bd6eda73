import Rdp.Lib.Program

/-!
Programs that consume a list from its front: what they do only depends on the part of the list that
they consume.
-/

namespace Prog

variable {ε σ α β γ : Type} {view : σ → List γ} {put : List γ → σ → σ}

/--
A run of `x` that returns takes a part off the front of the list, and does the same when this part is
followed by anything else.
-/
def Local (view : σ → List γ) (put : List γ → σ → σ) (x : Prog ε σ α) : Prop :=
  ∀ s a s', x.run s = .ok a s' → ∃ part, view s = part ++ view s' ∧
    ∀ rest, x.run (put (part ++ rest) s) = .ok a (put rest s')

theorem Local.pure (a : α) : Local view put (Pure.pure a : Prog ε σ α) := by
  intro s b s' h
  cases h
  exact ⟨[], rfl, fun _ => rfl⟩

theorem Local.throw (e : Fault ε) : Local view put (MonadExcept.throw e : Prog ε σ α) := by
  intro s a s' h
  cases h

theorem Local.modify {f : σ → σ} (hview : ∀ s, view (f s) = view s)
    (hput : ∀ rest s, f (put rest s) = put rest (f s)) :
    Local view put (modifyThe σ f : Prog ε σ PUnit) := by
  intro s a s' h
  cases h
  refine ⟨[], (hview s).symm, fun rest => ?_⟩
  change EStateM.Result.ok _ (f (put rest s)) = _
  rw [hput]

theorem Local.get_bind {f : σ → Prog ε σ α} (hput : ∀ rest s, f (put rest s) = f s)
    (hf : ∀ s, Local view put (f s)) : Local view put (get >>= f) := by
  intro s a s' h
  rw [EStateM.run_bind, EStateM.run_get] at h
  obtain ⟨part, hpart, hrest⟩ := hf s s a s' h
  refine ⟨part, hpart, fun rest => ?_⟩
  rw [EStateM.run_bind, EStateM.run_get]
  simp only
  rw [hput]
  exact hrest rest

theorem Local.bind {x : Prog ε σ α} {f : α → Prog ε σ β} (hx : Local view put x)
    (hf : ∀ a, Local view put (f a)) : Local view put (x >>= f) := by
  intro s b s' h
  rw [EStateM.run_bind] at h
  cases hrun : x.run s with
  | error e s₁ =>
    rw [hrun] at h
    cases h
  | ok a s₁ =>
    rw [hrun] at h
    obtain ⟨part, hpart, hrest⟩ := hx s a s₁ hrun
    obtain ⟨part', hpart', hrest'⟩ := hf a s₁ b s' h
    refine ⟨part ++ part', ?_, fun rest => ?_⟩
    . rw [hpart, hpart', List.append_assoc]
    . rw [List.append_assoc, EStateM.run_bind, hrest]
      exact hrest' rest

theorem Local.times {x : Prog ε σ Unit} (hx : Local view put x) (n : Nat) :
    Local view put (times n x) := by
  induction n with
  | zero => exact Local.pure ()
  | succ n ih => exact hx.bind fun _ => ih

theorem Local.whileLoop {cond : Prog ε σ Bool} {body : Prog ε σ Unit} (hcond : Local view put cond)
    (hbody : Local view put body) (fuel : Nat) : Local view put (whileLoop fuel cond body) := by
  induction fuel with
  | zero =>
    apply hcond.bind
    intro b
    cases b with
    | true => exact Local.throw _
    | false => exact Local.pure ()
  | succ fuel ih =>
    apply hcond.bind
    intro b
    cases b with
    | true => exact hbody.bind fun _ => ih
    | false => exact Local.pure ()

theorem Local.zoom {x : Prog ε (List γ) α} (hx : Local id (fun rest _ => rest) x)
    (hview : ∀ rest s, view (put rest s) = rest)
    (hput : ∀ rest rest' s, put rest (put rest' s) = put rest s) :
    Local view put (Prog.zoom view put x) := by
  intro s a s' h
  rw [run_zoom] at h
  cases hrun : x.run (view s) with
  | error e t =>
    rw [hrun] at h
    cases h
  | ok b t =>
    rw [hrun] at h
    cases h
    obtain ⟨part, hpart, hrest⟩ := hx _ _ _ hrun
    refine ⟨part, ?_, fun rest => ?_⟩
    . rw [hview]
      exact hpart
    . have hrest : x.run (part ++ rest) = .ok a rest := hrest rest
      rw [run_zoom, hview, hrest]
      simp only [hput]

theorem Local.whileLoop_length {cond : Prog ε σ Bool} {body : Prog ε σ Unit} {b : σ → Bool}
    (hcond : ∀ s, cond.run s = .ok (b s) s) (hlocal : Local view put cond) (hbody : Local view put body)
    (hfaults : Faults (· ≠ .diverge) body)
    (hmeasure : ∀ s s', body.run s = .ok () s' → (view s').length < (view s).length) :
    Local view put (do let s ← get; Prog.whileLoop ((view s).length + 1) cond body : Prog ε σ Unit) := by
  -- Every iteration consumes something, so a fuel that is longer than the list is not used up.
  intro s a s' h
  rw [EStateM.run_bind, EStateM.run_get] at h
  obtain ⟨part, hpart, hrest⟩ := hlocal.whileLoop hbody _ s a s' h
  refine ⟨part, hpart, fun rest => ?_⟩
  have hfuel := hrest rest
  rw [EStateM.run_bind, EStateM.run_get]
  simp only
  generalize (view s).length + 1 = n at hfuel
  have hne : ∀ t, (Prog.whileLoop ((view (put (part ++ rest) s)).length + 1) cond body).run
      (put (part ++ rest) s) ≠ .error .diverge t := fun t =>
    run_whileLoop_ne_diverge (fun s => (view s).length + 1) hcond hfaults
      (fun s s' _ hrun => Nat.succ_lt_succ (hmeasure s s' hrun)) (fun _ h => by simp at h) _
      (Nat.le_refl _)
  generalize (view (put (part ++ rest) s)).length + 1 = m at hne
  have hmax := run_whileLoop_mono (Nat.le_max_left n m) (fun t => by rw [hfuel]; simp)
  rw [← run_whileLoop_mono (Nat.le_max_right n m) hne, hmax, hfuel]

end Prog
