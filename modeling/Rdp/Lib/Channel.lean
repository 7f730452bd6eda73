import Mathlib.Data.List.Basic

/-!
This module contains channels between two ends that both keep a state: what is encoded at one end is
decoded at the other one, in the same order, as long as the two states stay in step.
-/

/--
The ends of a channel. `sends s a b s'` encodes `a` as `b`, and `receives r b a r'` decodes it.
-/
structure Channel (σ ρ α β : Type) where
  sends : σ → α → β → σ → Prop
  receives : ρ → β → α → ρ → Prop
  inStep : σ → ρ → Prop
  receives_of_sends : ∀ {s r a b s'}, inStep s r → sends s a b s' →
    ∃ r', receives r b a r' ∧ inStep s' r'

namespace Channel

variable {σ ρ α β : Type} (c : Channel σ ρ α β)

/--
The messages of a queue, oldest first, are decoded one after the other, and the two ends are in step
behind the last one.
-/
inductive Transit (s : σ) : ρ → List β → List α → Prop where
  | nil {r : ρ} (h : c.inStep s r) : Transit s r [] []
  | cons {r r' : ρ} {b : β} {a : α} {queue : List β} {texts : List α} (hb : c.receives r b a r')
    (h : Transit s r' queue texts) : Transit s r (b :: queue) (a :: texts)

/--
What was sent is what was received, and what is still in the queue.
-/
def Carries (s : σ) (r : ρ) (queue : List β) (sent got : List α) : Prop :=
  ∃ texts, sent = got ++ texts ∧ c.Transit s r queue texts

variable {c} {s s' : σ} {r : ρ} {a : α} {b : β} {queue : List β} {texts sent got : List α}

theorem Transit.length_eq (h : c.Transit s r queue texts) : queue.length = texts.length := by
  induction h with
  | nil => rfl
  | cons _ _ ih => rw [List.length_cons, List.length_cons, ih]

theorem Transit.send (h : c.Transit s r queue texts) (hsend : c.sends s a b s') :
    c.Transit s' r (queue ++ [b]) (texts ++ [a]) := by
  induction h with
  | nil hstep =>
    obtain ⟨r', hreceives, hstep'⟩ := c.receives_of_sends hstep hsend
    exact .cons hreceives (.nil hstep')
  | cons hb _ ih => exact .cons hb ih

theorem Carries.start (h : c.inStep s r) : c.Carries s r [] [] [] := ⟨[], rfl, .nil h⟩

theorem Carries.send (h : c.Carries s r queue sent got) (hsend : c.sends s a b s') :
    c.Carries s' r (queue ++ [b]) (sent ++ [a]) got := by
  obtain ⟨texts, rfl, htransit⟩ := h
  exact ⟨texts ++ [a], List.append_assoc _ _ _, htransit.send hsend⟩

theorem Carries.receive (h : c.Carries s r (b :: queue) sent got) :
    ∃ a r', c.receives r b a r' ∧ c.Carries s r' queue sent (got ++ [a]) := by
  obtain ⟨texts, rfl, htransit⟩ := h
  cases htransit with
  | @cons _ r' _ a _ texts hb hrest =>
    refine ⟨a, r', hb, texts, ?_, hrest⟩
    rw [List.append_assoc]
    rfl

theorem Carries.isPrefix (h : c.Carries s r queue sent got) : got <+: sent := by
  obtain ⟨texts, rfl, _⟩ := h
  exact List.prefix_append got texts

theorem Carries.length_eq (h : c.Carries s r queue sent got) :
    sent.length = got.length + queue.length := by
  obtain ⟨texts, rfl, htransit⟩ := h
  rw [List.length_append, htransit.length_eq]

end Channel
