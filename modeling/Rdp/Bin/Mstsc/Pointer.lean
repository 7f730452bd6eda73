import Rdp.Bin.Mstsc.Window
import Rdp.Lib.Held

/-!
This module contains the pointer events of several turns of the loop: which button a server takes for
held down behind each of them.
-/

namespace Rdp.Mstsc

section Program

variable {σ : Type} (write : RdpEvent → Prog Error σ Unit)

def writeEvents (events : List RdpEvent) : Prog Error σ Unit :=
  match events with
  | [] => return ()
  | event :: events => do
    write event
    writeEvents events

def mouseInputs (windows : List Window) (lastButton : PointerButton) : Prog Error σ PointerButton :=
  match windows with
  | [] => return lastButton
  | window :: windows => do
    let lastButton ← mouseInput write window lastButton
    mouseInputs windows lastButton

end Program

/--
The button of an event when `last_button` becomes `current_button`. Every value of the disjunction is
one of a button, and the one of two different buttons is the one of the middle button.
-/
def changedButton (lastButton currentButton : PointerButton) : PointerButton :=
  if lastButton = currentButton then
    .none
  else if lastButton = .none then
    currentButton
  else if currentButton = .none then
    lastButton
  else
    .middle

def changed (lastButton currentButton : PointerButton) (x y : UInt16) : PointerEvent where
  x := x
  y := y
  button := changedButton lastButton currentButton
  down := lastButton ≠ currentButton ∧ lastButton = .none

theorem pointerEvent_eq (lastButton currentButton : PointerButton) (x y : UInt16) :
    pointerEvent lastButton currentButton x y = .ok (changed lastButton currentButton x y) := by
  cases lastButton <;> cases currentButton <;> rfl

def buttonOf (window : Window) : Option PointerButton :=
  window.mousePos.map fun _ => getRdpPointerDown window

def lastButton (windows : List Window) (last : PointerButton) : PointerButton :=
  match windows with
  | [] => last
  | window :: windows => lastButton windows ((buttonOf window).getD last)

def pointerEvents (windows : List Window) (last : PointerButton) : List PointerEvent :=
  match windows with
  | [] => []
  | window :: windows =>
    match window.mousePos with
    | none => pointerEvents windows last
    | some (x, y) =>
      changed last (getRdpPointerDown window) x y ::
        pointerEvents windows (getRdpPointerDown window)

theorem mouseInputs_eq {σ : Type} (write : RdpEvent → Prog Error σ Unit) (windows : List Window)
    (last : PointerButton) :
    mouseInputs write windows last = (do
      writeEvents write ((pointerEvents windows last).map .pointer)
      return lastButton windows last) := by
  induction windows generalizing last with
  | nil => simp [mouseInputs, pointerEvents, writeEvents, lastButton]
  | cons window windows ih =>
    rw [mouseInputs, mouseInput, pointerEvents, lastButton, buttonOf]
    cases window.mousePos with
    | none => simp [ih]
    | some position => simp [pointerEvent_eq, ih, writeEvents]

/--
What an event says about the button that is held down. A move says nothing.
-/
def pointerStrokes (event : PointerEvent) : List (PointerButton × Bool) :=
  if event.button = .none then
    []
  else
    [(event.button, event.down)]

/--
The buttons that are held down behind these events, as their receiver sees it.
-/
def heldButtons (events : List PointerEvent) : Set PointerButton :=
  Held.after (events.flatMap pointerStrokes) ∅

def only (button : PointerButton) : Set PointerButton := { b | b = button ∧ b ≠ .none }

/--
The button changes without being released in between.
-/
def Switches (a b : PointerButton) : Prop := a ≠ b ∧ a ≠ .none ∧ b ≠ .none

instance (a b : PointerButton) : Decidable (Switches a b) := inferInstanceAs (Decidable (_ ∧ _))

section Held

variable {a b : PointerButton}

theorem only_none : only .none = ∅ := by
  ext button
  simp [only]

theorem self_mem_only (h : b ≠ .none) : b ∈ only b := ⟨rfl, h⟩

theorem only_eq_singleton (h : b ≠ .none) : only b = {b} := by
  ext button
  constructor
  . exact fun hbutton => hbutton.1
  . rintro rfl
    exact self_mem_only h

theorem after_changed_iff (a b : PointerButton) (x y : UInt16) :
    Held.after (pointerStrokes (changed a b x y)) (only a) = only b ↔ ¬ Switches a b := by
  by_cases hsame : a = b
  . subst hsame
    simp [pointerStrokes, changed, changedButton, Switches]
  by_cases ha : a = .none
  . subst ha
    have hb : b ≠ .none := Ne.symm hsame
    simp [pointerStrokes, changed, changedButton, Switches, hsame, hb, Held.stroke, only_none,
      only_eq_singleton hb]
  by_cases hb : b = .none
  . subst hb
    simp [pointerStrokes, changed, changedButton, Switches, ha, Held.stroke, only_none,
      only_eq_singleton ha]
  . -- the middle button is released, and the new one is not pressed
    have hswitches : Switches a b := ⟨hsame, ha, hb⟩
    have hstrokes : pointerStrokes (changed a b x y) = [(.middle, false)] := by
      simp [pointerStrokes, changed, changedButton, hsame, ha, hb]
    refine iff_of_false ?_ (not_not.mpr hswitches)
    rw [hstrokes]
    intro hagree
    have hmem : b ∈ only a \ {.middle} := by
      rw [show only a \ {.middle} = only b from hagree]
      exact self_mem_only hb
    exact hsame hmem.1.1.symm

end Held

/--
Behind every turn the receiver takes for held down what the window has down.
-/
def Agrees (windows : List Window) (last : PointerButton) (held : Set PointerButton) : Prop :=
  ∀ front, front <+: windows →
    Held.after ((pointerEvents front last).flatMap pointerStrokes) held = only (lastButton front last)

theorem pointerEvents_of_none {window : Window} (h : buttonOf window = none) (windows : List Window)
    (last : PointerButton) : pointerEvents (window :: windows) last = pointerEvents windows last := by
  unfold buttonOf at h
  rw [pointerEvents, Option.map_eq_none_iff.mp h]

theorem pointerEvents_of_some {window : Window} {b : PointerButton} (h : buttonOf window = some b) :
    ∃ x y, ∀ windows last,
      pointerEvents (window :: windows) last = changed last b x y :: pointerEvents windows b := by
  unfold buttonOf at h
  obtain ⟨⟨x, y⟩, hposition, rfl⟩ := Option.map_eq_some_iff.mp h
  refine ⟨x, y, ?_⟩
  intro windows last
  rw [pointerEvents, hposition]

theorem agrees_iff (windows : List Window) (last : PointerButton) :
    Agrees windows last (only last) ↔
      List.IsChain (fun a b => ¬ Switches a b) (last :: windows.filterMap buttonOf) := by
  induction windows generalizing last with
  | nil =>
    refine iff_of_true ?_ (.singleton last)
    intro front hfront
    rw [List.prefix_nil.mp hfront]
    rfl
  | cons window windows ih =>
    cases hbutton : buttonOf window with
    | none =>
      rw [List.filterMap_cons_none hbutton, ← ih]
      constructor
      . intro h front hfront
        have hagree := h (window :: front) (List.prefix_cons_inj window |>.mpr hfront)
        rwa [pointerEvents_of_none hbutton, lastButton, hbutton] at hagree
      . intro h front hfront
        rcases List.prefix_cons_iff.mp hfront with rfl | ⟨front, rfl, hrest⟩
        . rfl
        . rw [pointerEvents_of_none hbutton, lastButton, hbutton]
          exact h front hrest
    | some b =>
      obtain ⟨x, y, hevents⟩ := pointerEvents_of_some hbutton
      rw [List.filterMap_cons_some hbutton, List.isChain_cons_cons, ← ih,
        ← after_changed_iff last b x y]
      constructor
      . intro h
        have hone := h [window] ⟨windows, rfl⟩
        rw [hevents, lastButton, hbutton, List.flatMap_cons, Held.after_append] at hone
        refine ⟨hone, ?_⟩
        intro front hfront
        have hagree := h (window :: front) (List.prefix_cons_inj window |>.mpr hfront)
        rw [hevents, lastButton, hbutton, List.flatMap_cons, Held.after_append] at hagree
        rwa [show Held.after _ (only last) = only b from hone] at hagree
      . rintro ⟨hone, h⟩ front hfront
        rcases List.prefix_cons_iff.mp hfront with rfl | ⟨front, rfl, hrest⟩
        . rfl
        . rw [hevents, lastButton, hbutton, List.flatMap_cons, Held.after_append, hone]
          exact h front hrest

/--
The mouse over any number of turns: no turn aborts, the events are written in order, and the receiver
always knows which button is held down if and only if no button is exchanged for another one within a
turn. Such a turn releases the middle button instead.
-/
theorem mouse_followed_iff {σ : Type} (write : RdpEvent → Prog Error σ Unit) (windows : List Window) :
    (mouseInputs write windows .none = do
      writeEvents write ((pointerEvents windows .none).map .pointer)
      return lastButton windows .none) ∧
    ((∀ front, front <+: windows →
        heldButtons (pointerEvents front .none) = only (lastButton front .none)) ↔
      List.IsChain (fun a b => ¬ Switches a b) (.none :: windows.filterMap buttonOf)) := by
  refine ⟨mouseInputs_eq write windows .none, ?_⟩
  rw [← agrees_iff, only_none]
  rfl

end Rdp.Mstsc
