import Rdp.Bin.Mstsc.Keyboard
import Rdp.Bin.Mstsc.Pointer
import Rdp.Bin.Mstsc.Threads
import Rdp.Core.Client.Inputs

/-!
This module contains what the server of the client program knows: the events it reads are the ones of
the turns of the window, however the two threads are mixed.
-/

namespace Rdp.Mstsc

open Global (Session)
open Global.Client (Silent)
open Prog Cursor

/--
A part of a turn of the window in which the client is written to.
-/
inductive Input where
  | mouse (window : Window)
  | keyboard (window : Window)

namespace Input

def mouseWindow (input : Input) : Option Window :=
  match input with
  | .mouse window => some window
  | .keyboard _ => none

def keyboardWindow (input : Input) : Option Window :=
  match input with
  | .mouse _ => none
  | .keyboard window => some window

def events (input : Input) (last : PointerButton) (keys : List Key) : RdpResult (List RdpEvent) :=
  match input with
  | .mouse window => return (pointerEvents [window] last).map .pointer
  | .keyboard window => return (← keyEvents (keyStrokes [window] keys)).map .key

def nextButton (input : Input) (last : PointerButton) : PointerButton :=
  match input with
  | .mouse window => lastButton [window] last
  | .keyboard _ => last

def nextKeys (input : Input) (keys : List Key) : List Key :=
  match input with
  | .mouse _ => keys
  | .keyboard window => lastKeys [window] keys

end Input

/--
The events of several turns, oldest first. It is an abort if one of the keys has no scancode.
-/
def inputEvents (inputs : List Input) (last : PointerButton) (keys : List Key) : RdpResult (List RdpEvent) :=
  match inputs with
  | [] => return []
  | input :: inputs => do
    let events ← input.events last keys
    return events ++ (← inputEvents inputs (input.nextButton last) (input.nextKeys keys))

def buttonAfter (inputs : List Input) (last : PointerButton) : PointerButton :=
  inputs.foldl (fun last input => input.nextButton last) last

def keysAfter (inputs : List Input) (keys : List Key) : List Key :=
  inputs.foldl (fun keys input => input.nextKeys keys) keys

def pointersOf (events : List RdpEvent) : List PointerEvent :=
  events.filterMap fun event =>
    match event with
    | .pointer pointer => some pointer
    | _ => none

def keysOf (events : List RdpEvent) : List KeyboardEvent :=
  events.filterMap fun event =>
    match event with
    | .key key => some key
    | _ => none

section Inputs

variable {inputs : List Input} {last : PointerButton} {keys : List Key} {events : List RdpEvent}

theorem inputEvents_concat {input : Input} {events' : List RdpEvent} (h : inputEvents inputs last keys = .ok events)
    (hinput : input.events (buttonAfter inputs last) (keysAfter inputs keys) = .ok events') :
    inputEvents (inputs ++ [input]) last keys = .ok (events ++ events') := by
  induction inputs generalizing last keys events with
  | nil =>
    cases h
    change input.events last keys = _ at hinput
    rw [List.nil_append, inputEvents, hinput]
    exact congrArg Except.ok (List.append_nil _)
  | cons first inputs ih =>
    rw [inputEvents] at h
    obtain ⟨front, hfront, h⟩ := Except.bind_eq_ok h
    obtain ⟨rest, hrest, h⟩ := Except.bind_eq_ok h
    cases h
    rw [List.cons_append, inputEvents, hfront, Except.ok_bind, ih hrest hinput, List.append_assoc]
    rfl

theorem pointersOf_append (events events' : List RdpEvent) :
    pointersOf (events ++ events') = pointersOf events ++ pointersOf events' := List.filterMap_append

theorem keysOf_append (events events' : List RdpEvent) :
    keysOf (events ++ events') = keysOf events ++ keysOf events' := List.filterMap_append

theorem pointersOf_pointer (pointers : List PointerEvent) :
    pointersOf (pointers.map .pointer) = pointers ∧ keysOf (pointers.map .pointer) = [] := by
  induction pointers with
  | nil => exact ⟨rfl, rfl⟩
  | cons pointer pointers ih => exact ⟨congrArg (pointer :: ·) ih.1, ih.2⟩

theorem keysOf_key (keys : List KeyboardEvent) :
    keysOf (keys.map .key) = keys ∧ pointersOf (keys.map .key) = [] := by
  induction keys with
  | nil => exact ⟨rfl, rfl⟩
  | cons key keys ih => exact ⟨congrArg (key :: ·) ih.1, ih.2⟩

theorem pointerEvents_cons (window : Window) (windows : List Window) (last : PointerButton) :
    pointerEvents (window :: windows) last =
      pointerEvents [window] last ++ pointerEvents windows (lastButton [window] last) := by
  cases hbutton : buttonOf window with
  | none =>
    rw [pointerEvents_of_none hbutton, pointerEvents_of_none hbutton, lastButton, hbutton]
    rfl
  | some b =>
    obtain ⟨x, y, hevents⟩ := pointerEvents_of_some hbutton
    rw [hevents, hevents, lastButton, hbutton]
    rfl

theorem keyStrokes_cons (window : Window) (windows : List Window) (keys : List Key) :
    keyStrokes (window :: windows) keys =
      keyStrokes [window] keys ++ keyStrokes windows (lastKeys [window] keys) := by
  rw [keyStrokes, keyStrokes, lastKeys]
  cases window.keys with
  | none => rfl
  | some keys' =>
    dsimp only [keyStrokes, lastKeys, Option.getD_some]
    rw [List.append_nil]

theorem keyEvents_append {front back : List (Key × Bool)} {frontEvents backEvents : List KeyboardEvent}
    (hfront : keyEvents front = .ok frontEvents) (hback : keyEvents back = .ok backEvents) :
    keyEvents (front ++ back) = .ok (frontEvents ++ backEvents) := by
  unfold keyEvents at hfront hback ⊢
  rw [List.mapM_append, hfront, Except.ok_bind, hback]
  rfl

theorem pointersOf_inputEvents (h : inputEvents inputs last keys = .ok events) :
    pointersOf events = pointerEvents (inputs.filterMap Input.mouseWindow) last ∧
      buttonAfter inputs last = lastButton (inputs.filterMap Input.mouseWindow) last := by
  induction inputs generalizing last keys events with
  | nil =>
    cases h
    exact ⟨rfl, rfl⟩
  | cons input inputs ih =>
    rw [inputEvents] at h
    obtain ⟨front, hfront, h⟩ := Except.bind_eq_ok h
    obtain ⟨rest, hrest, h⟩ := Except.bind_eq_ok h
    cases h
    obtain ⟨hpointers, hbutton⟩ := ih hrest
    rw [pointersOf_append, hpointers]
    cases input with
    | mouse window =>
      cases hfront
      have hwindows : (Input.mouse window :: inputs).filterMap Input.mouseWindow =
          window :: inputs.filterMap Input.mouseWindow := rfl
      rw [hwindows, (pointersOf_pointer _).1, pointerEvents_cons window (inputs.filterMap _)]
      exact ⟨rfl, hbutton⟩
    | keyboard window =>
      obtain ⟨keyboard, _, hkeyboard⟩ := Except.bind_eq_ok hfront
      cases hkeyboard
      rw [List.filterMap_cons_none rfl, (keysOf_key _).2]
      exact ⟨rfl, hbutton⟩

theorem keysOf_inputEvents (h : inputEvents inputs last keys = .ok events) :
    keyEvents (keyStrokes (inputs.filterMap Input.keyboardWindow) keys) = .ok (keysOf events) ∧
      keysAfter inputs keys = lastKeys (inputs.filterMap Input.keyboardWindow) keys := by
  induction inputs generalizing last keys events with
  | nil =>
    cases h
    exact ⟨rfl, rfl⟩
  | cons input inputs ih =>
    rw [inputEvents] at h
    obtain ⟨front, hfront, h⟩ := Except.bind_eq_ok h
    obtain ⟨rest, hrest, h⟩ := Except.bind_eq_ok h
    cases h
    obtain ⟨hkeys, hlast⟩ := ih hrest
    rw [keysOf_append]
    cases input with
    | mouse window =>
      cases hfront
      rw [List.filterMap_cons_none rfl, (pointersOf_pointer _).2]
      exact ⟨hkeys, hlast⟩
    | keyboard window =>
      obtain ⟨keyboard, hkeyboard, hfront⟩ := Except.bind_eq_ok hfront
      cases hfront
      have hwindows : (Input.keyboard window :: inputs).filterMap Input.keyboardWindow =
          window :: inputs.filterMap Input.keyboardWindow := rfl
      rw [hwindows, (keysOf_key _).1, keyStrokes_cons]
      exact ⟨keyEvents_append hkeyboard hkeys, hlast⟩

end Inputs

section Write

variable {userId channel : UInt16} {s t : Session} {window : Window}

theorem tells_writeEvents {events : List RdpEvent} {u : Unit} (h : s.Joined userId channel)
    (hrun : (writeEvents RdpClient.write events).run s = .ok u t) :
    Session.Tells userId channel events s t := by
  induction events generalizing s with
  | nil =>
    cases hrun
    exact h.refl
  | cons event events ih =>
    obtain ⟨_, s₁, hwrite, hrest⟩ := run_bind_eq_ok hrun
    have htells := RdpClient.tells_of_run_write h hwrite
    exact htells.trans (ih htells.joined hrest)

theorem tells_mouseInput {last b : PointerButton} (h : s.Joined userId channel)
    (hrun : (mouseInput RdpClient.write window last).run s = .ok b t) :
    Session.Tells userId channel ((pointerEvents [window] last).map .pointer) s t ∧
      b = lastButton [window] last := by
  have hinput : mouseInput RdpClient.write window last = (do
      writeEvents RdpClient.write ((pointerEvents [window] last).map .pointer)
      return lastButton [window] last) := by
    rw [← mouseInputs_eq, mouseInputs]
    exact (bind_pure _).symm
  rw [hinput] at hrun
  obtain ⟨_, s₁, hwrite, hpure⟩ := run_bind_eq_ok hrun
  cases hpure
  exact ⟨tells_writeEvents h hwrite, rfl⟩

theorem keyEvents_of_run_writeStrokes {σ : Type} {write : RdpEvent → Prog Error σ Unit}
    {strokes : List (Key × Bool)} {s t : σ} {u : Unit} (h : (writeStrokes write strokes).run s = .ok u t) :
    ∃ events, keyEvents strokes = .ok events := by
  induction strokes generalizing s with
  | nil => exact ⟨[], rfl⟩
  | cons stroke strokes ih =>
    obtain ⟨key, down⟩ := stroke
    obtain ⟨_, s₁, hkey, hrest⟩ := run_bind_eq_ok h
    obtain ⟨code, hcode, _⟩ := run_lift_bind_eq_ok hkey
    obtain ⟨events, hevents⟩ := ih hrest
    rw [keyEvents_cons, hcode, Except.ok_bind, hevents]
    exact ⟨_, rfl⟩

theorem tells_keyboardInput {keys last : List Key} (h : s.Joined userId channel)
    (hrun : (keyboardInput RdpClient.write window last).run s = .ok keys t) :
    ∃ events, keyEvents (keyStrokes [window] last) = .ok events ∧
      Session.Tells userId channel (events.map .key) s t ∧ keys = lastKeys [window] last := by
  have hinput : keyboardInput RdpClient.write window last = (do
      writeStrokes RdpClient.write (keyStrokes [window] last)
      return lastKeys [window] last) := by
    rw [← keyboardInputs_eq, keyboardInputs]
    exact (bind_pure _).symm
  rw [hinput] at hrun
  obtain ⟨_, s₁, hwrite, hpure⟩ := run_bind_eq_ok hrun
  cases hpure
  obtain ⟨events, hevents⟩ := keyEvents_of_run_writeStrokes hwrite
  rw [writeStrokes_of_ok hevents] at hwrite
  exact ⟨events, hevents, tells_writeEvents h hwrite, rfl⟩

end Write

namespace Program

/--
The input that a step of the window's thread has written.
-/
def finished (p q : Program) : List Input :=
  match p.loop, q.loop with
  | .mouse window, .keyboard _ => [.mouse window]
  | .keyboard window, .update => [.keyboard window]
  | _, _ => []

/--
The states the two threads can reach, with the inputs that were written until then.
-/
inductive Runs (width : Nat) (p : Program) : List Input → Program → Prop where
  | start : Runs width p [] p
  | step {inputs : List Input} {q r : Program} (h : Runs width p inputs q) (hstep : Step width q r) :
    Runs width p (inputs ++ finished q r) r

/--
As long as the window has its thread, the server reads the events of the inputs.
-/
def Told (userId channel : UInt16) (client : Session) (inputs : List Input) (p : Program) : Prop :=
  p.loop.Alive → ∃ events, Session.Tells userId channel events client p.client ∧
    inputEvents inputs .none [] = .ok events ∧ p.lastButton = buttonAfter inputs .none ∧
    p.lastKeys = keysAfter inputs []

section Told

variable {userId channel : UInt16} {client : Session} {inputs : List Input} {width : Nat} {p q : Program}
  {window : Window}

theorem finished_of_loop (h : q.loop = p.loop) : finished p q = [] := by
  unfold finished
  rw [h]
  cases p.loop <;> rfl

theorem Told.silent (h : Told userId channel client inputs p) (halive : q.loop.Alive → p.loop.Alive)
    (hfinished : finished p q = []) (hclient : Silent userId channel p.client q.client)
    (hbutton : q.lastButton = p.lastButton) (hkeys : q.lastKeys = p.lastKeys) :
    Told userId channel client (inputs ++ finished p q) q := by
  rw [hfinished, List.append_nil]
  intro hq
  obtain ⟨events, htells, hevents, hlast, hlastKeys⟩ := h (halive hq)
  refine ⟨events, ?_, hevents, hbutton.trans hlast, hkeys.trans hlastKeys⟩
  have htrans := htells.trans (hclient htells.joined)
  rwa [List.append_nil] at htrans

theorem Told.same (h : Told userId channel client inputs p) (halive : q.loop.Alive → p.loop.Alive)
    (hfinished : finished p q = []) (hclient : q.client = p.client) (hbutton : q.lastButton = p.lastButton)
    (hkeys : q.lastKeys = p.lastKeys) : Told userId channel client (inputs ++ finished p q) q := by
  apply h.silent halive hfinished ?_ hbutton hkeys
  rw [hclient]
  exact refl_of (Silent userId channel) _

theorem Told.read (h : Told userId channel client inputs p) :
    Told userId channel client (inputs ++ finished p p.afterRead) p.afterRead := by
  refine h.silent id (finished_of_loop rfl) ?_ rfl rfl
  intro hjoined
  have hevents : Session.Tells userId channel [] p.client { p.client with events := [] } :=
    hjoined.tells_of_listens rfl (refl_of Mcs.Client.Listens _)
  exact hevents.trans (RdpClient.silent_read _ hevents.joined)

theorem Told.mouse (h : Told userId channel client inputs p) (hloop : p.loop = .mouse window) :
    Told userId channel client (inputs ++ finished p (p.afterMouse window)) (p.afterMouse window) := by
  unfold afterMouse
  split
  next b t hrun =>
    intro _
    obtain ⟨events, htells, hevents, hlast, hlastKeys⟩ := h (by simp [Loop.Alive, hloop])
    obtain ⟨htells', hb⟩ := tells_mouseInput htells.joined hrun
    have hfinished : ∀ q : Program, q.loop = .keyboard window → finished p q = [.mouse window] := by
      intro q hq
      rw [finished, hloop, hq]
    rw [hfinished _ rfl]
    refine ⟨_, htells.trans htells', inputEvents_concat hevents ?_, ?_, ?_⟩
    . rw [← hlast]
      rfl
    . rw [buttonAfter, List.foldl_concat]
      exact hb.trans (congrArg _ hlast)
    . rw [keysAfter, List.foldl_concat]
      exact hlastKeys
  next => exact fun halive => absurd rfl halive.2

theorem Told.keyboard (h : Told userId channel client inputs p) (hloop : p.loop = .keyboard window) :
    Told userId channel client (inputs ++ finished p (p.afterKeyboard window)) (p.afterKeyboard window) := by
  unfold afterKeyboard
  split
  next keys t hrun =>
    intro _
    obtain ⟨events, htells, hevents, hlast, hlastKeys⟩ := h (by simp [Loop.Alive, hloop])
    obtain ⟨keyboard, hkeyboard, htells', hkeys⟩ := tells_keyboardInput htells.joined hrun
    have hfinished : ∀ q : Program, q.loop = .update → finished p q = [.keyboard window] := by
      intro q hq
      rw [finished, hloop, hq]
    rw [hfinished _ rfl]
    refine ⟨_, htells.trans htells', inputEvents_concat hevents ?_, ?_, ?_⟩
    . rw [Input.events, ← hlastKeys, hkeyboard]
      rfl
    . rw [buttonAfter, List.foldl_concat]
      exact hlast
    . rw [keysAfter, List.foldl_concat]
      exact hkeys.trans (congrArg _ hlastKeys)
  next => exact fun halive => absurd rfl halive.2

theorem told_step (h : Told userId channel client inputs p) (hstep : Step width p q) :
    Told userId channel client (inputs ++ finished p q) q := by
  cases hstep with
  | read hreader => exact h.read
  | mouse hloop hlock => exact h.mouse hloop
  | keyboard hloop hlock => exact h.keyboard hloop
  | shutdown close hloop hlock => exact fun halive => absurd halive not_alive_afterShutdown
  | fail hloop => exact fun halive => absurd rfl halive.2
  | enter window hloop hsync => exact h.same (by simp [Loop.Alive, hloop]) (by rw [finished, hloop]) rfl rfl rfl
  | exit hloop => exact h.same (by simp [Loop.Alive, hloop]) (by rw [finished, hloop]) rfl rfl rfl
  | paint hloop hchannel => exact h.same (by simp [Loop.Alive, hloop]) (by rw [finished, hloop]) rfl rfl rfl
  | drained hloop => exact h.same (by simp [Loop.Alive, hloop]) (by rw [finished, hloop]) rfl rfl rfl
  | disconnected hloop hchannel hreader =>
    exact h.same (by simp [Loop.Alive, hloop]) (by rw [finished, hloop]) rfl rfl rfl
  | updated hloop => exact h.same (by simp [Loop.Alive, hloop]) (by rw [finished, hloop]) rfl rfl rfl
  | _ => exact h.same id (finished_of_loop rfl) rfl rfl rfl

theorem told_of_runs {height : Nat} (hjoined : client.Joined userId channel)
    (h : Runs width (start client width height) inputs p) : Told userId channel client inputs p := by
  induction h with
  | start => exact fun _ => ⟨[], hjoined.refl, rfl, rfl, rfl⟩
  | step _ hstep ih => exact told_step ih hstep

theorem held_of_inputEvents {events : List RdpEvent} (h : inputEvents inputs .none [] = .ok events) :
    (List.IsChain (fun a b => ¬ Switches a b)
        (.none :: (inputs.filterMap Input.mouseWindow).filterMap buttonOf) →
      heldButtons (pointersOf events) = only (buttonAfter inputs .none)) ∧
    heldCodes (keysOf events) ⊆ codes (keysAfter inputs []) ∧
    (Reports (inputs.filterMap Input.keyboardWindow) [] →
      heldCodes (keysOf events) = codes (keysAfter inputs [])) := by
  obtain ⟨hpointers, hbutton⟩ := pointersOf_inputEvents h
  obtain ⟨hkeys, hlast⟩ := keysOf_inputEvents h
  have hnone : (∅ : Set Key) = { key | key ∈ [] } := by simp
  refine ⟨?_, ?_, ?_⟩
  . intro hchain
    have hagrees := (agrees_iff _ _).mpr hchain _ (List.prefix_refl _)
    rw [only_none] at hagrees
    rw [hpointers, hbutton]
    exact hagrees
  . rw [heldCodes_eq hkeys, hlast]
    rintro code ⟨key, hkey, hcode⟩
    exact ⟨key, after_keyStrokes_subset _ hnone.subset hkey, hcode⟩
  . intro hreports
    rw [heldCodes_eq hkeys, hlast, after_keyStrokes_eq _ hnone hreports]
    rfl

end Told

/--
Whatever arrives, and however the two threads are mixed: as long as the window has its thread, a server
reads of the packets that were sent exactly the events of the turns, in order and once each, and nothing
else but PDUs without an event. It takes for held down the button of the window, if no button was
exchanged for another one within a turn, no key that the window does not show any more, and all of its
keys if the window library reports them.
-/
theorem threads_reach_server {userId channel : UInt16} {client : Session}
    (hjoined : client.Joined userId channel) {width height : Nat} {inputs : List Input} {p : Program}
    (h : Runs width (start client width height) inputs p) (halive : p.loop.Alive) :
    ∃ (packets : List Bytes) (messages : List (List RdpEvent)),
      p.client.mcs.link.sent = client.mcs.link.sent ++ packets ∧
      (client.mcs.link.writes = [] →
        p.client.mcs.link.received = client.mcs.link.received ++ packets.flatten) ∧
      (elements (Server.readMessage (.ofNat (userId.toNat - 1001)) channel)).run packets.flatten =
        .ok messages [] ∧
      inputEvents inputs .none [] = .ok messages.flatten ∧
      (List.IsChain (fun a b => ¬ Switches a b)
          (.none :: (inputs.filterMap Input.mouseWindow).filterMap buttonOf) →
        heldButtons (pointersOf messages.flatten) = only p.lastButton) ∧
      heldCodes (keysOf messages.flatten) ⊆ codes p.lastKeys ∧
      (Reports (inputs.filterMap Input.keyboardWindow) [] →
        heldCodes (keysOf messages.flatten) = codes p.lastKeys) := by
  obtain ⟨events, htells, hevents, hlast, hlastKeys⟩ := told_of_runs hjoined h halive
  obtain ⟨packets, messages, hsent, hreceived, hread, _, rfl⟩ := htells.reads
  have hheld := held_of_inputEvents hevents
  rw [← hlast, ← hlastKeys] at hheld
  exact ⟨packets, messages, hsent, hreceived, hread, hevents, hheld⟩

namespace Click

def window : Window := ⟨some (10, 20), (· = .left), some [.a], fun _ => true⟩

theorem unlocked_of_reader {p q : Program} (h : p.Unlocked) (hreader : q.reader = p.reader) :
    q.Unlocked := by
  unfold Unlocked
  rw [hreader]
  exact h

theorem exists_runs : ∃ p, Runs 4 (start RdpClient.Told.session 4 3) [.mouse window, .keyboard window] p ∧
    p.loop = .update ∧ p.reader = .waiting := by
  have hstart : Runs 4 (start RdpClient.Told.session 4 3) [] (start RdpClient.Told.session 4 3) := .start
  have henter := hstart.step (.enter window rfl rfl)
  have hdrained := henter.step (.drained rfl)
  have hunlocked : (start RdpClient.Told.session 4 3).Unlocked := by simp [Unlocked, start]
  have hmouse := hdrained.step (.mouse rfl (.inr (unlocked_of_reader hunlocked rfl)))
  have hkeyboard := hmouse.step (.keyboard rfl (.inr (unlocked_of_reader hunlocked rfl)))
  exact ⟨_, hkeyboard, rfl, rfl⟩

end Click

open Click in
theorem threads_reach_server_click : ∃ (packets : List Bytes) (messages : List (List RdpEvent)),
    (elements (Server.readMessage 3 1003)).run packets.flatten = .ok messages [] ∧
      messages.flatten = [.pointer ⟨10, 20, .left, true⟩, .key ⟨0x1E, true⟩] := by
  obtain ⟨p, hruns, hloop, _⟩ := exists_runs
  have hjoined : RdpClient.Told.session.Joined 1004 1003 := ⟨rfl, by decide, rfl, by decide⟩
  obtain ⟨packets, messages, _, _, hread, hevents, _⟩ :=
    threads_reach_server hjoined hruns (by simp [Loop.Alive, hloop])
  exact ⟨packets, messages, hread, (Except.ok.inj hevents).symm⟩

end Program

end Rdp.Mstsc
