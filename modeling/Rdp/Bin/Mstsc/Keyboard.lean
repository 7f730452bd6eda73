import Rdp.Bin.Mstsc.Pointer

/-!
This module contains the keyboard events of several turns of the loop: which keys their receiver takes
for held down.
-/

namespace Rdp.Mstsc

def ofScancode (code : UInt16) : Option Key :=
  match code.toNat with
  | 0x0001 => some .escape
  | 0x0002 => some .key1
  | 0x0003 => some .key2
  | 0x0004 => some .key3
  | 0x0005 => some .key4
  | 0x0006 => some .key5
  | 0x0007 => some .key6
  | 0x0008 => some .key7
  | 0x0009 => some .key8
  | 0x000A => some .key9
  | 0x000B => some .key0
  | 0x000C => some .minus
  | 0x000D => some .equal
  | 0x000E => some .backspace
  | 0x000F => some .tab
  | 0x0010 => some .q
  | 0x0011 => some .w
  | 0x0012 => some .e
  | 0x0013 => some .r
  | 0x0014 => some .t
  | 0x0015 => some .y
  | 0x0016 => some .u
  | 0x0017 => some .i
  | 0x0018 => some .o
  | 0x0019 => some .p
  | 0x001A => some .leftBracket
  | 0x001B => some .rightBracket
  | 0x001C => some .enter
  | 0x001D => some .leftCtrl
  | 0x001E => some .a
  | 0x001F => some .s
  | 0x0020 => some .d
  | 0x0021 => some .f
  | 0x0022 => some .g
  | 0x0023 => some .h
  | 0x0024 => some .j
  | 0x0025 => some .k
  | 0x0026 => some .l
  | 0x0027 => some .semicolon
  | 0x0028 => some .apostrophe
  | 0x0029 => some .backquote
  | 0x002A => some .leftShift
  | 0x002B => some .backslash
  | 0x002C => some .z
  | 0x002D => some .x
  | 0x002E => some .c
  | 0x002F => some .v
  | 0x0030 => some .b
  | 0x0031 => some .n
  | 0x0032 => some .m
  | 0x0033 => some .comma
  | 0x0034 => some .period
  | 0x0035 => some .slash
  | 0x0036 => some .rightShift
  | 0x0037 => some .numPadAsterisk
  | 0x0038 => some .leftAlt
  | 0x0039 => some .space
  | 0x003A => some .capsLock
  | 0x003B => some .f1
  | 0x003C => some .f2
  | 0x003D => some .f3
  | 0x003E => some .f4
  | 0x003F => some .f5
  | 0x0040 => some .f6
  | 0x0041 => some .f7
  | 0x0042 => some .f8
  | 0x0043 => some .f9
  | 0x0044 => some .f10
  | 0x0045 => some .pause
  | 0x0046 => some .scrollLock
  | 0x0047 => some .numPad7
  | 0x0048 => some .numPad8
  | 0x0049 => some .numPad9
  | 0x004A => some .numPadMinus
  | 0x004B => some .numPad4
  | 0x004C => some .numPad5
  | 0x004D => some .numPad6
  | 0x004E => some .numPadPlus
  | 0x004F => some .numPad1
  | 0x0050 => some .numPad2
  | 0x0051 => some .numPad3
  | 0x0052 => some .numPad0
  | 0x0053 => some .numPadDot
  | 0x0057 => some .f11
  | 0x0058 => some .f12
  | 0x0064 => some .f13
  | 0x0065 => some .f14
  | 0x0066 => some .f15
  | 0xE01C => some .numPadEnter
  | 0xE01D => some .rightCtrl
  | 0xE035 => some .numPadSlash
  | 0xE038 => some .rightAlt
  | 0xE045 => some .numLock
  | 0xE047 => some .home
  | 0xE048 => some .up
  | 0xE049 => some .pageUp
  | 0xE04B => some .left
  | 0xE04D => some .right
  | 0xE04F => some .end
  | 0xE050 => some .down
  | 0xE051 => some .pageDown
  | 0xE052 => some .insert
  | 0xE053 => some .delete
  | 0xE05B => some .leftSuper
  | 0xE05C => some .rightSuper
  | 0xE05D => some .menu
  | _ => none

theorem ofScancode_of_toScancode {key : Key} {code : UInt16} (h : toScancode key = .ok code) :
    ofScancode code = some key := by
  cases key <;> cases h <;> rfl

theorem biUnique_toScancode : Relator.BiUnique fun key code => toScancode key = .ok code := by
  constructor
  . intro key key' code h h'
    exact Option.some.inj ((ofScancode_of_toScancode h).symm.trans (ofScancode_of_toScancode h'))
  . intro key code code' h h'
    exact Except.ok.inj (h.symm.trans h')

section Program

variable {σ : Type} (write : RdpEvent → Prog Error σ Unit)

def writeStrokes (strokes : List (Key × Bool)) : Prog Error σ Unit :=
  match strokes with
  | [] => return ()
  | (key, down) :: strokes => do
    writeKey write key down
    writeStrokes strokes

def keyboardInputs (windows : List Window) (lastKeys : List Key) : Prog Error σ (List Key) :=
  match windows with
  | [] => return lastKeys
  | window :: windows => do
    let lastKeys ← keyboardInput write window lastKeys
    keyboardInputs windows lastKeys

end Program

/--
The strokes of a turn: what is released comes before what is pressed.
-/
def turnStrokes (window : Window) (keys lastKeys : List Key) : List (Key × Bool) :=
  ((lastKeys.filter (· ∉ keys)).map fun key => (key, false)) ++
    (keys.filter window.isKeyPressed).map fun key => (key, true)

def keyStrokes (windows : List Window) (lastKeys : List Key) : List (Key × Bool) :=
  match windows with
  | [] => []
  | window :: windows =>
    match window.keys with
    | none => keyStrokes windows lastKeys
    | some keys => turnStrokes window keys lastKeys ++ keyStrokes windows keys

def lastKeys (windows : List Window) (last : List Key) : List Key :=
  match windows with
  | [] => last
  | window :: windows => lastKeys windows (window.keys.getD last)

section Program

variable {σ : Type} {write : RdpEvent → Prog Error σ Unit}

theorem writeStrokes_append (front back : List (Key × Bool)) :
    writeStrokes write (front ++ back) = (do
      writeStrokes write front
      writeStrokes write back) := by
  induction front with
  | nil => simp [writeStrokes]
  | cons stroke front ih => simp [writeStrokes, ih]

theorem releaseKeys_eq (keys lastKeys : List Key) :
    releaseKeys write keys lastKeys =
      writeStrokes write ((lastKeys.filter (· ∉ keys)).map fun key => (key, false)) := by
  induction lastKeys with
  | nil => rfl
  | cons key lastKeys ih =>
    rw [releaseKeys, ih]
    by_cases h : key ∈ keys
    . rw [if_pos h, List.filter_cons_of_neg (by simpa using h)]
    . rw [if_neg h, List.filter_cons_of_pos (by simpa using h), List.map_cons, writeStrokes]

theorem pressKeys_eq (window : Window) (keys : List Key) :
    pressKeys write window keys =
      writeStrokes write ((keys.filter window.isKeyPressed).map fun key => (key, true)) := by
  induction keys with
  | nil => rfl
  | cons key keys ih =>
    rw [pressKeys, ih]
    by_cases h : window.isKeyPressed key
    . rw [if_pos h, List.filter_cons_of_pos h, List.map_cons, writeStrokes]
    . rw [if_neg h, List.filter_cons_of_neg h]

theorem keyboardInputs_eq (windows : List Window) (last : List Key) :
    keyboardInputs write windows last = (do
      writeStrokes write (keyStrokes windows last)
      return lastKeys windows last) := by
  induction windows generalizing last with
  | nil => simp [keyboardInputs, keyStrokes, writeStrokes, lastKeys]
  | cons window windows ih =>
    rw [keyboardInputs, keyboardInput, keyStrokes, lastKeys]
    cases window.keys with
    | none => simp [ih]
    | some keys => simp [ih, releaseKeys_eq, pressKeys_eq, turnStrokes, writeStrokes_append]

end Program

/--
The events of strokes, and the abort at the first key without a scancode.
-/
def keyEvents (strokes : List (Key × Bool)) : RdpResult (List KeyboardEvent) :=
  strokes.mapM fun (key, down) => do return { code := ← toScancode key, down }

def heldCodes (events : List KeyboardEvent) : Set UInt16 :=
  Held.after (events.map fun event => (event.code, event.down)) ∅

def codes (keys : List Key) : Set UInt16 := { code | ∃ key ∈ keys, toScancode key = .ok code }

/--
The window library reports every key as pressed in the first turn in which it is held down.
-/
def Reports (windows : List Window) (last : List Key) : Prop :=
  match windows with
  | [] => True
  | window :: windows =>
    match window.keys with
    | none => Reports windows last
    | some keys =>
      (∀ key ∈ keys, key ∉ last → window.isKeyPressed key) ∧ Reports windows keys

section Held

variable {window : Window} {keys last : List Key} {held : Set Key}

theorem mem_after_turnStrokes {key : Key} :
    key ∈ Held.after (turnStrokes window keys last) held ↔
      (key ∈ keys ∧ window.isKeyPressed key) ∨ key ∈ held ∧ (key ∈ last → key ∈ keys) := by
  rw [turnStrokes, Held.after_append, Held.mem_after_press, Held.mem_after_release, List.mem_filter,
    List.mem_filter]
  simp

theorem after_turnStrokes_subset (h : held ⊆ { key | key ∈ last }) :
    Held.after (turnStrokes window keys last) held ⊆ { key | key ∈ keys } := by
  -- No key sticks: behind a turn only keys of the window are held.
  intro key hkey
  rcases mem_after_turnStrokes.mp hkey with ⟨hmem, _⟩ | ⟨hheld, hlast⟩
  . exact hmem
  . exact hlast (h hheld)

theorem after_turnStrokes_eq (h : held = { key | key ∈ last })
    (hreports : ∀ key ∈ keys, key ∉ last → window.isKeyPressed key) :
    Held.after (turnStrokes window keys last) held = { key | key ∈ keys } := by
  apply Set.Subset.antisymm (after_turnStrokes_subset h.subset)
  intro key hkey
  apply mem_after_turnStrokes.mpr
  by_cases hlast : key ∈ last
  . refine .inr ⟨?_, fun _ => hkey⟩
    rw [h]
    exact hlast
  . exact .inl ⟨hkey, hreports key hkey hlast⟩

theorem after_keyStrokes_subset (windows : List Window) (h : held ⊆ { key | key ∈ last }) :
    Held.after (keyStrokes windows last) held ⊆ { key | key ∈ lastKeys windows last } := by
  induction windows generalizing last held with
  | nil => exact h
  | cons window windows ih =>
    rw [keyStrokes, lastKeys]
    cases window.keys with
    | none => exact ih h
    | some keys =>
      dsimp only [Option.getD_some]
      rw [Held.after_append]
      exact ih (after_turnStrokes_subset h)

theorem after_keyStrokes_eq (windows : List Window) (h : held = { key | key ∈ last })
    (hreports : Reports windows last) :
    Held.after (keyStrokes windows last) held = { key | key ∈ lastKeys windows last } := by
  induction windows generalizing last held with
  | nil => exact h
  | cons window windows ih =>
    rw [keyStrokes, lastKeys]
    rw [Reports] at hreports
    cases hkeys : window.keys with
    | none =>
      rw [hkeys] at hreports
      exact ih h hreports
    | some keys =>
      rw [hkeys] at hreports
      dsimp only [Option.getD_some]
      rw [Held.after_append]
      exact ih (after_turnStrokes_eq h hreports.1) hreports.2

end Held

section Events

variable {σ : Type} {write : RdpEvent → Prog Error σ Unit} {strokes : List (Key × Bool)}
  {events : List KeyboardEvent}

theorem keyEvents_cons (key : Key) (down : Bool) (strokes : List (Key × Bool)) :
    keyEvents ((key, down) :: strokes) = (do
      let code ← toScancode key
      let events ← keyEvents strokes
      return { code, down } :: events) := by
  rw [keyEvents, List.mapM_cons, bind_assoc]
  rfl

theorem forall₂_of_keyEvents (h : keyEvents strokes = .ok events) :
    List.Forall₂ (fun s e => toScancode s.1 = .ok e.1 ∧ s.2 = e.2) strokes
      (events.map fun event => (event.code, event.down)) := by
  induction strokes generalizing events with
  | nil =>
    cases h
    exact .nil
  | cons stroke strokes ih =>
    obtain ⟨key, down⟩ := stroke
    rw [keyEvents_cons] at h
    obtain ⟨code, hcode, h⟩ := Except.bind_eq_ok h
    obtain ⟨events', hevents, h⟩ := Except.bind_eq_ok h
    cases h
    exact .cons ⟨hcode, rfl⟩ (ih hevents)

theorem writeStrokes_of_ok (h : keyEvents strokes = .ok events) :
    writeStrokes write strokes = writeEvents write (events.map .key) := by
  induction strokes generalizing events with
  | nil =>
    cases h
    rfl
  | cons stroke strokes ih =>
    obtain ⟨key, down⟩ := stroke
    rw [keyEvents_cons] at h
    obtain ⟨code, hcode, h⟩ := Except.bind_eq_ok h
    obtain ⟨events', hevents, h⟩ := Except.bind_eq_ok h
    cases h
    rw [writeStrokes, writeKey, hcode, ih hevents, Prog.lift_ok, pure_bind, List.map_cons, writeEvents]

theorem exists_front_of_error {e : Fault Error} (h : keyEvents strokes = .error e) :
    ∃ front key down back events, strokes = front ++ (key, down) :: back ∧ keyEvents front = .ok events ∧
      toScancode key = .error e := by
  induction strokes with
  | nil => cases h
  | cons stroke strokes ih =>
    obtain ⟨key, down⟩ := stroke
    rw [keyEvents_cons] at h
    cases hcode : toScancode key with
    | error e' =>
      rw [hcode] at h
      cases h
      exact ⟨[], key, down, strokes, [], rfl, rfl, hcode⟩
    | ok code =>
      rw [hcode, Except.ok_bind] at h
      cases hevents : keyEvents strokes with
      | ok events =>
        rw [hevents] at h
        cases h
      | error e' =>
        rw [hevents] at h
        cases h
        obtain ⟨front, first, pressed, back, events, rfl, hfront, herror⟩ := ih hevents
        refine ⟨(key, down) :: front, first, pressed, back, { code, down } :: events, rfl, ?_, herror⟩
        rw [keyEvents_cons, hcode, Except.ok_bind, hfront]
        rfl

theorem run_writeStrokes_of_error {front back : List (Key × Bool)} {key : Key} {down : Bool} {e : Fault Error}
    (hfront : keyEvents front = .ok events) (herror : toScancode key = .error e) {s t : σ}
    (hrun : (writeEvents write (events.map .key)).run s = .ok () t) :
    (writeStrokes write (front ++ (key, down) :: back)).run s = .error e t := by
  rw [writeStrokes_append, writeStrokes_of_ok hfront, EStateM.run_bind, hrun]
  dsimp only
  rw [writeStrokes, writeKey, herror]
  rfl

theorem heldCodes_eq (h : keyEvents strokes = .ok events) :
    heldCodes events = { code | ∃ key ∈ Held.after strokes ∅, toScancode key = .ok code } := by
  have hnames := Held.after_names biUnique_toScancode (forall₂_of_keyEvents h) ∅
  have hempty : Held.names (fun key code => toScancode key = .ok code) ∅ = ∅ := by
    ext code
    simp [Held.names]
  rwa [hempty] at hnames

end Events

/--
The keyboard over any number of turns. If all keys that are pressed or released have a scancode, the
events are written in order, their receiver never takes a key for held down that the window does not
show any more, and it knows all of them if the window library reports them. Otherwise there is a first
key without a scancode, and when the strokes before it have been written the program aborts there.
-/
theorem keyboard_followed {σ : Type} (write : RdpEvent → Prog Error σ Unit) (windows : List Window) :
    (∀ events, keyEvents (keyStrokes windows []) = .ok events →
      keyboardInputs write windows [] = (do
        writeEvents write (events.map .key)
        return lastKeys windows []) ∧
      heldCodes events ⊆ codes (lastKeys windows []) ∧
      (Reports windows [] → heldCodes events = codes (lastKeys windows []))) ∧
    (∀ e, keyEvents (keyStrokes windows []) = .error e → ∃ front key down back events,
      keyStrokes windows [] = front ++ (key, down) :: back ∧ keyEvents front = .ok events ∧
      toScancode key = .error e ∧
      ∀ s t, (writeEvents write (events.map .key)).run s = .ok () t →
        (keyboardInputs write windows []).run s = .error e t) := by
  have hnone : (∅ : Set Key) = { key | key ∈ [] } := by simp
  constructor
  . intro events hevents
    rw [keyboardInputs_eq, writeStrokes_of_ok hevents, heldCodes_eq hevents]
    refine ⟨rfl, ?_, ?_⟩
    . rintro code ⟨key, hkey, hcode⟩
      exact ⟨key, after_keyStrokes_subset windows hnone.subset hkey, hcode⟩
    . intro hreports
      rw [after_keyStrokes_eq windows hnone hreports]
      rfl
  . intro e he
    obtain ⟨front, key, down, back, events, hstrokes, hfront, herror⟩ := exists_front_of_error he
    refine ⟨front, key, down, back, events, hstrokes, hfront, herror, ?_⟩
    intro s t hrun
    rw [keyboardInputs_eq, EStateM.run_bind, hstrokes, run_writeStrokes_of_error hfront herror hrun]

namespace Keyboard

/--
A turn in which these keys are held down, all of them reported as pressed.
-/
def turn (keys : List Key) : Window := ⟨none, fun _ => false, some keys, fun _ => true⟩

def windows : List Window := [turn [.a], turn [.a, .b], turn [.b]]

def events : List KeyboardEvent := [⟨0x1E, true⟩, ⟨0x1E, true⟩, ⟨0x30, true⟩, ⟨0x1E, false⟩, ⟨0x30, true⟩]

def unnamed : List Window := [turn [.a], turn [.a, .other 0]]

def record (event : RdpEvent) : Prog Error (List RdpEvent) Unit := modify (· ++ [event])

theorem run_writeEvents_record (events recorded : List RdpEvent) :
    (writeEvents record events).run recorded = .ok () (recorded ++ events) := by
  induction events generalizing recorded with
  | nil => rw [List.append_nil]; rfl
  | cons event events ih =>
    change (writeEvents record events).run (recorded ++ [event]) = _
    rw [ih, List.append_assoc, List.singleton_append]

end Keyboard

open Keyboard in
theorem keyboard_followed_two :
    (keyboardInputs record windows [] = do
      writeEvents record (events.map .key)
      return [.b]) ∧ heldCodes events = codes [.b] ∧
    ∃ t, (keyboardInputs record unnamed []).run [] = .error (.panic "foo") t := by
  obtain ⟨hprogram, _, hheld⟩ := (keyboard_followed record windows).1 events rfl
  obtain ⟨_, _, _, _, written, _, _, _, hrun⟩ := (keyboard_followed record unnamed).2 _ rfl
  refine ⟨hprogram, hheld (by simp [windows, turn, Reports]), _, hrun [] ([] ++ written.map .key) ?_⟩
  exact run_writeEvents_record _ []

end Rdp.Mstsc
