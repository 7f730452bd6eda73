import Rdp.Core.Client.Impl

/-!
This module contains the input of the client program: what the loop of the window makes of the mouse
and of the keys that are held down.
-/

namespace Rdp

def PointerButton.toU8 (b : PointerButton) : UInt8 :=
  match b with
  | .none => 0
  | .left => 1
  | .right => 2
  | .middle => 3

def PointerButton.tryFrom (v : UInt8) : RdpResult PointerButton :=
  match v.toNat with
  | 0 => .ok .none
  | 1 => .ok .left
  | 2 => .ok .right
  | 3 => .ok .middle
  | _ => .error (.error .enumConversion)

namespace Mstsc

/--
The keys of the window library: the ones that have a scancode, and the others.
-/
inductive Key where
  | escape
  | key1
  | key2
  | key3
  | key4
  | key5
  | key6
  | key7
  | key8
  | key9
  | key0
  | minus
  | equal
  | backspace
  | tab
  | q
  | w
  | e
  | r
  | t
  | y
  | u
  | i
  | o
  | p
  | leftBracket
  | rightBracket
  | enter
  | leftCtrl
  | a
  | s
  | d
  | f
  | g
  | h
  | j
  | k
  | l
  | semicolon
  | apostrophe
  | backquote
  | leftShift
  | backslash
  | z
  | x
  | c
  | v
  | b
  | n
  | m
  | comma
  | period
  | slash
  | rightShift
  | numPadAsterisk
  | leftAlt
  | space
  | capsLock
  | f1
  | f2
  | f3
  | f4
  | f5
  | f6
  | f7
  | f8
  | f9
  | f10
  | pause
  | scrollLock
  | numPad7
  | numPad8
  | numPad9
  | numPadMinus
  | numPad4
  | numPad5
  | numPad6
  | numPadPlus
  | numPad1
  | numPad2
  | numPad3
  | numPad0
  | numPadDot
  | f11
  | f12
  | f13
  | f14
  | f15
  | numPadEnter
  | rightCtrl
  | numPadSlash
  | rightAlt
  | numLock
  | home
  | up
  | pageUp
  | left
  | right
  | end
  | down
  | pageDown
  | insert
  | delete
  | leftSuper
  | rightSuper
  | menu
  | other (code : Nat)
  deriving DecidableEq, Repr

def toScancode (key : Key) : RdpResult UInt16 :=
  match key with
  | .escape => .ok 0x0001
  | .key1 => .ok 0x0002
  | .key2 => .ok 0x0003
  | .key3 => .ok 0x0004
  | .key4 => .ok 0x0005
  | .key5 => .ok 0x0006
  | .key6 => .ok 0x0007
  | .key7 => .ok 0x0008
  | .key8 => .ok 0x0009
  | .key9 => .ok 0x000A
  | .key0 => .ok 0x000B
  | .minus => .ok 0x000C
  | .equal => .ok 0x000D
  | .backspace => .ok 0x000E
  | .tab => .ok 0x000F
  | .q => .ok 0x0010
  | .w => .ok 0x0011
  | .e => .ok 0x0012
  | .r => .ok 0x0013
  | .t => .ok 0x0014
  | .y => .ok 0x0015
  | .u => .ok 0x0016
  | .i => .ok 0x0017
  | .o => .ok 0x0018
  | .p => .ok 0x0019
  | .leftBracket => .ok 0x001A
  | .rightBracket => .ok 0x001B
  | .enter => .ok 0x001C
  | .leftCtrl => .ok 0x001D
  | .a => .ok 0x001E
  | .s => .ok 0x001F
  | .d => .ok 0x0020
  | .f => .ok 0x0021
  | .g => .ok 0x0022
  | .h => .ok 0x0023
  | .j => .ok 0x0024
  | .k => .ok 0x0025
  | .l => .ok 0x0026
  | .semicolon => .ok 0x0027
  | .apostrophe => .ok 0x0028
  | .backquote => .ok 0x0029
  | .leftShift => .ok 0x002A
  | .backslash => .ok 0x002B
  | .z => .ok 0x002C
  | .x => .ok 0x002D
  | .c => .ok 0x002E
  | .v => .ok 0x002F
  | .b => .ok 0x0030
  | .n => .ok 0x0031
  | .m => .ok 0x0032
  | .comma => .ok 0x0033
  | .period => .ok 0x0034
  | .slash => .ok 0x0035
  | .rightShift => .ok 0x0036
  | .numPadAsterisk => .ok 0x0037
  | .leftAlt => .ok 0x0038
  | .space => .ok 0x0039
  | .capsLock => .ok 0x003A
  | .f1 => .ok 0x003B
  | .f2 => .ok 0x003C
  | .f3 => .ok 0x003D
  | .f4 => .ok 0x003E
  | .f5 => .ok 0x003F
  | .f6 => .ok 0x0040
  | .f7 => .ok 0x0041
  | .f8 => .ok 0x0042
  | .f9 => .ok 0x0043
  | .f10 => .ok 0x0044
  | .pause => .ok 0x0045
  | .scrollLock => .ok 0x0046
  | .numPad7 => .ok 0x0047
  | .numPad8 => .ok 0x0048
  | .numPad9 => .ok 0x0049
  | .numPadMinus => .ok 0x004A
  | .numPad4 => .ok 0x004B
  | .numPad5 => .ok 0x004C
  | .numPad6 => .ok 0x004D
  | .numPadPlus => .ok 0x004E
  | .numPad1 => .ok 0x004F
  | .numPad2 => .ok 0x0050
  | .numPad3 => .ok 0x0051
  | .numPad0 => .ok 0x0052
  | .numPadDot => .ok 0x0053
  | .f11 => .ok 0x0057
  | .f12 => .ok 0x0058
  | .f13 => .ok 0x0064
  | .f14 => .ok 0x0065
  | .f15 => .ok 0x0066
  | .numPadEnter => .ok 0xE01C
  | .rightCtrl => .ok 0xE01D
  | .numPadSlash => .ok 0xE035
  | .rightAlt => .ok 0xE038
  | .numLock => .ok 0xE045
  | .home => .ok 0xE047
  | .up => .ok 0xE048
  | .pageUp => .ok 0xE049
  | .left => .ok 0xE04B
  | .right => .ok 0xE04D
  | .end => .ok 0xE04F
  | .down => .ok 0xE050
  | .pageDown => .ok 0xE051
  | .insert => .ok 0xE052
  | .delete => .ok 0xE053
  | .leftSuper => .ok 0xE05B
  | .rightSuper => .ok 0xE05C
  | .menu => .ok 0xE05D
  | .other _ => .error (.panic "foo")

inductive MouseButton where
  | left
  | middle
  | right
  deriving DecidableEq, Repr

/--
What the window shows in one turn of the loop. The position of the mouse is already cast to `u16`.
-/
structure Window where
  mousePos : Option (UInt16 × UInt16)
  mouseDown : MouseButton → Bool
  keys : Option (List Key)
  isKeyPressed : Key → Bool

def getRdpPointerDown (window : Window) : PointerButton :=
  if window.mouseDown .left then
    .left
  else if window.mouseDown .middle then
    .middle
  else if window.mouseDown .right then
    .right
  else
    .none

def pointerEvent (lastButton currentButton : PointerButton) (x y : UInt16) : RdpResult PointerEvent := do
  let button ←
    if lastButton = currentButton then
      pure .none
    else
      unwrap (PointerButton.tryFrom (lastButton.toU8 ||| currentButton.toU8))
  return { x, y, button, down := lastButton ≠ currentButton ∧ lastButton = .none }

section Input

variable {σ : Type} (write : RdpEvent → Prog Error σ Unit)

/--
What a turn does with the mouse. It yields the next `last_button`.
-/
def mouseInput (window : Window) (lastButton : PointerButton) : Prog Error σ PointerButton :=
  match window.mousePos with
  | none => return lastButton
  | some (x, y) => do
    let currentButton := getRdpPointerDown window
    let event ← Prog.lift (pointerEvent lastButton currentButton x y)
    write (.pointer event)
    return currentButton

def writeKey (key : Key) (down : Bool) : Prog Error σ Unit := do
  let code ← Prog.lift (toScancode key)
  write (.key { code, down })

def releaseKeys (keys lastKeys : List Key) : Prog Error σ Unit := do
  match lastKeys with
  | [] => return ()
  | key :: lastKeys =>
    if key ∈ keys then
      pure ()
    else
      writeKey write key false
    releaseKeys keys lastKeys

def pressKeys (window : Window) (keys : List Key) : Prog Error σ Unit := do
  match keys with
  | [] => return ()
  | key :: keys =>
    if window.isKeyPressed key then
      writeKey write key true
    else
      pure ()
    pressKeys window keys

/--
What a turn does with the keyboard. It yields the next `last_keys`.
-/
def keyboardInput (window : Window) (lastKeys : List Key) : Prog Error σ (List Key) :=
  match window.keys with
  | none => return lastKeys
  | some keys => do
    releaseKeys write keys lastKeys
    pressKeys write window keys
    return keys

end Input

end Mstsc

end Rdp
