import Mathlib.Logic.Relation
import Rdp.Bin.Mstsc.Painting
import Rdp.Bin.Mstsc.Window

/-!
This module contains the client program with its two threads: the one that receives events and the one
of the window, which share the client and a flag, and of which the first sends bitmaps to the second.
-/

namespace Rdp.Mstsc

open Global (Session)
open Prog

/--
Where the thread of `launch_rdp_thread` is. It holds the lock of the client while it delivers the
events of a call of `read`.
-/
inductive Reader where
  | waiting
  | ready
  | delivering (events : List RdpEvent) (result : Option (Fault Error))
  | ended
  | panicked

/--
Where `main_gui_loop` is, and what the window shows in this turn.
-/
inductive Loop where
  | refresh
  | drain (window : Window)
  | mouse (window : Window)
  | keyboard (window : Window)
  | update
  | closing
  | ended
  | failed

/--
The program. `received` and `painted` are the events that the callback was called with and the bitmaps
that were taken out of the channel so far.
-/
structure Program where
  client : Session
  reader : Reader
  channel : List BitmapEvent
  sync : Bool
  loop : Loop
  screen : Screen
  lastButton : PointerButton
  lastKeys : List Key
  received : List RdpEvent
  painted : List BitmapEvent

def bitmapsOf (events : List RdpEvent) : List BitmapEvent :=
  events.filterMap fun event =>
    match event with
    | .bitmap bitmap => some bitmap
    | _ => none

namespace Reader

def pending (reader : Reader) : List RdpEvent :=
  match reader with
  | .delivering events _ => events
  | _ => []

/--
The thread is gone, and with it the sending end of the channel.
-/
def Over (reader : Reader) : Prop := reader = .ended ∨ reader = .panicked

def next (result : Option (Fault Error)) : Reader :=
  match result with
  | none => .waiting
  | some (.error (.rdpError _)) => .ended
  | some (.error _) => .waiting
  | some _ => .panicked

end Reader

namespace Loop

/--
The receiving end of the channel still exists.
-/
def Alive (loop : Loop) : Prop := loop ≠ .ended ∧ loop ≠ .failed

def Running (loop : Loop) : Prop := loop.Alive ∧ loop ≠ .closing

end Loop

namespace Program

def start (client : Session) (width height : Nat) : Program where
  client := client
  reader := .waiting
  channel := []
  sync := true
  loop := .refresh
  screen := .blank width height
  lastButton := .none
  lastKeys := []
  received := []
  painted := []

/--
The lock of the client is free, and no thread has panicked while it held it.
-/
def Unlocked (p : Program) : Prop := (∀ events result, p.reader ≠ .delivering events result) ∧
  p.reader ≠ .panicked

def afterRead (p : Program) : Program :=
  let r := RdpClient.read.run { p.client with events := [] }
  { p with
    client := finalState r
    reader := .delivering (finalState r).events (outcome r)
    received := p.received ++ (finalState r).events }

def afterPaint (width : Nat) (window : Window) (bitmap : BitmapEvent) (channel : List BitmapEvent)
    (p : Program) : Program :=
  let r := (Screen.fastBitmapTransfer width bitmap).run p.screen
  { p with
    channel
    screen := finalState r
    painted := p.painted ++ [bitmap]
    loop := if outcome r = none then .drain window else .failed }

def afterMouse (window : Window) (p : Program) : Program :=
  match (mouseInput RdpClient.write window p.lastButton).run p.client with
  | .ok lastButton client => { p with client, lastButton, loop := .keyboard window }
  | .error _ client => { p with client, loop := .failed }

def afterKeyboard (window : Window) (p : Program) : Program :=
  match (keyboardInput RdpClient.write window p.lastKeys).run p.client with
  | .ok lastKeys client => { p with client, lastKeys, loop := .update }
  | .error _ client => { p with client, loop := .failed }

def afterShutdown (close : TlsStream → RdpResult Unit) (p : Program) : Program :=
  match (RdpClient.shutdown close).run p.client with
  | .ok _ client => { p with client, loop := .ended }
  | .error _ client => { p with client, loop := .failed }

/--
The steps of the two threads. The socket may be readable or not, the time of a turn may be over at any
point, and the window may be closed. A bitmap that cannot be transferred, an input that cannot be
written, a window that cannot be updated and a lock of a thread that has panicked end the program with
an error.
-/
inductive Step (width : Nat) (p : Program) : Program → Prop where
  | wake (hreader : p.reader = .waiting) (hsync : p.sync = true) :
    Step width p { p with reader := .ready }
  | leave (hreader : p.reader = .waiting) : Step width p { p with reader := .ended }
  | read (hreader : p.reader = .ready) : Step width p p.afterRead
  | send {bitmap : BitmapEvent} {events : List RdpEvent} {result : Option (Fault Error)}
    (hreader : p.reader = .delivering (.bitmap bitmap :: events) result) (halive : p.loop.Alive) :
    Step width p { p with
      channel := p.channel ++ [bitmap]
      reader := .delivering events result }
  | sendFails {bitmap : BitmapEvent} {events : List RdpEvent} {result : Option (Fault Error)}
    (hreader : p.reader = .delivering (.bitmap bitmap :: events) result) (halive : ¬ p.loop.Alive) :
    Step width p { p with reader := .panicked }
  | ignore {event : RdpEvent} {events : List RdpEvent} {result : Option (Fault Error)}
    (hreader : p.reader = .delivering (event :: events) result)
    (hevent : ∀ bitmap, event ≠ .bitmap bitmap) :
    Step width p { p with reader := .delivering events result }
  | finish {result : Option (Fault Error)} (hreader : p.reader = .delivering [] result) :
    Step width p { p with reader := .next result }
  | enter (window : Window) (hloop : p.loop = .refresh) (hsync : p.sync = true) :
    Step width p { p with loop := .drain window }
  | exit (hloop : p.loop = .refresh) : Step width p { p with loop := .closing, sync := false }
  | paint {window : Window} {bitmap : BitmapEvent} {channel : List BitmapEvent}
    (hloop : p.loop = .drain window) (hchannel : p.channel = bitmap :: channel) :
    Step width p (p.afterPaint width window bitmap channel)
  | drained {window : Window} (hloop : p.loop = .drain window) :
    Step width p { p with loop := .mouse window }
  | disconnected {window : Window} (hloop : p.loop = .drain window) (hchannel : p.channel = [])
    (hreader : p.reader.Over) : Step width p { p with loop := .mouse window, sync := false }
  | mouse {window : Window} (hloop : p.loop = .mouse window)
    (hlock : window.mousePos = none ∨ p.Unlocked) : Step width p (p.afterMouse window)
  | keyboard {window : Window} (hloop : p.loop = .keyboard window)
    (hlock : window.keys = none ∨ p.Unlocked) : Step width p (p.afterKeyboard window)
  | updated (hloop : p.loop = .update) : Step width p { p with loop := .refresh }
  | shutdown (close : TlsStream → RdpResult Unit) (hloop : p.loop = .closing) (hlock : p.Unlocked) :
    Step width p (p.afterShutdown close)
  | fail (hloop : p.loop.Alive) : Step width p { p with loop := .failed }

/--
The bitmaps that the callback was called with are those that were painted, those in the channel and
those that are still to be sent. Some are lost only when the loop was left before they were sent.
-/
def InOrder (p : Program) : Prop :=
  ∃ lost, bitmapsOf p.received = p.painted ++ (p.channel ++ (bitmapsOf p.reader.pending ++ lost)) ∧
    (lost ≠ [] → p.reader = .panicked ∧ ¬ p.loop.Alive)

def Painted (width height : Nat) (p : Program) : Prop := p.loop ≠ .failed →
  (Screen.transferAll width p.painted).run (.blank width height) = .ok () p.screen

/--
The loop only learns that the other thread is gone when nothing is left in the channel.
-/
def Stopped (p : Program) : Prop :=
  p.sync = false → p.loop.Running → p.reader.Over ∧ p.channel = []

structure Same (p q : Program) : Prop where
  received : q.received = p.received
  painted : q.painted = p.painted
  channel : q.channel = p.channel
  reader : q.reader = p.reader
  screen : q.screen = p.screen
  sync : q.sync = p.sync

section Steps

variable {width height : Nat} {p q : Program} {window : Window}

theorem same_afterMouse : Same p (p.afterMouse window) := by
  unfold afterMouse
  split <;> exact ⟨rfl, rfl, rfl, rfl, rfl, rfl⟩

theorem same_afterKeyboard : Same p (p.afterKeyboard window) := by
  unfold afterKeyboard
  split <;> exact ⟨rfl, rfl, rfl, rfl, rfl, rfl⟩

theorem same_afterShutdown {close : TlsStream → RdpResult Unit} : Same p (p.afterShutdown close) := by
  unfold afterShutdown
  split <;> exact ⟨rfl, rfl, rfl, rfl, rfl, rfl⟩

theorem not_alive_afterShutdown {close : TlsStream → RdpResult Unit} : ¬ (p.afterShutdown close).loop.Alive := by
  unfold afterShutdown
  split
  . exact fun halive => absurd rfl halive.1
  . exact fun halive => absurd rfl halive.2

theorem bitmapsOf_append (a b : List RdpEvent) : bitmapsOf (a ++ b) = bitmapsOf a ++ bitmapsOf b :=
  List.filterMap_append

theorem bitmapsOf_cons_of_ne {event : RdpEvent} (h : ∀ bitmap, event ≠ .bitmap bitmap)
    (events : List RdpEvent) : bitmapsOf (event :: events) = bitmapsOf events := by
  cases event with
  | bitmap bitmap => exact absurd rfl (h bitmap)
  | pointer event => rfl
  | key event => rfl

theorem InOrder.of_eq
    (h : bitmapsOf p.received = p.painted ++ (p.channel ++ bitmapsOf p.reader.pending)) : p.InOrder := by
  refine ⟨[], ?_, fun hne => absurd rfl hne⟩
  rw [List.append_nil]
  exact h

theorem InOrder.eq (h : p.InOrder) (hp : p.reader ≠ .panicked ∨ p.loop.Alive) :
    bitmapsOf p.received = p.painted ++ (p.channel ++ bitmapsOf p.reader.pending) := by
  obtain ⟨lost, heq, hlost⟩ := h
  have hnil : lost = [] := by
    by_contra hne
    obtain ⟨hpanicked, hleft⟩ := hlost hne
    exact hp.elim (fun h => h hpanicked) hleft
  rwa [hnil, List.append_nil] at heq

theorem InOrder.same (h : p.InOrder) (halive : p.loop.Alive) (hsame : Same p q) : q.InOrder := by
  apply InOrder.of_eq
  rw [hsame.received, hsame.painted, hsame.channel, hsame.reader]
  exact h.eq (.inr halive)

theorem inOrder_step (h : p.InOrder) (hstep : Step width p q) : q.InOrder := by
  have hreads {reader : Reader} (hreader : p.reader = reader) (hne : reader ≠ .panicked) :
      bitmapsOf p.received = p.painted ++ (p.channel ++ bitmapsOf reader.pending) := by
    rw [← hreader]
    exact h.eq (.inl (by rwa [hreader]))
  have halive {loop : Loop} (hloop : p.loop = loop) (hended : loop ≠ .ended) (hfailed : loop ≠ .failed) :
      p.loop.Alive := by
    rw [hloop]
    exact ⟨hended, hfailed⟩
  cases hstep with
  | wake hreader hsync =>
    have heq := hreads hreader (by simp)
    exact .of_eq heq
  | leave hreader =>
    have heq := hreads hreader (by simp)
    exact .of_eq heq
  | read hreader =>
    apply InOrder.of_eq
    have heq := hreads hreader (by simp)
    rw [afterRead]
    dsimp only
    rw [bitmapsOf_append, heq]
    simp [Reader.pending, bitmapsOf]
  | send hreader _ =>
    apply InOrder.of_eq
    have heq := hreads hreader (by simp)
    simpa [Reader.pending, bitmapsOf] using heq
  | @sendFails bitmap events result hreader hleft =>
    refine ⟨bitmap :: bitmapsOf events, ?_, fun _ => ⟨rfl, hleft⟩⟩
    exact hreads hreader (by simp)
  | ignore hreader hevent =>
    apply InOrder.of_eq
    have heq := hreads hreader (by simp)
    rwa [Reader.pending, bitmapsOf_cons_of_ne hevent] at heq
  | @finish result hreader =>
    apply InOrder.of_eq
    have hnone : (Reader.next result).pending = [] := by
      unfold Reader.next
      split <;> rfl
    dsimp only
    rw [hnone]
    exact hreads hreader (by simp)
  | enter window hloop hsync => exact h.same (halive hloop (by simp) (by simp)) ⟨rfl, rfl, rfl, rfl, rfl, rfl⟩
  | exit hloop => exact .of_eq (h.eq (.inr (halive hloop (by simp) (by simp))))
  | paint hloop hchannel =>
    apply InOrder.of_eq
    have heq := h.eq (.inr (halive hloop (by simp) (by simp)))
    rw [hchannel] at heq
    simpa [afterPaint] using heq
  | drained hloop => exact h.same (halive hloop (by simp) (by simp)) ⟨rfl, rfl, rfl, rfl, rfl, rfl⟩
  | disconnected hloop hchannel hreader =>
    exact .of_eq (h.eq (.inr (halive hloop (by simp) (by simp))))
  | mouse hloop hlock => exact h.same (halive hloop (by simp) (by simp)) same_afterMouse
  | keyboard hloop hlock => exact h.same (halive hloop (by simp) (by simp)) same_afterKeyboard
  | updated hloop => exact h.same (halive hloop (by simp) (by simp)) ⟨rfl, rfl, rfl, rfl, rfl, rfl⟩
  | shutdown close hloop hlock => exact h.same (halive hloop (by simp) (by simp)) same_afterShutdown
  | fail hloop => exact h.same hloop ⟨rfl, rfl, rfl, rfl, rfl, rfl⟩

theorem run_transferAll_concat {bitmaps : List BitmapEvent} {s t : Screen}
    (h : (Screen.transferAll width bitmaps).run s = .ok () t) (bitmap : BitmapEvent) :
    (Screen.transferAll width (bitmaps ++ [bitmap])).run s =
      (Screen.fastBitmapTransfer width bitmap).run t := by
  induction bitmaps generalizing s with
  | nil =>
    cases h
    simp [Screen.transferAll]
  | cons first bitmaps ih =>
    obtain ⟨⟨⟩, u, hfirst, hrest⟩ := run_bind_eq_ok h
    rw [List.cons_append, Screen.transferAll, run_bind_of_ok hfirst]
    exact ih hrest

theorem Painted.same (h : p.Painted width height) (hloop : p.loop ≠ .failed) (hsame : Same p q) :
    q.Painted width height := by
  intro _
  rw [hsame.painted, hsame.screen]
  exact h hloop

theorem painted_step (h : p.Painted width height) (hstep : Step width p q) :
    q.Painted width height := by
  cases hstep with
  | wake | leave | read | send | sendFails | ignore | finish => exact h
  | enter window hloop hsync => exact fun _ => h (by simp [hloop])
  | exit hloop => exact fun _ => h (by simp [hloop])
  | @paint window bitmap channel hloop hchannel =>
    intro hnot
    have hpainted := h (by simp [hloop])
    rw [afterPaint] at hnot ⊢
    dsimp only at hnot ⊢
    rw [run_transferAll_concat hpainted]
    cases hrun : (Screen.fastBitmapTransfer width bitmap).run p.screen with
    | ok u t => rfl
    | error e t =>
      rw [hrun] at hnot
      exact absurd rfl hnot
  | drained hloop => exact fun _ => h (by simp [hloop])
  | disconnected hloop hchannel hreader => exact fun _ => h (by simp [hloop])
  | mouse hloop hlock => exact h.same (by simp [hloop]) same_afterMouse
  | keyboard hloop hlock => exact h.same (by simp [hloop]) same_afterKeyboard
  | updated hloop => exact fun _ => h (by simp [hloop])
  | shutdown close hloop hlock => exact h.same (by simp [hloop]) same_afterShutdown
  | fail hloop => exact fun hnot => absurd rfl hnot

theorem Stopped.same (h : p.Stopped) (hloop : p.loop.Running) (hsame : Same p q) : q.Stopped := by
  intro hsync _
  rw [hsame.sync] at hsync
  rw [hsame.reader, hsame.channel]
  exact h hsync hloop

theorem stopped_step (h : p.Stopped) (hstep : Step width p q) : q.Stopped := by
  have hreads (hsync : p.sync = false) (hrunning : p.loop.Running) {reader : Reader}
      (hreader : p.reader = reader) : reader = .ended ∨ reader = .panicked := by
    rw [← hreader]
    exact (h hsync hrunning).1
  have hrunning {loop : Loop} (hloop : p.loop = loop) (hended : loop ≠ .ended) (hfailed : loop ≠ .failed)
      (hclosing : loop ≠ .closing) : p.loop.Running := by
    rw [hloop]
    exact ⟨⟨hended, hfailed⟩, hclosing⟩
  cases hstep with
  | wake hreader hsync => exact fun hnot => absurd (hsync.symm.trans hnot) (by simp)
  | leave hreader => exact fun hsync hloop => absurd (hreads hsync hloop hreader) (by simp)
  | read hreader => exact fun hsync hloop => absurd (hreads hsync hloop hreader) (by simp)
  | send hreader _ => exact fun hsync hloop => absurd (hreads hsync hloop hreader) (by simp)
  | sendFails hreader _ => exact fun hsync hloop => absurd (hreads hsync hloop hreader) (by simp)
  | ignore hreader _ => exact fun hsync hloop => absurd (hreads hsync hloop hreader) (by simp)
  | finish hreader => exact fun hsync hloop => absurd (hreads hsync hloop hreader) (by simp)
  | enter window hloop hsync => exact fun hnot => absurd (hsync.symm.trans hnot) (by simp)
  | exit hloop => exact fun _ hloop' => absurd rfl hloop'.2
  | @paint window bitmap channel hloop hchannel =>
    intro hsync _
    have hempty := (h hsync (hrunning hloop (by simp) (by simp) (by simp))).2
    cases hchannel.symm.trans hempty
  | drained hloop =>
    exact h.same (hrunning hloop (by simp) (by simp) (by simp)) ⟨rfl, rfl, rfl, rfl, rfl, rfl⟩
  | disconnected hloop hchannel hreader => exact fun _ _ => ⟨hreader, hchannel⟩
  | mouse hloop hlock =>
    exact h.same (hrunning hloop (by simp) (by simp) (by simp)) same_afterMouse
  | keyboard hloop hlock =>
    exact h.same (hrunning hloop (by simp) (by simp) (by simp)) same_afterKeyboard
  | updated hloop =>
    exact h.same (hrunning hloop (by simp) (by simp) (by simp)) ⟨rfl, rfl, rfl, rfl, rfl, rfl⟩
  | shutdown close hloop hlock => exact fun _ hrunning => absurd hrunning.1 not_alive_afterShutdown
  | fail hloop => exact fun _ hloop' => absurd rfl hloop'.1.2

end Steps

structure Holds (width height : Nat) (p : Program) : Prop where
  inOrder : p.InOrder
  painted : p.Painted width height
  stopped : p.Stopped

theorem holds_of_reachable {width height : Nat} {client : Session} {p : Program}
    (h : Relation.ReflTransGen (Step width) (start client width height) p) :
    p.Holds width height := by
  induction h with
  | refl => exact ⟨.of_eq rfl, fun _ => rfl, by simp [Stopped, start]⟩
  | tail _ hstep ih =>
    exact ⟨inOrder_step ih.inOrder hstep, painted_step ih.painted hstep, stopped_step ih.stopped hstep⟩

/--
Whatever the steps of the two threads are and however they are mixed, the bitmaps of the events are
painted in the order in which they were received, once each: the others are still in the channel or
still to be sent, and none is lost as long as the receiving thread has not panicked. Every cell of the
window is the one of the last bitmap that was painted over it, if the bitmaps lie in the columns of the
window. And when the loop of the window stops by itself, because the other thread is gone, all of the
bitmaps have been painted.
-/
theorem threads_paint_in_order {width height : Nat} (hsize : width * height < 2 ^ 63) {client : Session}
    {p : Program} (h : Relation.ReflTransGen (Step width) (start client width height) p) :
    p.painted ++ (p.channel ++ bitmapsOf p.reader.pending) <+: bitmapsOf p.received ∧
    (p.reader ≠ .panicked →
      p.painted ++ (p.channel ++ bitmapsOf p.reader.pending) = bitmapsOf p.received) ∧
    (p.loop ≠ .failed → (∀ bitmap ∈ bitmapsOf p.received, Screen.Placed width bitmap) →
      ∀ x y, x < width → y < height → p.screen.buffer[y * width + x]? =
        some ((Painting.topmost (p.painted.map Screen.picture) (x, y)).getD 0)) ∧
    (p.sync = false → p.loop.Running → p.reader.Over ∧ (p.reader = .ended →
      p.painted = bitmapsOf p.received)) := by
  obtain ⟨hinOrder, hpainted, hstopped⟩ := holds_of_reachable h
  have hfront : p.painted ++ (p.channel ++ bitmapsOf p.reader.pending) <+: bitmapsOf p.received := by
    obtain ⟨lost, heq, _⟩ := hinOrder
    exact ⟨lost, by rw [heq, List.append_assoc, List.append_assoc]⟩
  refine ⟨hfront, fun hne => (hinOrder.eq (.inl hne)).symm, ?_, ?_⟩
  . intro hloop hplaced x y hx hy
    have hlength : (Screen.blank width height).buffer.length = width * height := List.length_replicate
    have hinside : ∀ bitmap ∈ p.painted, Screen.Placed width bitmap := fun bitmap hbitmap =>
      hplaced bitmap (((List.prefix_append _ _).trans hfront).subset hbitmap)
    obtain ⟨hsame, hshows⟩ := Screen.shows_of_transferAll hinside (by rwa [hlength])
      (Screen.shows_blank width height) (hpainted hloop)
    rw [hshows x y hx (by rw [hsame, hlength]; exact Screen.cell_lt hx hy), Painting.paintAll_apply]
  . intro hsync hrunning
    obtain ⟨hover, hempty⟩ := hstopped hsync hrunning
    refine ⟨hover, ?_⟩
    intro hended
    have heq := hinOrder.eq (.inl (by simp [hended]))
    rw [hempty, hended] at heq
    rw [heq]
    exact (List.append_nil _).symm

namespace Dot

def dot : BitmapEvent := ⟨1, 1, 1, 1, 1, 1, 32, false, [9, 8, 7, 6]⟩

def packet : Bytes := [0, 31, 1, 26, 0, 1, 0, 1, 0, 1, 0, 1, 0, 1, 0, 1, 0, 1, 0, 1, 0, 32, 0, 0, 0, 4, 0,
  9, 8, 7, 6]

def client : Session where
  client := { Global.Client.new 1004 1003 4 3 .us "mstsc-rs" with state := .data }
  mcs := ⟨⟨.raw ⟨packet.map .byte, [], []⟩, []⟩, .protocolSSL, none, some 1004, [("global", 1003)],
    fun _ => 0⟩
  written := []
  events := []

theorem events_read : (finalState (RdpClient.read.run client)).events = [.bitmap dot] := by
  decide +kernel

def window : Window := ⟨none, fun _ => false, none, fun _ => false⟩

theorem exists_painted :
    ∃ p, Relation.ReflTransGen (Step 4) (start client 4 3) p ∧ p.painted = [dot] := by
  have hready : Relation.ReflTransGen (Step 4) (start client 4 3)
      { start client 4 3 with reader := .ready } := .single (.wake rfl rfl)
  have hread := hready.tail (.read rfl)
  have hreader : (afterRead { start client 4 3 with reader := .ready }).reader =
      .delivering [.bitmap dot] (outcome (RdpClient.read.run client)) :=
    congrArg (Reader.delivering · _) events_read
  have hsent := hread.tail (.send hreader (by simp [Loop.Alive, afterRead, start]))
  have hdrain := hsent.tail (.enter window rfl rfl)
  exact ⟨_, hdrain.tail (.paint rfl rfl), rfl⟩

end Dot

open Dot in
theorem threads_paint_in_order_dot : ∃ p : Program, p.painted = [dot] ∧
    p.painted ++ (p.channel ++ bitmapsOf p.reader.pending) <+: bitmapsOf p.received := by
  obtain ⟨p, hreachable, hpainted⟩ := exists_painted
  exact ⟨p, hpainted, (threads_paint_in_order (by decide) hreachable).1⟩

end Program

end Rdp.Mstsc
