import Rdp.Bin.Mstsc.Threads
import Rdp.Core.Client.Course
import Rdp.Core.Event.Layout

/-!
This module contains what the window shows of the drawings of a server: the pixels that the server had,
however they were encoded, however the transport cut the frames they came in, and however the two threads
are mixed.
-/

namespace Rdp

def Colour.word (c : Colour) : UInt32 := le32 c.blue c.green c.red c.alpha

namespace Mstsc

open Global (Session ClientState)
open RdpClient (Follows)
open Mcs (Frame Injective encodeAll)
open Server (eventsOf)
open Prog

def word16 (v : UInt16) : UInt32 := (transmuteVec (rgb32 v)).headD 0

def lines {width height : Nat} (bitmap : Bitmap width height) : List (List UInt32) :=
  match bitmap with
  | .deep16 picture => picture.rows.reverse.map (·.map word16)
  | .deep32 picture => picture.rows.reverse.map (·.map Colour.word)

/--
A bitmap event of a server, with the pixels it was made of, which it can be decoded to.
-/
structure Drawing where
  event : BitmapEvent
  bitmap : Bitmap event.width.toNat event.height.toNat
  width_pos : 0 < event.width.toNat
  height_pos : 0 < event.height.toNat
  carries : event.Carries bitmap
  lays : event.Lays bitmap

def Drawing.picture (drawing : Drawing) (cell : Nat × Nat) : Option UInt32 :=
  if Screen.Inside drawing.event cell.1 cell.2 then
    (lines drawing.bitmap)[cell.2 - drawing.event.destTop.toNat]?.bind
      (·[cell.1 - drawing.event.destLeft.toNat]?)
  else
    none

section Lines

variable {α : Type} {width height : Nat}

theorem transmuteVec_flatMap {f : α → Bytes} {word : α → UInt32}
    (h : ∀ a rest, transmuteVec (f a ++ rest) = word a :: transmuteVec rest) (l : List α) :
    transmuteVec (l.flatMap f) = l.map word := by
  induction l with
  | nil => rfl
  | cons a l ih => rw [List.flatMap_cons, h, ih, List.map_cons]

theorem transmuteVec_shown (bitmap : Bitmap width height) :
    transmuteVec bitmap.shown = (lines bitmap).flatten := by
  cases bitmap with
  | deep16 picture =>
    rw [Bitmap.shown, lines, ← List.map_flatten]
    apply transmuteVec_flatMap
    exact fun v rest => rfl
  | deep32 picture =>
    rw [Bitmap.shown, lines, ← List.map_flatten]
    apply transmuteVec_flatMap
    exact fun c rest => rfl

theorem length_line (bitmap : Bitmap width height) : ∀ line ∈ lines bitmap, line.length = width := by
  cases bitmap with
  | deep16 picture => simpa [lines] using picture.length_row
  | deep32 picture => simpa [lines] using picture.length_row

theorem Drawing.picture_eq {drawing : Drawing} (h : Screen.Placed width drawing.event) :
    Screen.picture drawing.event = drawing.picture := by
  obtain ⟨event, bitmap, hwidth, hheight, hcarries, hlays⟩ := drawing
  have hdata := (BitmapEvent.decompress_shown_iff hcarries hwidth hheight).mpr hlays
  funext cell
  rw [Screen.picture, hdata]
  dsimp only [Screen.imagePicture, Drawing.picture]
  split
  next hinside =>
    -- the columns of the rectangle are columns of the image
    have hcolumn : cell.1 - event.destLeft.toNat < event.width.toNat := by
      have hle := h.fits.2
      have hright := hinside.1.2
      dsimp only at hle
      omega
    rw [transmuteVec_shown, Chunks.getElem?_flatten (length_line bitmap) hcolumn]
  next => rfl

end Lines

section Write

variable {userId channel : UInt16} {channels : List (String × UInt16)} {frames : List Frame}
  {course : List (ClientState × List RdpEvent)} {s : Session} {window : Window}

/--
A program that only writes events leaves the frames to be read, whether it succeeds or not.
-/
def Writes (x : Prog Error Session α) : Prop :=
  ∀ {userId channel channels frames course s}, Follows userId channel channels frames course s →
    Follows userId channel channels frames course (finalState (x.run s))

theorem Writes.pure (a : α) : Writes (Pure.pure a : Prog Error Session α) := id

theorem Writes.lift (x : RdpResult α) : Writes (Prog.lift x : Prog Error Session α) := by
  cases x <;> exact id

theorem Writes.write (event : RdpEvent) : Writes (RdpClient.write event) := fun h => h.write event

theorem Writes.bind {x : Prog Error Session α} {f : α → Prog Error Session β} (hx : Writes x)
    (hf : ∀ a, Writes (f a)) : Writes (x >>= f) := by
  intro _ _ _ _ _ s h
  have hxs := hx h
  rw [EStateM.run_bind]
  cases hrun : x.run s with
  | ok a t =>
    rw [hrun] at hxs
    exact hf a hxs
  | error e t =>
    rw [hrun] at hxs
    exact hxs

theorem writes_mouseInput (last : PointerButton) : Writes (mouseInput RdpClient.write window last) := by
  unfold mouseInput
  split
  . exact Writes.pure last
  . refine Writes.bind (Writes.lift _) ?_
    intro event
    refine Writes.bind (Writes.write _) ?_
    exact fun _ => Writes.pure _

theorem writes_writeKey (key : Key) (down : Bool) : Writes (writeKey RdpClient.write key down) := by
  unfold writeKey
  refine Writes.bind (Writes.lift _) ?_
  exact fun code => Writes.write _

theorem writes_releaseKeys (keys last : List Key) : Writes (releaseKeys RdpClient.write keys last) := by
  induction last with
  | nil => exact Writes.pure ()
  | cons key last ih =>
    unfold releaseKeys
    split
    . exact Writes.bind (Writes.pure ()) fun _ => ih
    . exact Writes.bind (writes_writeKey key false) fun _ => ih

theorem writes_pressKeys (keys : List Key) : Writes (pressKeys RdpClient.write window keys) := by
  induction keys with
  | nil => exact Writes.pure ()
  | cons key keys ih =>
    unfold pressKeys
    split
    . exact Writes.bind (writes_writeKey key true) fun _ => ih
    . exact Writes.bind (Writes.pure ()) fun _ => ih

theorem writes_keyboardInput (last : List Key) : Writes (keyboardInput RdpClient.write window last) := by
  unfold keyboardInput
  split
  . exact Writes.pure last
  . refine Writes.bind (writes_releaseKeys _ _) ?_
    intro
    refine Writes.bind (writes_pressKeys _) ?_
    exact fun _ => Writes.pure _

end Write

namespace Program

/--
The callback was called with the events of the first of the frames, and the others are still to be read.
-/
def Receives (userId channel : UInt16) (channels : List (String × UInt16)) (frames : List Frame)
    (course : List (ClientState × List RdpEvent)) (p : Program) : Prop :=
  p.loop.Alive → ∃ n, Follows userId channel channels (frames.drop n) (course.drop n) p.client ∧
    p.received = eventsOf (course.take n)

section Receives

variable {userId channel : UInt16} {channels : List (String × UInt16)} {frames : List Frame}
  {course : List (ClientState × List RdpEvent)} {width : Nat} {p q : Program} {window : Window}

theorem Receives.writes (h : Receives userId channel channels frames course p)
    (hloop : q.loop.Alive → p.loop.Alive)
    (hclient : ∀ {frames course}, Follows userId channel channels frames course p.client →
      Follows userId channel channels frames course q.client)
    (hreceived : q.received = p.received) : Receives userId channel channels frames course q := by
  intro hq
  obtain ⟨n, hfollows, hevents⟩ := h (hloop hq)
  exact ⟨n, hclient hfollows, hreceived.trans hevents⟩

theorem follows_afterMouse (h : Follows userId channel channels frames course p.client) :
    Follows userId channel channels frames course (p.afterMouse window).client := by
  have hinput := @writes_mouseInput window p.lastButton _ _ _ _ _ _ h
  unfold afterMouse
  split
  next hrun => rwa [hrun] at hinput
  next hrun => rwa [hrun] at hinput

theorem follows_afterKeyboard (h : Follows userId channel channels frames course p.client) :
    Follows userId channel channels frames course (p.afterKeyboard window).client := by
  have hinput := @writes_keyboardInput window p.lastKeys _ _ _ _ _ _ h
  unfold afterKeyboard
  split
  next hrun => rwa [hrun] at hinput
  next hrun => rwa [hrun] at hinput

theorem Receives.read (hinj : Injective channels) (h : Receives userId channel channels frames course p) :
    Receives userId channel channels frames course p.afterRead := by
  intro hloop
  obtain ⟨n, hfollows, hevents⟩ := h hloop
  obtain ⟨hread, _, hcaused⟩ := (hfollows.withEvents []).read hinj
  rw [List.tail_drop, List.tail_drop] at hread
  refine ⟨n + 1, hread, ?_⟩
  rw [afterRead]
  dsimp only
  rw [hcaused, hevents, List.nil_append, eventsOf, eventsOf, eventsOf, ← List.flatMap_append,
    List.take_add]

theorem receives_step (hinj : Injective channels) (h : Receives userId channel channels frames course p)
    (hstep : Step width p q) : Receives userId channel channels frames course q := by
  cases hstep with
  | read hreader => exact h.read hinj
  | mouse hloop hlock => exact h.writes (by simp [Loop.Alive, hloop]) follows_afterMouse same_afterMouse.received
  | keyboard hloop hlock =>
    exact h.writes (by simp [Loop.Alive, hloop]) follows_afterKeyboard same_afterKeyboard.received
  | shutdown close hloop hlock => exact fun halive => absurd halive not_alive_afterShutdown
  | fail hloop => exact h.writes (fun _ => hloop) id rfl
  | enter window hloop hsync => exact h.writes (by simp [Loop.Alive, hloop]) id rfl
  | exit hloop => exact h.writes (by simp [Loop.Alive, hloop]) id rfl
  | paint hloop hchannel => exact h.writes (by simp [Loop.Alive, hloop]) id rfl
  | drained hloop => exact h.writes (by simp [Loop.Alive, hloop]) id rfl
  | disconnected hloop hchannel hreader => exact h.writes (by simp [Loop.Alive, hloop]) id rfl
  | updated hloop => exact h.writes (by simp [Loop.Alive, hloop]) id rfl
  | _ => exact h.writes id id rfl

theorem receives_of_reachable {client : Session} {height : Nat} (hinj : Injective channels)
    (hfollows : Follows userId channel channels frames course client)
    (h : Relation.ReflTransGen (Step width) (start client width height) p) :
    Receives userId channel channels frames course p := by
  induction h with
  | refl => exact fun _ => ⟨0, hfollows, rfl⟩
  | tail _ hstep ih => exact receives_step hinj ih hstep

end Receives

theorem bitmapsOf_drawings (drawings : List Drawing) :
    bitmapsOf (drawings.map fun drawing => .bitmap drawing.event) = drawings.map Drawing.event := by
  induction drawings with
  | nil => rfl
  | cons drawing drawings ih => exact congrArg (drawing.event :: ·) ih

theorem shown_of_follows {userId channel : UInt16} {channels : List (String × UInt16)} {client : Session}
    (hinj : Injective channels) {frames : List Frame} {course : List (ClientState × List RdpEvent)}
    (hfollows : Follows userId channel channels frames course client) {drawings : List Drawing}
    (hdrawings : eventsOf course = drawings.map fun drawing => .bitmap drawing.event) {width height : Nat}
    (hsize : width * height < 2 ^ 63) (hplaced : ∀ drawing ∈ drawings, Screen.Placed width drawing.event)
    {p : Program} (h : Relation.ReflTransGen (Step width) (start client width height) p)
    (halive : p.loop.Alive) :
    ∃ n m, p.client.mcs.link.Delivers (encodeAll (frames.drop n)) ∧ p.received = eventsOf (course.take n) ∧
      p.painted = (drawings.take m).map Drawing.event ∧
      (∀ x y, x < width → y < height → p.screen.buffer[y * width + x]? =
        some ((Painting.topmost ((drawings.take m).map Drawing.picture) (x, y)).getD 0)) ∧
      (frames.drop n = [] → p.channel = [] → p.reader.pending = [] → drawings.drop m = []) := by
  obtain ⟨n, hrest, hreceived⟩ := receives_of_reachable hinj hfollows h halive
  obtain ⟨hinOrder, hpainted, _⟩ := holds_of_reachable h
  have hfront : p.painted ++ (p.channel ++ bitmapsOf p.reader.pending) <+: drawings.map Drawing.event := by
    rw [← hinOrder.eq (.inr halive), ← bitmapsOf_drawings, ← hdrawings, hreceived]
    apply List.IsPrefix.filterMap
    exact ⟨eventsOf (course.drop n), by rw [eventsOf, eventsOf, ← List.flatMap_append, List.take_append_drop]; rfl⟩
  obtain ⟨m, hm, htake⟩ : ∃ m, m = p.painted.length ∧ p.painted = (drawings.take m).map Drawing.event := by
    refine ⟨p.painted.length, rfl, ?_⟩
    rw [List.map_take]
    exact List.prefix_iff_eq_take.mp ((List.prefix_append _ _).trans hfront)
  refine ⟨n, m, hrest.delivers, hreceived, htake, ?_, ?_⟩
  . intro x y hx hy
    have hlength : (Screen.blank width height).buffer.length = width * height := List.length_replicate
    have hinside : ∀ drawing ∈ drawings.take m, Screen.Placed width drawing.event :=
      fun drawing hdrawing => hplaced drawing (List.mem_of_mem_take hdrawing)
    have hpictures : p.painted.map Screen.picture = (drawings.take m).map Drawing.picture := by
      rw [htake, List.map_map]
      exact List.map_congr_left fun drawing hdrawing => Drawing.picture_eq (hinside drawing hdrawing)
    have hbitmaps : ∀ bitmap ∈ p.painted, Screen.Placed width bitmap := by
      rw [htake]
      exact List.forall_mem_map.mpr hinside
    obtain ⟨hsame, hshows⟩ := Screen.shows_of_transferAll hbitmaps (by rwa [hlength])
      (Screen.shows_blank width height) (hpainted halive.2)
    rw [hshows x y hx (by rw [hsame, hlength]; exact Screen.cell_lt hx hy), Painting.paintAll_apply,
      hpictures]
  . intro hdone hchannel hpending
    have hcourse : course.length ≤ n := by
      have hnil := hrest.serves
      rw [hdone] at hnil
      exact List.drop_eq_nil_iff.mp hnil.eq_nil
    have hall := hinOrder.eq (.inr halive)
    rw [hchannel, hpending, hreceived, List.take_of_length_le hcourse, hdrawings, bitmapsOf_drawings] at hall
    have hlength := congrArg List.length hall
    rw [List.length_map, List.length_append, ← hm] at hlength
    rw [List.drop_eq_nil_iff]
    exact Nat.le_of_eq hlength

/--
The drawings in the frames of a server reach the window: from the connection sequence on, and as long as
the window has its thread, the events of the first frames were received, the first drawings were painted,
and every cell of the window is the pixel of the server that was drawn over it last. When all of the frames
are read, and nothing is left in the channel or still to be sent, all of the drawings are painted.
-/
theorem drawings_shown {userId channel : UInt16} {client : Session} (hopen : client.Open userId channel)
    (hinj : Injective client.mcs.channelIds) {frames : List Frame}
    {course : List (ClientState × List RdpEvent)}
    (hserves : Server.Serves client.mcs.channelIds client.client.state frames course)
    (hdelivers : client.mcs.link.Delivers (encodeAll frames)) {drawings : List Drawing}
    (hdrawings : eventsOf course = drawings.map fun drawing => .bitmap drawing.event) {width height : Nat}
    (hsize : width * height < 2 ^ 63) (hplaced : ∀ drawing ∈ drawings, Screen.Placed width drawing.event)
    {p : Program} (h : Relation.ReflTransGen (Step width) (start client width height) p)
    (halive : p.loop.Alive) :
    ∃ n m, p.client.mcs.link.Delivers (encodeAll (frames.drop n)) ∧ p.received = eventsOf (course.take n) ∧
      p.painted = (drawings.take m).map Drawing.event ∧
      (∀ x y, x < width → y < height → p.screen.buffer[y * width + x]? =
        some ((Painting.topmost ((drawings.take m).map Drawing.picture) (x, y)).getD 0)) ∧
      (frames.drop n = [] → p.channel = [] → p.reader.pending = [] → drawings.drop m = []) := by
  have hfollows : Follows userId channel client.mcs.channelIds frames course client :=
    ⟨hopen, rfl, hserves, hdelivers⟩
  exact shown_of_follows hinj hfollows hdrawings hsize hplaced h halive

namespace Following

open RdpClient.Following

def picture : Picture Colour 1 1 := ⟨[[⟨9, 8, 7, 6⟩]], rfl, by decide⟩

def drawing : Drawing where
  event := ⟨1, 1, 1, 1, 1, 1, 32, false, [9, 8, 7, 6]⟩
  bitmap := .deep32 picture
  width_pos := by decide
  height_pos := by decide
  carries := ⟨rfl, rfl⟩
  lays := rfl

def client : Session where
  client := { Global.Client.new 1004 1003 800 600 .us "mstsc-rs" with state := .data }
  mcs := ⟨Tpkt.Client.Framing.link (encodeAll [update]), .protocolSSL, none, some 1004, channels, fun _ => 0⟩
  written := []
  events := []

theorem open_client : client.Open 1004 1003 := ⟨⟨rfl, by decide, rfl, by decide⟩, rfl⟩

theorem serves_update : Server.Serves channels .data [update] [(.data, [rectangle.event])] :=
  .cons (.shows (.updates [sent] (List.append_nil _).symm)) .nil

theorem delivers_client : client.mcs.link.Delivers (encodeAll [update]) :=
  Tpkt.Client.Framing.delivers_link _

theorem transferred_drawing :
    outcome ((Screen.fastBitmapTransfer 4 drawing.event).run (.blank 4 3)) = none := by
  decide +kernel

theorem exists_painted : ∃ p, Relation.ReflTransGen (Step 4) (start client 4 3) p ∧ p.loop.Alive ∧
    p.painted = [drawing.event] := by
  have hready : Relation.ReflTransGen (Step 4) (start client 4 3)
      { start client 4 3 with reader := .ready } := .single (.wake rfl rfl)
  have hread := hready.tail (.read rfl)
  have hfollows : Follows 1004 1003 channels [update] [(.data, [rectangle.event])] client :=
    ⟨open_client, rfl, serves_update, delivers_client⟩
  have hevents := (hfollows.read injective_session).2.2
  have hreader : (afterRead { start client 4 3 with reader := .ready }).reader =
      .delivering [.bitmap drawing.event] (outcome (RdpClient.read.run client)) :=
    congrArg (Reader.delivering · _) hevents
  have hsent := hread.tail (.send hreader (by simp [Loop.Alive, afterRead, start]))
  have hdrain := hsent.tail (.enter Dot.window rfl rfl)
  refine ⟨_, hdrain.tail (.paint rfl rfl), ?_, rfl⟩
  change Loop.Alive (if outcome ((Screen.fastBitmapTransfer 4 drawing.event).run (.blank 4 3)) = none then
    .drain Dot.window else .failed)
  rw [if_pos transferred_drawing]
  exact ⟨by simp, by simp⟩

end Following

open Following RdpClient.Following in
theorem drawings_shown_one : ∃ p : Program, p.painted = [drawing.event] ∧
    p.screen.buffer[1 * 4 + 1]? = some ((Painting.topmost [drawing.picture] (1, 1)).getD 0) := by
  obtain ⟨p, hreachable, halive, hpainted⟩ := exists_painted
  have hplaced : ∀ d ∈ [drawing], Screen.Placed 4 d.event := by
    rw [List.forall_mem_singleton]
    exact ⟨by decide, by decide, by decide⟩
  obtain ⟨n, m, _, _, htake, hshows, _⟩ := @drawings_shown _ _ Following.client open_client injective_session _ _
    serves_update delivers_client [drawing] rfl 4 3 (by decide) hplaced p hreachable halive
  refine ⟨p, hpainted, ?_⟩
  have hall : [drawing].take m = [drawing] := by
    cases m with
    | zero => cases hpainted.symm.trans htake
    | succ m => simp
  rw [hshows 1 1 (by decide) (by decide), hall]
  rfl

end Program

end Mstsc

end Rdp
