import Rdp.Core.Global.Step
import Rdp.Model.Data.Shape

/-!
This module contains the reads of fast path payloads: whatever the bytes are, they never abort.
-/

namespace Rdp.Global

open Prog Cursor
open Capability (readComponent readComponent_eq not_aborts_readComponent)

/--
What a node of this template shows after a read: its fields are there under their names.
-/
def Shaped (template : Component) (d : DataType) : Prop :=
  ∃ nodes : Component, d = .component (Message.visitFields nodes) ∧
    nodes.map Prod.fst = template.map Prod.fst

theorem not_aborts_sizeOf (name : String) (d : DataType) : ¬ (sizeOf name d).Aborts := by
  cases d <;> simp [sizeOf]

section Bind

variable {f : DataType → RdpResult α} {d : DataType}

theorem not_aborts_field_bind {nodes : Component} {name : String} (h : name ∈ nodes.map Prod.fst)
    (hf : ∀ d, ¬ (f d).Aborts) : ¬ (field (Message.visitFields nodes) name >>= f).Aborts := by
  obtain ⟨d, hd⟩ := Message.exists_field h
  rw [hd, Except.ok_bind]
  exact hf d

theorem not_aborts_castU8_bind {f : UInt8 → RdpResult α} (hf : ∀ v, ¬ (f v).Aborts) :
    ¬ (castU8 d >>= f).Aborts := by
  cases d <;> simp [castU8, DataType.invalidCast, hf]

theorem not_aborts_castU16_bind {f : UInt16 → RdpResult α} (hf : ∀ v, ¬ (f v).Aborts) :
    ¬ (castU16 d >>= f).Aborts := by
  cases d <;> simp [castU16, DataType.invalidCast, hf]

theorem not_aborts_castSlice_bind {f : Bytes → RdpResult α} (hf : ∀ v, ¬ (f v).Aborts) :
    ¬ (castSlice d >>= f).Aborts := by
  cases d <;> simp [castSlice, DataType.invalidCast, hf]

theorem not_aborts_castTrame : ¬ (castTrame d).Aborts := by
  cases d <;> simp [castTrame, DataType.invalidCast]

end Bind

section Templates

theorem total_tsFpUpdate : ∀ f ∈ tsFpUpdate, Message.Total f.2 := by
  simp [tsFpUpdate, Message.total_dynOption_leaf (not_aborts_sizeOf _)]
  apply Message.total_dynOption_leaf
  intro d
  cases d with
  | u8 header =>
    dsimp only
    split <;> simp
  | _ => simp

theorem readerFields_tsCdHeader :
    Message.readerFields [] [] tsCdHeader = (do
      let first ← readU16 .le
      expect (0 = first)
      let size ← readU16 .le
      let width ← readU16 .le
      let uncompressed ← readU16 .le
      return [("cbCompFirstRowSize", .check (.u16 .le first)),
        ("cbCompMainBodySize", .leaf (.u16 .le size)), ("cbScanWidth", .leaf (.u16 .le width)),
        ("cbUncompressedSize", .leaf (.u16 .le uncompressed))]) := by
  simp [tsCdHeader]

theorem total_tsCdHeader : ∀ f ∈ tsCdHeader, Message.Total f.2 := by
  simp [tsCdHeader]

theorem total_tsBitmapData : ∀ f ∈ tsBitmapData, Message.Total f.2 := by
  simp [tsBitmapData, Message.total_dynOption_leaf (not_aborts_sizeOf _)]
  constructor
  . apply Message.total_dynOption_leaf
    intro d
    cases d with
    | u16 flags =>
      dsimp only
      split <;> simp
    | _ => simp
  . apply Message.total_dynOption (Message.total_component total_tsCdHeader).1
    -- the size is read from a field of the header that was just read
    intro input node rest hrun
    rw [Message.reader_component, readerFields_tsCdHeader] at hrun
    obtain ⟨nodes, _, hrun, hnode⟩ := run_bind_eq_ok hrun
    cases hnode
    obtain ⟨first, _, _, hrun⟩ := run_bind_eq_ok hrun
    obtain ⟨_, _, _, hrun⟩ := run_bind_eq_ok hrun
    obtain ⟨size, _, _, hrun⟩ := run_bind_eq_ok hrun
    obtain ⟨width, _, _, hrun⟩ := run_bind_eq_ok hrun
    obtain ⟨uncompressed, _, _, hrun⟩ := run_bind_eq_ok hrun
    cases hrun
    exact Except.not_aborts_ok (MessageOption.size "bitmapDataStream" size.toNat)

theorem readerFields_tsFpUpdateBitmap :
    Message.readerFields [] [] tsFpUpdateBitmap.message = (do
      let header ← readU16 .le
      expect (FastPathUpdateType.fastpathUpdatetypeBitmap.toU8.toUInt16 = header)
      let number ← readU16 .le
      let rectangles ← elements (Message.readerFields [] [] tsBitmapData)
      return [("header", .check (.u16 .le header)), ("numberRectangles", .leaf (.u16 .le number)),
        ("rectangles", .array (rectangles.map .component) (some (.component tsBitmapData)))]) := by
  simp [tsFpUpdateBitmap]

theorem consumes_tsFpUpdate : Consumes (Message.component tsFpUpdate).reader := by
  apply Message.consumes_component
  apply Message.consumes_dynOption
  apply Message.consumes_leaf
  simp

theorem consumes_tsBitmapData : Consumes (Message.component tsBitmapData).reader := by
  apply Message.consumes_component
  apply Message.consumes_leaf
  simp

theorem total_tsFpUpdateBitmap : ∀ f ∈ tsFpUpdateBitmap.message, Message.Total f.2 := by
  have hrectangles := Message.total_array (Message.total_component total_tsBitmapData).1
    consumes_tsBitmapData
  simp [tsFpUpdateBitmap, hrectangles]

theorem total_tsColorpointerattribute :
    ∀ f ∈ tsColorpointerattribute.message, Message.Total f.2 := by
  simp [tsColorpointerattribute, Message.total_dynOption_leaf (not_aborts_sizeOf _)]

theorem FastPathUpdate.total_template {fpType : FastPathUpdateType} {update : FastPathUpdate}
    (h : template fpType = .ok update) : ∀ f ∈ update.message, Message.Total f.2 := by
  unfold template at h
  split at h
  case h_1 =>
    cases h
    exact total_tsFpUpdateBitmap
  case h_2 =>
    cases h
    exact total_tsColorpointerattribute
  case h_5 => cases h
  all_goals
    cases h
    simp [tsFpUpdateSynchronize, tsFpSystempointerhiddenattribute]

end Templates

namespace FastPathUpdate

theorem not_aborts_fromFp {nodes : Component} (h : nodes.map Prod.fst = tsFpUpdate.map Prod.fst) :
    ¬ (fromFp (Message.visitFields nodes)).Aborts := by
  unfold fromFp
  apply not_aborts_field_bind
  . rw [h]
    decide
  intro d
  apply not_aborts_castU8_bind
  intro header
  rw [Except.aborts_bind]
  rintro (habort | ⟨fpType, _, habort⟩)
  . unfold FastPathUpdateType.tryFrom at habort
    split at habort <;> simp at habort
  . rcases Except.aborts_bind.mp habort with habort | ⟨update, htemplate, habort⟩
    . unfold template at habort
      split at habort <;> simp at habort
    . revert habort
      apply not_aborts_field_bind
      . rw [h]
        decide
      intro d
      apply not_aborts_castSlice_bind
      intro stream habort
      rcases Except.aborts_bind.mp habort with habort | ⟨message, _, habort⟩
      . exact not_aborts_readComponent (total_template htemplate) stream habort
      . exact Except.not_aborts_pure _ habort

theorem eq_of_template {fpType : FastPathUpdateType} {update : FastPathUpdate}
    (h : template fpType = .ok update) (htype : update.fpType = .fastpathUpdatetypeBitmap) :
    update = tsFpUpdateBitmap := by
  unfold template at h
  split at h
  case h_1 =>
    cases h
    rfl
  all_goals
    cases h
    try cases htype

theorem rectangles_of_fromFp {shown : List (String × DataType)} {order : FastPathUpdate}
    (h : fromFp shown = .ok order) (htype : order.fpType = .fastpathUpdatetypeBitmap) :
    ∃ ds, field order.fields "rectangles" = .ok (.trame ds) ∧ ∀ d ∈ ds, Shaped tsBitmapData d := by
  obtain ⟨d, _, h⟩ := Except.bind_eq_ok h
  obtain ⟨header, _, h⟩ := Except.bind_eq_ok h
  obtain ⟨fpType, _, h⟩ := Except.bind_eq_ok h
  obtain ⟨result, htemplate, h⟩ := Except.bind_eq_ok h
  obtain ⟨d', _, h⟩ := Except.bind_eq_ok h
  obtain ⟨stream, _, h⟩ := Except.bind_eq_ok h
  obtain ⟨message, hmessage, h⟩ := Except.bind_eq_ok h
  cases h
  cases eq_of_template htemplate htype
  rw [readComponent_eq, readerFields_tsFpUpdateBitmap] at hmessage
  obtain ⟨rest, hrun⟩ := parse_eq_ok.mp hmessage
  obtain ⟨_, _, _, hrun⟩ := run_bind_eq_ok hrun
  obtain ⟨_, _, _, hrun⟩ := run_bind_eq_ok hrun
  obtain ⟨_, _, _, hrun⟩ := run_bind_eq_ok hrun
  obtain ⟨rectangles, _, hrectangles, hrun⟩ := run_bind_eq_ok hrun
  rw [EStateM.run_pure] at hrun
  injection hrun with hnodes
  refine ⟨Message.visitTrame (rectangles.map .component), ?_, ?_⟩
  . rw [fields, ← hnodes]
    rfl
  . rw [Message.visitTrame_eq_map, List.map_map]
    intro d hd
    obtain ⟨rectangle, hrectangle, rfl⟩ := List.mem_map.mp hd
    refine ⟨rectangle, rfl, ?_⟩
    exact forall_of_run_elements (fun _ _ _ => Message.names_of_run_fields) hrectangles rectangle
      hrectangle

end FastPathUpdate

namespace Client

theorem not_aborts_bitmapEvent {nodes : Component}
    (h : nodes.map Prod.fst = tsBitmapData.map Prod.fst) :
    ¬ (bitmapEvent (Message.visitFields nodes)).Aborts := by
  unfold bitmapEvent
  repeat
    apply not_aborts_field_bind (by rw [h]; decide)
    intro d
    apply not_aborts_castU16_bind
    intro v
  apply not_aborts_field_bind (by rw [h]; decide)
  intro d
  apply not_aborts_castSlice_bind
  intro v
  exact Except.not_aborts_pure _

theorem returns_deliverRectangles {rectangles : List DataType}
    (h : ∀ d ∈ rectangles, Shaped tsBitmapData d) : Returns (deliverRectangles rectangles) := by
  induction rectangles with
  | nil => exact Returns.pure ()
  | cons rectangle rectangles ih =>
    rw [List.forall_mem_cons] at h
    obtain ⟨⟨nodes, rfl, hnames⟩, hrest⟩ := h
    rw [deliverRectangles]
    apply Returns.bind
    . exact Returns.lift (not_aborts_bitmapEvent hnames)
    . intro event
      apply Returns.bind
      . intro s
        exact not_aborts_modify _ s
      . exact fun _ => ih hrest

theorem returns_deliverUpdate {fields : List (String × DataType)} {order : FastPathUpdate}
    (h : FastPathUpdate.fromFp fields = .ok order) : Returns (deliverUpdate order) := by
  unfold deliverUpdate
  by_cases htype : order.fpType = .fastpathUpdatetypeBitmap
  . obtain ⟨ds, hds, hshaped⟩ := FastPathUpdate.rectangles_of_fromFp h htype
    simp only [htype, if_true, hds, Except.ok_bind, castTrame, lift_ok, pure_bind]
    exact returns_deliverRectangles hshaped
  . rw [if_neg htype]
    exact Returns.pure ()

theorem returns_deliverUpdates {fpMessages : List DataType}
    (h : ∀ d ∈ fpMessages, Shaped tsFpUpdate d) : Returns (deliverUpdates fpMessages) := by
  induction fpMessages with
  | nil => exact Returns.pure ()
  | cons fpMessage fpMessages ih =>
    rw [List.forall_mem_cons] at h
    obtain ⟨⟨nodes, rfl, hnames⟩, hrest⟩ := h
    rw [deliverUpdates]
    rcases Except.cases_of_not_aborts (FastPathUpdate.not_aborts_fromFp hnames)
      with ⟨order, horder⟩ | ⟨e, he⟩
    . have hparse : parseUpdate (.component (Message.visitFields nodes)) = .ok (some order) := by
        simp only [parseUpdate, castComponent, Except.ok_bind, horder]
        rfl
      rw [hparse, lift_ok, pure_bind]
      apply (returns_deliverUpdate horder).bind
      exact fun _ => ih hrest
    . have hparse : parseUpdate (.component (Message.visitFields nodes)) = .ok none := by
        simp only [parseUpdate, castComponent, Except.ok_bind, he]
        rfl
      rw [hparse, lift_ok, pure_bind]
      exact ih hrest

theorem not_aborts_readArray {element : Component} (h : ∀ f ∈ element, Message.Total f.2)
    (hconsumes : Consumes (Message.component element).reader) (stream : Bytes) :
    ¬ (readArray element stream).Aborts := by
  have hreturns := (Message.total_array (Message.total_component h).1 hconsumes).1 stream
  unfold readArray
  split
  next => exact not_aborts_castTrame
  next e rest hrun =>
    rw [aborts_of_run_error hrun] at hreturns
    rwa [Except.aborts_error]

theorem shaped_of_readArray {element : Component} {stream : Bytes} {ds : List DataType}
    (h : readArray element stream = .ok ds) : ∀ d ∈ ds, Shaped element d := by
  unfold readArray at h
  split at h
  next message rest hrun =>
    rw [Message.reader_array, Message.reader_component] at hrun
    obtain ⟨nodes, _, hnodes, hmessage⟩ := run_bind_eq_ok hrun
    cases hmessage
    cases h
    rw [Message.visitTrame_eq_map]
    intro d hd
    obtain ⟨node, hnode, rfl⟩ := List.mem_map.mp hd
    refine forall_of_run_elements (P := fun node => Shaped element node.visit) ?_ hnodes node hnode
    intro input node rest hread
    obtain ⟨fields, _, hfields, hpure⟩ := run_bind_eq_ok hread
    cases hpure
    exact ⟨fields, rfl, Message.names_of_run_fields hfields⟩
  next => cases h

theorem returns_readFastPath (stream : Bytes) : Returns (readFastPath stream) := by
  unfold readFastPath
  rcases Except.cases_of_not_aborts
    (not_aborts_readArray total_tsFpUpdate consumes_tsFpUpdate stream) with ⟨ds, hds⟩ | ⟨e, he⟩
  . rw [hds, lift_ok, pure_bind]
    exact returns_deliverUpdates (shaped_of_readArray hds)
  . rw [he]
    exact Returns.fail e

end Client

end Rdp.Global
