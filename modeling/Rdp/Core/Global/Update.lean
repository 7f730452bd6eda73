import Rdp.Core.Global.FastPath

/-!
This module contains the layout of fast path updates: which of them are read as they were sent.
-/

namespace Rdp.Global

open Prog Cursor

/--
A fast path update. The flags are sent only if the header announces a compression.
-/
structure Update where
  header : UInt8
  compressionFlags : UInt8
  data : Bytes
  length_lt : data.length < 2 ^ 16

namespace Update

def size (update : Update) : UInt16 := .ofNat update.data.length

/--
The bits 6 and 7 of the header are the compression, and `0x2` of it announces its flags.
-/
def compressed (header : UInt8) : Bool := (header >>> 6) &&& 0x2 != 0

/--
The bits that decide about the flags when an update is read.
-/
def flagged (header : UInt8) : Bool := (header >>> 4) &&& 0x2 != 0

def encode (update : Update) : Bytes :=
  update.header :: ((if compressed update.header then [update.compressionFlags] else []) ++
    (Endian.le.encode16 update.size ++ update.data))

def ShownBy (update : Update) (d : DataType) : Prop :=
  ∃ fields, d = .component fields ∧ field fields "updateHeader" = .ok (.u8 update.header) ∧
    field fields "size" = .ok (.u16 update.size) ∧ field fields "updateData" = .ok (.slice update.data)

/--
An update as it was read.
-/
structure Raw where
  header : UInt8
  compressionFlags : UInt8
  size : UInt16
  data : Bytes

namespace Raw

def headerOption (node : DataType) : RdpResult MessageOption :=
  match node with
  | .u8 header =>
    if (header >>> 4) &&& 0x2 = 0 then .ok (.skipField "compressionFlags") else .ok .none
  | _ => .ok .none

def node (raw : Raw) : Component := [
  ("updateHeader", .dynOption (.leaf (.u8 raw.header)) headerOption),
  ("compressionFlags", .leaf (.u8 raw.compressionFlags)),
  ("size", .dynOption (.leaf (.u16 .le raw.size)) (sizeOf "updateData")),
  ("updateData", .leaf (.bytes raw.data))
]

def readFlags (header : UInt8) : Reader UInt8 :=
  if flagged header then
    readU8
  else
    return 0

def reader : Reader Raw := do
  let header ← readU8
  let compressionFlags ← readFlags header
  let size ← readU16 .le
  let data ← readExact size.toNat
  return { header, compressionFlags, size, data }

theorem tsFpUpdate_eq : tsFpUpdate = node ⟨0, 0, 0, []⟩ := rfl

theorem headerOption_eq (header : UInt8) :
    headerOption (.u8 header) =
      .ok (if flagged header then .none else .skipField "compressionFlags") := by
  unfold headerOption flagged
  by_cases h : (header >>> 4) &&& 0x2 = 0 <;> simp [h]

theorem readerFields_node : Message.readerFields [] [] (node ⟨0, 0, 0, []⟩) = node <$> reader := by
  simp only [node, reader, readFlags]
  simp [Message.visit, Leaf.visit, headerOption_eq]
  refine bind_congr fun header => ?_
  cases flagged header <;>
    simp [Message.visit, Leaf.visit, sizeOf, limited_readToEnd] <;>
    rfl

/--
The bytes of an update. The flags are among them if they were found.
-/
def encode (raw : Raw) : Bytes :=
  raw.header :: ((if flagged raw.header then [raw.compressionFlags] else []) ++
    (Endian.le.encode16 raw.size ++ raw.data))

/--
The data has the size that the update announces.
-/
structure Whole (raw : Raw) : Prop where
  flags : flagged raw.header = false → raw.compressionFlags = 0
  data : raw.data.length = raw.size.toNat

theorem run_reader_eq_ok {raw : Raw} {input rest : Bytes} :
    reader.run input = .ok raw rest ↔ raw.Whole ∧ input = raw.encode ++ rest := by
  constructor
  . intro h
    obtain ⟨header, s₁, hheader, h⟩ := run_bind_eq_ok h
    obtain ⟨flags, s₂, hflags, h⟩ := run_bind_eq_ok h
    obtain ⟨size, s₃, hsize, h⟩ := run_bind_eq_ok h
    obtain ⟨data, s₄, hdata, h⟩ := run_bind_eq_ok h
    cases h
    obtain ⟨rfl, hlength⟩ := run_readExact_eq_ok.mp hdata
    cases run_readU8_eq_ok.mp hheader
    have hs₂ := run_readU16_iff_encode16.mp hsize
    cases hflagged : flagged header with
    | false =>
      rw [readFlags, hflagged] at hflags
      cases hflags
      exact ⟨⟨fun _ => rfl, hlength⟩, by simp [encode, hflagged, hs₂]⟩
    | true =>
      rw [readFlags, hflagged] at hflags
      cases run_readU8_eq_ok.mp hflags
      exact ⟨⟨by simp [hflagged], hlength⟩, by simp [encode, hflagged, hs₂]⟩
  . rintro ⟨hwhole, rfl⟩
    have hflags : (readFlags raw.header).run
        ((if flagged raw.header then [raw.compressionFlags] else []) ++
          (Endian.le.encode16 raw.size ++ (raw.data ++ rest))) =
        .ok raw.compressionFlags (Endian.le.encode16 raw.size ++ (raw.data ++ rest)) := by
      unfold readFlags
      cases hflagged : flagged raw.header with
      | false =>
        rw [hwhole.flags hflagged]
        rfl
      | true => rfl
    unfold reader encode
    rw [List.cons_append, List.append_assoc, List.append_assoc]
    refine run_bind_eq_ok_iff.mpr ⟨raw.header, _, rfl, ?_⟩
    refine run_bind_eq_ok_iff.mpr ⟨raw.compressionFlags, _, hflags, ?_⟩
    refine run_bind_eq_ok_iff.mpr ⟨raw.size, _, run_readU16_encode16 _ _ _, ?_⟩
    exact run_bind_eq_ok_iff.mpr ⟨raw.data, _, run_readExact_append rest hwhole.data, rfl⟩

theorem length_pos_encode (raw : Raw) : 0 < raw.encode.length := Nat.succ_pos _

theorem run_reader_nil : reader.run [] = .error (.error (.io .unexpectedEof)) [] := rfl

theorem exact_reader : Exact encode Whole reader where
  run_eq_ok _ _ _ := run_reader_eq_ok
  length_pos := length_pos_encode
  run_nil := ⟨_, run_reader_nil⟩

end Raw

def raw (update : Update) : Raw where
  header := update.header
  compressionFlags := if compressed update.header then update.compressionFlags else 0
  size := update.size
  data := update.data

theorem toNat_size (update : Update) : update.size.toNat = update.data.length :=
  UInt16.toNat_ofNat_of_lt' update.length_lt

theorem shownBy_node {update : Update} {raw : Raw} :
    update.ShownBy (.component (Message.visitFields raw.node)) ↔
      raw.header = update.header ∧ raw.size = update.size ∧ raw.data = update.data := by
  constructor
  . rintro ⟨_, hfields, hheader, hsize, hdata⟩
    cases hfields
    refine ⟨?_, ?_, ?_⟩
    . exact DataType.u8.inj (Except.ok.inj hheader)
    . exact DataType.u16.inj (Except.ok.inj hsize)
    . exact DataType.slice.inj (Except.ok.inj hdata)
  . rintro ⟨hheader, hsize, hdata⟩
    refine ⟨_, rfl, ?_, ?_, ?_⟩
    . exact congrArg (Except.ok ∘ DataType.u8) hheader
    . exact congrArg (Except.ok ∘ DataType.u16) hsize
    . exact congrArg (Except.ok ∘ DataType.slice) hdata

theorem run_reader_encode {update : Update} (h : compressed update.header = flagged update.header)
    (rest : Bytes) : Raw.reader.run (update.encode ++ rest) = .ok update.raw rest := by
  have hencode : update.encode = update.raw.encode := by
    unfold encode Raw.encode raw
    rw [h]
    cases flagged update.header <;> rfl
  rw [hencode]
  refine Raw.run_reader_eq_ok.mpr ⟨⟨?_, update.toNat_size.symm⟩, rfl⟩
  intro hflagged
  change (if compressed update.header then update.compressionFlags else 0) = 0
  rw [h, show flagged update.header = false from hflagged]
  rfl

open Client (readArray readArray_of_readerFields)

theorem readArray_eq (stream : Bytes) :
    readArray tsFpUpdate stream =
      List.map (fun raw => .component (Message.visitFields raw.node)) <$>
        parse (elements Raw.reader) stream := by
  rw [Raw.tsFpUpdate_eq]
  exact readArray_of_readerFields Raw.readerFields_node stream

theorem readArray_encode {updates : List Update}
    (h : ∀ update ∈ updates, compressed update.header = flagged update.header) :
    readArray tsFpUpdate (updates.flatMap encode) =
      .ok (updates.map fun update => .component (Message.visitFields update.raw.node)) := by
  have hrun : (elements Raw.reader).run (updates.flatMap encode) = .ok (updates.map raw) [] :=
    run_elements_flatMap Raw.exact_reader.consumes (fun update hupdate => run_reader_encode (h update hupdate))
      Raw.run_reader_nil
  rw [readArray_eq, parse, hrun]
  exact congrArg Except.ok List.map_map

/--
An update with this header of which the size is misread if the header is misunderstood.
-/
def probe (header : UInt8) : Update :=
  if compressed header = flagged header then
    ⟨header, 0, [], by decide⟩
  else if flagged header then
    ⟨header, 0, [0, 0], by decide⟩
  else
    ⟨header, 1, [], by decide⟩

theorem header_probe (header : UInt8) : (probe header).header = header := by
  unfold probe
  split <;> [rfl; split <;> rfl]

theorem run_reader_probe {header : UInt8} (h : compressed header ≠ flagged header) (rest : Bytes) :
    ∃ raw rest', Raw.reader.run ((probe header).encode ++ rest) = .ok raw rest' ∧
      raw.size ≠ (probe header).size := by
  -- A header that is misunderstood shifts the size.
  cases hflagged : flagged header with
  | false =>
    have hcompressed : compressed header = true := by
      rw [hflagged] at h
      simpa using h
    have hprobe : probe header = ⟨header, 1, [], by decide⟩ := by simp [probe, hcompressed, hflagged]
    refine ⟨⟨header, 0, 1, [0]⟩, rest, Raw.run_reader_eq_ok.mpr ⟨⟨fun _ => rfl, rfl⟩, ?_⟩, ?_⟩
    . rw [hprobe, encode, if_pos hcompressed, Raw.encode, hflagged]
      change (header :: ([1] ++ (Endian.le.encode16 0 ++ []))) ++ rest =
        header :: ([] ++ (Endian.le.encode16 1 ++ [0])) ++ rest
      rw [show Endian.le.encode16 0 = [0, 0] by decide, show Endian.le.encode16 1 = [1, 0] by decide]
      rfl
    . rw [hprobe]
      exact show (1 : UInt16) ≠ 0 by decide
  | true =>
    have hcompressed : compressed header = false := by
      rw [hflagged] at h
      simpa using h
    have hprobe : probe header = ⟨header, 0, [0, 0], by decide⟩ := by
      simp [probe, hcompressed, hflagged]
    have hflags : flagged header = false → (2 : UInt8) = 0 := by simp [hflagged]
    refine ⟨⟨header, 2, 0, []⟩, 0 :: rest, Raw.run_reader_eq_ok.mpr ⟨⟨hflags, rfl⟩, ?_⟩, ?_⟩
    . rw [hprobe, encode, hcompressed, Raw.encode, hflagged]
      change (header :: ([] ++ (Endian.le.encode16 2 ++ [0, 0]))) ++ rest =
        header :: ([2] ++ (Endian.le.encode16 0 ++ [])) ++ 0 :: rest
      rw [show Endian.le.encode16 0 = [0, 0] by decide, show Endian.le.encode16 2 = [2, 0] by decide]
      rfl
    . rw [hprobe]
      exact show (0 : UInt16) ≠ 2 by decide

theorem agrees_of_run_elements {headers : List UInt8} {raws : List Raw} {rest : Bytes}
    (hrun : (elements Raw.reader).run ((headers.map probe).flatMap encode) = .ok raws rest)
    (hsizes : List.Forall₂ (fun update raw => raw.size = update.size) (headers.map probe) raws) :
    ∀ header ∈ headers, compressed header = flagged header := by
  induction headers generalizing raws with
  | nil => simp
  | cons header headers ih =>
    rw [List.map_cons, List.flatMap_cons] at hrun
    rw [List.map_cons] at hsizes
    by_cases hagree : compressed header = flagged header
    . have hprobe : compressed (probe header).header = flagged (probe header).header := by
        rwa [header_probe]
      have hread := run_reader_encode hprobe ((headers.map probe).flatMap encode)
      rw [run_elements_of_ok Raw.exact_reader.consumes hread] at hrun
      obtain ⟨raws, rest, hrest, hpure⟩ := run_bind_eq_ok hrun
      cases hpure
      cases hsizes with
      | cons _ hsizes =>
        rw [List.forall_mem_cons]
        exact ⟨hagree, ih hrest hsizes⟩
    . obtain ⟨raw, rest', hread, hsize⟩ := run_reader_probe hagree ((headers.map probe).flatMap encode)
      rw [run_elements_of_ok Raw.exact_reader.consumes hread] at hrun
      obtain ⟨raws, rest, hrest, hpure⟩ := run_bind_eq_ok hrun
      cases hpure
      cases hsizes with
      | cons hhead _ => exact absurd hhead hsize

/--
The updates of an array are read back as they were sent.
-/
def ReadBack (updates : List Update) : Prop :=
  ∃ ds, readArray tsFpUpdate (updates.flatMap encode) = .ok ds ∧ List.Forall₂ ShownBy updates ds

theorem agrees_of_readBack (headers : List UInt8) (h : ReadBack (headers.map probe)) :
    ∀ header ∈ headers, compressed header = flagged header := by
  obtain ⟨ds, hds, hshown⟩ := h
  rw [readArray_eq] at hds
  cases hparse : parse (elements Raw.reader) ((headers.map probe).flatMap encode) with
  | error e =>
    rw [hparse] at hds
    cases hds
  | ok raws =>
    obtain ⟨rest, hrun⟩ := parse_eq_ok.mp hparse
    rw [hparse] at hds
    cases hds
    apply agrees_of_run_elements hrun
    rw [List.forall₂_map_right_iff] at hshown
    exact hshown.imp fun _ _ h => (shownBy_node.mp h).2.1

theorem readBack_of_agrees {updates : List Update}
    (h : ∀ update ∈ updates, compressed update.header = flagged update.header) : ReadBack updates := by
  refine ⟨_, readArray_encode h, ?_⟩
  rw [List.forall₂_map_right_iff, List.forall₂_same]
  exact fun update _ => shownBy_node.mpr ⟨rfl, rfl, rfl⟩

/--
The updates with these headers are all read back as they were sent, whatever their flags and their
data are, exactly when the bit that decides about the flags says the same as the one that announces
them.
-/
theorem readBack_headers_iff (headers : List UInt8) :
    (∀ updates, updates.map header = headers → ReadBack updates) ↔
      ∀ header ∈ headers, compressed header = flagged header := by
  constructor
  . intro h
    apply agrees_of_readBack
    apply h
    simp [Function.comp_def, header_probe]
  . rintro hagree updates rfl
    exact readBack_of_agrees fun update hupdate => hagree _ (List.mem_map_of_mem hupdate)

theorem not_readBack_compressed : ¬ ReadBack [⟨0x80, 1, [], by decide⟩] := by
  intro h
  have hagree := agrees_of_readBack [0x80] h 0x80 List.mem_cons_self
  exact absurd hagree (by decide)

end Update

end Rdp.Global
