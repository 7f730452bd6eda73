import Rdp.Core.Gcc.Impl
import Rdp.Lib.Chunks
import Rdp.Model.Data.Lossless

/-!
This module contains the blocks of settings the server sends: which of them are accepted, what they
leave, and where a list of blocks stops.
-/

namespace Rdp.Gcc

open Prog Cursor

/--
The length in the header of a block covers the header and the body.
-/
structure Block where
  type : UInt16
  body : Bytes
  body_lt : body.length + 4 < 2 ^ 16

/--
The body of a network block. The ids may be followed by a pad.
-/
def networkBody (ids : List UInt16) (pad : Bytes) : Bytes :=
  Endian.le.encode16 1003 ++ (Endian.le.encode16 (.ofNat ids.length) ++
    (ids.flatMap Endian.le.encode16 ++ pad))

def Accepted (type : MessageType) (body : Bytes) : Prop :=
  match type with
  | .scCore => 4 ≤ body.length
  | .scSecurity => 8 ≤ body.length
  | .scNet => ∃ ids pad, ids.length < 2 ^ 16 ∧ body = networkBody ids pad
  | _ => True

namespace Block

def messageType (block : Block) : MessageType := .ofU16 block.type

def encode (block : Block) : Bytes :=
  Endian.le.encode16 block.type ++ (Endian.le.encode16 (.ofNat (block.body.length + 4)) ++ block.body)

def WellFormed (block : Block) : Prop := Accepted block.messageType block.body

@[simp]
theorem length_encode (block : Block) : block.encode.length = block.body.length + 4 := by
  simp only [encode, List.length_append, Endian.length_encode16]
  omega

end Block

section Templates

variable {body rest : Bytes}

theorem run_attempt_readU32 (e : Endian) (input : Bytes) :
    ∃ v, (attempt (readU32 e)).run input = .ok v (input.drop 4) := by
  match input with
  | [] | [_] | [_, _] | [_, _, _] => exact ⟨none, rfl⟩
  | a :: b :: c :: d :: rest => exact ⟨some (e.decode32 a b c d), rfl⟩

def coreNode (version : UInt32) (protocol flags : Option UInt32) : Component := [
  ("rdpVersion", .leaf (.u32 .le version)),
  ("clientRequestedProtocol", .option (protocol.map fun v => .leaf (.u32 .le v))),
  ("earlyCapabilityFlags", .option (flags.map fun v => .leaf (.u32 .le v)))
]

theorem reader_serverCoreData : (Message.component serverCoreData).reader = (do
    let version ← readU32 .le
    let protocol ← attempt (readU32 .le)
    let flags ← attempt (readU32 .le)
    return .component (coreNode version protocol flags)) := by
  simp [serverCoreData, coreNode]

def securityNode (method level : UInt32) : Component := [
  ("encryptionMethod", .leaf (.u32 .le method)),
  ("encryptionLevel", .leaf (.u32 .le level))
]

theorem reader_serverSecurityData : (Message.component serverSecurityData).reader = (do
    let method ← readU32 .le
    let level ← readU32 .le
    return .component (securityNode method level)) := by
  simp [serverSecurityData, securityNode]

def channelCountOption (node : DataType) : RdpResult MessageOption :=
  match node with
  | .u16 count => .ok (.size "channelIdArray" (count.toNat * 2))
  | _ => .ok .none

def networkNode (count : UInt16) (ids : List UInt16) : Component := [
  ("MCSChannelId", .check (.u16 .le 1003)),
  ("channelCount", .dynOption (.leaf (.u16 .le count)) channelCountOption),
  ("channelIdArray", .array (ids.map fun id => .leaf (.u16 .le id)) (some (.leaf (.u16 .le 0))))
]

theorem serverNetworkData_eq : serverNetworkData = networkNode 0 [] := rfl

theorem reader_serverNetworkData : (Message.component serverNetworkData).reader = (do
    let id ← readU16 .le
    expect (1003 = id)
    let count ← readU16 .le
    let ids ← limited (count.toNat * 2) (elements (readU16 .le))
    return .component [("MCSChannelId", .check (.u16 .le id)),
      ("channelCount", .dynOption (.leaf (.u16 .le count)) channelCountOption),
      ("channelIdArray",
        .array (ids.map fun id => .leaf (.u16 .le id)) (some (.leaf (.u16 .le 0))))]) := by
  rw [serverNetworkData_eq, networkNode]
  simp [channelCountOption, Message.visit, Leaf.visit]

end Templates

section ReadBlock

variable {type : MessageType} {body : Bytes}

def template (type : MessageType) : Option Component :=
  match type with
  | .scCore => some serverCoreData
  | .scSecurity => some serverSecurityData
  | .scNet => some serverNetworkData
  | _ => none

theorem readBlock_of_none (h : template type = none) (body : Bytes) :
    readBlock type body = .ok none := by
  cases type <;> first
    | rfl
    | cases h

theorem readBlock_of_some {fields : Component} (h : template type = some fields) (body : Bytes) :
    readBlock type body =
      match (Message.component fields).reader.run body with
      | .ok block _ => .ok (some block.visit)
      | .error e _ => .error e := by
  cases type <;> cases h <;> rfl

theorem readBlock_of_run {fields : Component} {block : Message} {rest : Bytes}
    (h : template type = some fields)
    (hrun : (Message.component fields).reader.run body = .ok block rest) :
    readBlock type body = .ok (some block.visit) := by
  rw [readBlock_of_some h, hrun]

theorem run_serverCoreData (version : UInt32) (rest : Bytes) :
    ∃ protocol flags rest', (Message.component serverCoreData).reader.run
      (Endian.le.encode32 version ++ rest) = .ok (.component (coreNode version protocol flags)) rest' := by
  obtain ⟨protocol, hprotocol⟩ := run_attempt_readU32 .le rest
  obtain ⟨flags, hflags⟩ := run_attempt_readU32 .le (rest.drop 4)
  refine ⟨protocol, flags, (rest.drop 4).drop 4, ?_⟩
  rw [reader_serverCoreData]
  apply run_bind_eq_ok_iff.mpr ⟨version, rest, run_readU32_encode32 _ _ _, ?_⟩
  apply run_bind_eq_ok_iff.mpr ⟨protocol, _, hprotocol, ?_⟩
  exact run_bind_eq_ok_iff.mpr ⟨flags, _, hflags, rfl⟩

theorem run_serverSecurityData (method level : UInt32) (rest : Bytes) :
    (Message.component serverSecurityData).reader.run
      (Endian.le.encode32 method ++ (Endian.le.encode32 level ++ rest)) =
        .ok (.component (securityNode method level)) rest := by
  rw [reader_serverSecurityData]
  apply run_bind_eq_ok_iff.mpr ⟨method, _, run_readU32_encode32 _ _ _, ?_⟩
  exact run_bind_eq_ok_iff.mpr ⟨level, rest, run_readU32_encode32 _ _ _, rfl⟩

theorem exists_flatMap_encode16 (n : Nat) (bytes : Bytes) (h : bytes.length = n * 2) :
    ∃ ids : List UInt16, bytes = ids.flatMap Endian.le.encode16 ∧ ids.length = n := by
  induction n generalizing bytes with
  | zero =>
    rw [Nat.zero_mul, List.length_eq_zero_iff] at h
    exact ⟨[], h, rfl⟩
  | succ n ih =>
    obtain ⟨id, rest, rfl, hrest⟩ := exists_encode16 bytes (by omega)
    obtain ⟨ids, rfl, rfl⟩ := ih rest (by omega)
    exact ⟨id :: ids, rfl, rfl⟩

theorem run_serverNetworkData {ids : List UInt16} (hids : ids.length < 2 ^ 16) (pad : Bytes) :
    (Message.component serverNetworkData).reader.run (networkBody ids pad) =
      .ok (.component (networkNode (.ofNat ids.length) ids)) pad := by
  have hcount : (UInt16.ofNat ids.length).toNat = ids.length := by
    rw [UInt16.toNat_ofNat', Nat.mod_eq_of_lt hids]
  have helements : (elements (readU16 .le)).run (ids.flatMap Endian.le.encode16) = .ok ids [] :=
    (exact_readU16 .le).run_elements fun _ _ => trivial
  have hlimited : (limited (ids.length * 2) (elements (readU16 .le))).run
      (ids.flatMap Endian.le.encode16 ++ pad) = .ok ids pad := by
    apply run_limited_append pad ?_ helements
    exact Chunks.length_flatMap (Endian.length_encode16 .le) ids
  rw [reader_serverNetworkData, networkBody]
  refine run_bind_eq_ok_iff.mpr ⟨1003, _, run_readU16_encode16 _ _ _, ?_⟩
  refine run_bind_eq_ok_iff.mpr ⟨(), _, run_expect_eq_ok.mpr ⟨rfl, rfl⟩, ?_⟩
  refine run_bind_eq_ok_iff.mpr ⟨.ofNat ids.length, _, run_readU16_encode16 _ _ _, ?_⟩
  rw [hcount]
  exact run_bind_eq_ok_iff.mpr ⟨ids, pad, hlimited, rfl⟩

theorem exists_run_serverCoreData :
    (∃ node rest, (Message.component serverCoreData).reader.run body = .ok node rest) ↔
      4 ≤ body.length := by
  constructor
  . rintro ⟨node, rest, hrun⟩
    rw [reader_serverCoreData] at hrun
    obtain ⟨version, rest', hversion, _⟩ := run_bind_eq_ok hrun
    rw [run_readU32_iff_encode32.mp hversion, List.length_append, Endian.length_encode32]
    apply Nat.le_add_right
  . intro h
    obtain ⟨version, rest, rfl, _⟩ := exists_encode32 body h
    obtain ⟨protocol, flags, rest', hrun⟩ := run_serverCoreData version rest
    exact ⟨_, _, hrun⟩

theorem exists_run_serverSecurityData :
    (∃ node rest, (Message.component serverSecurityData).reader.run body = .ok node rest) ↔
      8 ≤ body.length := by
  constructor
  . rintro ⟨node, rest, hrun⟩
    rw [reader_serverSecurityData] at hrun
    obtain ⟨method, rest', hmethod, hrun⟩ := run_bind_eq_ok hrun
    obtain ⟨level, rest'', hlevel, _⟩ := run_bind_eq_ok hrun
    rw [run_readU32_iff_encode32.mp hmethod, run_readU32_iff_encode32.mp hlevel]
    simp only [List.length_append, Endian.length_encode32]
    omega
  . intro h
    obtain ⟨method, rest, rfl, hrest⟩ := exists_encode32 body (by omega)
    obtain ⟨level, rest', rfl, _⟩ := exists_encode32 rest (by omega)
    exact ⟨_, _, run_serverSecurityData method level rest'⟩

theorem exists_run_serverNetworkData :
    (∃ node rest, (Message.component serverNetworkData).reader.run body = .ok node rest) ↔
      ∃ ids pad, ids.length < 2 ^ 16 ∧ body = networkBody ids pad := by
  constructor
  . rintro ⟨node, rest, h⟩
    rw [reader_serverNetworkData] at h
    obtain ⟨id, _, hid, h⟩ := run_bind_eq_ok h
    obtain ⟨_, _, hexpect, h⟩ := run_bind_eq_ok h
    obtain ⟨count, _, hcount, h⟩ := run_bind_eq_ok h
    obtain ⟨ids, pad, hids, _⟩ := run_bind_eq_ok h
    obtain ⟨hsame, rfl⟩ := run_expect_eq_ok.mp hexpect
    obtain ⟨array, rest', rfl, harray, helements⟩ := run_limited_eq_ok hids
    obtain ⟨ids', rfl, hlength⟩ := exists_flatMap_encode16 count.toNat array harray
    have hlt := count.toNat_lt
    refine ⟨ids', pad, by omega, ?_⟩
    rw [run_readU16_iff_encode16.mp hid, run_readU16_iff_encode16.mp hcount, networkBody, hlength,
      ← of_decide_eq_true hsame, UInt16.ofNat_toNat]
  . rintro ⟨ids, pad, hids, rfl⟩
    exact ⟨_, _, run_serverNetworkData hids pad⟩

theorem total_template {fields : Component} (h : template type = some fields) :
    Returns (Message.component fields).reader := by
  cases type <;> cases h
  . exact (Message.total_component (by simp [serverCoreData])).1
  . exact (Message.total_component (by simp [serverSecurityData])).1
  . rw [reader_serverNetworkData]
    apply (returns_readU16 .le).bind
    intro id
    apply (returns_expect _).bind
    intro _
    apply (returns_readU16 .le).bind
    intro count
    apply (returns_limited _ ?_).bind_pure
    exact returns_elements (exact_readU16 .le).consumes (returns_readU16 .le)

theorem not_aborts_readBlock : ¬ (readBlock type body).Aborts := by
  cases htemplate : template type with
  | none =>
    rw [readBlock_of_none htemplate]
    exact Except.not_aborts_ok _
  | some fields =>
    rw [readBlock_of_some htemplate]
    rcases cases_of_not_aborts (total_template htemplate body) with ⟨block, rest, hrun⟩ | ⟨e, rest, hrun⟩
    . rw [hrun]
      exact Except.not_aborts_ok _
    . rw [hrun]
      simp

theorem readBlock_accepted : (∃ d, readBlock type body = .ok d) ↔ Accepted type body := by
  cases htemplate : template type with
  | none =>
    rw [readBlock_of_none htemplate]
    cases type <;> cases htemplate
    all_goals exact ⟨fun _ => trivial, fun _ => ⟨none, rfl⟩⟩
  | some fields =>
    have hiff : (∃ d, readBlock type body = .ok d) ↔
        ∃ node rest, (Message.component fields).reader.run body = .ok node rest := by
      rw [readBlock_of_some htemplate]
      cases (Message.component fields).reader.run body <;> simp
    rw [hiff]
    cases type <;> cases htemplate
    . exact exists_run_serverCoreData
    . exact exists_run_serverSecurityData
    . exact exists_run_serverNetworkData

end ReadBlock

section ReadBlocks

variable {input rest : Bytes} {result : List (MessageType × DataType)}

def readBody (fuel : Nat) (result : List (MessageType × DataType)) (type length : UInt16) :
    Reader (List (MessageType × DataType)) := do
  let size ← Prog.lift (checkedSub length.toNat 4)
  let buffer ← readExact size
  match ← Prog.lift (readBlock (.ofU16 type) buffer) with
  | none => readBlocks fuel result
  | some block => readBlocks fuel ((.ofU16 type, block) :: result)

theorem run_readBlocks_short (h : input.length < 4) (fuel : Nat) :
    (readBlocks (fuel + 1) result).run input = .ok result [] := by
  match input with
  | [] | [_] | [_, _] | [_, _, _] => rfl
  | _ :: _ :: _ :: _ :: _ =>
    simp only [List.length_cons] at h
    omega

theorem run_readBlocks_cons (fuel : Nat) (a b c d : UInt8) :
    (readBlocks (fuel + 1) result).run (a :: b :: c :: d :: rest) =
      (readBody fuel result (le16 a b) (le16 c d)).run rest := rfl

theorem run_readBlocks_header (fuel : Nat) (type length : UInt16) :
    (readBlocks (fuel + 1) result).run
        (Endian.le.encode16 type ++ (Endian.le.encode16 length ++ rest)) =
      (readBody fuel result type length).run rest := by
  have htype : le16 (.ofNat type.toNat) (.ofNat (type.toNat / 256)) = type := le16_bytes type
  have hlength : le16 (.ofNat length.toNat) (.ofNat (length.toNat / 256)) = length := le16_bytes length
  change (readBlocks (fuel + 1) result).run (_ :: _ :: _ :: _ :: rest) = _
  rw [run_readBlocks_cons, htype, hlength]

def insert (result : List (MessageType × DataType)) (block : Block) : List (MessageType × DataType) :=
  match readBlock block.messageType block.body with
  | .ok (some d) => (block.messageType, d) :: result
  | _ => result

theorem toNat_length (block : Block) :
    (UInt16.ofNat (block.body.length + 4)).toNat = block.body.length + 4 := by
  rw [UInt16.toNat_ofNat', Nat.mod_eq_of_lt block.body_lt]

theorem run_readBody (block : Block) (fuel : Nat) :
    (readBody fuel result block.type (.ofNat (block.body.length + 4))).run (block.body ++ rest) =
      match readBlock block.messageType block.body with
      | .ok none => (readBlocks fuel result).run rest
      | .ok (some d) => (readBlocks fuel ((block.messageType, d) :: result)).run rest
      | .error e => .error e rest := by
  unfold readBody
  rw [toNat_length, checkedSub_of_le (Nat.le_add_left _ _), lift_ok, pure_bind,
    Nat.add_sub_cancel, EStateM.run_bind, run_readExact_append rest rfl]
  change EStateM.run (Prog.lift (readBlock block.messageType block.body) >>= _) rest = _
  cases readBlock block.messageType block.body with
  | ok d => cases d <;> rfl
  | error e => rfl

theorem run_readBlocks_block {block : Block} (h : block.WellFormed) (fuel : Nat) :
    (readBlocks (fuel + 1) result).run (block.encode ++ rest) =
      (readBlocks fuel (insert result block)).run rest := by
  obtain ⟨d, hd⟩ := readBlock_accepted.mpr h
  simp only [Block.encode, List.append_assoc]
  rw [run_readBlocks_header, run_readBody, insert, hd]
  cases d <;> rfl

theorem run_readBlocks_append {blocks : List Block} (h : ∀ block ∈ blocks, block.WellFormed)
    (fuel : Nat) :
    (readBlocks (blocks.length + fuel) result).run (blocks.flatMap Block.encode ++ rest) =
      (readBlocks fuel (blocks.foldl insert result)).run rest := by
  induction blocks generalizing result with
  | nil => rw [List.length_nil, Nat.zero_add, List.flatMap_nil, List.nil_append, List.foldl_nil]
  | cons block blocks ih =>
    rw [List.forall_mem_cons] at h
    rw [List.length_cons, Nat.add_right_comm, List.flatMap_cons, List.append_assoc,
      run_readBlocks_block h.1, ih h.2, List.foldl_cons]

def Underflows (tail : Bytes) : Prop :=
  ∃ (type length : UInt16) (rest : Bytes),
    tail = Endian.le.encode16 type ++ (Endian.le.encode16 length ++ rest) ∧ length.toNat < 4

/--
The bytes at which the list of the blocks ends: no header, or one that is not followed by a block.
-/
inductive Stops : Bytes → Prop where
  | short {tail : Bytes} (h : tail.length < 4) : Stops tail
  | underflow {tail : Bytes} (h : Underflows tail) : Stops tail
  | truncated (type : UInt16) {length : UInt16} {rest : Bytes} (h : 4 ≤ length.toNat)
    (hrest : rest.length + 4 < length.toNat) :
    Stops (Endian.le.encode16 type ++ (Endian.le.encode16 length ++ rest))
  | malformed {block : Block} (h : ¬ block.WellFormed) (rest : Bytes) : Stops (block.encode ++ rest)

theorem stops_or_block (input : Bytes) :
    Stops input ∨ ∃ (block : Block) (rest : Bytes), block.WellFormed ∧
      input = block.encode ++ rest := by
  by_cases hshort : input.length < 4
  . exact .inl (.short hshort)
  . obtain ⟨type, tail, rfl, htail⟩ := exists_encode16 input (by omega)
    obtain ⟨length, rest, rfl, _⟩ := exists_encode16 tail (by omega)
    by_cases hlength : length.toNat < 4
    . exact .inl (.underflow ⟨type, length, rest, rfl, hlength⟩)
    . by_cases hrest : rest.length + 4 < length.toNat
      . exact .inl (.truncated type (by omega) hrest)
      . have hlt := length.toNat_lt
        have hbody : (rest.take (length.toNat - 4)).length = length.toNat - 4 :=
          List.length_take_of_le (by omega)
        have hsum : (rest.take (length.toNat - 4)).length + 4 = length.toNat := by omega
        let block : Block := ⟨type, rest.take (length.toNat - 4), by omega⟩
        have hencode : Endian.le.encode16 type ++ (Endian.le.encode16 length ++ rest) =
            block.encode ++ rest.drop (length.toNat - 4) := by
          simp only [Block.encode, block, hsum, UInt16.ofNat_toNat, List.append_assoc,
            List.take_append_drop]
        rw [hencode]
        by_cases hblock : block.WellFormed
        . exact .inr ⟨block, _, hblock, rfl⟩
        . exact .inl (.malformed hblock _)

theorem exists_blocks (input : Bytes) :
    ∃ (blocks : List Block) (tail : Bytes), (∀ block ∈ blocks, block.WellFormed) ∧
      input = blocks.flatMap Block.encode ++ tail ∧ Stops tail := by
  induction hn : input.length using Nat.strongRecOn generalizing input with
  | ind n ih =>
    rcases stops_or_block input with hstops | ⟨block, rest, hblock, rfl⟩
    . exact ⟨[], input, by simp, rfl, hstops⟩
    . rw [List.length_append, Block.length_encode] at hn
      obtain ⟨blocks, tail, hblocks, rfl, htail⟩ := ih rest.length (by omega) rest rfl
      refine ⟨block :: blocks, tail, List.forall_mem_cons.mpr ⟨hblock, hblocks⟩, ?_, htail⟩
      rw [List.flatMap_cons, List.append_assoc]

theorem aborts_of_underflows {tail : Bytes} (h : Underflows tail) (fuel : Nat) :
    (readBlocks (fuel + 1) result).Aborts tail := by
  obtain ⟨type, length, rest, rfl, hlength⟩ := h
  refine ⟨.panic "attempt to subtract with overflow", rest, ?_, Fault.not_isError_panic _⟩
  rw [run_readBlocks_header, readBody, checkedSub_of_lt hlength]
  rfl

theorem run_of_truncated (type : UInt16) {length : UInt16} (h : 4 ≤ length.toNat)
    (hrest : rest.length + 4 < length.toNat) (fuel : Nat) :
    ∃ e rest', (readBlocks (fuel + 1) result).run
      (Endian.le.encode16 type ++ (Endian.le.encode16 length ++ rest)) = .error (.error e) rest' := by
  refine ⟨.io .unexpectedEof, [], ?_⟩
  have hshort : ¬ length.toNat - 4 ≤ rest.length := by omega
  rw [run_readBlocks_header, readBody, checkedSub_of_le h, lift_ok, pure_bind, EStateM.run_bind,
    run_readExact, if_neg hshort]

theorem run_of_malformed {block : Block} (h : ¬ block.WellFormed) (fuel : Nat) :
    ∃ e rest', (readBlocks (fuel + 1) result).run (block.encode ++ rest) = .error (.error e) rest' := by
  have hnot : ¬ (readBlock block.messageType block.body).Aborts := not_aborts_readBlock
  have hread : ∃ e, readBlock block.messageType block.body = .error (.error e) := by
    rcases Except.cases_of_not_aborts hnot with hok | herror
    . exact absurd (readBlock_accepted.mp hok) h
    . exact herror
  obtain ⟨e, he⟩ := hread
  refine ⟨e, rest, ?_⟩
  simp only [Block.encode, List.append_assoc]
  rw [run_readBlocks_header, run_readBody, he]

theorem exists_fuel (blocks : List Block) (tail : Bytes) :
    ∃ fuel, (blocks.flatMap Block.encode ++ tail).length + 1 = blocks.length + (fuel + 1) := by
  -- The fuel of the loop, which every block uses once, is left for what follows the blocks.
  have hle : blocks.length ≤ (blocks.flatMap Block.encode).length := by
    induction blocks with
    | nil => exact Nat.le_refl _
    | cons block blocks ih =>
      rw [List.flatMap_cons, List.length_append, Block.length_encode, List.length_cons]
      omega
  rw [List.length_append]
  exact ⟨(blocks.flatMap Block.encode).length + tail.length - blocks.length, by omega⟩

def readAll : Reader (List (MessageType × DataType)) := do readBlocks ((← get).length + 1) []

theorem readAll_eq (input : Bytes) : readAll.run input = (readBlocks (input.length + 1) []).run input := rfl

theorem run_readAll {blocks : List Block} (h : ∀ block ∈ blocks, block.WellFormed) (tail : Bytes) :
    ∃ fuel, readAll.run (blocks.flatMap Block.encode ++ tail) =
      (readBlocks (fuel + 1) (blocks.foldl insert [])).run tail := by
  obtain ⟨fuel, hfuel⟩ := exists_fuel blocks tail
  refine ⟨fuel, ?_⟩
  rw [readAll_eq, hfuel, run_readBlocks_append h]

theorem run_readAll_eq_ok :
    readAll.run input = .ok result rest ↔
      ∃ (blocks : List Block) (tail : Bytes), (∀ block ∈ blocks, block.WellFormed) ∧
        input = blocks.flatMap Block.encode ++ tail ∧ tail.length < 4 ∧
        result = blocks.foldl insert [] ∧ rest = [] := by
  constructor
  . intro h
    obtain ⟨blocks, tail, hblocks, rfl, hstops⟩ := exists_blocks input
    obtain ⟨fuel, hfuel⟩ := run_readAll hblocks tail
    rw [hfuel] at h
    cases hstops with
    | short hshort =>
      rw [run_readBlocks_short hshort] at h
      cases h
      exact ⟨blocks, tail, hblocks, rfl, hshort, rfl, rfl⟩
    | underflow hunderflow =>
      exact absurd (aborts_of_underflows hunderflow fuel) (not_aborts_of_run_ok h)
    | truncated type hle hrest =>
      obtain ⟨e, rest', herror⟩ := run_of_truncated type hle hrest fuel
      cases h.symm.trans herror
    | malformed hblock rest =>
      obtain ⟨e, rest', herror⟩ := run_of_malformed hblock fuel
      cases h.symm.trans herror
  . rintro ⟨blocks, tail, hblocks, rfl, hshort, rfl, rfl⟩
    obtain ⟨fuel, hfuel⟩ := run_readAll hblocks tail
    rw [hfuel, run_readBlocks_short hshort]

theorem aborts_readAll :
    readAll.Aborts input ↔
      ∃ (blocks : List Block) (tail : Bytes), (∀ block ∈ blocks, block.WellFormed) ∧
        input = blocks.flatMap Block.encode ++ tail ∧ Underflows tail := by
  constructor
  . intro h
    obtain ⟨blocks, tail, hblocks, rfl, hstops⟩ := exists_blocks input
    obtain ⟨fuel, hfuel⟩ := run_readAll hblocks tail
    unfold Aborts at h
    rw [hfuel] at h
    cases hstops with
    | short hshort => exact absurd h (not_aborts_of_run_ok (run_readBlocks_short hshort fuel))
    | underflow hunderflow => exact ⟨blocks, tail, hblocks, rfl, hunderflow⟩
    | truncated type hle hrest =>
      obtain ⟨e, rest', herror⟩ := run_of_truncated type hle hrest fuel
      exact absurd (Fault.isError_error e) ((aborts_of_run_error herror).mp h)
    | malformed hblock rest =>
      obtain ⟨e, rest', herror⟩ := run_of_malformed hblock fuel
      exact absurd (Fault.isError_error e) ((aborts_of_run_error herror).mp h)
  . rintro ⟨blocks, tail, hblocks, rfl, hunderflow⟩
    obtain ⟨fuel, hfuel⟩ := run_readAll hblocks tail
    unfold Aborts
    rw [hfuel]
    exact aborts_of_underflows hunderflow fuel

end ReadBlocks

def IsLast (type : MessageType) (block : Block) (blocks : List Block) : Prop :=
  block.messageType = type ∧
    ∃ before behind, blocks = before ++ block :: behind ∧ ∀ b ∈ behind, b.messageType ≠ type

def LastVersion (blocks : List Block) (version : UInt32) : Prop :=
  ∃ block rest, IsLast .scCore block blocks ∧ block.body = Endian.le.encode32 version ++ rest

def LastIds (blocks : List Block) (ids : List UInt16) : Prop :=
  ∃ block pad, IsLast .scNet block blocks ∧ block.body = networkBody ids pad

section ServerData

variable {type : MessageType} {blocks : List Block} {result : List (MessageType × DataType)}

theorem exists_isLast (h : ∃ block ∈ blocks, block.messageType = type) :
    ∃ block, IsLast type block blocks := by
  induction blocks with
  | nil =>
    obtain ⟨block, hmem, _⟩ := h
    cases hmem
  | cons b blocks ih =>
    by_cases hlater : ∃ block ∈ blocks, block.messageType = type
    . obtain ⟨block, htype, before, behind, rfl, hbehind⟩ := ih hlater
      exact ⟨block, htype, b :: before, behind, rfl, hbehind⟩
    . rw [List.exists_mem_cons_iff] at h
      refine ⟨b, h.resolve_right hlater, [], blocks, rfl, ?_⟩
      intro block hmem htype
      exact hlater ⟨block, hmem, htype⟩

theorem IsLast.mem {block : Block} (h : IsLast type block blocks) : block ∈ blocks := by
  obtain ⟨_, before, behind, rfl, _⟩ := h
  simp

theorem LastVersion.exists_mem {version : UInt32} (h : LastVersion blocks version) :
    ∃ block ∈ blocks, block.messageType = .scCore := by
  obtain ⟨block, _, hlast, _⟩ := h
  exact ⟨block, hlast.mem, hlast.1⟩

theorem LastIds.exists_mem {ids : List UInt16} (h : LastIds blocks ids) :
    ∃ block ∈ blocks, block.messageType = .scNet := by
  obtain ⟨block, _, hlast, _⟩ := h
  exact ⟨block, hlast.mem, hlast.1⟩

theorem lookup_insert_of_ne {block : Block} (h : block.messageType ≠ type) :
    (insert result block).lookup type = result.lookup type := by
  unfold insert
  split
  . rw [List.lookup_cons, beq_eq_false_iff_ne.mpr h.symm]
  . rfl

theorem lookup_foldl_of_forall_ne (h : ∀ block ∈ blocks, block.messageType ≠ type) :
    (blocks.foldl insert result).lookup type = result.lookup type := by
  induction blocks generalizing result with
  | nil => rfl
  | cons block blocks ih =>
    rw [List.forall_mem_cons] at h
    rw [List.foldl_cons, ih h.2, lookup_insert_of_ne h.1]

theorem lookup_of_isLast {block : Block} (h : IsLast type block blocks) {d : DataType}
    (hread : readBlock type block.body = .ok (some d)) :
    (blocks.foldl insert result).lookup type = some d := by
  obtain ⟨rfl, before, behind, rfl, hbehind⟩ := h
  rw [List.foldl_append, List.foldl_cons, lookup_foldl_of_forall_ne hbehind, insert, hread]
  exact List.lookup_cons_self

theorem blockField_of_forall_ne (h : ∀ block ∈ blocks, block.messageType ≠ type) (name : String) :
    blockField (blocks.foldl insert []) type name = .error (.panic "HashMap: key not found") := by
  rw [blockField, lookup_foldl_of_forall_ne h]
  rfl

theorem blockField_version {version : UInt32} (h : LastVersion blocks version) :
    blockField (blocks.foldl insert []) .scCore "rdpVersion" = .ok (.u32 version) := by
  obtain ⟨block, rest, hlast, hbody⟩ := h
  obtain ⟨protocol, flags, rest', hrun⟩ := run_serverCoreData version rest
  rw [← hbody] at hrun
  rw [blockField, lookup_of_isLast hlast (readBlock_of_run rfl hrun)]
  rfl

theorem mapM_unwrap_castU16 (ids : List UInt16) :
    (Message.visitTrame (ids.map fun id => .leaf (.u16 .le id))).mapM
      (fun x => unwrap (castU16 x)) = (.ok ids : RdpResult (List UInt16)) := by
  induction ids with
  | nil => rfl
  | cons id ids ih =>
    rw [List.map_cons, Message.visitTrame, List.mapM_cons, ih]
    rfl

theorem blockField_ids {ids : List UInt16} (h : LastIds blocks ids) :
    blockField (blocks.foldl insert []) .scNet "channelIdArray" =
      .ok (.trame (Message.visitTrame (ids.map fun id => .leaf (.u16 .le id)))) := by
  obtain ⟨block, pad, hlast, hbody⟩ := h
  have hlt := block.body_lt
  have hids : ids.length < 2 ^ 16 := by
    rw [hbody] at hlt
    simp only [networkBody, List.length_append, Endian.length_encode16,
      Chunks.length_flatMap (Endian.length_encode16 .le)] at hlt
    omega
  have hrun := run_serverNetworkData hids pad
  rw [← hbody] at hrun
  rw [blockField, lookup_of_isLast hlast (readBlock_of_run rfl hrun)]
  rfl

theorem serverData_eq_ok {ids : List UInt16} {version : UInt32} (hids : LastIds blocks ids)
    (hversion : LastVersion blocks version) :
    serverData (blocks.foldl insert []) = .ok ⟨ids, .ofU32 version⟩ := by
  rw [serverData, blockField_ids hids, Except.ok_bind, castTrame, Except.ok_bind,
    mapM_unwrap_castU16, Except.ok_bind, blockField_version hversion]
  rfl

theorem exists_lastVersion (hblocks : ∀ block ∈ blocks, block.WellFormed)
    (h : ∃ block ∈ blocks, block.messageType = .scCore) : ∃ version, LastVersion blocks version := by
  obtain ⟨block, hlast⟩ := exists_isLast h
  have haccepted := hblocks block hlast.mem
  rw [Block.WellFormed, hlast.1] at haccepted
  obtain ⟨version, rest, hbody, _⟩ := exists_encode32 block.body haccepted
  exact ⟨version, block, rest, hlast, hbody⟩

theorem exists_lastIds (hblocks : ∀ block ∈ blocks, block.WellFormed)
    (h : ∃ block ∈ blocks, block.messageType = .scNet) : ∃ ids, LastIds blocks ids := by
  obtain ⟨block, hlast⟩ := exists_isLast h
  have haccepted := hblocks block hlast.mem
  rw [Block.WellFormed, hlast.1] at haccepted
  obtain ⟨ids, pad, _, hbody⟩ := haccepted
  exact ⟨ids, block, pad, hlast, hbody⟩

theorem aborts_serverData (hblocks : ∀ block ∈ blocks, block.WellFormed) :
    (serverData (blocks.foldl insert [])).Aborts ↔
      ¬ ((∃ block ∈ blocks, block.messageType = .scCore) ∧
        ∃ block ∈ blocks, block.messageType = .scNet) := by
  by_cases hnet : ∃ block ∈ blocks, block.messageType = .scNet
  . obtain ⟨ids, hids⟩ := exists_lastIds hblocks hnet
    by_cases hcore : ∃ block ∈ blocks, block.messageType = .scCore
    . obtain ⟨version, hversion⟩ := exists_lastVersion hblocks hcore
      rw [serverData_eq_ok hids hversion]
      simp [hnet, hcore]
    . have hmissing : ∀ block ∈ blocks, block.messageType ≠ .scCore := fun block hmem htype =>
        hcore ⟨block, hmem, htype⟩
      rw [serverData, blockField_ids hids, Except.ok_bind, castTrame, Except.ok_bind,
        mapM_unwrap_castU16, Except.ok_bind, blockField_of_forall_ne hmissing]
      refine ⟨fun _ h => hcore h.1, fun _ => ?_⟩
      exact ⟨_, rfl, Fault.not_isError_panic _⟩
  . have hmissing : ∀ block ∈ blocks, block.messageType ≠ .scNet := fun block hmem htype =>
      hnet ⟨block, hmem, htype⟩
    rw [serverData, blockField_of_forall_ne hmissing]
    refine ⟨fun _ h => hnet h.2, fun _ => ?_⟩
    exact ⟨_, rfl, Fault.not_isError_panic _⟩

end ServerData

end Rdp.Gcc
