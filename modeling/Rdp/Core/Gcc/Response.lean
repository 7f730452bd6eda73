import Rdp.Core.Gcc.Blocks
import Rdp.Core.Per.Read

/-!
This module contains the response of the server to a conference create request: what is decoded of
it, and for which responses the client aborts or accepts too much.
-/

namespace Rdp.Gcc

open Prog Cursor
open Per (LengthCode IntegerCode)

structure ConnectHeader where
  choice : UInt8
  oidLength : Bytes
  oid : Bytes
  connectLength : Bytes
  connectChoice : UInt8
  isOidLength : LengthCode 5 oidLength
  oid_length : oid.length = 5
  isConnectLength : ∃ n, LengthCode n connectLength

def ConnectHeader.encode (header : ConnectHeader) : Bytes :=
  header.choice :: (header.oidLength ++ (header.oid ++ (header.connectLength ++ [header.connectChoice])))

/--
The whole header, where the id of the node stands without its minimum.
-/
structure ResponseHeader extends ConnectHeader where
  nodeId : UInt16
  tag : Bytes
  result : UInt8
  numberOfSet : UInt8
  keyChoice : UInt8
  keyLength : Bytes
  nodeId_le : nodeId.toNat ≤ 64534
  isTag : ∃ v, IntegerCode v tag
  isKeyLength : LengthCode 0 keyLength

def ResponseHeader.encode (header : ResponseHeader) : Bytes :=
  header.toConnectHeader.encode ++ (Endian.be.encode16 header.nodeId ++ (header.tag ++
    (header.result :: header.numberOfSet :: header.keyChoice :: (header.keyLength ++ h221ScKey))))

section Readers

variable {input rest : Bytes} {u : Unit}

def readConnectHeader : Reader Unit := do
  let _ ← Per.readChoice
  let _ ← Per.readObjectIdentifier t1240298Oid
  let _ ← Per.readLength
  let _ ← Per.readChoice

def readKey : Reader Unit := do
  let _ ← Per.readInteger
  let _ ← Per.readEnumerates
  let _ ← Per.readNumberOfSet
  let _ ← Per.readChoice
  Per.readOctetStream h221ScKey 4

def readUserData : Reader ServerData := do
  let length ← Per.readLength
  let result ← taking length.toNat readAll
  Prog.lift (serverData result)

def readHeader : Reader Unit := do
  readConnectHeader
  let _ ← Per.readInteger16 1001
  readKey

theorem readConferenceCreateResponse_eq :
    readConferenceCreateResponse = (do readHeader; readUserData) := by
  unfold readConferenceCreateResponse readHeader readConnectHeader readKey readUserData readAll
  simp only [bind_assoc, pure_bind]

theorem run_readConnectHeader_iff :
    readConnectHeader.run input = .ok u rest ↔
      ∃ header : ConnectHeader, input = header.encode ++ rest := by
  constructor
  . intro h
    obtain ⟨choice, _, hchoice, h⟩ := run_bind_eq_ok h
    obtain ⟨same, _, hoid, h⟩ := run_bind_eq_ok h
    obtain ⟨length, _, hlength, h⟩ := run_bind_eq_ok h
    obtain ⟨connectChoice, _, hconnect, h⟩ := run_bind_eq_ok h
    cases h
    obtain ⟨_, size, a, b, c, d, e, hsize, rfl, _⟩ := Per.run_readObjectIdentifier_iff.mp hoid
    obtain ⟨connectLength, hcode, rfl⟩ := Per.run_readLength_iff.mp hlength
    refine ⟨⟨choice, size, [a, b, c, d, e], connectLength, connectChoice, hsize, rfl, _, hcode⟩, ?_⟩
    rw [run_readU8_eq_ok.mp hchoice, run_readU8_eq_ok.mp hconnect]
    simp [ConnectHeader.encode]
  . rintro ⟨⟨choice, size, oid, connectLength, connectChoice, hsize, hoid, n, hcode⟩, rfl⟩
    match oid, hoid with
    | [a, b, c, d, e], _ =>
      simp only [ConnectHeader.encode, List.cons_append, List.append_assoc, List.nil_append]
      apply run_bind_eq_ok_iff.mpr ⟨choice, _, rfl, ?_⟩
      apply run_bind_eq_ok_iff.mpr ⟨_, _, Per.run_readObjectIdentifier_iff.mpr
        ⟨rfl, size, a, b, c, d, e, hsize, rfl, rfl⟩, ?_⟩
      apply run_bind_eq_ok_iff.mpr ⟨_, _, hcode.run_readLength _, ?_⟩
      exact run_bind_eq_ok_iff.mpr ⟨connectChoice, rest, rfl, rfl⟩

theorem returns_readConnectHeader : Returns readConnectHeader := by
  apply returns_readU8.bind
  intro _
  apply (Per.returns_readObjectIdentifier _).bind
  intro _
  apply Per.returns_readLength.bind
  intro _
  exact returns_readU8.bind fun _ => Returns.pure ()

theorem run_readKey_iff :
    readKey.run input = .ok u rest ↔
      ∃ tag result numberOfSet keyChoice keyLength, (∃ v, IntegerCode v tag) ∧ LengthCode 0 keyLength ∧
        input = tag ++ (result :: numberOfSet :: keyChoice :: (keyLength ++ (h221ScKey ++ rest))) := by
  have hminimum : 4 < 2 ^ 63 := by decide
  constructor
  . intro h
    obtain ⟨v, _, hinteger, h⟩ := run_bind_eq_ok h
    obtain ⟨result, _, hresult, h⟩ := run_bind_eq_ok h
    obtain ⟨numberOfSet, _, hsets, h⟩ := run_bind_eq_ok h
    obtain ⟨keyChoice, _, hchoice, h⟩ := run_bind_eq_ok h
    obtain ⟨n, keyLength, hcode, hn, rfl⟩ := (Per.run_readOctetStream_iff hminimum).mp h
    obtain ⟨tag, htag, rfl⟩ := Per.run_readInteger_iff.mp hinteger
    have hzero : n = 0 := Nat.add_right_cancel (hn.trans rfl)
    rw [hzero] at hcode
    refine ⟨tag, result, numberOfSet, keyChoice, keyLength, ⟨v, htag⟩, hcode, ?_⟩
    rw [run_readU8_eq_ok.mp hresult, run_readU8_eq_ok.mp hsets, run_readU8_eq_ok.mp hchoice]
  . rintro ⟨tag, result, numberOfSet, keyChoice, keyLength, ⟨v, htag⟩, hcode, rfl⟩
    apply run_bind_eq_ok_iff.mpr ⟨v, _, Per.run_readInteger_iff.mpr ⟨tag, htag, rfl⟩, ?_⟩
    apply run_bind_eq_ok_iff.mpr ⟨result, _, rfl, ?_⟩
    apply run_bind_eq_ok_iff.mpr ⟨numberOfSet, _, rfl, ?_⟩
    apply run_bind_eq_ok_iff.mpr ⟨keyChoice, _, rfl, ?_⟩
    exact (Per.run_readOctetStream_iff hminimum).mpr ⟨0, keyLength, hcode, rfl, rfl⟩

theorem returns_readKey : Returns readKey := by
  apply Per.returns_readInteger.bind
  intro _
  apply returns_readU8.bind
  intro _
  apply returns_readU8.bind
  intro _
  apply returns_readU8.bind
  intro _
  exact Per.returns_readOctetStream _ (by decide)

theorem run_readHeader_iff :
    readHeader.run input = .ok u rest ↔ ∃ header : ResponseHeader, input = header.encode ++ rest := by
  constructor
  . intro h
    obtain ⟨_, _, hconnect, hrest⟩ := run_bind_eq_ok h
    obtain ⟨node, _, hnode, hkeys⟩ := run_bind_eq_ok hrest
    obtain ⟨connect, rfl⟩ := run_readConnectHeader_iff.mp hconnect
    obtain ⟨offset, rfl, hsum⟩ := Per.run_readInteger16_iff.mp hnode
    obtain ⟨tag, result, numberOfSet, keyChoice, keyLength, htag, hkey, rfl⟩ :=
      run_readKey_iff.mp hkeys
    have hlt := node.toNat_lt
    have hle : offset.toNat ≤ 64534 := by
      rw [show (1001 : UInt16).toNat = 1001 from rfl] at hsum
      omega
    refine ⟨⟨connect, offset, tag, result, numberOfSet, keyChoice, keyLength, hle, htag, hkey⟩, ?_⟩
    simp only [ResponseHeader.encode, List.append_assoc, List.cons_append]
  . rintro ⟨header, rfl⟩
    have hsum : (UInt16.ofNat (header.nodeId.toNat + 1001)).toNat =
        header.nodeId.toNat + (1001 : UInt16).toNat := by
      have hle := header.nodeId_le
      rw [UInt16.toNat_ofNat', show (1001 : UInt16).toNat = 1001 from rfl]
      omega
    simp only [ResponseHeader.encode, List.append_assoc, List.cons_append]
    apply run_bind_eq_ok_iff.mpr ⟨(), _, run_readConnectHeader_iff.mpr ⟨_, rfl⟩, ?_⟩
    apply run_bind_eq_ok_iff.mpr ⟨_, _, Per.run_readInteger16_iff.mpr ⟨header.nodeId, rfl, hsum⟩, ?_⟩
    exact run_readKey_iff.mpr ⟨header.tag, header.result, header.numberOfSet, header.keyChoice,
      header.keyLength, header.isTag, header.isKeyLength, rfl⟩

/--
The id of the node leaves no room for its minimum.
-/
def NodeOverflows (stream : Bytes) : Prop :=
  ∃ (header : ConnectHeader) (offset : UInt16) (rest : Bytes),
    stream = header.encode ++ (Endian.be.encode16 offset ++ rest) ∧ 64534 < offset.toNat

theorem aborts_readHeader : readHeader.Aborts input ↔ NodeOverflows input := by
  unfold readHeader
  rw [aborts_bind]
  simp only [returns_readConnectHeader input, false_or]
  constructor
  . rintro ⟨_, rest, hconnect, h⟩
    obtain ⟨header, rfl⟩ := run_readConnectHeader_iff.mp hconnect
    rcases aborts_bind.mp h with h | ⟨_, _, _, h⟩
    . obtain ⟨offset, rest, rfl, hlt⟩ := Per.aborts_readInteger16_1001.mp h
      exact ⟨header, offset, rest, rfl, hlt⟩
    . exact absurd h (returns_readKey _)
  . rintro ⟨header, offset, rest, rfl, hlt⟩
    refine ⟨(), _, run_readConnectHeader_iff.mpr ⟨header, rfl⟩, aborts_bind.mpr (.inl ?_)⟩
    exact Per.aborts_readInteger16_1001.mpr ⟨offset, rest, rfl, hlt⟩

theorem run_taking (n : Nat) (x : Reader α) (input : Bytes) :
    (taking n x).run input =
      match x.run (input.take n) with
      | .ok a rest => .ok a (rest ++ input.drop n)
      | .error e rest => .error e (rest ++ input.drop n) := rfl

theorem aborts_taking {n : Nat} {x : Reader α} : (taking n x).Aborts input ↔ x.Aborts (input.take n) := by
  unfold Aborts
  rw [run_taking]
  cases x.run (input.take n) <;> simp

theorem run_taking_eq_ok {n : Nat} {x : Reader α} {a : α} :
    (taking n x).run input = .ok a rest ↔
      ∃ rest', x.run (input.take n) = .ok a rest' ∧ rest = rest' ++ input.drop n := by
  rw [run_taking]
  cases x.run (input.take n) <;> simp [eq_comm]

end Readers

/--
The stream is this header and user data whose announced bytes, as far as they are there, start with
blocks that are accepted. The tail is what the blocks leave.
-/
structure Carries (stream : Bytes) (header : ResponseHeader) (blocks : List Block) (tail : Bytes) :
    Prop where
  wellFormed : ∀ block ∈ blocks, block.WellFormed
  stream_eq : ∃ n size rest, LengthCode n size ∧ stream = header.encode ++ (size ++ rest) ∧
    rest.take n = blocks.flatMap Block.encode ++ tail

/--
The blocks without which there are no settings.
-/
def Complete (blocks : List Block) : Prop :=
  (∃ block ∈ blocks, block.messageType = .scCore) ∧ ∃ block ∈ blocks, block.messageType = .scNet

section Response

variable {stream rest tail : Bytes} {data : ServerData}

theorem aborts_readUserData :
    readUserData.Aborts stream ↔
      ∃ (n : Nat) (size rest : Bytes) (blocks : List Block) (tail : Bytes), LengthCode n size ∧
        stream = size ++ rest ∧ (∀ block ∈ blocks, block.WellFormed) ∧
        rest.take n = blocks.flatMap Block.encode ++ tail ∧
        (Underflows tail ∨ tail.length < 4 ∧ ¬ Complete blocks) := by
  unfold readUserData
  rw [aborts_bind]
  simp only [Per.returns_readLength stream, false_or]
  constructor
  . rintro ⟨length, rest, hlength, h⟩
    obtain ⟨size, hsize, rfl⟩ := Per.run_readLength_iff.mp hlength
    rcases aborts_bind.mp h with h | ⟨result, rest', hresult, h⟩
    . obtain ⟨blocks, tail, hblocks, htake, htail⟩ := aborts_readAll.mp (aborts_taking.mp h)
      exact ⟨_, size, rest, blocks, tail, hsize, rfl, hblocks, htake, .inl htail⟩
    . obtain ⟨_, hread, _⟩ := run_taking_eq_ok.mp hresult
      obtain ⟨blocks, tail, hblocks, htake, htail, rfl, _⟩ := run_readAll_eq_ok.mp hread
      rw [aborts_lift, aborts_serverData hblocks] at h
      exact ⟨_, size, rest, blocks, tail, hsize, rfl, hblocks, htake, .inr ⟨htail, h⟩⟩
  . rintro ⟨n, size, rest, blocks, tail, hsize, rfl, hblocks, htake, h⟩
    refine ⟨.ofNat n, rest, hsize.run_readLength rest, ?_⟩
    rw [hsize.toNat_ofNat, aborts_bind]
    rcases h with h | ⟨htail, h⟩
    . exact .inl (aborts_taking.mpr (aborts_readAll.mpr ⟨blocks, tail, hblocks, htake, h⟩))
    . have hread := run_readAll_eq_ok.mpr ⟨blocks, tail, hblocks, htake, htail, rfl, rfl⟩
      refine .inr ⟨_, _, run_taking_eq_ok.mpr ⟨[], hread, rfl⟩, ?_⟩
      rw [aborts_lift]
      exact (aborts_serverData hblocks).mpr h

theorem run_readUserData_eq_ok :
    readUserData.run stream = .ok data rest ↔
      ∃ (n : Nat) (size bytes : Bytes) (blocks : List Block) (tail : Bytes) (ids : List UInt16)
        (version : UInt32), LengthCode n size ∧ stream = size ++ bytes ∧
        (∀ block ∈ blocks, block.WellFormed) ∧
        bytes.take n = blocks.flatMap Block.encode ++ tail ∧ tail.length < 4 ∧
        LastIds blocks ids ∧ LastVersion blocks version ∧ data = ⟨ids, .ofU32 version⟩ ∧
        rest = bytes.drop n := by
  unfold readUserData
  rw [run_bind_eq_ok_iff]
  constructor
  . rintro ⟨length, bytes, hlength, h⟩
    obtain ⟨size, hsize, rfl⟩ := Per.run_readLength_iff.mp hlength
    obtain ⟨result, rest', hresult, hdata⟩ := run_bind_eq_ok h
    obtain ⟨_, hread, rfl⟩ := run_taking_eq_ok.mp hresult
    obtain ⟨blocks, tail, hblocks, htake, htail, rfl, rfl⟩ := run_readAll_eq_ok.mp hread
    obtain ⟨hserver, rfl⟩ := run_lift_eq_ok hdata
    have hcomplete : Complete blocks := by
      by_contra hnot
      have habort := (aborts_serverData hblocks).mpr hnot
      rw [hserver] at habort
      exact Except.not_aborts_ok _ habort
    obtain ⟨ids, hids⟩ := exists_lastIds hblocks hcomplete.2
    obtain ⟨version, hversion⟩ := exists_lastVersion hblocks hcomplete.1
    rw [serverData_eq_ok hids hversion] at hserver
    cases hserver
    exact ⟨_, size, bytes, blocks, tail, ids, version, hsize, rfl, hblocks, htake, htail, hids,
      hversion, rfl, rfl⟩
  . rintro ⟨n, size, bytes, blocks, tail, ids, version, hsize, rfl, hblocks, htake, htail, hids,
      hversion, rfl, rfl⟩
    refine ⟨.ofNat n, bytes, hsize.run_readLength bytes, ?_⟩
    rw [hsize.toNat_ofNat]
    have hread := run_readAll_eq_ok.mpr ⟨blocks, tail, hblocks, htake, htail, rfl, rfl⟩
    apply run_bind_eq_ok_iff.mpr ⟨_, _, run_taking_eq_ok.mpr ⟨[], hread, rfl⟩, ?_⟩
    rw [serverData_eq_ok hids hversion]
    rfl

theorem run_readConferenceCreateResponse_eq_ok :
    readConferenceCreateResponse.run stream = .ok data rest ↔
      ∃ (header : ResponseHeader) (userData : Bytes), stream = header.encode ++ userData ∧
        readUserData.run userData = .ok data rest := by
  rw [readConferenceCreateResponse_eq, run_bind_eq_ok_iff]
  constructor
  . rintro ⟨_, userData, hheader, h⟩
    obtain ⟨header, rfl⟩ := run_readHeader_iff.mp hheader
    exact ⟨header, userData, rfl, h⟩
  . rintro ⟨header, userData, rfl, h⟩
    exact ⟨(), userData, run_readHeader_iff.mpr ⟨header, rfl⟩, h⟩

/--
The id of the node is too large, the length of a block is below 4, or a core block or a network block
is missing.
-/
def Malformed (stream : Bytes) : Prop :=
  NodeOverflows stream ∨ ∃ (header : ResponseHeader) (blocks : List Block) (tail : Bytes),
    Carries stream header blocks tail ∧ (Underflows tail ∨ tail.length < 4 ∧ ¬ Complete blocks)

theorem aborts_readConferenceCreateResponse :
    readConferenceCreateResponse.Aborts stream ↔ Malformed stream := by
  unfold Malformed
  rw [readConferenceCreateResponse_eq, aborts_bind, aborts_readHeader]
  apply or_congr_right
  constructor
  . rintro ⟨_, userData, hheader, h⟩
    obtain ⟨header, rfl⟩ := run_readHeader_iff.mp hheader
    obtain ⟨n, size, rest, blocks, tail, hsize, rfl, hblocks, htake, h⟩ := aborts_readUserData.mp h
    exact ⟨header, blocks, tail, ⟨hblocks, n, size, rest, hsize, rfl, htake⟩, h⟩
  . rintro ⟨header, blocks, tail, ⟨hblocks, n, size, rest, hsize, rfl, htake⟩, h⟩
    refine ⟨(), _, run_readHeader_iff.mpr ⟨header, rfl⟩, ?_⟩
    exact aborts_readUserData.mpr ⟨n, size, rest, blocks, tail, hsize, rfl, hblocks, htake, h⟩

/--
A response whose user data are blocks in any order, with a core block and a network block among
them, gives the ids of the last network block and the version of the last core block, and the bytes
behind the announced ones are left.
-/
theorem conferenceCreateResponse_decodes (header : ResponseHeader) {n : Nat} {size : Bytes}
    (hsize : LengthCode n size) {blocks : List Block} (hblocks : ∀ block ∈ blocks, block.WellFormed)
    (hn : (blocks.flatMap Block.encode).length = n)
    (hcore : ∃ block ∈ blocks, block.messageType = .scCore)
    (hnet : ∃ block ∈ blocks, block.messageType = .scNet) (behind : Bytes) :
    ∃ ids version, LastIds blocks ids ∧ LastVersion blocks version ∧
      readConferenceCreateResponse.run
          (header.encode ++ (size ++ (blocks.flatMap Block.encode ++ behind))) =
        .ok ⟨ids, .ofU32 version⟩ behind := by
  obtain ⟨ids, hids⟩ := exists_lastIds hblocks hnet
  obtain ⟨version, hversion⟩ := exists_lastVersion hblocks hcore
  refine ⟨ids, version, hids, hversion, ?_⟩
  apply run_readConferenceCreateResponse_eq_ok.mpr ⟨header, _, rfl, ?_⟩
  apply run_readUserData_eq_ok.mpr
  refine ⟨n, size, _, blocks, [], ids, version, hsize, rfl, hblocks, ?_, Nat.succ_pos 3, hids,
    hversion, rfl, (List.drop_left' hn).symm⟩
  rw [List.append_nil]
  exact List.take_left' hn

def responseHeader : ResponseHeader where
  choice := 0
  oidLength := [5]
  oid := [0, 20, 124, 0, 1]
  connectLength := [0x2A]
  connectChoice := 0x14
  nodeId := 0x760A
  tag := [1, 1]
  result := 0
  numberOfSet := 1
  keyChoice := 0xC0
  keyLength := [0]
  isOidLength := @LengthCode.short 5 (by decide)
  oid_length := rfl
  isConnectLength := ⟨_, @LengthCode.short 0x2A (by decide)⟩
  nodeId_le := by decide
  isTag := ⟨_, .byte (@LengthCode.short 1 (by decide)) 1⟩
  isKeyLength := @LengthCode.short 0 (by decide)

def responseBlocks : List Block := [
  ⟨0x0C03, networkBody [1004] [0, 0], by decide⟩,
  ⟨0x0C08, [7], by decide⟩,
  ⟨0x0C01, [4, 0, 8, 0], by decide⟩
]

theorem wellFormed_responseBlocks : ∀ block ∈ responseBlocks, block.WellFormed := by
  refine List.forall_mem_cons.mpr ⟨⟨[1004], [0, 0], by decide, rfl⟩, ?_⟩
  refine List.forall_mem_cons.mpr ⟨trivial, ?_⟩
  exact List.forall_mem_singleton.mpr (Nat.le_refl 4)

theorem conferenceCreateResponse_decodes_blocks :
    ∃ ids version, LastIds responseBlocks ids ∧ LastVersion responseBlocks version ∧
      readConferenceCreateResponse.run
          (responseHeader.encode ++ ([25] ++ (responseBlocks.flatMap Block.encode ++ [1, 2]))) =
        .ok ⟨ids, .ofU32 version⟩ [1, 2] := by
  apply conferenceCreateResponse_decodes responseHeader (@LengthCode.short 25 (by decide))
    wellFormed_responseBlocks
  . rfl
  . exact ⟨_, List.mem_cons_of_mem _ (List.mem_cons_of_mem _ (List.mem_singleton_self _)), rfl⟩
  . exact ⟨_, List.mem_cons_self, rfl⟩

/--
The run returns or reports an error, what is malformed is reported, and a response that is accepted
carries the identifier of the conference protocol, which stands in five bytes, and the key of the
server.
-/
structure Strict (stream : Bytes) : Prop where
  returns : (∃ data rest, readConferenceCreateResponse.run stream = .ok data rest) ∨
    ∃ e rest, readConferenceCreateResponse.run stream = .error (.error e) rest
  reported : Malformed stream →
    ∃ e rest, readConferenceCreateResponse.run stream = .error (.error e) rest
  accepted : ∀ data rest, readConferenceCreateResponse.run stream = .ok data rest →
    ∃ (header : ResponseHeader) (userData : Bytes),
      stream = header.encode ++ userData ∧ header.oid = [0, 20, 124, 0, 1]

/--
A complete response of another protocol, which is accepted too.
-/
def Foreign (stream : Bytes) : Prop :=
  ∃ (header : ResponseHeader) (blocks : List Block) (tail : Bytes),
    Carries stream header blocks tail ∧ tail.length < 4 ∧ Complete blocks ∧
    header.oid ≠ [0, 20, 124, 0, 1]

theorem oid_unique {header header' : ResponseHeader} {userData userData' : Bytes}
    (h : header.encode ++ userData = header'.encode ++ userData') : header.oid = header'.oid := by
  simp only [ResponseHeader.encode, ConnectHeader.encode, List.append_assoc, List.cons_append,
    List.cons.injEq] at h
  have hoid := header.isOidLength.append_cancel header'.isOidLength h.2
  exact List.append_inj_left hoid (header.oid_length.trans header'.oid_length.symm)

theorem run_of_carries {header : ResponseHeader} {blocks : List Block}
    (h : Carries stream header blocks tail) (htail : tail.length < 4) {ids : List UInt16}
    (hids : LastIds blocks ids) {version : UInt32} (hversion : LastVersion blocks version) :
    ∃ rest, readConferenceCreateResponse.run stream = .ok ⟨ids, .ofU32 version⟩ rest := by
  obtain ⟨hwell, n, size, rest, hsize, rfl, htake⟩ := h
  refine ⟨rest.drop n, ?_⟩
  apply run_readConferenceCreateResponse_eq_ok.mpr ⟨header, _, rfl, ?_⟩
  exact run_readUserData_eq_ok.mpr ⟨n, size, rest, blocks, tail, ids, version, hsize, rfl, hwell,
    htake, htail, hids, hversion, rfl, rfl⟩

theorem rdpVersion_of_carries (hrun : readConferenceCreateResponse.run stream = .ok data rest)
    {header : ResponseHeader} {blocks : List Block} (h : Carries stream header blocks tail)
    (htail : tail.length < 4) {version : UInt32} (hversion : LastVersion blocks version) :
    data.rdpVersion = .ofU32 version := by
  by_cases hnet : ∃ block ∈ blocks, block.messageType = .scNet
  . obtain ⟨ids, hids⟩ := exists_lastIds h.wellFormed hnet
    obtain ⟨rest', hrun'⟩ := run_of_carries h htail hids hversion
    cases hrun.symm.trans hrun'
    rfl
  . have habort : readConferenceCreateResponse.Aborts stream :=
      aborts_readConferenceCreateResponse.mpr
        (.inr ⟨header, blocks, tail, h, .inr ⟨htail, fun hblocks => hnet hblocks.2⟩⟩)
    exact absurd habort (not_aborts_of_run_ok hrun)

theorem not_strict_of_malformed (h : Malformed stream) : ¬ Strict stream := by
  intro hstrict
  exact not_aborts_iff.mpr hstrict.returns (aborts_readConferenceCreateResponse.mpr h)

theorem not_strict_of_foreign (h : Foreign stream) : ¬ Strict stream := by
  obtain ⟨header, blocks, tail, hcarries, htail, hblocks, hoid⟩ := h
  intro hstrict
  obtain ⟨ids, hids⟩ := exists_lastIds hcarries.wellFormed hblocks.2
  obtain ⟨version, hversion⟩ := exists_lastVersion hcarries.wellFormed hblocks.1
  obtain ⟨rest, hrun⟩ := run_of_carries hcarries htail hids hversion
  obtain ⟨header', userData, hstream, hoid'⟩ := hstrict.accepted _ rest hrun
  obtain ⟨_, n, size, bytes, _, hstream', _⟩ := hcarries
  exact hoid ((oid_unique (hstream'.symm.trans hstream)).trans hoid')

/--
The parser is strict and total on exactly the streams that are neither malformed nor complete
responses with another identifier.
-/
theorem strict_iff (stream : Bytes) : Strict stream ↔ ¬ Malformed stream ∧ ¬ Foreign stream := by
  constructor
  . intro hstrict
    exact ⟨fun h => not_strict_of_malformed h hstrict, fun h => not_strict_of_foreign h hstrict⟩
  . rintro ⟨hmalformed, hforeign⟩
    have hnot : ¬ readConferenceCreateResponse.Aborts stream := by
      rwa [aborts_readConferenceCreateResponse]
    refine ⟨not_aborts_iff.mp hnot, fun h => absurd h hmalformed, ?_⟩
    intro data rest hrun
    obtain ⟨header, userData, rfl, hdata⟩ := run_readConferenceCreateResponse_eq_ok.mp hrun
    obtain ⟨n, size, bytes, blocks, tail, ids, version, hsize, rfl, hblocks, htake, htail, hids,
      hversion, _, _⟩ := run_readUserData_eq_ok.mp hdata
    refine ⟨header, _, rfl, ?_⟩
    by_contra hoid
    exact hforeign ⟨header, blocks, tail, ⟨hblocks, n, size, bytes, hsize, rfl, htake⟩, htail,
      ⟨hversion.exists_mem, hids.exists_mem⟩, hoid⟩

/--
The only block has the length zero.
-/
theorem not_strict_zero :
    ¬ Strict [0, 5, 0, 20, 124, 0, 1, 0x2A, 0x14, 0x76, 0x0A, 1, 1, 0, 1, 0xC0, 0, 77, 99, 68, 110,
      4, 0x01, 0x0C, 0, 0] := by
  apply not_strict_of_malformed
  refine .inr ⟨responseHeader, [], [0x01, 0x0C, 0, 0], ?_, .inl ⟨0x0C01, 0, [], rfl, by decide⟩⟩
  exact ⟨by simp, 4, [4], [0x01, 0x0C, 0, 0], @LengthCode.short 4 (by decide), rfl, rfl⟩

end Response

end Rdp.Gcc
