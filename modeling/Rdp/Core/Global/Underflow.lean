import Rdp.Core.Global.Automaton
import Rdp.Core.Global.FastPath

/-!
This module contains the payloads that abort the client: the PDUs that announce fewer bytes than
their headers have, where such a PDU is reached, and when the answer to a Demand Active does not fit
its packets.
-/

namespace Rdp.Global

open Prog Cursor
open Capability (RawSet)

def HeaderUnderflows (stream : Bytes) : Prop :=
  ∃ a b rest, stream = a :: b :: rest ∧ (le16 a b).toNat < 6

/--
Capability sets of this length together, the source before them and what is in the sets.
-/
def SetsUnderflow (source combined : UInt16) (tail : Bytes) : Prop :=
  combined.toNat < 4 ∨ ∃ (descriptor : Bytes) (a b c d : UInt8) (sets rest : Bytes),
    tail = descriptor ++ a :: b :: c :: d :: (sets ++ rest) ∧ descriptor.length = source.toNat ∧
      sets.length = combined.toNat - 4 ∧ RawSet.Underflow sets

/--
The message behind a header of this type has a length that does not cover what is counted with it.
-/
def MessageUnderflows (pduType : UInt16) (message : Bytes) : Prop :=
  match pduType.toNat with
  | 0x11 => ∃ a b c d e f g h tail, message = a :: b :: c :: d :: e :: f :: g :: h :: tail ∧
    SetsUnderflow (le16 e f) (le16 g h) tail
  | 0x13 => ∃ a b c d e f g h tail,
    message = a :: b :: c :: d :: 0xEA :: 0x03 :: e :: f :: g :: h :: tail ∧
    SetsUnderflow (le16 e f) (le16 g h) tail
  | 0x17 => ∃ a b c d e f g h tail, message = a :: b :: c :: d :: e :: f :: g :: h :: tail ∧
    (le16 g h).toNat < 18
  | _ => False

theorem aborts_sets {source combined : UInt16} {input : Bytes} {f : Nat → Bytes → UInt16 → UInt16 →
    List RawSet → Reader α} (hf : ∀ size descriptor number pad sets,
      Returns (f size descriptor number pad sets)) :
    (do
      let size ← Prog.lift (checkedSub combined.toNat 4)
      let descriptor ← readExact source.toNat
      let number ← readU16 .le
      let pad ← readU16 .le
      let sets ← limited size (elements RawSet.reader)
      f size descriptor number pad sets : Reader α).Aborts input ↔
      SetsUnderflow source combined input := by
  simp only [aborts_lift_bind, Except.aborts_checkedSub, checkedSub_eq_ok, aborts_readExact_bind,
    aborts_readU16_bind, aborts_limited_bind, RawSet.aborts_elements_reader, hf _ _ _ _ _ _, and_false,
    exists_false, or_false, SetsUnderflow]
  constructor
  . rintro (h | ⟨size, ⟨hle, rfl⟩, descriptor, _, rfl, hdescriptor, a, b, _, rfl, c, d, _, rfl, sets, rest,
      rfl, hsets, h⟩)
    . exact .inl h
    . exact .inr ⟨descriptor, a, b, c, d, sets, rest, rfl, hdescriptor, hsets, h⟩
  . rintro (h | ⟨descriptor, a, b, c, d, sets, rest, rfl, hdescriptor, hsets, h⟩)
    . exact .inl h
    . by_cases hle : 4 ≤ combined.toNat
      . exact .inr ⟨_, ⟨hle, rfl⟩, descriptor, _, rfl, hdescriptor, a, b, _, rfl, c, d, _, rfl, sets,
          rest, rfl, hsets, h⟩
      . exact .inl (by omega)

theorem DemandActive.aborts_reader {message : Bytes} :
    reader.Aborts message ↔ MessageUnderflows 0x11 message := by
  have hrest (shareId : UInt32) (source combined : UInt16) (_ : Nat) (descriptor : Bytes)
      (number pad : UInt16) (sets : List RawSet) : Returns (do
        let sessionId ← readU32 .le
        return ⟨shareId, source, combined, descriptor, number, pad, sets, sessionId⟩ :
          Reader DemandActive) :=
    (returns_readU32 .le).bind_pure _
  unfold reader
  simp only [aborts_readU32_bind, aborts_readU16_bind]
  constructor
  . rintro ⟨a, b, c, d, _, rfl, e, f, _, rfl, g, h, tail, rfl, habort⟩
    exact ⟨a, b, c, d, e, f, g, h, tail, rfl, (aborts_sets (hrest _ _ _)).mp habort⟩
  . rintro ⟨a, b, c, d, e, f, g, h, tail, rfl, hsets⟩
    exact ⟨a, b, c, d, _, rfl, e, f, _, rfl, g, h, tail, rfl, (aborts_sets (hrest _ _ _)).mpr hsets⟩

theorem ConfirmActive.aborts_reader {message : Bytes} :
    reader.Aborts message ↔ MessageUnderflows 0x13 message := by
  have hrest (shareId : UInt32) (originator source combined : UInt16) (_ : Nat) (descriptor : Bytes)
      (number pad : UInt16) (sets : List RawSet) : Returns (pure
        ⟨shareId, originator, source, combined, descriptor, number, pad, sets⟩ :
          Reader ConfirmActive) :=
    Returns.pure _
  have horiginator (x y : UInt8) (h : 0x03EA = le16 x y) : 0xEA = x ∧ 0x03 = y := by
    have hbytes := bytes_le16 x y
    rw [← h] at hbytes
    simpa using hbytes
  unfold reader
  simp only [aborts_readU32_bind, aborts_readU16_bind, aborts_expect_bind, decide_eq_true_eq]
  constructor
  . rintro ⟨a, b, c, d, _, rfl, x, y, _, rfl, hxy, e, f, _, rfl, g, h, tail, rfl, habort⟩
    obtain ⟨rfl, rfl⟩ := horiginator x y hxy
    exact ⟨a, b, c, d, e, f, g, h, tail, rfl, (aborts_sets (hrest _ _ _ _)).mp habort⟩
  . rintro ⟨a, b, c, d, e, f, g, h, tail, rfl, hsets⟩
    exact ⟨a, b, c, d, _, rfl, _, _, _, rfl, rfl, e, f, _, rfl, g, h, tail, rfl,
      (aborts_sets (hrest _ _ _ _)).mpr hsets⟩

theorem ShareData.aborts_reader {message : Bytes} :
    reader.Aborts message ↔ MessageUnderflows 0x17 message := by
  unfold reader
  simp only [aborts_readU32_bind, aborts_readU8_bind, aborts_readU16_bind, aborts_lift_bind,
    Except.aborts_checkedSub, aborts_readExact_bind, not_aborts_pure, and_false, exists_false, or_false]
  constructor
  . rintro ⟨a, b, c, d, _, rfl, e, _, rfl, f, _, rfl, g, h, tail, rfl, hlt⟩
    exact ⟨a, b, c, d, e, f, g, h, tail, rfl, hlt⟩
  . rintro ⟨a, b, c, d, e, f, g, h, tail, rfl, hlt⟩
    exact ⟨a, b, c, d, _, rfl, e, _, rfl, f, _, rfl, g, h, tail, rfl, hlt⟩

namespace Frame

theorem aborts_reader {stream : Bytes} : reader.Aborts stream ↔ HeaderUnderflows stream := by
  unfold reader
  rw [aborts_readU16_bind]
  simp only [aborts_lift_bind, Except.aborts_checkedSub, HeaderUnderflows]
  have hrest (totalLength : UInt16) (size : Nat) : Returns (do
      let pduType ← readU16 .le
      let pduSource ← attempt (readU16 .le)
      let pduMessage ← readExact size
      return ⟨totalLength, pduType, pduSource, pduMessage⟩ : Reader Frame) := by
    apply (returns_readU16 .le).bind
    intro pduType
    apply (returns_readU16 .le).attempt.bind
    intro pduSource
    exact (returns_readExact size).bind_pure _
  simp only [hrest _ _ _, and_false, exists_false, or_false]
  rfl

theorem aborts_messageReader (pduType : PDUType) (message : Bytes) :
    (PDU.messageReader pduType).Aborts message ↔ MessageUnderflows pduType.toU16 message := by
  cases pduType with
  | pdutypeDemandactivepdu =>
    rw [PDU.messageReader, aborts_map]
    exact DemandActive.aborts_reader
  | pdutypeConfirmactivepdu =>
    rw [PDU.messageReader, aborts_map]
    exact ConfirmActive.aborts_reader
  | pdutypeDatapdu =>
    rw [PDU.messageReader, aborts_map]
    exact ShareData.aborts_reader
  | pdutypeDeactivateallpdu =>
    have htotal : ∀ f ∈ tsDeactivateAllPdu.message, Message.Total f.2 := by
      simp [tsDeactivateAllPdu, Message.total_dynOption_leaf (not_aborts_sizeOf _)]
    rw [PDU.messageReader, iff_false_left (Message.returns_readerFields htotal [] [] message)]
    exact not_false
  | pdutypeServerRedirPkt =>
    rw [PDU.messageReader, iff_false_left (not_aborts_fail _ message)]
    exact not_false

theorem cases_tryFrom (v : UInt16) :
    (∃ pduType, PDUType.tryFrom v = .ok pduType ∧ v = pduType.toU16) ∨
      (∃ e, PDUType.tryFrom v = .error (.error e)) ∧ ∀ message, ¬ MessageUnderflows v message := by
  unfold PDUType.tryFrom
  split
  case h_6 h₁ h₂ _ h₄ _ =>
    refine .inr ⟨⟨_, rfl⟩, ?_⟩
    intro message
    unfold MessageUnderflows
    split
    next h => exact absurd h h₁
    next h => exact absurd h h₂
    next h => exact absurd h h₄
    next => exact not_false
  all_goals
    next h => exact .inl ⟨_, rfl, UInt16.toNat_inj.mp h⟩

theorem aborts_toPdu (frame : Frame) :
    frame.toPdu.Aborts ↔ MessageUnderflows frame.pduType frame.pduMessage := by
  unfold toPdu
  rcases cases_tryFrom frame.pduType with ⟨pduType, htype, hto⟩ | ⟨⟨e, he⟩, hnot⟩
  . rw [htype, Except.ok_bind, Except.aborts_map, aborts_parse, aborts_messageReader, hto]
  . rw [he, Except.error_bind, Except.aborts_error]
    simp [hnot]

end Frame

theorem MessageUnderflows.ne_nil {pduType : UInt16} {message : Bytes}
    (h : MessageUnderflows pduType message) : message ≠ [] := by
  rintro rfl
  unfold MessageUnderflows at h
  split at h <;> simp at h

/--
The first PDU of a payload underflows, in its header or in its message.
-/
def FirstUnderflows (stream : Bytes) : Prop :=
  HeaderUnderflows stream ∨
    ∃ (frame : Frame) (rest : Bytes), frame.Starts stream rest ∧ MessageUnderflows frame.pduType frame.pduMessage

/--
A header that underflows is behind complete PDUs.
-/
inductive ReachesHeader : Bytes → Prop where
  | here {stream : Bytes} (h : HeaderUnderflows stream) : ReachesHeader stream
  | next {stream rest : Bytes} {frame : Frame} (hframe : frame.Starts stream rest)
    (h : ReachesHeader rest) : ReachesHeader stream

/--
A message that underflows is behind complete PDUs whose messages are accepted.
-/
inductive ReachesMessage : Bytes → Prop where
  | here {stream rest : Bytes} {frame : Frame} (hframe : frame.Starts stream rest)
    (h : MessageUnderflows frame.pduType frame.pduMessage) : ReachesMessage stream
  | next {stream rest : Bytes} {frame : Frame} {pdu : PDU} (hframe : frame.Starts stream rest)
    (hpdu : frame.toPdu = .ok pdu) (h : ReachesMessage rest) : ReachesMessage stream

theorem ReachesHeader.ne_nil {stream : Bytes} (h : ReachesHeader stream) : stream ≠ [] := by
  rintro rfl
  cases h with
  | here h =>
    obtain ⟨_, _, _, h, _⟩ := h
    cases h
  | next hframe =>
    obtain ⟨_, _, _, _, _, _, h, _⟩ := hframe
    cases h

theorem ReachesMessage.ne_nil {stream : Bytes} (h : ReachesMessage stream) : stream ≠ [] := by
  rintro rfl
  cases h with
  | here hframe | next hframe =>
    obtain ⟨_, _, _, _, _, _, h, _⟩ := hframe
    cases h

theorem aborts_elements_frame {stream : Bytes} :
    (elements Frame.reader).Aborts stream ↔ ReachesHeader stream := by
  constructor
  . intro h
    induction hn : stream.length using Nat.strongRecOn generalizing stream with
    | ind n ih =>
      rcases (aborts_elements_iff Frame.consumes_reader).mp h with habort | ⟨frame, rest, hrun, habort⟩
      . exact .here (Frame.aborts_reader.mp habort)
      . have hlt := Frame.consumes_reader stream frame rest hrun
        have hrest := ih rest.length (by omega) habort rfl
        refine .next (Frame.starts_of_run_reader hrun ?_) hrest
        simp [hrest.ne_nil]
  . intro h
    rw [aborts_elements_iff Frame.consumes_reader]
    induction h with
    | here h => exact .inl (Frame.aborts_reader.mpr h)
    | next hframe _ ih =>
      refine .inr ⟨_, _, Frame.run_reader_of_starts hframe, ?_⟩
      exact (aborts_elements_iff Frame.consumes_reader).mpr ih

namespace Client

theorem aborts_receiveFrames_cons (frame : Frame) (frames : List Frame) (s : Session) :
    (receiveFrames (frame :: frames)).Aborts s ↔
      frame.toPdu.Aborts ∨ ∃ pdu, frame.toPdu = .ok pdu ∧ (receiveFrames frames).Aborts (after pdu s) := by
  rw [receiveFrames, aborts_lift_bind]
  simp only [aborts_bind]
  constructor
  . rintro (h | ⟨pdu, hpdu, h⟩)
    . exact .inl h
    . have hrun := run_receivePdu hpdu s
      rcases h with h | ⟨_, t, hrun', h⟩
      . exact absurd h (not_aborts_of_run_ok hrun)
      . cases hrun.symm.trans hrun'
        exact .inr ⟨pdu, hpdu, h⟩
  . rintro (h | ⟨pdu, hpdu, h⟩)
    . exact .inl h
    . exact .inr ⟨pdu, hpdu, .inr ⟨_, _, run_receivePdu hpdu s, h⟩⟩

theorem run_elements_eq_ok {stream rest' : Bytes} {frames : List Frame}
    (h : (elements Frame.reader).run stream = .ok frames rest') :
    (frames = [] ∧ ∀ frame rest, ¬ Frame.Starts frame stream rest) ∨
      ∃ frame rest frames', frames = frame :: frames' ∧ Frame.reader.run stream = .ok frame rest ∧
        (elements Frame.reader).run rest = .ok frames' rest' := by
  have hnot := not_aborts_of_run_ok h
  rw [aborts_elements_iff Frame.consumes_reader, not_or] at hnot
  rcases cases_of_not_aborts hnot.1 with ⟨frame, rest, hrun⟩ | ⟨e, rest, hrun⟩
  . rw [run_elements_of_ok Frame.consumes_reader hrun] at h
    obtain ⟨frames', _, hframes, hpure⟩ := run_bind_eq_ok h
    cases hpure
    exact .inr ⟨frame, rest, frames', rfl, hrun, hframes⟩
  . rw [run_elements_of_error hrun] at h
    cases h
    refine .inl ⟨rfl, ?_⟩
    intro frame rest hframe
    cases hrun.symm.trans (Frame.run_reader_of_starts hframe)

theorem aborts_receiveFrames {stream rest' : Bytes} {frames : List Frame}
    (h : (elements Frame.reader).run stream = .ok frames rest') (s : Session) :
    (receiveFrames frames).Aborts s ↔ ReachesMessage stream := by
  -- The PDUs of a payload are received up to the first one that is not accepted.
  induction frames generalizing stream s with
  | nil =>
    obtain ⟨_, hnone⟩ | ⟨_, _, _, hframes, _⟩ := run_elements_eq_ok h
    . refine iff_of_false (not_aborts_pure _ s) ?_
      rintro (hframe | hframe) <;> exact hnone _ _ hframe
    . cases hframes
  | cons frame frames ih =>
    obtain ⟨hframes, _⟩ | ⟨_, rest, _, hframes, hrun, hrest⟩ := run_elements_eq_ok h
    . cases hframes
    cases hframes
    rw [aborts_receiveFrames_cons, Frame.aborts_toPdu]
    simp only [ih hrest]
    constructor
    . rintro (hmessage | ⟨pdu, hpdu, hreaches⟩)
      . refine .here (Frame.starts_of_run_reader hrun ?_) hmessage
        simp [hmessage.ne_nil]
      . refine .next (Frame.starts_of_run_reader hrun ?_) hpdu hreaches
        simp [hreaches.ne_nil]
    . rintro (⟨hframe, hmessage⟩ | ⟨hframe, hpdu, hreaches⟩)
      . cases hrun.symm.trans (Frame.run_reader_of_starts hframe)
        exact .inl hmessage
      . cases hrun.symm.trans (Frame.run_reader_of_starts hframe)
        exact .inr ⟨_, hpdu, hreaches⟩

theorem aborts_readDataPdu (stream : Bytes) (s : Session) :
    (readDataPdu stream).Aborts s ↔ ReachesHeader stream ∨ ReachesMessage stream := by
  rw [readDataPdu_eq, aborts_lift_bind, aborts_parse, aborts_elements_frame]
  by_cases hheader : ReachesHeader stream
  . simp [hheader]
  . obtain ⟨frames, rest, hrun⟩ := exists_run_elements Frame.consumes_reader
      (mt aborts_elements_frame.mp hheader)
    rw [parse_eq_ok.mpr ⟨rest, hrun⟩, ← aborts_receiveFrames hrun s]
    simp [hheader]

theorem aborts_readPdu (stream : Bytes) : (readPdu stream).Aborts ↔ FirstUnderflows stream := by
  rw [readPdu_eq, Except.aborts_bind, aborts_parse, Frame.aborts_reader]
  simp only [Frame.aborts_toPdu, parse_eq_ok, FirstUnderflows]
  constructor
  . rintro (h | ⟨frame, ⟨rest, hrun⟩, hmessage⟩)
    . exact .inl h
    . refine .inr ⟨frame, rest, Frame.starts_of_run_reader hrun ?_, hmessage⟩
      simp [hmessage.ne_nil]
  . rintro (h | ⟨frame, rest, hframe, hmessage⟩)
    . exact .inl h
    . exact .inr ⟨frame, ⟨rest, Frame.run_reader_of_starts hframe⟩, hmessage⟩

theorem exists_of_readData {stream : Bytes} {dataPdu : DataPDU}
    (h : readData stream = .ok (some dataPdu)) :
    ∃ data : ShareData, DataPDU.fromPdu ⟨.pdutypeDatapdu, data.node⟩ = .ok dataPdu := by
  obtain ⟨pdu, hpdu, h⟩ := Except.bind_eq_ok h
  split at h
  next => cases h
  next htype =>
    obtain ⟨frame, _, hframe⟩ := readPdu_eq_ok hpdu
    obtain ⟨data, rfl⟩ := Frame.exists_shareData hframe (not_not.mp htype)
    obtain ⟨result, hresult, h⟩ := Except.bind_eq_ok h
    cases h
    exact ⟨data, hresult⟩

theorem aborts_readData (stream : Bytes) : (readData stream).Aborts ↔ FirstUnderflows stream := by
  rw [← aborts_readPdu, readData, Except.aborts_bind]
  refine or_iff_left ?_
  rintro ⟨pdu, hpdu, h⟩
  split at h
  next => exact Except.not_aborts_pure _ h
  next htype =>
    obtain ⟨frame, _, hframe⟩ := readPdu_eq_ok hpdu
    obtain ⟨data, rfl⟩ := Frame.exists_shareData hframe (not_not.mp htype)
    rcases Except.aborts_bind.mp h with h | ⟨_, _, h⟩
    . exact DataPDU.not_aborts_fromPdu _ data h
    . exact Except.not_aborts_pure _ h

theorem aborts_readSynchronizePdu (stream : Bytes) :
    (readSynchronizePdu stream).Aborts ↔ FirstUnderflows stream := by
  rw [← aborts_readData, readSynchronizePdu, Except.aborts_bind]
  refine or_iff_left ?_
  rintro ⟨read, _, h⟩
  cases read <;> exact Except.not_aborts_pure _ h

theorem aborts_readFontMapPdu (stream : Bytes) :
    (readFontMapPdu stream).Aborts ↔ FirstUnderflows stream := by
  rw [← aborts_readData, readFontMapPdu, Except.aborts_bind]
  refine or_iff_left ?_
  rintro ⟨read, _, h⟩
  cases read <;> exact Except.not_aborts_pure _ h

theorem aborts_readControlPdu (stream : Bytes) (action : Action) :
    (readControlPdu stream action).Aborts ↔ FirstUnderflows stream := by
  rw [← aborts_readData, readControlPdu, Except.aborts_bind]
  refine or_iff_left ?_
  rintro ⟨read, hread, h⟩
  cases read with
  | none => exact Except.not_aborts_pure _ h
  | some dataPdu =>
    dsimp only at h
    split at h
    next => exact Except.not_aborts_pure _ h
    next htype =>
      -- a Control PDU that was parsed has its action under its name
      obtain ⟨data, hdata⟩ := exists_of_readData hread
      obtain ⟨v, hv⟩ := DataPDU.action_of_fromPdu hdata (not_not.mp htype)
      simp only [hv, Except.ok_bind, castU16] at h
      split at h
      next => simp at h
      next => exact Except.not_aborts_pure _ h

theorem aborts_expectPdu {read : Bytes → RdpResult Bool}
    (hread : ∀ stream, (read stream).Aborts ↔ FirstUnderflows stream) (next : ClientState)
    (stream : Bytes) (s : Session) :
    (expectPdu read next (.raw stream)).Aborts s ↔ FirstUnderflows stream := by
  rw [← hread, expectPdu]
  change (Prog.lift (read stream) >>= _).Aborts s ↔ _
  rw [aborts_lift_bind]
  refine or_iff_left ?_
  rintro ⟨found, _, h⟩
  cases found with
  | true => exact not_aborts_modify _ s h
  | false => exact not_aborts_pure _ s h

section Write

variable {pdu : PDU} {bytes : Bytes} {s : Session}

theorem length_node {frame : Frame} {source : UInt16} (h : 6 ≤ frame.totalLength.toNat)
    (hsource : frame.pduSource = some source) :
    (Message.component frame.node).length = .ok (frame.pduMessage.length + 6) := by
  have hsize : sizeWithout 6 "pduMessage" (.u16 frame.totalLength) =
      .ok (.size "pduMessage" (frame.totalLength.toNat - 6)) := by
    rw [sizeWithout, checkedSub_of_le h]
    rfl
  have hoption : (Message.option (some (.leaf (.u16 .le source)))).length = .ok 2 := rfl
  simp [Frame.node, Message.visit, Leaf.visit, Leaf.length, hsize, hsource, hoption]
  omega

theorem write_frameOf (hlt : bytes.length % 2 ^ 16 + 6 < 2 ^ 16) (userId : UInt16) :
    ∃ out, (Message.component (frameOf pdu userId bytes).node).write = .ok out ∧
      out.length = bytes.length + 6 := by
  apply (Message.measures _ _).mp
  refine length_node ?_ rfl
  change 6 ≤ (UInt16.ofNat (bytes.length % 2 ^ 16 + 6)).toNat
  rw [UInt16.toNat_ofNat', Nat.mod_eq_of_lt hlt]
  omega

/--
A message of this length leaves no room for the lengths of its headers.
-/
def Overflows (length : Nat) : Prop :=
  2 ^ 16 ≤ length % 2 ^ 16 + 6 ∨ 2 ^ 16 ≤ (length + 17) % 2 ^ 16 + 4

theorem aborts_writePdu (h : (Message.component pdu.message).write = .ok bytes) :
    (writePdu pdu).Aborts s ↔ ¬ s.mcs.Connected "global" ∨ Overflows bytes.length := by
  have hvec : toVec (.component pdu.message) = .ok bytes := by
    rw [toVec, h]
  by_cases hlt : bytes.length % 2 ^ 16 + 6 < 2 ^ 16
  . obtain ⟨out, hout, hlength⟩ := @write_frameOf pdu bytes hlt s.client.userId
    have hrun := run_writePdu hvec hlt s
    have hiff : (writePdu pdu).Aborts s ↔ (Mcs.Client.write "global"
        (.component (frameOf pdu s.client.userId bytes).node)).Aborts s.mcs := by
      unfold Aborts
      rw [hrun]
      split <;> simp [*]
    rw [hiff]
    by_cases hconnected : s.mcs.Connected "global"
    . rw [Mcs.Client.aborts_write_iff hconnected hout, hlength, Overflows]
      simp only [hconnected, not_true_eq_false, false_or]
      omega
    . simp [hconnected, Mcs.Client.aborts_write_of_not_connected hconnected]
  . rw [aborts_of_run_error (run_writePdu_of_le hvec (by omega) s)]
    simp only [Fault.not_isError_panic, not_false_eq_true, true_iff]
    exact .inr (.inl (by omega))

theorem IsShort.not_aborts_writePdu (h : IsShort pdu) (hconnected : s.mcs.Connected "global") :
    ¬ (writePdu pdu).Aborts s := by
  obtain ⟨bytes, hwrite, hlt⟩ := h
  rw [aborts_writePdu hwrite, Overflows]
  simp only [hconnected, not_true_eq_false, false_or]
  omega

theorem connected_of_run_writePdu {t : Session} {name : String} (h : s.mcs.Connected name)
    (hrun : (writePdu pdu).run s = .ok () t) : t.mcs.Connected name := by
  cases hvec : toVec (.component pdu.message) with
  | error e => cases hrun.symm.trans (run_writePdu_of_error hvec s)
  | ok bytes =>
    by_cases hlt : bytes.length % 2 ^ 16 + 6 < 2 ^ 16
    . have hwrite := run_writePdu hvec hlt s
      rw [hrun] at hwrite
      split at hwrite
      next mcs hmcs =>
        cases hwrite
        exact h.of_run_write hmcs
      next => cases hwrite
    . cases hrun.symm.trans (run_writePdu_of_le hvec (by omega) s)

theorem not_aborts_writePdus {pdus : List PDU} (h : ∀ pdu ∈ pdus, IsShort pdu)
    (hconnected : s.mcs.Connected "global") : ¬ (writePdus pdus).Aborts s := by
  induction pdus generalizing s with
  | nil => exact not_aborts_pure _ s
  | cons pdu pdus ih =>
    rw [List.forall_mem_cons] at h
    rw [writePdus, aborts_bind]
    rintro (habort | ⟨_, t, hrun, habort⟩)
    . exact h.1.not_aborts_writePdu hconnected habort
    . exact ih h.2 (connected_of_run_writePdu hconnected hrun) habort

end Write

theorem aborts_expectDemandActivePdu (stream : Bytes) (s : Session) :
    (expectDemandActivePdu (.raw stream)).Aborts s ↔ FirstUnderflows stream ∨
      Finds .demandActivePDU stream ∧ (¬ s.mcs.Connected "global" ∨
        Overflows (390 + (Nla.asBytes s.client.name).length)) := by
  rw [← aborts_readPdu]
  cases hread : readPdu stream with
  | error e =>
    rw [aborts_of_run_error (run_expectDemandActivePdu_of_error hread), Except.aborts_error]
    simp [Finds, hread]
  | ok pdu =>
    by_cases htype : pdu.pduType = .pdutypeDemandactivepdu
    . obtain ⟨frame, _, hframe⟩ := readPdu_eq_ok hread
      obtain ⟨d, rfl⟩ := Frame.exists_demandActive hframe htype
      obtain ⟨confirm, rest, hconfirm, hpdus, hshort, _⟩ := exists_answer (s.client.accept d)
      obtain ⟨bytes, hwrite, hlength⟩ := write_confirmActivePdu hconfirm
      have hrun := run_expectDemandActivePdu (s := s) hread hpdus
      have hiff : (expectDemandActivePdu (.raw stream)).Aborts s ↔
          (writePdus (confirm :: rest)).Aborts { s with client := s.client.accept d } := by
        unfold Aborts
        rw [hrun]
        split <;> simp [*]
      rw [hiff, writePdus, aborts_bind, aborts_writePdu hwrite, hlength]
      have hfinds : Finds .demandActivePDU stream := ⟨_, hread, rfl⟩
      simp only [Except.not_aborts_ok, hfinds, true_and, false_or]
      refine or_iff_left_of_imp ?_
      -- once the Confirm Active has left, the channel is there and the other PDUs are short
      rintro ⟨_, t, hconfirmed, habort⟩
      by_contra hnot
      have hconnected : Mcs.Client.Connected
          (Session.mcs { s with client := s.client.accept d }) "global" :=
        not_not.mp (not_or.mp hnot).1
      have hconnected' := connected_of_run_writePdu hconnected hconfirmed
      exact not_aborts_writePdus hshort hconnected' habort
    . have hnot := not_aborts_of_run_ok (run_expectDemandActivePdu_of_ne (s := s) hread htype)
      simp [hnot, Finds, hread, htype]

/--
The payload aborts the client: a PDU that is reached announces less than what its headers have, or
a Demand Active is answered and the client cannot write its answer.
-/
def Underflows (s : Session) (payload : Tpkt.Payload) : Prop :=
  match payload with
  | .fastPath _ _ => False
  | .raw stream =>
    match s.client.state with
    | .data => ReachesHeader stream ∨ ReachesMessage stream
    | .demandActivePDU => FirstUnderflows stream ∨ Finds .demandActivePDU stream ∧
      (¬ s.mcs.Connected "global" ∨ Overflows (390 + (Nla.asBytes s.client.name).length))
    | _ => FirstUnderflows stream

theorem not_aborts_fastPath (s : Session) (secFlag : UInt8) (stream : Bytes) :
    ¬ (read (.fastPath secFlag stream)).Aborts s := by
  unfold Aborts
  rw [run_read]
  cases s.client.state with
  | data => exact returns_readFastPath stream s
  | _ =>
    rintro ⟨e, t, hrun, hnot⟩
    cases hrun
    exact hnot (Fault.isError_error _)

theorem aborts_read (s : Session) (payload : Tpkt.Payload) :
    (read payload).Aborts s ↔ Underflows s payload := by
  cases payload with
  | fastPath secFlag stream => exact iff_of_false (not_aborts_fastPath s secFlag stream) not_false
  | raw stream =>
    unfold Aborts Underflows
    rw [run_read]
    cases s.client.state with
    | demandActivePDU => exact aborts_expectDemandActivePdu stream s
    | synchronizePDU => exact aborts_expectPdu aborts_readSynchronizePdu _ stream s
    | controlCooperate => exact aborts_expectPdu (aborts_readControlPdu · _) _ stream s
    | controlGranted => exact aborts_expectPdu (aborts_readControlPdu · _) _ stream s
    | fontMap => exact aborts_expectPdu aborts_readFontMapPdu _ stream s
    | data => exact aborts_readDataPdu stream s

/--
A call of `read` comes back exactly on the payloads that do not underflow.
-/
theorem read_returns_iff (s : Session) (payload : Tpkt.Payload) :
    ((∃ t, (read payload).run s = .ok () t) ∨ ∃ e t, (read payload).run s = .error (.error e) t) ↔
      ¬ Underflows s payload := by
  rw [← aborts_read]
  constructor
  . rintro (⟨t, hrun⟩ | ⟨e, t, hrun⟩)
    . exact not_aborts_of_run_ok hrun
    . rw [aborts_of_run_error hrun, not_not]
      exact Fault.isError_error e
  . intro h
    rcases cases_of_not_aborts h with ⟨_, t, hrun⟩ | ⟨e, t, hrun⟩
    . exact .inl ⟨t, hrun⟩
    . exact .inr ⟨e, t, hrun⟩

/--
A header that announces five bytes, before a connection has begun.
-/
theorem not_read_returns_short :
    ¬ ((∃ t, (read (.raw [0x05, 0x00])).run Handshake.start = .ok () t) ∨
      ∃ e t, (read (.raw [0x05, 0x00])).run Handshake.start = .error (.error e) t) := by
  have habort : (read (.raw [0x05, 0x00])).Aborts Handshake.start := by
    rw [aborts_read]
    exact .inl (.inl ⟨0x05, 0x00, [], rfl, by decide⟩)
  obtain ⟨e, t, hrun, hnot⟩ := habort
  rintro (⟨t', hrun'⟩ | ⟨e', t', hrun'⟩)
  . cases hrun.symm.trans hrun'
  . cases hrun.symm.trans hrun'
    exact hnot (Fault.isError_error e')

end Client

end Rdp.Global
