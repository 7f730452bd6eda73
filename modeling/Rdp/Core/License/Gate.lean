import Rdp.Core.License.Impl
import Rdp.Model.Data.Lossless

/-!
This module contains what the server has to send in the license phase for the connection to go on,
and the messages on which the client aborts instead of refusing them.
-/

namespace Rdp.License

open Prog Cursor

/--
The messages that announce less than the four bytes the size counts.
-/
def Undersized (s : Bytes) : Prop :=
  ∃ (bMsgtype : UInt8) (wMsgSize : UInt16) (rest : Bytes),
    s = bMsgtype :: 0x3 :: (Endian.le.encode16 wMsgSize ++ rest) ∧ wMsgSize.toNat < 4

structure Preamble where
  bMsgtype : UInt8
  flag : UInt8
  wMsgSize : UInt16
  message : Bytes

namespace Preamble

def sizeOption (node : DataType) : RdpResult MessageOption :=
  match node with
  | .u16 size => do return .size "message" (← checkedSub size.toNat 4)
  | _ => .ok .none

def node (p : Preamble) : Component := [
  ("bMsgtype", .leaf (.u8 p.bMsgtype)),
  ("flag", .check (.u8 p.flag)),
  ("wMsgSize", .dynOption (.leaf (.u16 .le p.wMsgSize)) sizeOption),
  ("message", .leaf (.bytes p.message))
]

def reader : Reader Preamble := do
  let bMsgtype ← readU8
  let flag ← readU8
  expect (0x3 = flag)
  let wMsgSize ← readU16 .le
  let size ← Prog.lift (checkedSub wMsgSize.toNat 4)
  let message ← readExact size
  return { bMsgtype, flag, wMsgSize, message }

theorem preamble_eq : preamble = node ⟨0, 0x3, 0, []⟩ := rfl

theorem readerFields_node :
    Message.readerFields [] [] (node ⟨0, 0x3, 0, []⟩) = node <$> reader := by
  simp [node, reader, Leaf.visit, sizeOption, Message.visit, limited_readToEnd]

/--
The size counts the four bytes before the message.
-/
structure Whole (p : Preamble) : Prop where
  flag_eq : p.flag = 0x3
  wMsgSize_eq : p.wMsgSize.toNat = p.message.length + 4

def encode (p : Preamble) : Bytes :=
  p.bMsgtype :: p.flag :: (Endian.le.encode16 p.wMsgSize ++ p.message)

theorem run_reader_iff_encode {p : Preamble} {input rest : Bytes} :
    reader.run input = .ok p rest ↔ p.Whole ∧ input = p.encode ++ rest := by
  constructor
  . intro h
    obtain ⟨bMsgtype, _, htype, h⟩ := run_bind_eq_ok h
    obtain ⟨flag, _, hflag, h⟩ := run_bind_eq_ok h
    obtain ⟨_, _, hexpect, h⟩ := run_bind_eq_ok h
    obtain ⟨wMsgSize, _, hsize, h⟩ := run_bind_eq_ok h
    obtain ⟨size, _, hlift, h⟩ := run_bind_eq_ok h
    obtain ⟨message, _, hmessage, h⟩ := run_bind_eq_ok h
    cases h
    obtain ⟨heq, rfl⟩ := run_expect_eq_ok.mp hexpect
    obtain ⟨hsub, rfl⟩ := run_lift_eq_ok hlift
    obtain ⟨rfl, hlength⟩ := run_readExact_eq_ok.mp hmessage
    obtain ⟨hle, rfl⟩ := checkedSub_eq_ok.mp hsub
    refine ⟨⟨(of_decide_eq_true heq).symm, (Nat.sub_eq_iff_eq_add hle).mp hlength.symm⟩, ?_⟩
    rw [run_readU8_eq_ok.mp htype, run_readU8_eq_ok.mp hflag, run_readU16_iff_encode16.mp hsize, encode]
    simp only [List.cons_append, List.append_assoc]
  . rintro ⟨⟨hflag, hwhole⟩, rfl⟩
    have hsize : (checkedSub p.wMsgSize.toNat 4 : RdpResult Nat) = .ok p.message.length := by
      rw [hwhole]
      rfl
    unfold reader encode
    simp only [List.cons_append, List.append_assoc]
    refine run_bind_eq_ok_iff.mpr ⟨_, _, run_readU8_cons _ _, ?_⟩
    refine run_bind_eq_ok_iff.mpr ⟨_, _, run_readU8_cons _ _, ?_⟩
    refine run_bind_eq_ok_iff.mpr ⟨(), _, run_expect_eq_ok.mpr ⟨by simp [hflag], rfl⟩, ?_⟩
    refine run_bind_eq_ok_iff.mpr ⟨_, _, run_readU16_encode16 _ _ _, ?_⟩
    rw [hsize]
    refine run_bind_eq_ok_iff.mpr ⟨_, _, rfl, ?_⟩
    exact run_bind_eq_ok_iff.mpr ⟨_, _, run_readExact_append rest rfl, rfl⟩

theorem aborts_reader {input : Bytes} : reader.Aborts input ↔ Undersized input := by
  simp only [reader, aborts_readU8_bind, aborts_expect_bind, aborts_bind (x := readU16 .le),
    returns_readU16 .le _, run_readU16_iff_encode16, aborts_lift_bind, Except.aborts_checkedSub,
    aborts_readExact_bind, not_aborts_pure, decide_eq_true_eq, Undersized]
  grind

end Preamble

/--
An error message. What is behind it in its stream is not looked at.
-/
structure ErrorMessage where
  dwErrorCode : UInt32
  dwStateTransition : UInt32
  wBlobType : UInt16
  wBlobLen : UInt16
  blobData : Bytes

namespace ErrorMessage

def node (m : ErrorMessage) : Component := [
  ("dwErrorCode", .leaf (.u32 .le m.dwErrorCode)),
  ("dwStateTransition", .leaf (.u32 .le m.dwStateTransition)),
  ("blob", .component [
    ("wBlobType", .leaf (.u16 .le m.wBlobType)),
    ("wBlobLen", .dynOption (.leaf (.u16 .le m.wBlobLen)) fun node =>
      match node with
      | .u16 size => .ok (.size "blobData" size.toNat)
      | _ => .ok .none),
    ("blobData", .leaf (.bytes m.blobData))
  ])
]

def reader : Reader ErrorMessage := do
  let dwErrorCode ← readU32 .le
  let dwStateTransition ← readU32 .le
  let wBlobType ← readU16 .le
  let wBlobLen ← readU16 .le
  let blobData ← readExact wBlobLen.toNat
  return { dwErrorCode, dwStateTransition, wBlobType, wBlobLen, blobData }

theorem licensingErrorMessage_eq : licensingErrorMessage = node ⟨0, 0, 0, 0, []⟩ := rfl

theorem readerFields_node :
    Message.readerFields [] [] (node ⟨0, 0, 0, 0, []⟩) = node <$> reader := by
  simp [node, reader, Leaf.visit, Message.visit, limited_readToEnd]

def Whole (m : ErrorMessage) : Prop := m.wBlobLen.toNat = m.blobData.length

def encode (m : ErrorMessage) : Bytes :=
  Endian.le.encode32 m.dwErrorCode ++ (Endian.le.encode32 m.dwStateTransition ++
    (Endian.le.encode16 m.wBlobType ++ (Endian.le.encode16 m.wBlobLen ++ m.blobData)))

theorem run_reader_iff_encode {m : ErrorMessage} {input rest : Bytes} :
    reader.run input = .ok m rest ↔ m.Whole ∧ input = m.encode ++ rest := by
  constructor
  . intro h
    obtain ⟨dwErrorCode, _, hcode, h⟩ := run_bind_eq_ok h
    obtain ⟨dwStateTransition, _, htransition, h⟩ := run_bind_eq_ok h
    obtain ⟨wBlobType, _, htype, h⟩ := run_bind_eq_ok h
    obtain ⟨wBlobLen, _, hlen, h⟩ := run_bind_eq_ok h
    obtain ⟨blobData, _, hdata, h⟩ := run_bind_eq_ok h
    cases h
    obtain ⟨rfl, hlength⟩ := run_readExact_eq_ok.mp hdata
    refine ⟨hlength.symm, ?_⟩
    rw [run_readU32_iff_encode32.mp hcode, run_readU32_iff_encode32.mp htransition,
      run_readU16_iff_encode16.mp htype, run_readU16_iff_encode16.mp hlen, encode]
    simp only [List.append_assoc]
  . rintro ⟨hwhole, rfl⟩
    unfold reader encode
    simp only [List.append_assoc]
    refine run_bind_eq_ok_iff.mpr ⟨_, _, run_readU32_encode32 _ _ _, ?_⟩
    refine run_bind_eq_ok_iff.mpr ⟨_, _, run_readU32_encode32 _ _ _, ?_⟩
    refine run_bind_eq_ok_iff.mpr ⟨_, _, run_readU16_encode16 _ _ _, ?_⟩
    refine run_bind_eq_ok_iff.mpr ⟨_, _, run_readU16_encode16 _ _ _, ?_⟩
    exact run_bind_eq_ok_iff.mpr ⟨_, _, run_readExact_append rest hwhole.symm, rfl⟩

theorem returns_reader : Returns reader := by
  unfold reader
  refine (returns_readU32 .le).bind fun _ => (returns_readU32 .le).bind fun _ => ?_
  refine (returns_readU16 .le).bind fun _ => (returns_readU16 .le).bind fun _ => ?_
  exact (returns_readExact _).bind_pure _

/--
The server has nothing to ask for.
-/
structure IsValidClient (m : ErrorMessage) : Prop where
  dwErrorCode_eq : m.dwErrorCode = 0x00000007
  dwStateTransition_eq : m.dwStateTransition = 0x00000002

end ErrorMessage

inductive Preamble.Passes : Preamble → Prop where
  | newLicense (flag : UInt8) (wMsgSize : UInt16) (message : Bytes) :
    Passes ⟨0x03, flag, wMsgSize, message⟩
  | errorAlert (flag : UInt8) (wMsgSize : UInt16) (m : ErrorMessage) (rest : Bytes) (hwhole : m.Whole)
    (hvalid : m.IsValidClient) : Passes ⟨0xFF, flag, wMsgSize, m.encode ++ rest⟩

/--
The stream starts with a licensing message that lets the connection go on.
-/
def Accepted (s : Bytes) : Prop :=
  ∃ (p : Preamble) (rest : Bytes), p.Whole ∧ p.Passes ∧ s = p.encode ++ rest

theorem MessageType.tryFrom_eq_newLicense {v : UInt8} : tryFrom v = .ok .newLicense ↔ v = 0x03 := by
  unfold tryFrom
  split <;> simp_all [← UInt8.toNat_inj]

theorem MessageType.tryFrom_eq_errorAlert {v : UInt8} : tryFrom v = .ok .errorAlert ↔ v = 0xFF := by
  unfold tryFrom
  split <;> simp_all [← UInt8.toNat_inj]

theorem ErrorCode.tryFrom_eq_statusValidClient {v : UInt32} :
    tryFrom v = .ok .statusValidClient ↔ v = 0x00000007 := by
  unfold tryFrom
  split <;> simp_all [← UInt32.toNat_inj]

theorem StateTransition.tryFrom_eq_stNoTransition {v : UInt32} :
    tryFrom v = .ok .stNoTransition ↔ v = 0x00000002 := by
  unfold tryFrom
  split <;> simp_all [← UInt32.toNat_inj]

theorem MessageType.not_aborts_tryFrom (v : UInt8) : ¬ (tryFrom v).Aborts := by
  unfold tryFrom
  split <;> simp

theorem ErrorCode.not_aborts_tryFrom (v : UInt32) : ¬ (tryFrom v).Aborts := by
  unfold tryFrom
  split <;> simp

theorem StateTransition.not_aborts_tryFrom (v : UInt32) : ¬ (tryFrom v).Aborts := by
  unfold tryFrom
  split <;> simp

namespace ErrorMessage

theorem isValidClient_node (m : ErrorMessage) :
    isValidClient (Message.visitFields m.node) = (do
      if (← ErrorCode.tryFrom m.dwErrorCode) = .statusValidClient then
        let transition ← StateTransition.tryFrom m.dwStateTransition
        return transition = .stNoTransition
      else
        return false) := rfl

theorem isValidClient_eq_true {m : ErrorMessage} :
    isValidClient (Message.visitFields m.node) = .ok true ↔ m.IsValidClient := by
  rw [isValidClient_node]
  constructor
  . intro h
    obtain ⟨code, hcode, h⟩ := Except.bind_eq_ok h
    split at h
    next heq =>
      obtain ⟨transition, htransition, h⟩ := Except.bind_eq_ok h
      have htrue : transition = .stNoTransition := of_decide_eq_true (Except.ok.inj h)
      rw [heq] at hcode
      rw [htrue] at htransition
      exact ⟨ErrorCode.tryFrom_eq_statusValidClient.mp hcode,
        StateTransition.tryFrom_eq_stNoTransition.mp htransition⟩
    next => cases h
  . rintro ⟨hcode, htransition⟩
    rw [hcode, htransition]
    rfl

theorem not_aborts_isValidClient (m : ErrorMessage) :
    ¬ (isValidClient (Message.visitFields m.node)).Aborts := by
  rw [isValidClient_node, Except.aborts_bind]
  rintro (h | ⟨code, _, h⟩)
  . exact ErrorCode.not_aborts_tryFrom _ h
  . split at h
    next =>
      rcases Except.aborts_bind.mp h with h | ⟨_, _, h⟩
      . exact StateTransition.not_aborts_tryFrom _ h
      . exact Except.not_aborts_pure _ h
    next => exact Except.not_aborts_pure _ h

end ErrorMessage

namespace Preamble

def check (p : Preamble) : RdpResult Unit := do
  match ← MessageType.tryFrom p.bMsgtype with
  | .newLicense => return ()
  | .errorAlert =>
    let m ← parse ErrorMessage.reader p.message
    if ← isValidClient (Message.visitFields m.node) then
      return ()
    else
      .error (.error (.new .invalidRespond
        "Server reject license, Actually license nego is not implemented"))
  | _ => .error (.error (.new .notImplemented "Licensing nego not implemented"))

theorem run_licensingErrorMessage (stream : Bytes) :
    (Message.component licensingErrorMessage).reader.run stream =
      ((fun m => Message.component (ErrorMessage.node m)) <$> ErrorMessage.reader).run stream := by
  rw [Message.reader_component, ErrorMessage.licensingErrorMessage_eq, ErrorMessage.readerFields_node]
  rw [bind_pure_comp, Functor.map_map]

theorem parsePayload_node (p : Preamble) :
    parsePayload (Message.visitFields p.node) = (do
      match ← MessageType.tryFrom p.bMsgtype with
      | .newLicense => return .newLicense
      | .errorAlert => return .errorAlert (Message.visitFields (← parse ErrorMessage.reader p.message).node)
      | _ => .error (.error (.new .notImplemented "Licensing nego not implemented"))) := by
  change (MessageType.tryFrom p.bMsgtype >>= _) = _
  refine congrArg (MessageType.tryFrom p.bMsgtype >>= ·) (funext fun type => ?_)
  cases type with
  | errorAlert =>
    have hmessage : (do castSlice (← field (Message.visitFields p.node) "message")) = .ok p.message := rfl
    dsimp only
    rw [← bind_assoc, hmessage]
    refine (pure_bind p.message _).trans ?_
    rw [run_licensingErrorMessage, run_map, parse]
    cases ErrorMessage.reader.run p.message <;> rfl
  | _ => rfl

theorem clientConnect_eq : clientConnect = (do Prog.lift (check (← Preamble.reader))) := by
  unfold clientConnect
  rw [Message.reader_component, preamble_eq, readerFields_node]
  simp only [map_eq_pure_bind, bind_assoc, pure_bind]
  congr
  funext p
  change (Prog.lift (parsePayload (Message.visitFields p.node)) >>= _) = _
  rw [parsePayload_node, check]
  cases MessageType.tryFrom p.bMsgtype with
  | error e => rfl
  | ok type =>
    cases type with
    | errorAlert =>
      change (Prog.lift (parse ErrorMessage.reader p.message >>= _) >>= _) =
        Prog.lift (parse ErrorMessage.reader p.message >>= _)
      cases parse ErrorMessage.reader p.message with
      | error e => rfl
      | ok m =>
        change (Prog.lift (isValidClient (Message.visitFields m.node)) >>= _) =
          Prog.lift (isValidClient (Message.visitFields m.node) >>= _)
        cases isValidClient (Message.visitFields m.node) with
        | error e => rfl
        | ok valid => cases valid <;> rfl
    | _ => rfl

theorem check_eq_ok {p : Preamble} : p.check = .ok () ↔ p.Passes := by
  constructor
  . intro h
    obtain ⟨bMsgtype, flag, wMsgSize, message⟩ := p
    obtain ⟨type, htype, h⟩ := Except.bind_eq_ok h
    cases type with
    | newLicense =>
      cases MessageType.tryFrom_eq_newLicense.mp htype
      exact .newLicense flag wMsgSize message
    | errorAlert =>
      cases MessageType.tryFrom_eq_errorAlert.mp htype
      obtain ⟨m, hparse, h⟩ := Except.bind_eq_ok h
      obtain ⟨valid, hvalid, h⟩ := Except.bind_eq_ok h
      cases valid with
      | false => cases h
      | true =>
        obtain ⟨rest, hrun⟩ := parse_eq_ok.mp hparse
        obtain ⟨hwhole, hmessage⟩ := ErrorMessage.run_reader_iff_encode.mp hrun
        change message = _ at hmessage
        rw [hmessage]
        exact .errorAlert flag wMsgSize m rest hwhole (ErrorMessage.isValidClient_eq_true.mp hvalid)
    | _ => cases h
  . rintro (⟨flag, wMsgSize, message⟩ | ⟨flag, wMsgSize, m, rest, hwhole, hvalid⟩)
    . rfl
    . have hparse : parse ErrorMessage.reader (m.encode ++ rest) = .ok m :=
        parse_eq_ok.mpr ⟨rest, ErrorMessage.run_reader_iff_encode.mpr ⟨hwhole, rfl⟩⟩
      change (parse ErrorMessage.reader (m.encode ++ rest) >>= _) = _
      rw [hparse]
      change (isValidClient (Message.visitFields m.node) >>= _) = _
      rw [ErrorMessage.isValidClient_eq_true.mpr hvalid]
      rfl

theorem not_aborts_check (p : Preamble) : ¬ p.check.Aborts := by
  unfold check
  rw [Except.aborts_bind]
  rintro (h | ⟨type, _, h⟩)
  . exact MessageType.not_aborts_tryFrom _ h
  . cases type with
    | errorAlert =>
      rcases Except.aborts_bind.mp h with h | ⟨m, _, h⟩
      . exact ErrorMessage.returns_reader _ (aborts_parse.mp h)
      . rcases Except.aborts_bind.mp h with h | ⟨valid, _, h⟩
        . exact m.not_aborts_isValidClient h
        . cases valid with
          | true => exact Except.not_aborts_pure _ h
          | false => exact (Except.aborts_error _).mp h (Fault.isError_error _)
    | newLicense => exact Except.not_aborts_pure _ h
    | _ => exact (Except.aborts_error _).mp h (Fault.isError_error _)

end Preamble

theorem run_clientConnect_eq_ok {s rest : Bytes} :
    clientConnect.run s = .ok () rest ↔
      ∃ p : Preamble, p.Whole ∧ p.Passes ∧ s = p.encode ++ rest := by
  rw [Preamble.clientConnect_eq, run_bind_eq_ok_iff]
  constructor
  . rintro ⟨p, t, hrun, hcheck⟩
    obtain ⟨hpasses, rfl⟩ := run_lift_eq_ok hcheck
    obtain ⟨hwhole, rfl⟩ := Preamble.run_reader_iff_encode.mp hrun
    exact ⟨p, hwhole, Preamble.check_eq_ok.mp hpasses, rfl⟩
  . rintro ⟨p, hwhole, hpasses, rfl⟩
    refine ⟨p, rest, Preamble.run_reader_iff_encode.mpr ⟨hwhole, rfl⟩, ?_⟩
    rw [Preamble.check_eq_ok.mpr hpasses]
    rfl

theorem aborts_clientConnect {s : Bytes} : clientConnect.Aborts s ↔ Undersized s := by
  rw [Preamble.clientConnect_eq, aborts_bind, Preamble.aborts_reader]
  refine or_iff_left_of_imp ?_
  rintro ⟨p, t, _, h⟩
  exact absurd ((aborts_lift _ _).mp h) p.not_aborts_check

/--
The client goes on exactly with a stream that is accepted, and reports an error on every other one.
-/
def Gates (s : Bytes) : Prop :=
  ((∃ rest, clientConnect.run s = .ok () rest) ↔ Accepted s) ∧
  (¬ Accepted s → ∃ e rest, clientConnect.run s = .error (.error e) rest)

theorem gates_iff (s : Bytes) : Gates s ↔ ¬ Undersized s := by
  have hok : (∃ rest, clientConnect.run s = .ok () rest) ↔ Accepted s := by
    simp only [run_clientConnect_eq_ok, Accepted]
    exact exists_comm
  rw [← aborts_clientConnect]
  constructor
  . rintro ⟨_, herror⟩ habort
    have hnot : ¬ Accepted s := by
      rw [← hok]
      rintro ⟨rest, hrun⟩
      exact not_aborts_of_run_ok hrun habort
    obtain ⟨e, rest, hrun⟩ := herror hnot
    exact (aborts_of_run_error hrun).mp habort (Fault.isError_error e)
  . intro h
    refine ⟨hok, ?_⟩
    intro hnot
    rcases cases_of_not_aborts h with ⟨_, rest, hrun⟩ | herror
    . exact absurd (hok.mp ⟨rest, hrun⟩) hnot
    . exact herror

/--
An error alert that announces three bytes.
-/
theorem not_gates_undersized : ¬ Gates [0xFF, 0x03, 0x03, 0x00] := by
  have hrun : clientConnect.run [0xFF, 0x03, 0x03, 0x00] =
      .error (.panic "attempt to subtract with overflow") [] := rfl
  have hnot : ¬ Accepted [0xFF, 0x03, 0x03, 0x00] := by
    rintro ⟨p, rest, hwhole, hpasses, h⟩
    have hok := run_clientConnect_eq_ok.mpr ⟨p, hwhole, hpasses, h⟩
    cases hok.symm.trans hrun
  rintro ⟨_, herror⟩
  obtain ⟨e, rest, h⟩ := herror hnot
  cases h.symm.trans hrun

end Rdp.License
