import Rdp.Model.Data.Length
import Rdp.Model.Data.Reader

/-!
This module contains the equations of the readers of messages: a template is read by the program
that reads its parts one after the other. With them the reader of a concrete template unfolds to
the reads it does on the stream.
-/

namespace Rdp

namespace Endian

theorem length_encode16 (e : Endian) (v : UInt16) : (e.encode16 v).length = 2 := by
  cases e <;> rfl

theorem length_encode32 (e : Endian) (v : UInt32) : (e.encode32 v).length = 4 := by
  cases e <;> rfl

end Endian

namespace Cursor

def readToEnd : Reader Bytes := do
  let bytes ← get
  set ([] : Bytes)
  return bytes

def readExact (n : Nat) : Reader Bytes := do
  let bytes ← get
  if n ≤ bytes.length then
    set (bytes.drop n)
    return bytes.take n
  else
    set ([] : Bytes)
    Prog.fail (.io .unexpectedEof)

/--
Run a reader on the next `n` bytes, of which nothing is left to the readers after it.
-/
def limited (n : Nat) (x : Reader α) : Reader α := do
  let (a, _) ← Prog.on (← readExact n) x
  return a

/--
The comparison of `Check::read`, after the value was read.
-/
def expect (ok : Bool) : Reader Unit :=
  if ok then
    return ()
  else
    Prog.fail (.new .invalidConst "Invalid constness of data")

@[simp]
theorem run_readToEnd (input : Bytes) : readToEnd.run input = .ok input [] := rfl

theorem run_readExact (n : Nat) (input : Bytes) :
    (readExact n).run input =
      if n ≤ input.length then
        .ok (input.take n) (input.drop n)
      else
        .error (.error (.io .unexpectedEof)) [] := by
  change EStateM.run (if n ≤ input.length then _ else _) input = _
  split <;> rfl

theorem run_limited (n : Nat) (x : Reader α) (input : Bytes) :
    (limited n x).run input =
      if n ≤ input.length then
        match x.run (input.take n) with
        | .ok a _ => .ok a (input.drop n)
        | .error e _ => .error e (input.drop n)
      else
        .error (.error (.io .unexpectedEof)) [] := by
  rw [limited, EStateM.run_bind, run_readExact]
  by_cases h : n ≤ input.length
  . simp only [if_pos h, EStateM.run_bind, Prog.run_on]
    cases x.run (input.take n) <;> rfl
  . simp only [if_neg h]

section Encoded

variable (e : Endian) (rest : Bytes)

theorem run_readU16_encode16 (v : UInt16) :
    (readU16 e).run (e.encode16 v ++ rest) = .ok v rest := by
  cases e with
  | be => exact congrArg (EStateM.Result.ok · rest) (le16_bytes v)
  | le => exact congrArg (EStateM.Result.ok · rest) (le16_bytes v)

theorem run_readU32_encode32 (v : UInt32) :
    (readU32 e).run (e.encode32 v ++ rest) = .ok v rest := by
  cases e with
  | be => exact congrArg (EStateM.Result.ok · rest) (le32_bytes v)
  | le => exact congrArg (EStateM.Result.ok · rest) (le32_bytes v)

theorem run_readExact_append {n : Nat} {bytes : Bytes} (h : bytes.length = n) :
    (readExact n).run (bytes ++ rest) = .ok bytes rest := by
  rw [run_readExact, if_pos (by simp [h]), List.take_left' h, List.drop_left' h]

theorem run_limited_append {n : Nat} {bytes rest' : Bytes} (h : bytes.length = n) {x : Reader α} {a : α}
    (hrun : x.run bytes = .ok a rest') : (limited n x).run (bytes ++ rest) = .ok a rest := by
  rw [run_limited, if_pos (by simp [h]), List.take_left' h, List.drop_left' h, hrun]

end Encoded

section Inversion

variable {input rest : Bytes}

theorem run_readU8_eq_ok {v : UInt8} : readU8.run input = .ok v rest ↔ input = v :: rest := by
  cases input with
  | nil => simp
  | cons a input => simp

theorem run_readU16_eq_ok {e : Endian} {v : UInt16} :
    (readU16 e).run input = .ok v rest ↔ ∃ a b, input = a :: b :: rest ∧ v = e.decode16 a b := by
  constructor
  . intro h
    match input with
    | [] | [_] => cases h
    | a :: b :: _ =>
      cases h
      exact ⟨a, b, rfl, rfl⟩
  . rintro ⟨a, b, rfl, rfl⟩
    rfl

theorem run_readU32_eq_ok {e : Endian} {v : UInt32} :
    (readU32 e).run input = .ok v rest ↔
      ∃ a b c d, input = a :: b :: c :: d :: rest ∧ v = e.decode32 a b c d := by
  constructor
  . intro h
    match input with
    | [] | [_] | [_, _] | [_, _, _] => cases h
    | a :: b :: c :: d :: _ =>
      cases h
      exact ⟨a, b, c, d, rfl, rfl⟩
  . rintro ⟨a, b, c, d, rfl, rfl⟩
    rfl

theorem run_readU16_iff_encode16 {e : Endian} {v : UInt16} :
    (readU16 e).run input = .ok v rest ↔ input = e.encode16 v ++ rest := by
  constructor
  . intro h
    obtain ⟨a, b, rfl, rfl⟩ := run_readU16_eq_ok.mp h
    cases e with
    | be => exact congrArg (fun l => l.reverse ++ rest) (bytes_le16 b a).symm
    | le => exact congrArg (· ++ rest) (bytes_le16 a b).symm
  . rintro rfl
    exact run_readU16_encode16 e rest v

theorem run_readU32_iff_encode32 {e : Endian} {v : UInt32} :
    (readU32 e).run input = .ok v rest ↔ input = e.encode32 v ++ rest := by
  constructor
  . intro h
    obtain ⟨a, b, c, d, rfl, rfl⟩ := run_readU32_eq_ok.mp h
    cases e with
    | be => exact congrArg (fun l => l.reverse ++ rest) (bytes_le32 d c b a).symm
    | le => exact congrArg (· ++ rest) (bytes_le32 a b c d).symm
  . rintro rfl
    exact run_readU32_encode32 e rest v

theorem exists_encode16 (input : Bytes) (h : 2 ≤ input.length) :
    ∃ v rest, input = Endian.le.encode16 v ++ rest ∧ rest.length + 2 = input.length := by
  match input, h with
  | a :: b :: rest, _ => exact ⟨le16 a b, rest, (congrArg (· ++ rest) (bytes_le16 a b)).symm, rfl⟩

theorem exists_encode32 (input : Bytes) (h : 4 ≤ input.length) :
    ∃ v rest, input = Endian.le.encode32 v ++ rest ∧ rest.length + 4 = input.length := by
  match input, h with
  | a :: b :: c :: d :: rest, _ =>
    exact ⟨le32 a b c d, rest, (congrArg (· ++ rest) (bytes_le32 a b c d)).symm, rfl⟩

theorem run_readExact_eq_ok {n : Nat} {v : Bytes} :
    (readExact n).run input = .ok v rest ↔ input = v ++ rest ∧ v.length = n := by
  rw [run_readExact]
  constructor
  . intro h
    split at h
    next hle =>
      cases h
      exact ⟨(List.take_append_drop n input).symm, List.length_take_of_le hle⟩
    next => cases h
  . rintro ⟨rfl, rfl⟩
    rw [if_pos (by simp), List.take_left, List.drop_left]

theorem run_limited_eq_ok {n : Nat} {x : Reader α} {a : α} (h : (limited n x).run input = .ok a rest) :
    ∃ bytes rest', input = bytes ++ rest ∧ bytes.length = n ∧ x.run bytes = .ok a rest' := by
  rw [run_limited] at h
  split at h
  next hle =>
    split at h
    next rest' hrun =>
      cases h
      exact ⟨_, rest', (List.take_append_drop n input).symm, List.length_take_of_le hle, hrun⟩
    next => cases h
  next => cases h

theorem run_readToEnd_eq_ok {v : Bytes} :
    readToEnd.run input = .ok v rest ↔ input = v ∧ rest = [] := by
  constructor
  . intro h
    cases h
    exact ⟨rfl, rfl⟩
  . rintro ⟨rfl, rfl⟩
    rfl

theorem run_expect_eq_ok {ok : Bool} {u : Unit} :
    (expect ok).run input = .ok u rest ↔ ok = true ∧ input = rest := by
  cases ok <;> simp [expect]

end Inversion

end Cursor

namespace MessageOption

@[simp]
theorem addSkip_none (skips : List String) : MessageOption.none.addSkip skips = skips := rfl

@[simp]
theorem addSize_none (sizes : List (String × Nat)) : MessageOption.none.addSize sizes = sizes := rfl

@[simp]
theorem addSkip_skipField (field : String) (skips : List String) :
    (skipField field).addSkip skips = field :: skips := rfl

@[simp]
theorem addSize_skipField (field : String) (sizes : List (String × Nat)) :
    (skipField field).addSize sizes = sizes := rfl

@[simp]
theorem addSkip_size (field : String) (n : Nat) (skips : List String) :
    (size field n).addSkip skips = skips := rfl

@[simp]
theorem addSize_size (field : String) (n : Nat) (sizes : List (String × Nat)) :
    (size field n).addSize sizes = (field, n) :: sizes := rfl

end MessageOption

open Cursor

namespace Message

theorem run_reader (m : Message) (input : Bytes) :
    m.reader.run input =
      match (m.read input).outcome with
      | .ok () => .ok (m.read input).node (m.read input).rest
      | .error e => .error e (m.read input).rest := rfl

@[simp]
theorem reader_u8 (v : UInt8) :
    (leaf (.u8 v)).reader = (do return leaf (.u8 (← readU8))) := by
  funext input
  cases input <;> rfl

@[simp]
theorem reader_u16 (e : Endian) (v : UInt16) :
    (leaf (.u16 e v)).reader = (do return leaf (.u16 e (← readU16 e))) := by
  funext input
  match input with
  | [] | [_] | _ :: _ :: _ => rfl

@[simp]
theorem reader_u32 (e : Endian) (v : UInt32) :
    (leaf (.u32 e v)).reader = (do return leaf (.u32 e (← readU32 e))) := by
  funext input
  match input with
  | [] | [_] | [_, _] | [_, _, _] | _ :: _ :: _ :: _ :: _ => rfl

@[simp]
theorem reader_bytes_nil :
    (leaf (.bytes [])).reader = (do return leaf (.bytes (← readToEnd))) := by
  funext input
  cases input <;> rfl

@[simp]
theorem reader_bytes_cons (a : UInt8) (v : Bytes) :
    (leaf (.bytes (a :: v))).reader = (do return leaf (.bytes (← readExact (v.length + 1)))) := by
  funext input
  change (leaf (.bytes (a :: v))).reader.run input =
    (do return leaf (.bytes (← readExact (v.length + 1))) : Reader Message).run input
  rw [run_reader, EStateM.run_bind, run_readExact]
  by_cases h : v.length < input.length
  . have h' : v.length + 1 ≤ input.length := h
    simp only [read, Leaf.read, if_pos h, if_pos h', ReadResult.map]
    rfl
  . have h' : ¬ v.length + 1 ≤ input.length := h
    simp only [read, Leaf.read, if_neg h, if_neg h', ReadResult.map, ReadResult.unexpectedEof]

theorem reader_check (v : Leaf) :
    (check v).reader = (do
      match ← (leaf v).reader with
      | .leaf w =>
        expect (v.eq w)
        return check w
      | m => return m) := by
  funext input
  change (check v).reader.run input = EStateM.run (_ >>= _) input
  rw [run_reader, EStateM.run_bind, run_reader]
  simp only [read, Leaf.readCheck, ReadResult.map]
  cases hout : (v.read input).outcome with
  | error e => rfl
  | ok _ =>
    by_cases heq : v.eq (v.read input).node = true
    . simp only [heq, if_true, hout]
      rfl
    . rw [Bool.not_eq_true] at heq
      simp only [heq]
      rfl

@[simp]
theorem reader_check_u8 (v : UInt8) :
    (check (.u8 v)).reader = (do
      let w ← readU8
      expect (v = w)
      return check (.u8 w)) := by
  rw [reader_check, reader_u8]
  simp only [bind_assoc, pure_bind]
  rfl

@[simp]
theorem reader_check_u16 (e : Endian) (v : UInt16) :
    (check (.u16 e v)).reader = (do
      let w ← readU16 e
      expect (v = w)
      return check (.u16 e w)) := by
  rw [reader_check, reader_u16]
  simp only [bind_assoc, pure_bind]
  rfl

@[simp]
theorem reader_check_u32 (e : Endian) (v : UInt32) :
    (check (.u32 e v)).reader = (do
      let w ← readU32 e
      expect (v = w)
      return check (.u32 e w)) := by
  rw [reader_check, reader_u32]
  simp only [bind_assoc, pure_bind]
  rfl

@[simp]
theorem reader_check_bytes (a : UInt8) (v : Bytes) :
    (check (.bytes (a :: v))).reader = (do
      let w ← readExact (v.length + 1)
      expect (a :: v = w)
      return check (.bytes w)) := by
  rw [reader_check, reader_bytes_cons]
  simp only [bind_assoc, pure_bind]
  rfl

@[simp]
theorem reader_dynOption (inner : Message) (filter : DataType → RdpResult MessageOption) :
    (dynOption inner filter).reader = (do return dynOption (← inner.reader) filter) := by
  funext input
  change (dynOption inner filter).reader.run input = EStateM.run (_ >>= _) input
  rw [run_reader, EStateM.run_bind, run_reader]
  simp only [read, ReadResult.map]
  cases (inner.read input).outcome <;> rfl

@[simp]
theorem reader_option_none : (option none).reader = (return option none) := by
  funext input
  rfl

def readerTrame (ms : Trame) : Reader Trame :=
  match ms with
  | [] => return []
  | m :: ms => do
    let node ← m.reader
    return node :: (← readerTrame ms)

/--
The reader of a field whose size may have been announced.
-/
def readerSized (m : Message) (size : Option Nat) : Reader Message :=
  match size with
  | none => m.reader
  | some n => limited n m.reader

def readerFields (skips : List String) (sizes : List (String × Nat)) (fields : Component) :
    Reader Component :=
  match fields with
  | [] => return []
  | (name, m) :: fields =>
    if name ∈ skips then do
      return (name, m) :: (← readerFields skips sizes fields)
    else do
      let node ← m.readerSized (sizes.lookup name)
      let o ← Prog.lift node.options
      return (name, node) :: (← readerFields (o.addSkip skips) (o.addSize sizes) fields)

theorem run_readerTrame (ms : Trame) (input : Bytes) :
    (readerTrame ms).run input =
      match (readTrame ms input).outcome with
      | .ok () => .ok (readTrame ms input).node (readTrame ms input).rest
      | .error e => .error e (readTrame ms input).rest := by
  induction ms generalizing input with
  | nil => rfl
  | cons m ms ih =>
    rw [readerTrame, EStateM.run_bind, run_reader, readTrame]
    cases (m.read input).outcome with
    | error e => rfl
    | ok _ =>
      simp only [EStateM.run_bind, ih, ReadResult.map]
      cases (readTrame ms (m.read input).rest).outcome <;> rfl

@[simp]
theorem reader_trame (ms : Trame) : (trame ms).reader = (do return trame (← readerTrame ms)) := by
  funext input
  change (trame ms).reader.run input = EStateM.run (_ >>= _) input
  rw [run_reader, EStateM.run_bind, run_readerTrame]
  simp only [read, ReadResult.map]
  cases (readTrame ms input).outcome <;> rfl

theorem run_readerSized (m : Message) (size : Option Nat) (input : Bytes) :
    (m.readerSized size).run input =
      let r := readSized (fun input => m.read input) m size input
      match r.outcome with
      | .ok () => .ok r.node r.rest
      | .error e => .error e r.rest := by
  cases size with
  | none => rfl
  | some n =>
    simp only [readerSized, run_limited, readSized, run_reader]
    by_cases h : n ≤ input.length
    . simp only [if_pos h]
      cases (m.read (input.take n)).outcome <;> rfl
    . simp only [if_neg h]
      rfl

theorem run_readerFields (skips : List String) (sizes : List (String × Nat)) (fields : Component)
    (input : Bytes) :
    (readerFields skips sizes fields).run input =
      match (readFields skips sizes fields input).outcome with
      | .ok () =>
        .ok (readFields skips sizes fields input).node (readFields skips sizes fields input).rest
      | .error e => .error e (readFields skips sizes fields input).rest := by
  induction fields generalizing skips sizes input with
  | nil => rfl
  | cons f fields ih =>
    obtain ⟨name, m⟩ := f
    rw [readerFields, readFields]
    by_cases hskip : name ∈ skips
    . simp only [if_pos hskip, EStateM.run_bind, ih, ReadResult.map]
      cases (readFields skips sizes fields input).outcome <;> rfl
    . simp only [if_neg hskip, EStateM.run_bind, run_readerSized]
      cases (readSized (fun input => m.read input) m (sizes.lookup name) input).outcome with
      | error e => rfl
      | ok _ =>
        simp only
        cases (readSized (fun input => m.read input) m (sizes.lookup name) input).node.options with
        | error e => rfl
        | ok o =>
          simp only [Prog.run_lift_ok, ih, ReadResult.map]
          cases (readFields (o.addSkip skips) (o.addSize sizes) fields _).outcome <;> rfl

@[simp]
theorem reader_component (fields : Component) :
    (component fields).reader = (do return component (← readerFields [] [] fields)) := by
  funext input
  change (component fields).reader.run input = EStateM.run (_ >>= _) input
  rw [run_reader, EStateM.run_bind, run_readerFields]
  simp only [read, ReadResult.map]
  cases (readFields [] [] fields input).outcome <;> rfl

section Simp

variable (skips : List String) (sizes : List (String × Nat)) (name : String) (m : Message)
  (ms : Trame) (fields : Component)

@[simp]
theorem readerTrame_nil : readerTrame [] = return [] := rfl

@[simp]
theorem readerTrame_cons :
    readerTrame (m :: ms) = (do let node ← m.reader; return node :: (← readerTrame ms)) := rfl

@[simp]
theorem readerFields_nil : readerFields skips sizes [] = return [] := rfl

variable {skips name} in
@[simp]
theorem readerFields_cons_of_mem (h : name ∈ skips) :
    readerFields skips sizes ((name, m) :: fields) = (do
      return (name, m) :: (← readerFields skips sizes fields)) := by
  rw [readerFields, if_pos h]

variable {skips name} in
@[simp]
theorem readerFields_cons_of_not_mem (h : name ∉ skips) :
    readerFields skips sizes ((name, m) :: fields) = (do
      let node ← m.readerSized (sizes.lookup name)
      let o ← Prog.lift node.options
      return (name, node) :: (← readerFields (o.addSkip skips) (o.addSize sizes) fields)) := by
  rw [readerFields, if_neg h]

@[simp]
theorem readerSized_none : m.readerSized none = m.reader := rfl

@[simp]
theorem readerSized_some (n : Nat) : m.readerSized (some n) = limited n m.reader := rfl

@[simp]
theorem options_leaf (v : Leaf) : (leaf v).options = .ok .none := rfl

@[simp]
theorem options_check (v : Leaf) : (check v).options = .ok .none := rfl

@[simp]
theorem options_option (v : Option Message) : (option v).options = .ok .none := rfl

@[simp]
theorem options_trame : (trame ms).options = .ok .none := rfl

@[simp]
theorem options_array (factory : Option Message) : (array ms factory).options = .ok .none := rfl

@[simp]
theorem options_component : (component fields).options = .ok .none := rfl

@[simp]
theorem options_dynOption (filter : DataType → RdpResult MessageOption) :
    (dynOption m filter).options = filter m.visit := rfl

end Simp

section Write

variable (skips : List String) (name : String) (m : Message) (ms : Trame) (fields : Component)

@[simp]
theorem write_leaf (v : Leaf) : (leaf v).write = .ok v.write := rfl

@[simp]
theorem write_check (v : Leaf) : (check v).write = .ok v.write := rfl

@[simp]
theorem write_dynOption (filter : DataType → RdpResult MessageOption) :
    (dynOption m filter).write = m.write := rfl

@[simp]
theorem write_trame : (trame ms).write = writeTrame ms := rfl

@[simp]
theorem write_component : (component fields).write = writeFields [] fields := rfl

@[simp]
theorem writeTrame_nil : writeTrame [] = .ok [] := rfl

@[simp]
theorem writeTrame_cons :
    writeTrame (m :: ms) = (do let bytes ← m.write; return bytes ++ (← writeTrame ms)) := rfl

@[simp]
theorem writeFields_nil : writeFields skips [] = .ok [] := rfl

variable {skips name} in
@[simp]
theorem writeFields_cons_of_mem (h : name ∈ skips) :
    writeFields skips ((name, m) :: fields) = writeFields skips fields := by
  rw [writeFields, if_pos h]

variable {skips name} in
@[simp]
theorem writeFields_cons_of_not_mem (h : name ∉ skips) :
    writeFields skips ((name, m) :: fields) = (do
      let bytes ← m.write
      let o ← m.options
      return bytes ++ (← writeFields (o.addSkip skips) fields)) := by
  rw [writeFields, if_neg h]

@[simp]
theorem length_leaf (v : Leaf) : (leaf v).length = .ok v.length := rfl

@[simp]
theorem length_check (v : Leaf) : (check v).length = .ok v.length := rfl

@[simp]
theorem length_dynOption (filter : DataType → RdpResult MessageOption) :
    (dynOption m filter).length = m.length := rfl

@[simp]
theorem length_trame : (trame ms).length = lengthTrame ms := rfl

@[simp]
theorem length_component : (component fields).length = lengthFields [] fields := rfl

@[simp]
theorem lengthTrame_nil : lengthTrame [] = .ok 0 := rfl

@[simp]
theorem lengthTrame_cons :
    lengthTrame (m :: ms) = (do let n ← m.length; return n + (← lengthTrame ms)) := rfl

@[simp]
theorem lengthFields_nil : lengthFields skips [] = .ok 0 := rfl

variable {skips name} in
@[simp]
theorem lengthFields_cons_of_mem (h : name ∈ skips) :
    lengthFields skips ((name, m) :: fields) = lengthFields skips fields := by
  rw [lengthFields, if_pos h]

variable {skips name} in
@[simp]
theorem lengthFields_cons_of_not_mem (h : name ∉ skips) :
    lengthFields skips ((name, m) :: fields) = (do
      let o ← m.options
      let n ← m.length
      return n + (← lengthFields (o.addSkip skips) fields)) := by
  rw [lengthFields, if_neg h]

theorem length_of_write {bytes : Bytes} (h : m.write = .ok bytes) : m.length = .ok bytes.length :=
  (m.measures _).mpr ⟨bytes, h, rfl⟩

end Write

end Message

end Rdp
