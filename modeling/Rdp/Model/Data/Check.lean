import Rdp.Model.Data.Length
import Rdp.Model.Data.RoundTrip
import Rdp.Model.Read

/-!
This module contains the reads of a `Check` from any stream: what they leave in the node, and when its
constant outlives them.
-/

namespace Rdp

open Prog

namespace Leaf

variable {σ : Type} [Read σ]

def decode (value : Leaf) (taken : Bytes) : Leaf :=
  match value, taken with
  | .u8 _, [a] => .u8 a
  | .u16 e _, [a, b] => .u16 e (e.decode16 a b)
  | .u32 e _, [a, b, c, d] => .u32 e (e.decode32 a b c d)
  | .bytes _, taken => .bytes taken
  -- no other number of bytes fills the buffer of an integer
  | value, _ => value

/--
What is left of a node whose read failed behind these bytes. An integer has a buffer of its own, and a
vector is its own buffer.
-/
def overwrite (value : Leaf) (taken : Bytes) : Leaf :=
  match value with
  | .bytes v => .bytes (taken ++ v.drop taken.length)
  | value => value

def readFrom : Prog Error (Leaf × σ) Unit := fun (value, stream) =>
  if value = .bytes [] then
    match Read.readToEnd stream with
    | (taken, none, stream) => .ok () (.bytes taken, stream)
    | (taken, some e, stream) => .error (.error (.io e)) (.bytes taken, stream)
  else
    let r := Read.readExact value.length stream
    match r.failure with
    | none => .ok () (value.decode r.bytes, r.stream)
    | some e => .error (.error (.io e)) (value.overwrite r.bytes, r.stream)

def invalidConst : Error := .new .invalidConst "Invalid constness of data"

/--
`Check::read`. The old value is only kept for the comparison.
-/
def readCheckFrom : Prog Error (Leaf × σ) Unit := do
  let (old, _) ← get
  readFrom
  let (value, _) ← get
  if old.eq value then
    return ()
  else
    Prog.fail invalidConst

section Read

variable {value : Leaf} {stream : σ}

theorem run_readFrom_of_none (hne : value ≠ .bytes [])
    (h : (Read.readExact value.length stream).failure = none) :
    readFrom.run (value, stream) =
      .ok () (value.decode (Read.readExact value.length stream).bytes,
        (Read.readExact value.length stream).stream) := by
  simp only [readFrom, EStateM.run, if_neg hne, h]

theorem run_readFrom_of_some {e : IoError} (hne : value ≠ .bytes [])
    (h : (Read.readExact value.length stream).failure = some e) :
    readFrom.run (value, stream) =
      .error (.error (.io e)) (value.overwrite (Read.readExact value.length stream).bytes,
        (Read.readExact value.length stream).stream) := by
  simp only [readFrom, EStateM.run, if_neg hne, h]

theorem run_readCheckFrom (value : Leaf) (stream : σ) :
    readCheckFrom.run (value, stream) =
      match readFrom.run (value, stream) with
      | .ok _ (node, stream) =>
        if value.eq node then
          .ok () (node, stream)
        else
          .error (.error invalidConst) (node, stream)
      | .error e s => .error e s := by
  rw [readCheckFrom, EStateM.run_bind, EStateM.run_get]
  dsimp only
  rw [EStateM.run_bind]
  cases readFrom.run (value, stream) with
  | ok u s =>
    dsimp only
    rw [EStateM.run_bind, EStateM.run_get]
    dsimp only
    split <;> rfl
  | error e s => rfl

end Read

section Cursor

variable {value : Leaf} {input : Bytes}

theorem read_of_le (hne : value ≠ .bytes []) (h : value.length ≤ input.length) :
    value.read input =
      ⟨.ok (), value.decode (input.take value.length), input.drop value.length⟩ := by
  match value, input with
  | .u8 _, _ :: _ => rfl
  | .u16 _ _, _ :: _ :: _ => rfl
  | .u32 _ _, _ :: _ :: _ :: _ :: _ => rfl
  | .bytes [], _ => exact absurd rfl hne
  | .bytes (_ :: v), input =>
    have hlt : v.length < input.length := h
    simp only [read, if_pos hlt, decode, length, List.length_cons]

theorem read_of_lt (hne : value ≠ .bytes []) (h : input.length < value.length) :
    value.read input = .unexpectedEof value := by
  match value, input with
  | .u8 _, [] => rfl
  | .u16 _ _, [] | .u16 _ _, [_] => rfl
  | .u32 _ _, [] | .u32 _ _, [_] | .u32 _ _, [_, _] | .u32 _ _, [_, _, _] => rfl
  | .bytes [], _ => exact absurd rfl hne
  | .bytes (_ :: v), input =>
    have hnot : ¬ v.length < input.length := Nat.not_lt_of_le (Nat.le_of_lt_succ h)
    simp only [read, if_neg hnot]

theorem run_readFrom_cursor (value : Leaf) (input : Bytes) :
    readFrom.run (value, input) =
      match (value.read input).outcome with
      | .ok () => .ok () ((value.read input).node, (value.read input).rest)
      | .error e => .error e ((value.read input).node, (value.read input).rest) := by
  by_cases hempty : value = .bytes []
  . subst hempty
    rw [read_bytes_nil]
    rfl
  rcases Nat.lt_or_ge input.length value.length with hlt | hle
  . obtain ⟨htaken, hfailure, hrest⟩ := Cursor.readExact_of_lt hlt
    have hkept : value.overwrite [] = value := by
      cases value <;> rfl
    rw [run_readFrom_of_some hempty hfailure, htaken, hrest, hkept, read_of_lt hempty hlt]
    rfl
  . obtain ⟨htaken, hfailure, hrest⟩ := Cursor.readExact_of_le hle
    rw [run_readFrom_of_none hempty hfailure, htaken, hrest, read_of_le hempty hle]

theorem run_readCheckFrom_cursor (value : Leaf) (input : Bytes) :
    readCheckFrom.run (value, input) =
      match (value.readCheck input).outcome with
      | .ok () => .ok () ((value.readCheck input).node, (value.readCheck input).rest)
      | .error e => .error e ((value.readCheck input).node, (value.readCheck input).rest) := by
  rw [run_readCheckFrom, run_readFrom_cursor, readCheck]
  cases hout : (value.read input).outcome with
  | error e => rfl
  | ok u =>
    dsimp only
    split
    . rw [hout]
    . rfl

end Cursor

section Decode

variable {c : Leaf} {taken : Bytes}

theorem eq_of_visit_decode (h : (c.decode taken).visit = c.visit) : c.decode taken = c := by
  unfold decode at h ⊢
  split at h <;> simp_all [visit]

theorem eq_decode (c : Leaf) (taken : Bytes) : c.eq (c.decode taken) = true ↔ c.decode taken = c := by
  unfold decode
  split
  case h_5 => simp
  all_goals
    simp only [Leaf.eq, decide_eq_true_eq, u8.injEq, u16.injEq, u32.injEq, bytes.injEq, true_and]
    exact eq_comm

theorem eq_of_visit_overwrite (h : (c.overwrite taken).visit = c.visit) : c.overwrite taken = c := by
  cases c with
  | bytes v =>
    injection h with h
    exact congrArg bytes h
  | _ => rfl

theorem decode_eq_iff (hne : c ≠ .bytes []) (hlength : taken.length = c.length) :
    c.decode taken = c ↔ taken = c.write := by
  have hread := read_of_le hne (Nat.le_of_eq hlength.symm)
  rw [← hlength, List.take_length, List.drop_length] at hread
  constructor
  . intro h
    rw [h] at hread
    simpa using write_read hread
  . rintro rfl
    have htemplate : c.Template false c := by
      cases c with
      | bytes v => exact .inl ⟨rfl, fun h => absurd (congrArg bytes h) hne⟩
      | _ => trivial
    have hback : c.read (c.write ++ []) = ⟨.ok (), c, []⟩ := read_write htemplate fun _ => rfl
    rw [List.append_nil, hread] at hback
    exact congrArg ReadResult.node hback

theorem overwrite_eq_iff (c : Leaf) (taken : Bytes) :
    c.overwrite taken = c ↔ ∀ v, c = .bytes v → taken <+: v := by
  -- A vector is as before when the bytes in front of a failure are its own ones.
  cases c with
  | bytes v => simp [overwrite, List.prefix_iff_eq_append]
  | _ => simp [overwrite]

end Decode

section Step

variable {c : Leaf} {stream : σ}

theorem run_readCheckFrom_of_none (hne : c ≠ .bytes [])
    (h : (Read.readExact c.length stream).failure = none) :
    readCheckFrom.run (c, stream) =
      let node := c.decode (Read.readExact c.length stream).bytes
      if c.eq node then
        .ok () (node, (Read.readExact c.length stream).stream)
      else
        .error (.error invalidConst) (node, (Read.readExact c.length stream).stream) := by
  rw [run_readCheckFrom, run_readFrom_of_none hne h]

theorem run_readCheckFrom_of_some {e : IoError} (hne : c ≠ .bytes [])
    (h : (Read.readExact c.length stream).failure = some e) :
    readCheckFrom.run (c, stream) =
      .error (.error (.io e)) (c.overwrite (Read.readExact c.length stream).bytes,
        (Read.readExact c.length stream).stream) := by
  rw [run_readCheckFrom, run_readFrom_of_some hne h]

end Step

end Leaf

namespace Check

variable {σ : Type} [Read σ]

structure Call (σ : Type) where
  stream : σ
  outcome : Option (Fault Error)
  node : Leaf

def calls (node : Leaf) (streams : List σ) : List (Call σ) :=
  match streams with
  | [] => []
  | stream :: streams =>
    let r := Leaf.readCheckFrom.run (node, stream)
    let node := (finalState r).1
    ⟨stream, Prog.outcome r, node⟩ :: calls node streams

/--
The bytes the stream delivers to a node like this one decode to its constant.
-/
def Decodes (c : Leaf) (stream : σ) : Prop :=
  (Read.readExact c.length stream).failure = none ∧
    c.decode (Read.readExact c.length stream).bytes = c

/--
The call returns `Ok` exactly when its bytes decode to the constant, and the node is still a check for
it.
-/
structure Call.Faithful (c : Leaf) (call : Call σ) : Prop where
  outcome : call.outcome = none ↔ Decodes c call.stream
  visit : (Message.check call.node).visit = (Message.check c).visit
  write : (Message.check call.node).write = (Message.check c).write

def StaysCheck (c : Leaf) (streams : List σ) : Prop :=
  ∀ call ∈ calls c streams, call.Faithful c

/--
The stream delivers the encoding of the constant, or fails before it is read. A vector has then read
nothing but bytes of its own.
-/
def Harmless (c : Leaf) (stream : σ) : Prop :=
  let r := Read.readExact c.length stream
  match r.failure with
  | none => r.bytes = c.write
  | some _ => ∀ v, c = .bytes v → r.bytes <+: v

section Step

variable {c : Leaf} {stream : σ}

theorem finalState_readCheckFrom (hne : c ≠ .bytes []) (stream : σ) :
    (finalState (Leaf.readCheckFrom.run (c, stream))).1 =
      match (Read.readExact c.length stream).failure with
      | none => c.decode (Read.readExact c.length stream).bytes
      | some _ => c.overwrite (Read.readExact c.length stream).bytes := by
  cases h : (Read.readExact c.length stream).failure with
  | none =>
    rw [Leaf.run_readCheckFrom_of_none hne h]
    dsimp only
    split <;> rfl
  | some e =>
    rw [Leaf.run_readCheckFrom_of_some hne h]
    rfl

theorem outcome_readCheckFrom (hne : c ≠ .bytes []) (stream : σ) :
    Prog.outcome (Leaf.readCheckFrom.run (c, stream)) = none ↔ Decodes c stream := by
  unfold Decodes
  cases h : (Read.readExact c.length stream).failure with
  | none =>
    rw [Leaf.run_readCheckFrom_of_none hne h, ← Leaf.eq_decode]
    dsimp only
    split
    next heq => simp [Prog.outcome, heq]
    next hne => simp [Prog.outcome, hne]
  | some e =>
    rw [Leaf.run_readCheckFrom_of_some hne h]
    simp [Prog.outcome]

theorem harmless_iff (hne : c ≠ .bytes []) (stream : σ) :
    Harmless c stream ↔ (finalState (Leaf.readCheckFrom.run (c, stream))).1 = c := by
  rw [finalState_readCheckFrom hne, Harmless]
  cases h : (Read.readExact c.length stream).failure with
  | none => exact (Leaf.decode_eq_iff hne ((Read.readExact c.length stream).length_eq h)).symm
  | some e => exact (Leaf.overwrite_eq_iff c _).symm

theorem eq_of_visit (hne : c ≠ .bytes [])
    (h : (finalState (Leaf.readCheckFrom.run (c, stream))).1.visit = c.visit) :
    (finalState (Leaf.readCheckFrom.run (c, stream))).1 = c := by
  rw [finalState_readCheckFrom hne] at h ⊢
  split at h
  . exact Leaf.eq_of_visit_decode h
  . exact Leaf.eq_of_visit_overwrite h

theorem call_faithful_iff (hne : c ≠ .bytes []) (stream : σ) :
    (Call.mk stream (Prog.outcome (Leaf.readCheckFrom.run (c, stream)))
      (finalState (Leaf.readCheckFrom.run (c, stream))).1).Faithful c ↔ Harmless c stream := by
  rw [harmless_iff hne]
  constructor
  . intro h
    have hvisit := h.visit
    rw [Message.visit, Message.visit] at hvisit
    exact eq_of_visit hne hvisit
  . intro h
    exact ⟨outcome_readCheckFrom hne stream, by rw [h], by rw [h]⟩

end Step

/--
A node is a check for its constant in all of the calls exactly as long as no stream delivers other
bytes: every value that is read stays in the node, the ones that fail the comparison as well.
-/
theorem staysCheck_iff (c : Leaf) (hne : c ≠ .bytes []) (streams : List σ) :
    StaysCheck c streams ↔ ∀ stream ∈ streams, Harmless c stream := by
  unfold StaysCheck
  induction streams with
  | nil => simp [calls]
  | cons stream streams ih =>
    rw [calls, List.forall_mem_cons, List.forall_mem_cons, call_faithful_iff hne]
    apply and_congr_right
    intro hharmless
    -- behind a harmless stream the node is the constant again, and the other calls start from it
    rw [(harmless_iff hne stream).mp hharmless]
    exact ih

theorem harmless_cursor_iff (c : Leaf) (input : Bytes) :
    Harmless c input ↔ c.write <+: input ∨ input.length < c.length := by
  rw [Harmless]
  rcases Nat.lt_or_ge input.length c.length with hlt | hle
  . obtain ⟨htaken, hfailure, _⟩ := Cursor.readExact_of_lt hlt
    simp [hfailure, htaken, hlt]
  . obtain ⟨htaken, hfailure, _⟩ := Cursor.readExact_of_le hle
    simp only [hfailure, htaken, Nat.not_lt_of_le hle, or_false]
    rw [List.prefix_iff_eq_take, c.length_write]
    exact eq_comm

theorem staysCheck_iff_accepted : StaysCheck (.u16 .le 4) [([4, 0] : Bytes), [], [4, 0, 7]] := by
  have hinputs : ∀ input ∈ [([4, 0] : Bytes), [], [4, 0, 7]],
      (Leaf.u16 .le 4).write <+: input ∨ input.length < (Leaf.u16 .le 4).length := by
    decide
  apply (staysCheck_iff (.u16 .le 4) (by decide) _).mpr
  intro input hinput
  exact (harmless_cursor_iff _ input).mpr (hinputs input hinput)

/--
The first call reads another value, which is an error, and leaves it in the node.
-/
theorem not_staysCheck : ¬ StaysCheck (.u16 .le 4) [([5, 0] : Bytes), [4, 0]] := by
  intro h
  have hvisit := (h _ List.mem_cons_self).visit
  rw [Message.visit, Message.visit] at hvisit
  injection hvisit with hvisit
  exact absurd hvisit (by decide)

/--
A vector that was only partly read has the bytes that came before the end of the connection.
-/
example : (calls (.bytes [1, 2]) [(⟨[.byte 9], [], []⟩ : Socket)]).map (·.node) = [.bytes [9, 2]] := by
  decide

end Check

end Rdp
