import Rdp.Model.Data.Impl

/-!
This module contains the length law of the message model: `length` announces exactly the number of
bytes `write` emits.
-/

namespace Rdp

/--
A writer and a length that stop together, and agree where they do not.
-/
def Measures (w : RdpResult Bytes) (l : RdpResult Nat) : Prop :=
  ∀ n, l = .ok n ↔ ∃ bytes, w = .ok bytes ∧ bytes.length = n

namespace Measures

theorem ok (bytes : Bytes) : Measures (.ok bytes) (.ok bytes.length) := by
  intro n
  constructor
  . intro h
    cases h
    exact ⟨bytes, rfl, rfl⟩
  . rintro ⟨_, h, rfl⟩
    cases h
    rfl

theorem error (e e' : Fault Error) : Measures (.error e) (.error e') := by
  intro n
  constructor
  . intro h
    cases h
  . rintro ⟨_, h, _⟩
    cases h

theorem cases_on {w : RdpResult Bytes} {l : RdpResult Nat} (h : Measures w l) :
    (∃ bytes, w = .ok bytes ∧ l = .ok bytes.length) ∨ ∃ e e', w = .error e ∧ l = .error e' := by
  cases w with
  | ok bytes => exact .inl ⟨bytes, rfl, (h _).mpr ⟨bytes, rfl, rfl⟩⟩
  | error e =>
    cases l with
    | ok n =>
      obtain ⟨_, h', _⟩ := (h n).mp rfl
      cases h'
    | error e' => exact .inr ⟨e, e', rfl, rfl⟩

theorem append {w w' : RdpResult Bytes} {l l' : RdpResult Nat} (h : Measures w l)
    (h' : Measures w' l') :
    Measures (do let bytes ← w; return bytes ++ (← w')) (do let n ← l; return n + (← l')) := by
  rcases h.cases_on with ⟨bytes, rfl, rfl⟩ | ⟨e, e', rfl, rfl⟩
  . rcases h'.cases_on with ⟨bytes', rfl, rfl⟩ | ⟨e, e', rfl, rfl⟩
    . simp only [Except.ok_bind, ← List.length_append]
      apply ok
    . apply error
  . apply error

end Measures

theorem Endian.length_order (e : Endian) (bytes : Bytes) : (e.order bytes).length = bytes.length := by
  cases e with
  | be => apply List.length_reverse
  | le => rfl

@[simp]
theorem Leaf.length_write (v : Leaf) : v.write.length = v.length := by
  cases v <;> simp [Leaf.write, Leaf.length, Endian.encode16, Endian.encode32, Endian.length_order]

namespace Message

mutual

theorem measures (m : Message) : Measures m.write m.length := by
  match m with
  | .leaf v | .check v =>
    simp only [write, length, ← Leaf.length_write]
    apply Measures.ok
  | .dynOption inner _ =>
    simp only [write, length]
    exact measures inner
  | .option none =>
    simp only [write, length]
    exact Measures.ok []
  | .option (some m) =>
    simp only [write, length]
    exact measures m
  | .trame ms | .array ms _ =>
    simp only [write, length]
    exact measures_trame ms
  | .component fields =>
    simp only [write, length]
    exact measures_fields [] fields

theorem measures_trame (ms : Trame) : Measures (writeTrame ms) (lengthTrame ms) := by
  match ms with
  | [] => exact Measures.ok []
  | m :: ms => exact (measures m).append (measures_trame ms)

theorem measures_fields (skips : List String) (fields : Component) :
    Measures (writeFields skips fields) (lengthFields skips fields) := by
  match fields with
  | [] => exact Measures.ok []
  | (name, m) :: fields =>
    simp only [writeFields, lengthFields]
    split
    . exact measures_fields skips fields
    . cases m.options with
      | ok o =>
        -- both sides go on with the same skipped fields
        exact (measures m).append (measures_fields (o.addSkip skips) fields)
      | error e =>
        rcases (measures m).cases_on with ⟨bytes, hw, _⟩ | ⟨e', _, hw, _⟩
        all_goals
          rw [hw]
          apply Measures.error

end

end Message

/--
The length of a message is the number of bytes it is serialized to, and it is there exactly when
serializing does not abort.
-/
theorem length_toVec (m : Message) (n : Nat) :
    m.length = .ok n ↔ ∃ bytes, toVec m = .ok bytes ∧ bytes.length = n := by
  rw [m.measures n]
  unfold toVec
  split
  next e h =>
    rw [h]
    simp
  next => rfl

end Rdp
