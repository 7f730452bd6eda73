import Rdp.Model.Data.Elements

/-!
This module contains the loop of an array: it has no counter, and ends because every element that is
read takes something from the stream.
-/

namespace Rdp

open Prog Cursor

namespace Message

theorem outcome_read_ne_diverge {m : Message} (h : Faults (· ≠ .diverge) m.reader) (input : Bytes) :
    (m.read input).outcome ≠ .error .diverge := by
  intro hout
  have hrun : m.reader.run input = .error .diverge (m.read input).rest := by
    rw [run_reader, hout]
  exact h _ _ _ hrun rfl

theorem rest_lt_of_consumes {m : Message} (h : Consumes m.reader) (input : Bytes)
    (hout : (m.read input).outcome = .ok ()) : (m.read input).rest.length < input.length := by
  have hrun : m.reader.run input = .ok (m.read input).node (m.read input).rest := by
    rw [run_reader, hout]
  exact h _ _ _ hrun

section ReadElements

variable {readElement : Bytes → ReadResult Message}

theorem readElements_ne_diverge (htakes : ∀ input, (readElement input).outcome = .ok () →
      (readElement input).rest.length < input.length)
    (hhalts : ∀ input, (readElement input).outcome ≠ .error .diverge)
    {fuel : Nat} {input : Bytes} (h : input.length < fuel) (inner : Trame) :
    (readElements readElement fuel inner input).outcome ≠ .error .diverge := by
  induction fuel generalizing inner input with
  | zero => omega
  | succ fuel ih =>
    rw [readElements]
    split
    next hout =>
      have hlt := htakes input hout
      exact ih (by omega) _
    next => simp
    next hout =>
      rw [← hout]
      exact hhalts input

theorem exists_pushed (htakes : ∀ input, (readElement input).outcome = .ok () →
      (readElement input).rest.length < input.length)
    (fuel : Nat) (inner : Trame) (input : Bytes) :
    ∃ pushed, (readElements readElement fuel inner input).node = inner ++ pushed ∧
      pushed.length ≤ input.length := by
  induction fuel generalizing inner input with
  | zero => exact ⟨[], (List.append_nil inner).symm, Nat.zero_le _⟩
  | succ fuel ih =>
    rw [readElements]
    split
    next hout =>
      obtain ⟨pushed, hnode, hlength⟩ := ih (inner ++ [(readElement input).node]) (readElement input).rest
      have hlt := htakes input hout
      refine ⟨(readElement input).node :: pushed, ?_, ?_⟩
      . rw [hnode, List.append_assoc, List.singleton_append]
      . rw [List.length_cons]
        omega
    next => exact ⟨[], (List.append_nil inner).symm, Nat.zero_le _⟩
    next => exact ⟨[], (List.append_nil inner).symm, Nat.zero_le _⟩

end ReadElements

/--
The loop of the array ends on every stream, with at most one element for every byte.
-/
def Halts (m : Message) : Prop :=
  ∀ inner input, ((array inner (some m)).read input).outcome ≠ .error .diverge ∧
    ∃ pushed, ((array inner (some m)).read input).node = .array (inner ++ pushed) (some m) ∧
      pushed.length ≤ input.length

theorem halts_of_consumes {m : Message} (hconsumes : Consumes m.reader)
    (hfaults : Faults (· ≠ .diverge) m.reader) : Halts m := by
  intro inner input
  have htakes := rest_lt_of_consumes hconsumes
  constructor
  . rw [read]
    exact readElements_ne_diverge htakes (outcome_read_ne_diverge hfaults) (Nat.lt_succ_self _) inner
  . obtain ⟨pushed, hnode, hlength⟩ := exists_pushed htakes (input.length + 1) inner input
    refine ⟨pushed, ?_, hlength⟩
    rw [read]
    exact congrArg (array · (some m)) hnode

end Message

end Rdp
