import Mathlib.Tactic.Common

/-!
The accesses of a program to a buffer, as a list it only appends to and never reads.
-/

inductive Access (α : Type) where
  | mark
  | load (i : Nat)
  | store (i : Nat) (v : α)
  deriving DecidableEq, Repr

/--
Oldest first.
-/
abbrev Trace (α : Type) := List (Access α)

def Access.stored (a : Access α) : Option (Nat × α) :=
  match a with
  | .store i v => some (i, v)
  | _ => none

namespace Trace

variable {α : Type}

def stores (trace : Trace α) : List (Nat × α) := trace.filterMap Access.stored

def replay (cells : List α) (writes : List (Nat × α)) : List α :=
  writes.foldl (fun cells write => cells.set write.1 write.2) cells

/--
Every read is of a cell that was written before.
-/
def LoadsWritten (trace : Trace α) : Prop :=
  ∀ before i after, trace = before ++ Access.load i :: after → ∃ v, Access.store i v ∈ before

variable (trace : Trace α)

@[simp]
theorem stores_nil : stores ([] : Trace α) = [] := rfl

@[simp]
theorem stores_mark : stores (trace ++ [.mark]) = stores trace := by
  simp [stores, List.filterMap_cons, Access.stored]

@[simp]
theorem stores_load (i : Nat) : stores (trace ++ [.load i]) = stores trace := by
  simp [stores, List.filterMap_cons, Access.stored]

@[simp]
theorem stores_store (i : Nat) (v : α) : stores (trace ++ [.store i v]) = stores trace ++ [(i, v)] := by
  simp [stores, Access.stored]

variable {trace}

theorem mem_stores {i : Nat} {v : α} : (i, v) ∈ stores trace ↔ Access.store i v ∈ trace := by
  rw [stores, List.mem_filterMap]
  constructor
  . rintro ⟨e, he, hstored⟩
    cases e with
    | mark => simp [Access.stored] at hstored
    | load => simp [Access.stored] at hstored
    | store j w =>
      simp only [Access.stored, Option.some.injEq, Prod.mk.injEq] at hstored
      rwa [← hstored.1, ← hstored.2]
  . intro h
    exact ⟨_, h, rfl⟩

theorem stores_front {before : Trace α} (h : before <+: trace) : stores before <+: stores trace :=
  h.filterMap _

theorem LoadsWritten.nil : LoadsWritten ([] : Trace α) := by
  simp [LoadsWritten]

theorem LoadsWritten.concat {e : Access α} (h : LoadsWritten trace)
    (he : ∀ i, e = .load i → ∃ v, Access.store i v ∈ trace) : LoadsWritten (trace ++ [e]) := by
  intro before i after htrace
  rcases List.eq_nil_or_concat after with rfl | ⟨after', e', rfl⟩
  . have := List.append_inj' htrace rfl
    simp only [List.cons.injEq, and_true] at this
    rw [← this.1]
    exact he i this.2
  . apply h before i after'
    rw [List.concat_eq_append, ← List.cons_append, ← List.append_assoc] at htrace
    exact (List.append_inj' htrace rfl).1

theorem LoadsWritten.front {before : Trace α} (h : LoadsWritten trace) (hfront : before <+: trace) :
    LoadsWritten before := by
  intro front i back hbefore
  obtain ⟨after, rfl⟩ := hfront
  apply h front i (back ++ after)
  rw [hbefore]
  simp

end Trace
