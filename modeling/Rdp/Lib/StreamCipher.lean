import Mathlib.Tactic.Common

/-!
This module contains stream ciphers: a state that yields one key after the other, and a text whose
characters are combined with these keys.
-/

namespace StreamCipher

variable {σ α κ : Type} (next : σ → κ × σ) (combine : α → κ → α)

def process (s : σ) (input : List α) : List α × σ :=
  match input with
  | [] => ([], s)
  | x :: input =>
    let (k, s) := next s
    let (output, s) := process s input
    (combine x k :: output, s)

def advance (n : Nat) (s : σ) : σ :=
  match n with
  | 0 => s
  | n + 1 => advance n (next s).2

@[simp]
theorem process_nil (s : σ) : process next combine s [] = ([], s) := rfl

theorem process_cons (s : σ) (x : α) (input : List α) :
    process next combine s (x :: input) =
      (combine x (next s).1 :: (process next combine (next s).2 input).1,
        (process next combine (next s).2 input).2) := rfl

@[simp]
theorem length_process (s : σ) (input : List α) :
    (process next combine s input).1.length = input.length := by
  induction input generalizing s with
  | nil => rfl
  | cons x input ih => rw [process_cons, List.length_cons, ih, List.length_cons]

theorem process_state (s : σ) (input : List α) :
    (process next combine s input).2 = advance next input.length s := by
  induction input generalizing s with
  | nil => rfl
  | cons x input ih =>
    rw [process_cons, ih]
    rfl

theorem process_append (s : σ) (a b : List α) :
    process next combine s (a ++ b) =
      ((process next combine s a).1 ++ (process next combine (process next combine s a).2 b).1,
        (process next combine (process next combine s a).2 b).2) := by
  induction a generalizing s with
  | nil => rfl
  | cons x a ih =>
    rw [List.cons_append, process_cons, ih, process_cons]
    rfl

theorem advance_induction {P : σ → Prop} (h : ∀ s, P s → P (next s).2) {s : σ} (hs : P s) (n : Nat) :
    P (advance next n s) := by
  induction n generalizing s with
  | zero => exact hs
  | succ n ih => exact ih (h s hs)

def processAll (s : σ) (pieces : List (List α)) : List (List α) × σ :=
  match pieces with
  | [] => ([], s)
  | piece :: pieces =>
    let (output, s) := process next combine s piece
    let (outputs, s) := processAll s pieces
    (output :: outputs, s)

theorem processAll_cons (s : σ) (piece : List α) (pieces : List (List α)) :
    processAll next combine s (piece :: pieces) =
      ((process next combine s piece).1 ::
          (processAll next combine (process next combine s piece).2 pieces).1,
        (processAll next combine (process next combine s piece).2 pieces).2) := rfl

theorem flatten_processAll (s : σ) (pieces : List (List α)) :
    (processAll next combine s pieces).1.flatten = (process next combine s pieces.flatten).1 := by
  induction pieces generalizing s with
  | nil => rfl
  | cons piece pieces ih =>
    rw [processAll_cons, List.flatten_cons, ih, List.flatten_cons, process_append]

theorem processAll_state (s : σ) (pieces : List (List α)) :
    (processAll next combine s pieces).2 = (process next combine s pieces.flatten).2 := by
  induction pieces generalizing s with
  | nil => rfl
  | cons piece pieces ih => rw [processAll_cons, ih, List.flatten_cons, process_append]

theorem process_process (h : ∀ x k, combine (combine x k) k = x) (s : σ) (input : List α) :
    process next combine s (process next combine s input).1 =
      (input, (process next combine s input).2) := by
  induction input generalizing s with
  | nil => rfl
  | cons x input ih => rw [process_cons, process_cons, ih, h]

end StreamCipher
