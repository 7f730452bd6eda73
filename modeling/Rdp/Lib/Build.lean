import Rdp.Lib.Machine

/-!
The arithmetic on unsigned machine words in the two ways a program is built: with checks for overflow,
or modulo the size of the word.
-/

inductive Build where
  | debug
  | release
  deriving DecidableEq, Repr

namespace Build

variable {ε : Type} {w a b : Nat}

def add (build : Build) (w a b : Nat) : Except (Fault ε) Nat :=
  match build with
  | .debug => checkedAdd w a b
  | .release => .ok ((a + b) % 2 ^ w)

def sub (build : Build) (w a b : Nat) : Except (Fault ε) Nat :=
  match build with
  | .debug => checkedSub a b
  | .release => .ok ((a + (2 ^ w - b)) % 2 ^ w)

def mul (build : Build) (w a b : Nat) : Except (Fault ε) Nat :=
  match build with
  | .debug => checkedMul w a b
  | .release => .ok ((a * b) % 2 ^ w)

theorem add_of_lt (build : Build) (h : a + b < 2 ^ w) :
    (build.add w a b : Except (Fault ε) Nat) = .ok (a + b) := by
  cases build with
  | debug => exact checkedAdd_of_lt h
  | release => rw [add, Nat.mod_eq_of_lt h]

theorem sub_of_le (build : Build) (h : b ≤ a) (ha : a < 2 ^ w) :
    (build.sub w a b : Except (Fault ε) Nat) = .ok (a - b) := by
  cases build with
  | debug => exact checkedSub_of_le h
  | release =>
    have heq : a + (2 ^ w - b) = a - b + 2 ^ w := by omega
    rw [sub, heq, Nat.add_mod_right, Nat.mod_eq_of_lt (by omega)]

theorem mul_of_lt (build : Build) (h : a * b < 2 ^ w) :
    (build.mul w a b : Except (Fault ε) Nat) = .ok (a * b) := by
  cases build with
  | debug => exact checkedMul_of_lt h
  | release => rw [mul, Nat.mod_eq_of_lt h]

end Build
