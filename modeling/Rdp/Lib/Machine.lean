import Rdp.Lib.Program

/-!
Arithmetic on unsigned machine words that aborts when the exact result does not fit, and the
memory of a program: a buffer whose accesses abort out of its bounds.
-/

variable {ε σ α β : Type}

def checkedAdd (w : Nat) (a b : Nat) : Except (Fault ε) Nat :=
  if a + b < 2 ^ w then
    .ok (a + b)
  else
    .error (.panic "attempt to add with overflow")

def checkedSub (a b : Nat) : Except (Fault ε) Nat :=
  if b ≤ a then
    .ok (a - b)
  else
    .error (.panic "attempt to subtract with overflow")

def checkedMul (w : Nat) (a b : Nat) : Except (Fault ε) Nat :=
  if a * b < 2 ^ w then
    .ok (a * b)
  else
    .error (.panic "attempt to multiply with overflow")

@[simp]
theorem Except.ok_bind (a : α) (f : α → Except ε β) : ((.ok a : Except ε α) >>= f) = f a := rfl

@[simp]
theorem Except.error_bind (e : ε) (f : α → Except ε β) :
    ((.error e : Except ε α) >>= f) = .error e := rfl

theorem Except.bind_eq_ok {x : Except ε α} {f : α → Except ε β} {b : β} (h : (x >>= f) = .ok b) :
    ∃ a, x = .ok a ∧ f a = .ok b := by
  cases x with
  | ok a => exact ⟨a, rfl, h⟩
  | error e => cases h

theorem Except.map_eq_ok {f : α → β} {x : Except ε α} {b : β} (h : f <$> x = .ok b) :
    ∃ a, x = .ok a ∧ f a = b := by
  cases x with
  | ok a =>
    cases h
    exact ⟨a, rfl, rfl⟩
  | error e => cases h

theorem checkedAdd_of_lt {w a b : Nat} (h : a + b < 2 ^ w) :
    (checkedAdd w a b : Except (Fault ε) Nat) = .ok (a + b) := by
  simp [checkedAdd, h]

theorem checkedAdd_of_le {w a b : Nat} (h : 2 ^ w ≤ a + b) :
    (checkedAdd w a b : Except (Fault ε) Nat) = .error (.panic "attempt to add with overflow") := by
  simp [checkedAdd, Nat.not_lt.mpr h]

theorem checkedSub_of_le {a b : Nat} (h : b ≤ a) :
    (checkedSub a b : Except (Fault ε) Nat) = .ok (a - b) := by
  simp [checkedSub, h]

theorem checkedSub_of_lt {a b : Nat} (h : a < b) :
    (checkedSub a b : Except (Fault ε) Nat) = .error (.panic "attempt to subtract with overflow") := by
  simp [checkedSub, Nat.not_le.mpr h]

theorem checkedSub_eq_ok {a b n : Nat} :
    (checkedSub a b : Except (Fault ε) Nat) = .ok n ↔ b ≤ a ∧ n = a - b := by
  unfold checkedSub
  split <;> simp [*, eq_comm]

theorem checkedAdd_eq_ok {w a b c : Nat} :
    (checkedAdd w a b : Except (Fault ε) Nat) = .ok c ↔ a + b < 2 ^ w ∧ a + b = c := by
  unfold checkedAdd
  split <;> simp [*]

theorem checkedMul_eq_ok {w a b c : Nat} :
    (checkedMul w a b : Except (Fault ε) Nat) = .ok c ↔ a * b < 2 ^ w ∧ a * b = c := by
  unfold checkedMul
  split <;> simp [*]

theorem checkedMul_of_lt {w a b : Nat} (h : a * b < 2 ^ w) :
    (checkedMul w a b : Except (Fault ε) Nat) = .ok (a * b) := by
  simp [checkedMul, h]

theorem checkedMul_of_le {w a b : Nat} (h : 2 ^ w ≤ a * b) :
    (checkedMul w a b : Except (Fault ε) Nat) = .error (.panic "attempt to multiply with overflow") := by
  simp [checkedMul, Nat.not_lt.mpr h]

def le16 (a b : UInt8) : UInt16 := .ofNat (a.toNat + 256 * b.toNat)

def le32 (a b c d : UInt8) : UInt32 :=
  .ofNat (a.toNat + 2 ^ 8 * b.toNat + 2 ^ 16 * c.toNat + 2 ^ 24 * d.toNat)

theorem le16_bytes (v : UInt16) : le16 (.ofNat v.toNat) (.ofNat (v.toNat / 256)) = v := by
  have := v.toNat_lt
  unfold le16
  apply UInt16.toNat.inj
  simp only [UInt8.toNat_ofNat', UInt16.toNat_ofNat']
  omega

theorem le32_bytes (v : UInt32) :
    le32 (.ofNat v.toNat) (.ofNat (v.toNat / 2 ^ 8)) (.ofNat (v.toNat / 2 ^ 16))
      (.ofNat (v.toNat / 2 ^ 24)) = v := by
  have := v.toNat_lt
  unfold le32
  apply UInt32.toNat.inj
  simp only [UInt8.toNat_ofNat', UInt32.toNat_ofNat']
  omega

theorem bytes_le16 (a b : UInt8) :
    [.ofNat (le16 a b).toNat, .ofNat ((le16 a b).toNat / 256)] = [a, b] := by
  have ha := a.toNat_lt
  have hb := b.toNat_lt
  have hle : (le16 a b).toNat = a.toNat + 256 * b.toNat := by
    simp only [le16, UInt16.toNat_ofNat']
    omega
  simp only [hle, List.cons.injEq, and_true]
  constructor <;>
    apply UInt8.toNat.inj <;>
    simp only [UInt8.toNat_ofNat'] <;>
    omega

theorem bytes_le32 (a b c d : UInt8) :
    [.ofNat (le32 a b c d).toNat, .ofNat ((le32 a b c d).toNat / 2 ^ 8),
      .ofNat ((le32 a b c d).toNat / 2 ^ 16), .ofNat ((le32 a b c d).toNat / 2 ^ 24)] =
      [a, b, c, d] := by
  have ha := a.toNat_lt
  have hb := b.toNat_lt
  have hc := c.toNat_lt
  have hd := d.toNat_lt
  have hle : (le32 a b c d).toNat =
      a.toNat + 2 ^ 8 * b.toNat + 2 ^ 16 * c.toNat + 2 ^ 24 * d.toNat := by
    simp only [le32, UInt32.toNat_ofNat']
    omega
  simp only [hle, List.cons.injEq, and_true]
  refine ⟨?_, ?_, ?_, ?_⟩ <;>
    apply UInt8.toNat.inj <;>
    simp only [UInt8.toNat_ofNat'] <;>
    omega

theorem forall_uint8 {p : UInt8 → Prop} (h : ∀ n < 256, p (UInt8.ofNat n)) (c : UInt8) : p c := by
  have := h c.toNat c.toNat_lt
  rwa [UInt8.ofNat_toNat] at this

/--
A slice of memory. Its length in bytes fits the signed machine word, so no index into it overflows
the unsigned one.
-/
structure Slice (α : Type) where
  cells : List α
  length_lt : cells.length < 2 ^ 63
