import Rdp.Model.Transport

/-!
This module contains the streams a message can be read from: whatever implements `std::io::Read`,
known by what its calls of `read_exact` and `read_to_end` have read.
-/

namespace Rdp

/--
A call of `read_exact` with a buffer of `n` bytes: what it has read, whether it failed before the
buffer was full, and what is left.
-/
structure Reading (σ : Type) (n : Nat) where
  bytes : Bytes
  failure : Option IoError
  stream : σ
  length_le : bytes.length ≤ n
  length_eq : failure = none → bytes.length = n

class Read (σ : Type) where
  readExact (n : Nat) (stream : σ) : Reading σ n
  readToEnd (stream : σ) : Bytes × Option IoError × σ

/--
A `Cursor` reads nothing when there is too little of it.
-/
instance : Read Bytes where
  readExact n input :=
    if h : n ≤ input.length then
      ⟨input.take n, none, input.drop n, List.length_take_le n input, fun _ => List.length_take_of_le h⟩
    else
      ⟨[], some .unexpectedEof, [], Nat.zero_le n, by simp⟩
  readToEnd input := (input, none, [])

namespace Cursor

theorem readExact_of_le {n : Nat} {input : Bytes} (h : n ≤ input.length) :
    (Read.readExact n input).bytes = input.take n ∧ (Read.readExact n input).failure = none ∧
      (Read.readExact n input).stream = input.drop n := by
  simp only [Read.readExact, dif_pos h, and_self]

theorem readExact_of_lt {n : Nat} {input : Bytes} (h : input.length < n) :
    (Read.readExact n input).bytes = [] ∧ (Read.readExact n input).failure = some .unexpectedEof ∧
      (Read.readExact n input).stream = [] := by
  simp only [Read.readExact, dif_neg (Nat.not_le_of_lt h), and_self]

end Cursor

namespace Arrival

/--
The bytes that arrive before a failure are in the buffer when `read_exact` gives up.
-/
def fill (n : Nat) (reads : List Arrival) : Bytes × Option IoError × List Arrival :=
  match n, reads with
  | 0, reads => ([], none, reads)
  | _ + 1, [] => ([], some .unexpectedEof, [])
  | n + 1, .byte b :: reads =>
    let (bytes, failure, reads) := fill n reads
    (b :: bytes, failure, reads)
  | n + 1, .cut :: reads => fill (n + 1) reads
  | n + 1, .fail .interrupted :: reads => fill (n + 1) reads
  | _ + 1, .fail e :: reads => ([], some e, reads)

theorem length_fill (n : Nat) (reads : List Arrival) :
    (fill n reads).1.length ≤ n ∧ ((fill n reads).2.1 = none → (fill n reads).1.length = n) := by
  fun_induction fill n reads with
  | case1 reads => exact ⟨Nat.le_refl 0, fun _ => rfl⟩
  | case2 n => simp
  | case3 n b reads bytes failure rest hfill ih =>
    rw [hfill] at ih
    exact ⟨Nat.succ_le_succ ih.1, fun h => congrArg (· + 1) (ih.2 h)⟩
  | case4 n reads ih => exact ih
  | case5 n reads ih => exact ih
  | case6 n e reads h => simp

theorem readExact_eq_fill (n : Nat) (reads : List Arrival) :
    readExact n reads =
      match fill n reads with
      | (bytes, none, reads) => (.ok bytes, reads)
      | (_, some e, reads) => (.error e, reads) := by
  fun_induction fill n reads with
  | case1 reads => rw [readExact]
  | case2 n => rw [readExact]
  | case3 n b reads bytes failure rest hfill ih =>
    rw [readExact, ih, hfill]
    cases failure <;> rfl
  | case4 n reads ih => rw [readExact, ih]
  | case5 n reads ih => rw [readExact, ih]
  | case6 n e reads h => rw [readExact]; exact h

/--
An interrupted read is repeated here as well.
-/
def readToEnd (reads : List Arrival) : Bytes × Option IoError × List Arrival :=
  match reads with
  | [] => ([], none, [])
  | .byte b :: reads =>
    let (bytes, failure, reads) := readToEnd reads
    (b :: bytes, failure, reads)
  | .cut :: reads => readToEnd reads
  | .fail .interrupted :: reads => readToEnd reads
  | .fail e :: reads => ([], some e, reads)

end Arrival

instance : Read Socket where
  readExact n socket :=
    let r := Arrival.fill n socket.reads
    ⟨r.1, r.2.1, { socket with reads := r.2.2 }, (Arrival.length_fill n socket.reads).1,
      (Arrival.length_fill n socket.reads).2⟩
  readToEnd socket :=
    let (bytes, failure, reads) := Arrival.readToEnd socket.reads
    (bytes, failure, { socket with reads })

theorem Socket.run_readExact_eq_reading (n : Nat) (socket : Socket) :
    (Socket.readExact n).run socket =
      match (Read.readExact n socket).failure with
      | none => .ok (Read.readExact n socket).bytes (Read.readExact n socket).stream
      | some e => .error (.error (.io e)) (Read.readExact n socket).stream := by
  change Socket.readExact n socket = _
  rw [Socket.readExact, Arrival.readExact_eq_fill]
  simp only [Read.readExact]
  cases Arrival.fill n socket.reads with
  | mk bytes r =>
    cases r with
    | mk failure reads => cases failure <;> rfl

end Rdp
