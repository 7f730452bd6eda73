import Rdp.Lib.StreamCipher
import Rdp.Model.Cursor

/-!
This module contains the RC4 cipher.
-/

namespace Rdp

structure Rc4 where
  i : UInt8
  j : UInt8
  state : Vector UInt8 256

namespace Rc4

def get (state : Vector UInt8 256) (i : UInt8) : UInt8 := state.get i.toFin

def swap (state : Vector UInt8 256) (i j : UInt8) : Vector UInt8 256 :=
  state.swap i.toNat j.toNat i.toNat_lt j.toNat_lt

def round (j : UInt8) (state : Vector UInt8 256) (i : UInt8) (k : UInt8) :
    UInt8 × Vector UInt8 256 :=
  let j := j + get state i + k
  (j, swap state i j)

def schedule (key : Bytes) (h : 1 ≤ key.length) : Vector UInt8 256 :=
  let identity := Vector.ofFn fun i : Fin 256 => UInt8.ofFin i
  let (_, state) := (List.range 256).foldl (fun (j, state) i =>
    round j state (.ofNat i) (key.get ⟨i % key.length, Nat.mod_lt i h⟩)) (0, identity)
  state

def new (key : Bytes) : RdpResult Rc4 :=
  if h : 1 ≤ key.length ∧ key.length ≤ 256 then
    .ok ⟨0, 0, schedule key h.1⟩
  else
    .error (.panic "assertion failed: key.len() >= 1 && key.len() <= 256")

def next (rc4 : Rc4) : UInt8 × Rc4 :=
  let i := rc4.i + 1
  let j := rc4.j + get rc4.state i
  let state := swap rc4.state i j
  let k := get state (get state i + get state j)
  (k, ⟨i, j, state⟩)

/--
`process` into an output buffer of the length of the input.
-/
def process (rc4 : Rc4) (input : Bytes) : Bytes × Rc4 :=
  StreamCipher.process next (· ^^^ ·) rc4 input

@[simp]
theorem length_process (rc4 : Rc4) (input : Bytes) :
    (rc4.process input).1.length = input.length := by
  apply StreamCipher.length_process

theorem process_process (rc4 : Rc4) (input : Bytes) :
    rc4.process (rc4.process input).1 = (input, (rc4.process input).2) := by
  apply StreamCipher.process_process
  intro x k
  rw [UInt8.xor_assoc, UInt8.xor_self, UInt8.xor_zero]

theorem new_of_length {key : Bytes} (h : 1 ≤ key.length ∧ key.length ≤ 256) :
    ∃ rc4, new key = .ok rc4 := by
  exact ⟨_, dif_pos h⟩

end Rc4

end Rdp
