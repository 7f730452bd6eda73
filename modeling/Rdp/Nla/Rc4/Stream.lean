import Rdp.Nla.Rc4

/-!
This module contains the laws of RC4 as a stream: its state stays a permutation of the bytes, and two
instances with one key stay in step however their texts are cut.
-/

namespace Rdp.Rc4

/--
Every byte is in the state exactly once.
-/
def IsPermutation (state : Vector UInt8 256) : Prop :=
  state.toList.Perm ((List.range 256).map .ofNat)

theorem IsPermutation.swap {state : Vector UInt8 256} (h : IsPermutation state) (i j : UInt8) :
    IsPermutation (swap state i j) := by
  have hswap : (Rc4.swap state i j).toList.Perm state.toList :=
    (Vector.swap_perm i.toNat_lt j.toNat_lt).toList
  exact hswap.trans h

theorem isPermutation_identity : IsPermutation (Vector.ofFn fun i : Fin 256 => UInt8.ofFin i) := by
  have hbytes : (Vector.ofFn fun i : Fin 256 => UInt8.ofFin i).toList = (List.range 256).map .ofNat := by
    apply List.ext_getElem
    . simp
    . intro i hi _
      rw [Vector.length_toList] at hi
      rw [Vector.getElem_toList, Vector.getElem_ofFn, List.getElem_map, List.getElem_range]
      apply UInt8.toNat.inj
      rw [UInt8.toNat_ofNat_of_lt' hi]
      rfl
  rw [IsPermutation, hbytes]

theorem isPermutation_schedule (key : Bytes) (h : 1 ≤ key.length) : IsPermutation (schedule key h) := by
  -- Every round of the key schedule is a swap, whatever the bytes of the key are.
  unfold schedule
  dsimp only
  apply List.foldlRecOn (motive := fun s : UInt8 × Vector UInt8 256 => IsPermutation s.2)
  . exact isPermutation_identity
  . intro s hs i _
    exact hs.swap _ _

theorem isPermutation_next {rc4 : Rc4} (h : IsPermutation rc4.state) : IsPermutation rc4.next.2.state :=
  h.swap _ _

theorem isPermutation_process {rc4 : Rc4} (h : IsPermutation rc4.state) (input : Bytes) :
    IsPermutation (rc4.process input).2.state := by
  rw [process, StreamCipher.process_state]
  exact StreamCipher.advance_induction next (P := fun rc4 => IsPermutation rc4.state)
    (fun _ => isPermutation_next) h input.length

theorem isPermutation_new {key : Bytes} {rc4 : Rc4} (h : new key = .ok rc4) : IsPermutation rc4.state := by
  unfold new at h
  split at h
  next hkey =>
    injection h with h
    subst h
    dsimp only
    exact isPermutation_schedule key hkey.1
  next => cases h

def processAll (rc4 : Rc4) (pieces : List Bytes) : List Bytes × Rc4 :=
  StreamCipher.processAll next (· ^^^ ·) rc4 pieces

theorem flatten_processAll (rc4 : Rc4) (pieces : List Bytes) :
    (rc4.processAll pieces).1.flatten = (rc4.process pieces.flatten).1 := by
  apply StreamCipher.flatten_processAll

theorem processAll_state (rc4 : Rc4) (pieces : List Bytes) :
    (rc4.processAll pieces).2 = (rc4.process pieces.flatten).2 := by
  apply StreamCipher.processAll_state

theorem processAll_processAll (rc4 : Rc4) {pieces pieces' : List Bytes}
    (h : pieces'.flatten = (rc4.processAll pieces).1.flatten) :
    (rc4.processAll pieces').1.flatten = pieces.flatten ∧
      (rc4.processAll pieces').2 = (rc4.processAll pieces).2 := by
  constructor
  . rw [flatten_processAll, h, flatten_processAll, process_process]
  . rw [processAll_state, h, flatten_processAll, process_process, processAll_state]

/--
The state is a permutation behind the key schedule and behind any calls of `process`. Nothing but the
bytes of a text decides on what it is encrypted to, and another instance with the key decrypts it.
-/
theorem stream_laws (key : Bytes) (h : 1 ≤ key.length ∧ key.length ≤ 256) :
    ∃ rc4, new key = .ok rc4 ∧ IsPermutation rc4.state ∧
      ∀ (message : Bytes) (pieces : List Bytes), pieces.flatten = message →
        IsPermutation (rc4.processAll pieces).2.state ∧
        (rc4.processAll pieces).1.flatten = (rc4.process message).1 ∧
        (rc4.processAll pieces).2 = (rc4.process message).2 ∧
        ∀ rc4', new key = .ok rc4' →
          ∀ pieces' : List Bytes, pieces'.flatten = (rc4.processAll pieces).1.flatten →
            (rc4'.processAll pieces').1.flatten = message ∧
            (rc4'.processAll pieces').2 = (rc4.processAll pieces).2 := by
  obtain ⟨rc4, hrc4⟩ := new_of_length h
  have hstart := isPermutation_new hrc4
  refine ⟨rc4, hrc4, hstart, ?_⟩
  rintro message pieces rfl
  refine ⟨?_, rc4.flatten_processAll pieces, rc4.processAll_state pieces, ?_⟩
  . rw [processAll_state]
    exact isPermutation_process hstart pieces.flatten
  . intro rc4' hrc4' pieces' hflatten
    obtain rfl := Except.ok.inj (hrc4.symm.trans hrc4')
    exact rc4.processAll_processAll hflatten

theorem stream_laws_foo : ∃ rc4, new [102, 111, 111] = .ok rc4 ∧ IsPermutation rc4.state ∧
    (rc4.processAll [[98, 97, 114], [98, 97, 114]]).1.flatten =
      (rc4.process [98, 97, 114, 98, 97, 114]).1 := by
  obtain ⟨rc4, hrc4, hstart, hlaws⟩ := stream_laws [102, 111, 111] (by decide)
  exact ⟨rc4, hrc4, hstart, (hlaws _ [[98, 97, 114], [98, 97, 114]] rfl).2.1⟩

end Rdp.Rc4
