import Rdp.Model.Data.Elements

/-!
This module contains what a read leaves of a template and of its stream: the fields keep their
names, and nothing is put back.
-/

namespace Rdp

open Prog Cursor

namespace Leaf

theorem rest_read (v : Leaf) (input : Bytes) : (v.read input).rest.length ≤ input.length := by
  unfold read
  split
  case h_5 =>
    split
    . simp
    . simp [ReadResult.unexpectedEof]
  all_goals
    simp only [ReadResult.unexpectedEof, List.length_cons, List.length_nil]
    omega

theorem rest_readCheck (v : Leaf) (input : Bytes) :
    (v.readCheck input).rest.length ≤ input.length := by
  have h := rest_read v input
  unfold readCheck
  dsimp only
  split
  . exact h
  . split <;> exact h

end Leaf

namespace Message

theorem rest_readElements {readElement : Bytes → ReadResult Message}
    (h : ∀ input, (readElement input).rest.length ≤ input.length) (fuel : Nat) (inner : Trame)
    (input : Bytes) : (readElements readElement fuel inner input).rest.length ≤ input.length := by
  induction fuel generalizing inner input with
  | zero => exact Nat.le_refl _
  | succ fuel ih =>
    rw [readElements]
    split
    . exact Nat.le_trans (ih _ _) (h input)
    . exact h input
    . exact h input

theorem rest_readSized {readField : Bytes → ReadResult Message}
    (h : ∀ input, (readField input).rest.length ≤ input.length) (m : Message) (size : Option Nat)
    (input : Bytes) : (readSized readField m size input).rest.length ≤ input.length := by
  cases size with
  | none => exact h input
  | some n =>
    rw [readSized]
    split <;> simp [ReadResult.unexpectedEof]

mutual

theorem rest_read (m : Message) (input : Bytes) : (m.read input).rest.length ≤ input.length := by
  match m with
  | .leaf v =>
    rw [read]
    exact v.rest_read input
  | .check v =>
    rw [read]
    exact v.rest_readCheck input
  | .dynOption inner _ =>
    rw [read]
    exact rest_read inner input
  | .option none => simp [read]
  | .option (some m) =>
    have h := rest_read m input
    rw [read]
    split <;> exact h
  | .trame ms =>
    rw [read]
    exact rest_readTrame ms input
  | .array inner none => simp [read]
  | .array inner (some m) =>
    rw [read]
    exact rest_readElements (rest_read m) _ inner input
  | .component fields =>
    rw [read]
    exact rest_readFields [] [] fields input

theorem rest_readTrame (ms : Trame) (input : Bytes) :
    (readTrame ms input).rest.length ≤ input.length := by
  match ms with
  | [] => simp [readTrame]
  | m :: ms =>
    have h := rest_read m input
    rw [readTrame]
    split
    . exact h
    . exact Nat.le_trans (rest_readTrame ms _) h

theorem rest_readFields (skips : List String) (sizes : List (String × Nat)) (fields : Component)
    (input : Bytes) : (readFields skips sizes fields input).rest.length ≤ input.length := by
  match fields with
  | [] => simp [readFields]
  | (name, m) :: fields =>
    have h := rest_readSized (rest_read m) m (sizes.lookup name) input
    rw [readFields]
    split
    . exact rest_readFields skips sizes fields input
    . dsimp only
      split
      . exact h
      . split
        . exact h
        . exact Nat.le_trans (rest_readFields _ _ fields _) h

end

theorem rest_le_of_run_fields {skips : List String} {sizes : List (String × Nat)} {fields : Component}
    {input rest : Bytes} {nodes : Component}
    (h : (readerFields skips sizes fields).run input = .ok nodes rest) :
    rest.length ≤ input.length := by
  have hle := rest_readFields skips sizes fields input
  rw [run_readerFields] at h
  split at h
  next =>
    cases h
    exact hle
  next => cases h

theorem consumes_leaf {v : Leaf} (h : ∀ bytes, v ≠ .bytes bytes) : Consumes (leaf v).reader := by
  intro input node rest hrun
  match v with
  | .bytes bytes => exact absurd rfl (h bytes)
  | .u8 _ =>
    rw [reader_u8] at hrun
    obtain ⟨a, _, hread, hnode⟩ := run_bind_eq_ok hrun
    cases hnode
    cases run_readU8_eq_ok.mp hread
    simp
  | .u16 e _ =>
    rw [reader_u16] at hrun
    obtain ⟨a, _, hread, hnode⟩ := run_bind_eq_ok hrun
    cases hnode
    obtain ⟨a, b, rfl, _⟩ := run_readU16_eq_ok.mp hread
    simp only [List.length_cons]
    omega
  | .u32 e _ =>
    rw [reader_u32] at hrun
    obtain ⟨a, _, hread, hnode⟩ := run_bind_eq_ok hrun
    cases hnode
    obtain ⟨a, b, c, d, rfl, _⟩ := run_readU32_eq_ok.mp hread
    simp only [List.length_cons]
    omega

theorem consumes_dynOption {m : Message} (h : Consumes m.reader)
    (filter : DataType → RdpResult MessageOption) : Consumes (dynOption m filter).reader := by
  intro input node rest hrun
  rw [reader_dynOption] at hrun
  obtain ⟨inner, _, hread, hnode⟩ := run_bind_eq_ok hrun
  cases hnode
  exact h input inner _ hread

theorem consumes_component {name : String} {m : Message} (h : Consumes m.reader)
    (fields : Component) : Consumes (component ((name, m) :: fields)).reader := by
  intro input node rest hrun
  rw [reader_component, readerFields_cons_of_not_mem [] m fields List.not_mem_nil] at hrun
  obtain ⟨nodes, _, hrun, hnode⟩ := run_bind_eq_ok hrun
  cases hnode
  obtain ⟨first, _, hfirst, hrun⟩ := run_bind_eq_ok hrun
  obtain ⟨o, _, ho, hrun⟩ := run_bind_eq_ok hrun
  obtain ⟨others, _, hothers, hnodes⟩ := run_bind_eq_ok hrun
  cases hnodes
  obtain ⟨_, rfl⟩ := run_lift_eq_ok ho
  exact Nat.lt_of_le_of_lt (rest_le_of_run_fields hothers) (h input first _ hfirst)

theorem names_of_run_fields {skips : List String} {sizes : List (String × Nat)} {fields : Component}
    {input rest : Bytes} {nodes : Component}
    (h : (readerFields skips sizes fields).run input = .ok nodes rest) :
    nodes.map Prod.fst = fields.map Prod.fst := by
  induction fields generalizing skips sizes input nodes with
  | nil =>
    cases h
    rfl
  | cons f fields ih =>
    obtain ⟨name, m⟩ := f
    rw [readerFields] at h
    split at h
    . obtain ⟨others, _, hothers, hnodes⟩ := run_bind_eq_ok h
      cases hnodes
      rw [List.map_cons, List.map_cons, ih hothers]
    . obtain ⟨first, _, _, h⟩ := run_bind_eq_ok h
      obtain ⟨o, _, _, h⟩ := run_bind_eq_ok h
      obtain ⟨others, _, hothers, hnodes⟩ := run_bind_eq_ok h
      cases hnodes
      rw [List.map_cons, List.map_cons, ih hothers]

theorem exists_field {fields : Component} {name : String} (h : name ∈ fields.map Prod.fst) :
    ∃ d, field (visitFields fields) name = .ok d := by
  induction fields with
  | nil => cases h
  | cons f fields ih =>
    obtain ⟨key, m⟩ := f
    unfold field at ih ⊢
    rw [visitFields, List.lookup_cons]
    cases hname : name == key with
    | true => exact ⟨m.visit, rfl⟩
    | false =>
      apply ih
      rw [List.map_cons, List.mem_cons] at h
      rcases h with h | h
      . simp [h] at hname
      . exact h

end Message

namespace Cursor

theorem forall_of_run_elements {x : Reader α} {P : α → Prop}
    (hx : ∀ input a rest, x.run input = .ok a rest → P a) {input rest : Bytes} {as : List α}
    (h : (elements x).run input = .ok as rest) : ∀ a ∈ as, P a := by
  rw [run_elements] at h
  generalize input.length + 1 = fuel at h
  induction fuel generalizing input as with
  | zero => cases h
  | succ fuel ih =>
    rw [many, EStateM.run_bind, run_attempt] at h
    cases hrun : x.run input with
    | error e t =>
      rw [hrun] at h
      cases e with
      | error e =>
        cases h
        simp
      | panic msg => cases h
      | diverge => cases h
    | ok a t =>
      rw [hrun] at h
      obtain ⟨others, _, hothers, has⟩ := run_bind_eq_ok h
      cases has
      rw [List.forall_mem_cons]
      exact ⟨hx input a t hrun, ih hothers⟩

end Cursor

end Rdp
