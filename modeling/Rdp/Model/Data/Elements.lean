import Mathlib.Data.List.Forall2
import Rdp.Lib.Aborts
import Rdp.Model.Data.Equations

/-!
This module contains the readers of optional nodes and of arrays, and the reads of a template that
can abort.
-/

namespace Rdp

open Prog

namespace Cursor

/--
Read until an error, which is dropped.
-/
def many (x : Reader α) (fuel : Nat) : Reader (List α) :=
  match fuel with
  | 0 => throw .diverge
  | fuel + 1 => do
    match ← attempt x with
    | some a => return a :: (← many x fuel)
    | none => return []

/--
The fuel is one more than the bytes that are left.
-/
def elements (x : Reader α) : Reader (List α) := fun input => many x (input.length + 1) input

theorem run_elements (x : Reader α) (input : Bytes) :
    (elements x).run input = (many x (input.length + 1)).run input := rfl

def Consumes (x : Reader α) : Prop :=
  ∀ input a rest, x.run input = .ok a rest → rest.length < input.length

section Many

variable {x : Reader α} {input rest : Bytes}

theorem run_many_of_ok {a : α} (h : x.run input = .ok a rest) (fuel : Nat) :
    (many x (fuel + 1)).run input = (do return a :: (← many x fuel) : Reader (List α)).run rest := by
  rw [many, EStateM.run_bind, run_attempt, h]

theorem run_many_of_error {e : Error} (h : x.run input = .error (.error e) rest) (fuel : Nat) :
    (many x (fuel + 1)).run input = .ok [] rest := by
  rw [many, EStateM.run_bind, run_attempt, h]
  rfl

theorem aborts_many_of_aborts (h : x.Aborts input) (fuel : Nat) :
    (many x (fuel + 1)).Aborts input := by
  rw [many, aborts_bind, aborts_attempt]
  exact .inl h

theorem run_many_of_lt (hx : Consumes x) {fuel fuel' : Nat} (h : input.length < fuel)
    (h' : input.length < fuel') : (many x fuel).run input = (many x fuel').run input := by
  induction fuel generalizing input fuel' with
  | zero => omega
  | succ fuel ih =>
    obtain ⟨fuel', rfl⟩ : ∃ n, fuel' = n + 1 := ⟨fuel' - 1, by omega⟩
    by_cases habort : x.Aborts input
    . obtain ⟨e, t, hrun, hnot⟩ := habort
      rw [many, many, EStateM.run_bind, EStateM.run_bind, run_attempt, hrun]
      cases e with
      | error e => exact absurd (Fault.isError_error e) hnot
      | panic msg => rfl
      | diverge => rfl
    . rcases cases_of_not_aborts habort with ⟨a, rest, hrun⟩ | ⟨e, rest, hrun⟩
      . have hlt := hx input a rest hrun
        have hrest : (many x fuel).run rest = (many x fuel').run rest := ih (by omega) (by omega)
        rw [run_many_of_ok hrun, run_many_of_ok hrun, EStateM.run_bind, EStateM.run_bind, hrest]
      . rw [run_many_of_error hrun, run_many_of_error hrun]

theorem run_elements_of_ok (hx : Consumes x) {a : α} (h : x.run input = .ok a rest) :
    (elements x).run input = (do return a :: (← elements x) : Reader (List α)).run rest := by
  have hlt := hx input a rest h
  rw [run_elements, run_many_of_ok h, EStateM.run_bind, EStateM.run_bind, run_elements,
    run_many_of_lt hx hlt (Nat.lt_succ_self _)]

theorem run_elements_of_error {e : Error} (h : x.run input = .error (.error e) rest) :
    (elements x).run input = .ok [] rest :=
  run_many_of_error h _

theorem run_elements_append (hx : Consumes x) {encode : β → Bytes} {value : β → α} {bs : List β}
    (h : ∀ b ∈ bs, ∀ rest, x.run (encode b ++ rest) = .ok (value b) rest) (tail : Bytes) :
    (elements x).run (bs.flatMap encode ++ tail) =
      (do return bs.map value ++ (← elements x) : Reader (List α)).run tail := by
  induction bs with
  | nil =>
    rw [List.flatMap_nil, List.nil_append, EStateM.run_bind]
    cases (elements x).run tail <;> rfl
  | cons b bs ih =>
    rw [List.forall_mem_cons] at h
    rw [List.flatMap_cons, List.append_assoc, run_elements_of_ok hx (h.1 _), EStateM.run_bind, ih h.2,
      EStateM.run_bind, EStateM.run_bind]
    cases (elements x).run tail <;> rfl

theorem run_elements_flatMap (hx : Consumes x) {encode : β → Bytes} {value : β → α} {bs : List β}
    (h : ∀ b ∈ bs, ∀ rest, x.run (encode b ++ rest) = .ok (value b) rest) {e : Error}
    (hend : x.run [] = .error (.error e) []) :
    (elements x).run (bs.flatMap encode) = .ok (bs.map value) [] := by
  have happend := run_elements_append hx h []
  rw [List.append_nil, EStateM.run_bind, run_elements_of_error hend] at happend
  rw [happend]
  exact congrArg (EStateM.Result.ok · []) (List.append_nil _)

theorem aborts_elements_of_aborts (h : x.Aborts input) : (elements x).Aborts input := by
  have := aborts_many_of_aborts h input.length
  exact this

theorem aborts_elements_iff (hx : Consumes x) :
    (elements x).Aborts input ↔
      x.Aborts input ∨ ∃ a rest, x.run input = .ok a rest ∧ (elements x).Aborts rest := by
  by_cases habort : x.Aborts input
  . simp [habort, aborts_elements_of_aborts habort]
  . rcases cases_of_not_aborts habort with ⟨a, rest, hrun⟩ | ⟨e, rest, hrun⟩
    . have hiff : (elements x).Aborts input ↔
          (do return a :: (← elements x) : Reader (List α)).Aborts rest := by
        unfold Aborts
        rw [run_elements_of_ok hx hrun]
      rw [hiff, aborts_bind_pure, hrun]
      simp [habort]
    . have hnot := not_aborts_of_run_ok (run_elements_of_error hrun)
      rw [hrun]
      simp [habort, hnot]

theorem exists_run_elements (hx : Consumes x) (h : ¬ (elements x).Aborts input) :
    ∃ as rest, (elements x).run input = .ok as rest := by
  -- An array reports no error: it has the elements before the one that failed.
  induction hn : input.length using Nat.strongRecOn generalizing input with
  | ind n ih =>
    rw [aborts_elements_iff hx, not_or] at h
    rcases cases_of_not_aborts h.1 with ⟨a, rest, hrun⟩ | ⟨e, rest, hrun⟩
    . have hlt := hx input a rest hrun
      have hnot : ¬ (elements x).Aborts rest := fun habort => h.2 ⟨a, rest, hrun, habort⟩
      obtain ⟨as, rest', has⟩ := ih rest.length (by omega) hnot rfl
      refine ⟨a :: as, rest', ?_⟩
      rw [run_elements_of_ok hx hrun, EStateM.run_bind, has]
      rfl
    . exact ⟨[], rest, run_elements_of_error hrun⟩

theorem returns_elements (hx : Consumes x) (h : Returns x) : Returns (elements x) := by
  intro input
  induction hn : input.length using Nat.strongRecOn generalizing input with
  | ind n ih =>
    rw [aborts_elements_iff hx]
    rintro (habort | ⟨a, rest, hrun, habort⟩)
    . exact h input habort
    . have hlt := hx input a rest hrun
      exact ih rest.length (by omega) rest rfl habort

@[simp]
theorem attempt_map (f : α → β) (x : Reader α) : attempt (f <$> x) = Option.map f <$> attempt x := by
  funext input
  change (attempt (f <$> x)).run input = (Option.map f <$> attempt x).run input
  rw [run_attempt, run_map, run_map, run_attempt]
  cases x.run input with
  | ok a rest => rfl
  | error e rest => cases e <;> rfl

theorem many_map (f : α → β) (x : Reader α) (fuel : Nat) :
    many (f <$> x) fuel = List.map f <$> many x fuel := by
  induction fuel with
  | zero => rfl
  | succ fuel ih =>
    rw [many, many, ih, attempt_map, bind_map_left, map_bind]
    congr 1
    funext a
    cases a <;> simp

@[simp]
theorem elements_map (f : α → β) (x : Reader α) :
    elements (f <$> x) = List.map f <$> elements x := by
  funext input
  change (elements (f <$> x)).run input = (List.map f <$> elements x).run input
  rw [run_elements, many_map, run_map, run_map, run_elements]

end Many

def parse (x : Reader α) (input : Bytes) : RdpResult α :=
  match x.run input with
  | .ok a _ => .ok a
  | .error e _ => .error e

theorem aborts_parse {x : Reader α} {input : Bytes} : (parse x input).Aborts ↔ x.Aborts input := by
  unfold parse Aborts
  cases x.run input <;> simp

theorem parse_map (f : α → β) (x : Reader α) (input : Bytes) :
    parse (f <$> x) input = f <$> parse x input := by
  unfold parse
  rw [run_map]
  cases x.run input <;> rfl

theorem parse_eq_ok {x : Reader α} {input : Bytes} {a : α} :
    parse x input = .ok a ↔ ∃ rest, x.run input = .ok a rest := by
  unfold parse
  cases x.run input <;> simp

theorem returns_readU8 : Returns readU8 := by
  intro input
  cases input with
  | nil => simp [Aborts]
  | cons a input => simp [Aborts]

theorem returns_readU16 (e : Endian) : Returns (readU16 e) := by
  intro input
  match input with
  | [] | [_] => exact (aborts_of_run_error rfl).not.mpr (by simp)
  | _ :: _ :: _ => exact not_aborts_of_run_ok rfl

theorem returns_readU32 (e : Endian) : Returns (readU32 e) := by
  intro input
  match input with
  | [] | [_] | [_, _] | [_, _, _] => exact (aborts_of_run_error rfl).not.mpr (by simp)
  | _ :: _ :: _ :: _ :: _ => exact not_aborts_of_run_ok rfl

theorem returns_readExact (n : Nat) : Returns (readExact n) := by
  intro input
  unfold Aborts
  rw [run_readExact]
  split <;> simp

theorem returns_expect (ok : Bool) : Returns (expect ok) := by
  cases ok with
  | true => exact Returns.pure ()
  | false => exact Returns.fail _

theorem aborts_limited {n : Nat} {x : Reader α} {input : Bytes} :
    (limited n x).Aborts input ↔ n ≤ input.length ∧ x.Aborts (input.take n) := by
  unfold Aborts
  rw [run_limited]
  by_cases h : n ≤ input.length
  . simp only [h, true_and]
    cases x.run (input.take n) <;> simp
  . simp [h]

theorem returns_limited (n : Nat) {x : Reader α} (hx : Returns x) : Returns (limited n x) := by
  intro input
  rw [aborts_limited]
  exact fun h => hx _ h.2

section Bind

variable {f : UInt8 → Reader α} {g : UInt16 → Reader α} {k : UInt32 → Reader α}
  {body : Bytes → Reader α} {input : Bytes}

theorem aborts_readU8_bind :
    (readU8 >>= f).Aborts input ↔ ∃ a rest, input = a :: rest ∧ (f a).Aborts rest := by
  rw [aborts_bind]
  simp [returns_readU8 input, run_readU8_eq_ok]

theorem aborts_readU16_bind {e : Endian} :
    (readU16 e >>= g).Aborts input ↔
      ∃ a b rest, input = a :: b :: rest ∧ (g (e.decode16 a b)).Aborts rest := by
  rw [aborts_bind]
  constructor
  . rintro (h | ⟨v, rest, h, habort⟩)
    . exact absurd h (returns_readU16 e input)
    . obtain ⟨a, b, rfl, rfl⟩ := run_readU16_eq_ok.mp h
      exact ⟨a, b, rest, rfl, habort⟩
  . rintro ⟨a, b, rest, rfl, habort⟩
    exact .inr ⟨_, rest, rfl, habort⟩

theorem aborts_readU32_bind {e : Endian} :
    (readU32 e >>= k).Aborts input ↔
      ∃ a b c d rest, input = a :: b :: c :: d :: rest ∧ (k (e.decode32 a b c d)).Aborts rest := by
  rw [aborts_bind]
  constructor
  . rintro (h | ⟨v, rest, h, habort⟩)
    . exact absurd h (returns_readU32 e input)
    . obtain ⟨a, b, c, d, rfl, rfl⟩ := run_readU32_eq_ok.mp h
      exact ⟨a, b, c, d, rest, rfl, habort⟩
  . rintro ⟨a, b, c, d, rest, rfl, habort⟩
    exact .inr ⟨_, rest, rfl, habort⟩

theorem aborts_readExact_bind {n : Nat} :
    (readExact n >>= body).Aborts input ↔
      ∃ v rest, input = v ++ rest ∧ v.length = n ∧ (body v).Aborts rest := by
  rw [aborts_bind]
  simp only [returns_readExact n input, run_readExact_eq_ok, false_or]
  constructor
  . rintro ⟨v, rest, ⟨h, hlength⟩, habort⟩
    exact ⟨v, rest, h, hlength, habort⟩
  . rintro ⟨v, rest, h, hlength, habort⟩
    exact ⟨v, rest, ⟨h, hlength⟩, habort⟩

theorem aborts_readToEnd_bind : (readToEnd >>= body).Aborts input ↔ (body input).Aborts [] :=
  aborts_bind_of_run (run_readToEnd input)

theorem aborts_expect_bind {ok : Bool} {x : Reader α} {input : Bytes} :
    (do expect ok; x : Reader α).Aborts input ↔ ok = true ∧ x.Aborts input := by
  cases ok with
  | true => simp [expect]
  | false =>
    rw [aborts_bind]
    simp [expect]

theorem aborts_limited_bind {n : Nat} {x : Reader α} {f : α → Reader β} :
    (limited n x >>= f).Aborts input ↔
      ∃ v rest, input = v ++ rest ∧ v.length = n ∧
        (x.Aborts v ∨ ∃ a rest', x.run v = .ok a rest' ∧ (f a).Aborts rest) := by
  rw [aborts_bind, aborts_limited, run_limited]
  constructor
  . rintro (⟨hle, habort⟩ | ⟨a, rest, hrun, habort⟩)
    . exact ⟨_, _, (List.take_append_drop n input).symm, List.length_take_of_le hle, .inl habort⟩
    . split at hrun
      next hle =>
        refine ⟨_, _, (List.take_append_drop n input).symm, List.length_take_of_le hle, .inr ?_⟩
        split at hrun
        next hx =>
          cases hrun
          exact ⟨a, _, hx, habort⟩
        next => cases hrun
      next => cases hrun
  . rintro ⟨v, rest, rfl, rfl, habort⟩
    rw [List.take_left, List.drop_left, if_pos (by simp)]
    rcases habort with habort | ⟨a, rest', hrun, habort⟩
    . exact .inl ⟨by simp, habort⟩
    . rw [hrun]
      exact .inr ⟨a, rest, rfl, habort⟩

end Bind

theorem run_attempt_readU16 (e : Endian) (input : Bytes) :
    ∃ v, (attempt (readU16 e)).run input = .ok v (input.drop 2) := by
  match input with
  | [] | [_] => exact ⟨none, rfl⟩
  | a :: b :: rest => exact ⟨some (e.decode16 a b), rfl⟩

@[simp]
theorem limited_map (n : Nat) (f : α → β) (x : Reader α) :
    limited n (f <$> x) = f <$> limited n x := by
  funext input
  change (limited n (f <$> x)).run input = (f <$> limited n x).run input
  rw [run_map, run_limited, run_limited]
  split
  . rw [run_map]
    cases x.run (input.take n) <;> rfl
  . rfl

theorem limited_readToEnd (n : Nat) : limited n readToEnd = readExact n := by
  funext input
  change (limited n readToEnd).run input = (readExact n).run input
  rw [run_limited, run_readExact]
  rfl

end Cursor

open Cursor

theorem castU16_eq_ok {d : DataType} {v : UInt16} : castU16 d = .ok v ↔ d = .u16 v := by
  cases d <;> simp [castU16, DataType.invalidCast]

theorem castU32_eq_ok {d : DataType} {v : UInt32} : castU32 d = .ok v ↔ d = .u32 v := by
  cases d <;> simp [castU32, DataType.invalidCast]

namespace Leaf

theorem read_outcome (v : Leaf) (input : Bytes) :
    (v.read input).outcome = .ok () ∨ ∃ e, (v.read input).outcome = .error (.error e) := by
  unfold read
  split
  case h_5 =>
    split
    . exact .inl rfl
    . exact .inr ⟨_, rfl⟩
  all_goals first
    | exact .inl rfl
    | exact .inr ⟨_, rfl⟩

theorem readCheck_outcome (v : Leaf) (input : Bytes) :
    (v.readCheck input).outcome = .ok () ∨ ∃ e, (v.readCheck input).outcome = .error (.error e) := by
  unfold readCheck
  rcases read_outcome v input with h | ⟨e, h⟩
  . simp only [h]
    split
    . exact .inl h
    . exact .inr ⟨_, rfl⟩
  . simp only [h]
    exact .inr ⟨e, rfl⟩

end Leaf

namespace Message

@[simp]
theorem reader_option_some (m : Message) :
    (option (some m)).reader = (do return option (← attempt m.reader)) := by
  funext input
  change (option (some m)).reader.run input = EStateM.run (_ >>= _) input
  rw [run_reader, EStateM.run_bind, run_attempt, run_reader]
  simp only [read]
  cases (m.read input).outcome with
  | ok u => rfl
  | error e => cases e <;> rfl

theorem visitTrame_eq_map (ms : Trame) : visitTrame ms = ms.map visit := by
  induction ms with
  | nil => rfl
  | cons m ms ih => rw [visitTrame, ih, List.map_cons]

theorem run_many_reader (m : Message) (fuel : Nat) (inner : Trame) (input : Bytes) :
    (do return inner ++ (← many m.reader fuel) : Reader Trame).run input =
      let r := readElements (fun input => m.read input) fuel inner input
      match r.outcome with
      | .ok () => .ok r.node r.rest
      | .error e => .error e r.rest := by
  induction fuel generalizing inner input with
  | zero => rfl
  | succ fuel ih =>
    rw [EStateM.run_bind, many, EStateM.run_bind, run_attempt, run_reader, readElements]
    cases hout : (m.read input).outcome with
    | ok u =>
      rw [← ih]
      simp only [EStateM.run_bind]
      cases (many m.reader fuel).run (m.read input).rest <;> simp
    | error e => cases e <;> simp

@[simp]
theorem reader_array (m : Message) :
    (array [] (some m)).reader = (do return array (← elements m.reader) (some m)) := by
  funext input
  change (array [] (some m)).reader.run input = EStateM.run (_ >>= _) input
  have h := run_many_reader m (input.length + 1) [] input
  rw [run_reader, EStateM.run_bind, run_elements]
  simp only [List.nil_append, bind_pure] at h
  rw [h]
  simp only [read, ReadResult.map]
  cases (readElements (fun input => m.read input) (input.length + 1) [] input).outcome <;> rfl

/--
Reading this node never aborts, and neither does the option it gives to its parent afterwards.
-/
def Total (m : Message) : Prop :=
  Returns m.reader ∧ ∀ input node rest, m.reader.run input = .ok node rest → ¬ node.options.Aborts

section Total

variable {m : Message} {ms : Trame} {fields : Component}

theorem aborts_reader (input : Bytes) : m.reader.Aborts input ↔ (m.read input).outcome.Aborts := by
  unfold Aborts
  rw [run_reader]
  cases (m.read input).outcome <;> simp

theorem returns_leaf (v : Leaf) : Returns (leaf v).reader := by
  intro input
  rw [aborts_reader]
  rcases Leaf.read_outcome v input with h | ⟨e, h⟩ <;> simp [read, ReadResult.map, h]

theorem returns_check (v : Leaf) : Returns (check v).reader := by
  intro input
  rw [aborts_reader]
  rcases Leaf.readCheck_outcome v input with h | ⟨e, h⟩ <;> simp [read, ReadResult.map, h]

theorem options_of_read {input rest : Bytes} {node : Message}
    (h : m.reader.run input = .ok node rest) (hm : ∀ inner filter, m ≠ dynOption inner filter) :
    node.options = .ok .none := by
  rw [run_reader] at h
  split at h
  next =>
    cases h
    match m with
    | leaf _ | check _ | option none | trame _ | array _ none | array _ (some _) | component _ => rfl
    | option (some m) =>
      rw [read]
      split <;> rfl
    | dynOption inner filter => exact absurd rfl (hm inner filter)
  next => cases h

theorem total_of_returns (h : Returns m.reader) (hm : ∀ inner filter, m ≠ dynOption inner filter) :
    Total m := by
  refine ⟨h, ?_⟩
  intro input node rest hrun
  rw [options_of_read hrun hm]
  exact Except.not_aborts_ok _

@[simp]
theorem total_leaf (v : Leaf) : Total (leaf v) :=
  total_of_returns (returns_leaf v) (by simp)

@[simp]
theorem total_check (v : Leaf) : Total (check v) :=
  total_of_returns (returns_check v) (by simp)

@[simp]
theorem total_option (h : Total m) : Total (option (some m)) := by
  apply total_of_returns ?_ (by simp)
  rw [reader_option_some]
  exact h.1.attempt.bind_pure _

theorem total_dynOption {filter : DataType → RdpResult MessageOption} (hm : Returns m.reader)
    (h : ∀ input node rest, m.reader.run input = .ok node rest → ¬ (filter node.visit).Aborts) :
    Total (dynOption m filter) := by
  constructor
  . rw [reader_dynOption]
    exact hm.bind_pure _
  . intro input node rest hrun
    rw [reader_dynOption] at hrun
    obtain ⟨inner, _, hinner, hnode⟩ := run_bind_eq_ok hrun
    cases hnode
    exact h _ _ _ hinner

theorem total_dynOption_leaf {v : Leaf} {filter : DataType → RdpResult MessageOption}
    (h : ∀ d, ¬ (filter d).Aborts) : Total (dynOption (leaf v) filter) :=
  total_dynOption (returns_leaf v) fun _ _ _ _ => h _

theorem returns_readerTrame (h : ∀ m ∈ ms, Total m) : Returns (readerTrame ms) := by
  induction ms with
  | nil => exact Returns.pure []
  | cons m ms ih =>
    rw [List.forall_mem_cons] at h
    rw [readerTrame_cons]
    apply h.1.1.bind
    intro node
    exact (ih h.2).bind_pure _

@[simp]
theorem total_trame (h : ∀ m ∈ ms, Total m) : Total (trame ms) := by
  apply total_of_returns ?_ (by simp)
  rw [reader_trame]
  exact (returns_readerTrame h).bind_pure _

theorem returns_readerSized (h : Returns m.reader) (size : Option Nat) :
    Returns (m.readerSized size) := by
  cases size with
  | none => exact h
  | some n => exact returns_limited n h

theorem run_readerSized_eq_ok {size : Option Nat} {input rest : Bytes} {node : Message}
    (h : (m.readerSized size).run input = .ok node rest) :
    ∃ input' rest', m.reader.run input' = .ok node rest' := by
  cases size with
  | none => exact ⟨input, rest, h⟩
  | some n =>
    rw [readerSized_some, run_limited] at h
    split at h
    next =>
      split at h
      next hrun =>
        cases h
        exact ⟨_, _, hrun⟩
      next => cases h
    next => cases h

theorem returns_readerFields (h : ∀ f ∈ fields, Total f.2) (skips : List String)
    (sizes : List (String × Nat)) : Returns (readerFields skips sizes fields) := by
  induction fields generalizing skips sizes with
  | nil => exact Returns.pure []
  | cons f fields ih =>
    obtain ⟨name, m⟩ := f
    rw [List.forall_mem_cons] at h
    rw [readerFields]
    split
    . exact (ih h.2 skips sizes).bind_pure _
    . intro input habort
      rcases aborts_bind.mp habort with habort | ⟨node, rest, hrun, habort⟩
      . exact returns_readerSized h.1.1 _ input habort
      . obtain ⟨input', rest', hread⟩ := run_readerSized_eq_ok hrun
        rcases aborts_bind.mp habort with habort | ⟨o, _, _, habort⟩
        . rw [aborts_lift] at habort
          exact h.1.2 _ _ _ hread habort
        . exact (ih h.2 _ _).bind_pure _ _ habort

@[simp]
theorem total_component (h : ∀ f ∈ fields, Total f.2) : Total (component fields) := by
  apply total_of_returns ?_ (by simp)
  rw [reader_component]
  exact (returns_readerFields h [] []).bind_pure _

theorem total_array (h : Returns m.reader) (hconsumes : Consumes m.reader) :
    Total (array [] (some m)) := by
  apply total_of_returns ?_ (by simp)
  rw [reader_array]
  exact (returns_elements hconsumes h).bind_pure _

end Total

end Message

end Rdp
