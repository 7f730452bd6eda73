import Rdp.Model.Data.Elements
import Rdp.Nla.Ntlm.Impl

/-!
This module contains the target info of a challenge: the list of pairs it is read from, and the map
that is made of them.
-/

namespace Rdp

open Nla Cursor

namespace Nla

def avBytes (id : UInt16) (value : Bytes) : Bytes :=
  Endian.le.encode16 id ++ (Endian.le.encode16 (.ofNat value.length) ++ value)

/--
The data starts with these pairs and the end of the list.
-/
inductive AvPairs : Bytes → List (AvId × Bytes) → Prop where
  | eol {value : Bytes} (hlength : value.length < 2 ^ 16) (rest : Bytes) :
    AvPairs (avBytes 0 value ++ rest) []
  | pair {id : UInt16} {avId : AvId} {value data : Bytes} {pairs : List (AvId × Bytes)}
    (hid : AvId.tryFrom id = .ok avId) (heol : avId ≠ .msvAvEOL) (hlength : value.length < 2 ^ 16)
    (hdata : AvPairs data pairs) : AvPairs (avBytes id value ++ data) ((avId, value) :: pairs)

theorem readAvPair_eq :
    readAvPair = (do
      let id ← readU16 .le
      let length ← readU16 .le
      let value ← readExact length.toNat
      let avId ← Prog.lift (AvId.tryFrom id)
      if avId = .msvAvEOL then
        return none
      else
        return some (avId, value)) := by
  unfold readAvPair
  simp [avPair, Message.visit, Leaf.visit, limited_readToEnd]
  repeat refine bind_congr fun _ => ?_
  rfl

theorem tryFrom_eq_eol {id : UInt16} (h : AvId.tryFrom id = .ok .msvAvEOL) : id = 0 := by
  unfold AvId.tryFrom at h
  split at h <;> cases h
  exact UInt16.toNat_inj.mp ‹_›

theorem not_aborts_tryFrom (id : UInt16) : ¬ (AvId.tryFrom id).Aborts := by
  unfold AvId.tryFrom
  split <;> simp

theorem returns_readAvPair : Prog.Returns readAvPair := by
  rw [readAvPair_eq]
  apply (returns_readU16 _).bind
  intro id
  apply (returns_readU16 _).bind
  intro length
  apply (returns_readExact _).bind
  intro value
  apply (Prog.Returns.lift (not_aborts_tryFrom id)).bind
  intro avId
  split <;> apply Prog.Returns.pure

theorem run_readAvPair_eq_ok {input rest : Bytes} {pair : Option (AvId × Bytes)}
    (h : readAvPair.run input = .ok pair rest) :
    ∃ id avId value, value.length < 2 ^ 16 ∧ input = avBytes id value ++ rest ∧
      AvId.tryFrom id = .ok avId ∧ pair = if avId = .msvAvEOL then none else some (avId, value) := by
  rw [readAvPair_eq] at h
  obtain ⟨id, s₁, hid, h₁⟩ := Prog.run_bind_eq_ok h
  obtain ⟨length, s₂, hlength, h₂⟩ := Prog.run_bind_eq_ok h₁
  obtain ⟨value, s₃, hvalue, h₃⟩ := Prog.run_bind_eq_ok h₂
  obtain ⟨avId, s₄, havId, h₄⟩ := Prog.run_bind_eq_ok h₃
  obtain ⟨htry, rfl⟩ := Prog.run_lift_eq_ok havId
  obtain ⟨rfl, hv⟩ := run_readExact_eq_ok.mp hvalue
  have hlt : value.length < 2 ^ 16 := by
    rw [hv]
    exact length.toNat_lt
  have hinput : input = avBytes id value ++ s₄ := by
    rw [run_readU16_iff_encode16.mp hid, run_readU16_iff_encode16.mp hlength, avBytes, hv,
      UInt16.ofNat_toNat, List.append_assoc, List.append_assoc]
  split at h₄
  next heol =>
    cases h₄
    exact ⟨_, avId, value, hlt, hinput, htry, (if_pos heol).symm⟩
  next heol =>
    cases h₄
    exact ⟨_, avId, value, hlt, hinput, htry, (if_neg heol).symm⟩

theorem run_readAvPair {id : UInt16} {avId : AvId} (hid : AvId.tryFrom id = .ok avId) {value : Bytes}
    (hlength : value.length < 2 ^ 16) (rest : Bytes) :
    readAvPair.run (avBytes id value ++ rest) =
      .ok (if avId = .msvAvEOL then none else some (avId, value)) rest := by
  have hvalue : (UInt16.ofNat value.length).toNat = value.length := UInt16.toNat_ofNat_of_lt' hlength
  rw [readAvPair_eq, avBytes, List.append_assoc, List.append_assoc, EStateM.run_bind,
    run_readU16_encode16]
  dsimp only
  rw [EStateM.run_bind, run_readU16_encode16]
  dsimp only
  rw [EStateM.run_bind, run_readExact_append rest hvalue.symm, hid]
  dsimp only
  rw [Prog.lift_ok, pure_bind]
  split <;> rfl

theorem length_avBytes (id : UInt16) (value : Bytes) : (avBytes id value).length = 4 + value.length := by
  simp [avBytes, Endian.encode16, Endian.order]
  omega

theorem not_aborts_readPairs (fuel : Nat) (result : List (AvId × Bytes)) {input : Bytes}
    (hfuel : input.length < fuel) : ¬ (readPairs fuel result).Aborts input := by
  induction fuel generalizing result input with
  | zero => omega
  | succ fuel ih =>
    rw [readPairs, Prog.aborts_bind]
    rintro (habort | ⟨pair, rest, hpair, habort⟩)
    . exact returns_readAvPair input habort
    . obtain ⟨id, avId, value, _, rfl, _, rfl⟩ := run_readAvPair_eq_ok hpair
      rw [List.length_append, length_avBytes] at hfuel
      split at habort
      next => exact Prog.not_aborts_pure _ _ habort
      next => exact ih _ (by omega) habort

theorem avPairs_of_readPairs (fuel : Nat) (result : List (AvId × Bytes)) {input : Bytes}
    {all : List (AvId × Bytes)} {rest : Bytes}
    (h : (readPairs fuel result).run input = .ok all rest) :
    ∃ pairs, AvPairs input pairs ∧ all = pairs.reverse ++ result := by
  induction fuel generalizing result input with
  | zero => cases h
  | succ fuel ih =>
    rw [readPairs] at h
    obtain ⟨pair, rest, hpair, h₁⟩ := Prog.run_bind_eq_ok h
    obtain ⟨id, avId, value, hlength, rfl, hid, rfl⟩ := run_readAvPair_eq_ok hpair
    by_cases heol : avId = .msvAvEOL
    . rw [if_pos heol] at h₁
      cases h₁
      subst heol
      cases tryFrom_eq_eol hid
      exact ⟨[], .eol hlength rest, rfl⟩
    . rw [if_neg heol] at h₁
      obtain ⟨pairs, hpairs, rfl⟩ := ih _ h₁
      exact ⟨(avId, value) :: pairs, .pair hid heol hlength hpairs, by simp⟩

theorem readPairs_of_avPairs {fuel : Nat} {input : Bytes} {pairs : List (AvId × Bytes)}
    (h : AvPairs input pairs) (hfuel : input.length < fuel) (result : List (AvId × Bytes)) :
    ∃ rest, (readPairs fuel result).run input = .ok (pairs.reverse ++ result) rest := by
  obtain ⟨fuel, rfl⟩ := Nat.exists_eq_add_one.mpr (Nat.zero_lt_of_lt hfuel)
  induction h generalizing fuel result with
  | eol hlength rest =>
    have heol := run_readAvPair (show AvId.tryFrom 0 = .ok .msvAvEOL from rfl) hlength rest
    rw [readPairs, Prog.run_bind_of_ok heol]
    exact ⟨rest, rfl⟩
  | @pair id avId value data pairs hid heol hlength _ ih =>
    rw [List.length_append, length_avBytes] at hfuel
    obtain ⟨fuel, rfl⟩ := Nat.exists_eq_add_one.mpr (show 0 < fuel by omega)
    have hpair := run_readAvPair hid hlength data
    rw [if_neg heol] at hpair
    rw [readPairs, Prog.run_bind_of_ok hpair, List.reverse_cons, List.append_assoc]
    exact ih ((avId, value) :: result) fuel (by omega)

theorem not_aborts_readTargetInfo (data : Bytes) : ¬ (readTargetInfo data).Aborts := by
  have hpairs := not_aborts_readPairs (data.length + 1) [] (Nat.lt_succ_self data.length)
  unfold readTargetInfo
  cases hrun : (readPairs (data.length + 1) []).run data with
  | ok pairs rest => exact Except.not_aborts_ok pairs
  | error e rest =>
    rw [Prog.aborts_of_run_error hrun] at hpairs
    rwa [Except.aborts_error]

theorem readTargetInfo_eq_ok {data : Bytes} {info : List (AvId × Bytes)} :
    readTargetInfo data = .ok info ↔ ∃ pairs, AvPairs data pairs ∧ info = pairs.reverse := by
  unfold readTargetInfo
  constructor
  . intro h
    cases hrun : (readPairs (data.length + 1) []).run data with
    | ok pairs rest =>
      rw [hrun] at h
      cases h
      simpa using avPairs_of_readPairs _ _ hrun
    | error e rest =>
      rw [hrun] at h
      cases h
  . rintro ⟨pairs, hpairs, rfl⟩
    obtain ⟨rest, hrun⟩ := readPairs_of_avPairs hpairs (Nat.lt_succ_self data.length) []
    rw [hrun, List.append_nil]

def AvId.toU16 (id : AvId) : UInt16 :=
  match id with
  | .msvAvEOL => 0x0000
  | .msvAvNbComputerName => 0x0001
  | .msvAvNbDomainName => 0x0002
  | .msvAvDnsComputerName => 0x0003
  | .msvAvDnsDomainName => 0x0004
  | .msvAvDnsTreeName => 0x0005
  | .msvAvFlags => 0x0006
  | .msvAvTimestamp => 0x0007
  | .msvAvSingleHost => 0x0008
  | .msvAvTargetName => 0x0009
  | .msvChannelBindings => 0x000A

theorem AvId.tryFrom_toU16 (id : AvId) : AvId.tryFrom id.toU16 = .ok id := by
  cases id <;> rfl

theorem AvId.toU16_of_tryFrom {v : UInt16} {id : AvId} (h : AvId.tryFrom v = .ok id) : v = id.toU16 := by
  unfold AvId.tryFrom at h
  split at h <;>
    cases h <;>
    exact UInt16.toNat_inj.mp ‹_›

theorem AvId.toU16_le (id : AvId) : id.toU16.toNat ≤ 10 := by
  cases id <;> decide

theorem AvId.lt_of_tryFrom {v : UInt16} {e : Fault Error} (h : AvId.tryFrom v = .error e) : 10 < v.toNat := by
  unfold AvId.tryFrom at h
  split at h <;> cases h
  simp only [imp_false] at *
  omega

/--
A pair other than the end of the list.
-/
structure AvPair where
  id : AvId
  value : Bytes
  id_ne : id ≠ .msvAvEOL
  length_lt : value.length < 2 ^ 16

namespace AvPair

def encode (pair : AvPair) : Bytes := avBytes pair.id.toU16 pair.value

def entry (pair : AvPair) : AvId × Bytes := (pair.id, pair.value)

theorem run_readPairs (pairs : List AvPair) (fuel : Nat) (result : List (AvId × Bytes)) (tail : Bytes) :
    (readPairs (fuel + pairs.length) result).run (pairs.flatMap encode ++ tail) =
      (readPairs fuel ((pairs.map entry).reverse ++ result)).run tail := by
  induction pairs generalizing result with
  | nil => rfl
  | cons pair pairs ih =>
    have hpair := run_readAvPair pair.id.tryFrom_toU16 pair.length_lt (pairs.flatMap encode ++ tail)
    rw [if_neg pair.id_ne] at hpair
    rw [List.length_cons, ← Nat.add_assoc, readPairs, List.flatMap_cons, List.append_assoc, encode,
      Prog.run_bind_of_ok hpair, List.map_cons, List.reverse_cons, List.append_assoc]
    exact ih (pair.entry :: result)

theorem length_le (pairs : List AvPair) (tail : Bytes) :
    pairs.length + tail.length ≤ (pairs.flatMap encode ++ tail).length := by
  induction pairs with
  | nil => simp
  | cons pair pairs ih =>
    rw [List.flatMap_cons, List.append_assoc, List.length_append, encode, length_avBytes, List.length_cons]
    omega

theorem readTargetInfo_append (pairs : List AvPair) (tail : Bytes) :
    ∃ fuel, readTargetInfo (pairs.flatMap encode ++ tail) =
      match (readPairs (fuel + 1) (pairs.map entry).reverse).run tail with
      | .ok result _ => .ok result
      | .error e _ => .error e := by
  have hle := length_le pairs tail
  obtain ⟨fuel, hfuel⟩ : ∃ fuel, (pairs.flatMap encode ++ tail).length + 1 = fuel + 1 + pairs.length :=
    ⟨(pairs.flatMap encode ++ tail).length - pairs.length, by omega⟩
  refine ⟨fuel, ?_⟩
  change (match (readPairs ((pairs.flatMap encode ++ tail).length + 1) []).run _ with
    | .ok result _ => Except.ok result
    | .error e _ => Except.error e) = _
  rw [hfuel, run_readPairs, List.append_nil]

theorem lookup_entries (pairs : List AvPair) (id : AvId) :
    (pairs.map entry).lookup id = (pairs.find? fun pair => pair.id = id).map (·.value) := by
  induction pairs with
  | nil => rfl
  | cons pair pairs ih =>
    rw [List.map_cons, entry, List.lookup_cons, List.find?_cons, ih]
    by_cases h : id = pair.id
    . subst h
      simp
    . have hbeq : (id == pair.id) = false := beq_false_of_ne h
      have hne : decide (pair.id = id) = false := decide_eq_false fun heq => h heq.symm
      rw [hbeq, hne]

end AvPair

/--
No pair with a known id comes next.
-/
def Stops (tail : Bytes) : Prop :=
  ∀ id value rest, value.length < 2 ^ 16 → tail = avBytes id value ++ rest → 10 < id.toNat

theorem readTargetInfo_eol (pairs : List AvPair) {value : Bytes} (hvalue : value.length < 2 ^ 16)
    (rest : Bytes) :
    readTargetInfo (pairs.flatMap AvPair.encode ++ (avBytes 0 value ++ rest)) =
      .ok (pairs.map AvPair.entry).reverse := by
  obtain ⟨fuel, hinfo⟩ := AvPair.readTargetInfo_append pairs (avBytes 0 value ++ rest)
  have heol := run_readAvPair (show AvId.tryFrom 0 = .ok .msvAvEOL from rfl) hvalue rest
  rw [hinfo, readPairs, Prog.run_bind_of_ok heol]
  rfl

theorem readTargetInfo_stops (pairs : List AvPair) {tail : Bytes} (h : Stops tail) :
    ∃ e, readTargetInfo (pairs.flatMap AvPair.encode ++ tail) = .error (.error e) := by
  obtain ⟨fuel, hinfo⟩ := AvPair.readTargetInfo_append pairs tail
  rcases Prog.cases_of_not_aborts (returns_readAvPair tail) with ⟨pair, rest, hpair⟩ | ⟨e, rest, herror⟩
  . obtain ⟨id, avId, value, hvalue, htail, hid, _⟩ := run_readAvPair_eq_ok hpair
    have hlt := h id value rest hvalue htail
    rw [AvId.toU16_of_tryFrom hid] at hlt
    have hle := avId.toU16_le
    omega
  . rw [hinfo, readPairs, Prog.run_bind_of_error herror]
    exact ⟨e, rfl⟩

theorem avBytes_inj {id id' : UInt16} {value value' rest rest' : Bytes}
    (h : avBytes id value ++ rest = avBytes id' value' ++ rest') : id = id' := by
  simp only [avBytes, List.append_assoc] at h
  have hread := run_readU16_encode16 .le (Endian.le.encode16 (.ofNat value.length) ++ (value ++ rest)) id
  rw [h, run_readU16_encode16] at hread
  injection hread with hid
  exact hid.symm

theorem stops_of_unknown {id : UInt16} (hid : 10 < id.toNat) (value rest : Bytes) :
    Stops (avBytes id value ++ rest) := by
  intro id' value' rest' _ htail
  rwa [← avBytes_inj htail]

theorem exists_pairs (data : Bytes) :
    ∃ (pairs : List AvPair) (tail : Bytes), data = pairs.flatMap AvPair.encode ++ tail ∧
      (Stops tail ∨ ∃ value rest, value.length < 2 ^ 16 ∧ tail = avBytes 0 value ++ rest) := by
  -- a pair takes at least its header, so what is behind it is shorter
  induction hn : data.length using Nat.strong_induction_on generalizing data with
  | h n ih =>
    by_cases hstops : Stops data
    . exact ⟨[], data, rfl, .inl hstops⟩
    simp only [Stops, not_forall] at hstops
    obtain ⟨id, value, rest, hvalue, rfl, hid⟩ := hstops
    cases hknown : AvId.tryFrom id with
    | error e => exact absurd (AvId.lt_of_tryFrom hknown) hid
    | ok avId =>
      by_cases heol : avId = .msvAvEOL
      . subst heol
        cases tryFrom_eq_eol hknown
        exact ⟨[], _, rfl, .inr ⟨value, rest, hvalue, rfl⟩⟩
      . rw [List.length_append, length_avBytes] at hn
        obtain ⟨pairs, tail, rfl, hcases⟩ := ih rest.length (by omega) rest rfl
        refine ⟨⟨avId, value, heol, hvalue⟩ :: pairs, tail, ?_, hcases⟩
        rw [List.flatMap_cons, AvPair.encode, AvId.toU16_of_tryFrom hknown, List.append_assoc]

/--
The map has for every id the value of its last pair before the end of the list. Where the list has no
end, or an unknown id before it, an error is reported, and every list is one of these.
-/
theorem readTargetInfo_pairs :
    (∀ (pairs : List AvPair) (value rest : Bytes), value.length < 2 ^ 16 →
      ∃ map, readTargetInfo (pairs.flatMap AvPair.encode ++ (avBytes 0 value ++ rest)) = .ok map ∧
        ∀ id, map.lookup id = (pairs.reverse.find? fun pair => pair.id = id).map (·.value)) ∧
    (∀ (pairs : List AvPair) (tail : Bytes),
      (∀ id value rest, value.length < 2 ^ 16 → tail ≠ avBytes id value ++ rest) →
      ∃ e, readTargetInfo (pairs.flatMap AvPair.encode ++ tail) = .error (.error e)) ∧
    (∀ (pairs : List AvPair) (id : UInt16) (value rest : Bytes), 10 < id.toNat →
      ∃ e, readTargetInfo (pairs.flatMap AvPair.encode ++ (avBytes id value ++ rest)) =
        .error (.error e)) ∧
    (∀ data, (∃ map, readTargetInfo data = .ok map) ∨ ∃ e, readTargetInfo data = .error (.error e)) ∧
    ∀ data, (∃ map, readTargetInfo data = .ok map) →
      ∃ (pairs : List AvPair) (value rest : Bytes), value.length < 2 ^ 16 ∧
        data = pairs.flatMap AvPair.encode ++ (avBytes 0 value ++ rest) := by
  refine ⟨?_, ?_, ?_, ?_, ?_⟩
  . intro pairs value rest hvalue
    refine ⟨_, readTargetInfo_eol pairs hvalue rest, fun id => ?_⟩
    rw [← List.map_reverse, AvPair.lookup_entries]
  . intro pairs tail hnone
    apply readTargetInfo_stops
    intro id value rest hvalue htail
    exact absurd htail (hnone id value rest hvalue)
  . intro pairs id value rest hid
    exact readTargetInfo_stops pairs (stops_of_unknown hid value rest)
  . intro data
    exact Except.cases_of_not_aborts (not_aborts_readTargetInfo data)
  . rintro data ⟨map, hmap⟩
    obtain ⟨pairs, tail, rfl, hstops | ⟨value, rest, hvalue, rfl⟩⟩ := exists_pairs data
    . obtain ⟨e, he⟩ := readTargetInfo_stops pairs hstops
      cases hmap.symm.trans he
    . exact ⟨pairs, value, rest, hvalue, rfl⟩

end Nla

end Rdp
