import Rdp.Core.Capability.Impl
import Rdp.Model.Data.Lossless

/-!
This module contains the capability sets as they are on the wire, and when reading them aborts.
-/

namespace Rdp

open Prog Cursor

namespace Capability

theorem readComponent_eq (fields : Component) (stream : Bytes) :
    readComponent fields stream = parse (Message.readerFields [] [] fields) stream := by
  unfold readComponent parse
  rw [Message.reader_component, EStateM.run_bind]
  cases (Message.readerFields [] [] fields).run stream <;> rfl

theorem not_aborts_readComponent {fields : Component} (h : ∀ f ∈ fields, Message.Total f.2)
    (stream : Bytes) : ¬ (readComponent fields stream).Aborts := by
  rw [readComponent_eq, aborts_parse]
  exact Message.returns_readerFields h [] [] stream

structure RawSet where
  capabilitySetType : UInt16
  lengthCapability : UInt16
  capabilitySet : Bytes

namespace RawSet

def lengthOption (node : DataType) : RdpResult MessageOption :=
  match node with
  | .u16 length => do return .size "capabilitySet" (← checkedSub length.toNat 4)
  | _ => .ok .none

def node (set : RawSet) : Component := [
  ("capabilitySetType", .leaf (.u16 .le set.capabilitySetType)),
  ("lengthCapability", .dynOption (.leaf (.u16 .le set.lengthCapability)) lengthOption),
  ("capabilitySet", .leaf (.bytes set.capabilitySet))
]

def reader : Reader RawSet := do
  let capabilitySetType ← readU16 .le
  let lengthCapability ← readU16 .le
  let size ← Prog.lift (checkedSub lengthCapability.toNat 4)
  let capabilitySet ← readExact size
  return { capabilitySetType, lengthCapability, capabilitySet }

theorem capabilitySet_none : Capability.capabilitySet none = .ok (node ⟨1, 4, []⟩) := rfl

theorem readerFields_node :
    Message.readerFields [] [] (node ⟨1, 4, []⟩) = node <$> reader := by
  simp [node, reader, Leaf.visit, lengthOption, Message.visit, limited_readToEnd]

theorem run_reader_eq_ok {input rest : Bytes} {set : RawSet}
    (h : reader.run input = .ok set rest) :
    ∃ a b c d, input = a :: b :: c :: d :: (set.capabilitySet ++ rest) ∧ 4 ≤ (le16 c d).toNat ∧
      set.capabilitySet.length = (le16 c d).toNat - 4 := by
  unfold reader at h
  obtain ⟨_, _, htype, h⟩ := run_bind_eq_ok h
  obtain ⟨length, _, hlength, h⟩ := run_bind_eq_ok h
  obtain ⟨size, _, hsize, h⟩ := run_bind_eq_ok h
  obtain ⟨body, _, hbody, h⟩ := run_bind_eq_ok h
  cases h
  obtain ⟨a, b, rfl, _⟩ := run_readU16_eq_ok.mp htype
  obtain ⟨c, d, rfl, rfl⟩ := run_readU16_eq_ok.mp hlength
  obtain ⟨hsub, rfl⟩ := run_lift_eq_ok hsize
  obtain ⟨rfl, hcount⟩ := run_readExact_eq_ok.mp hbody
  obtain ⟨hle, rfl⟩ := checkedSub_eq_ok.mp hsub
  exact ⟨a, b, c, d, rfl, hle, hcount⟩

theorem consumes_reader : Consumes reader := by
  intro input set rest h
  obtain ⟨a, b, c, d, rfl, _⟩ := run_reader_eq_ok h
  simp only [List.length_cons, List.length_append]
  omega

theorem faults_reader : Faults (· ≠ .diverge) reader := by
  apply (returns_readU16 _).faults.bind
  intro capabilitySetType
  apply (returns_readU16 _).faults.bind
  intro lengthCapability
  apply (faults_checkedSub _ _).bind
  intro size
  exact ((returns_readExact size).bind_pure _).faults

theorem aborts_reader {input : Bytes} :
    reader.Aborts input ↔
      ∃ a b c d rest, input = a :: b :: c :: d :: rest ∧ (le16 c d).toNat < 4 := by
  simp only [reader, aborts_readU16_bind, aborts_lift_bind, Except.aborts_checkedSub,
    aborts_readExact_bind, not_aborts_pure, Endian.decode16]
  grind

theorem run_reader_of_le {a b c d : UInt8} {body : Bytes} (hle : 4 ≤ (le16 c d).toNat)
    (hbody : body.length = (le16 c d).toNat - 4) (rest : Bytes) :
    reader.run (a :: b :: c :: d :: (body ++ rest)) = .ok ⟨le16 a b, le16 c d, body⟩ rest := by
  have hsize : (Prog.lift (checkedSub (le16 c d).toNat 4) : Reader Nat).run (body ++ rest) =
      .ok body.length (body ++ rest) := by
    rw [checkedSub_of_le hle, run_lift_ok, hbody]
  change (Prog.lift (checkedSub (le16 c d).toNat 4) >>= _ : Reader RawSet).run (body ++ rest) = _
  rw [Prog.run_bind_of_ok hsize]
  simp only [EStateM.run_bind, run_readExact_append rest rfl]
  rfl

def encode (set : RawSet) : Bytes :=
  Endian.le.encode16 set.capabilitySetType ++ (Endian.le.encode16 set.lengthCapability ++
    set.capabilitySet)

/--
A set has the length that it announces, which counts its header.
-/
def Whole (set : RawSet) : Prop := set.lengthCapability.toNat = set.capabilitySet.length + 4

theorem run_reader_iff_encode {set : RawSet} {input rest : Bytes} :
    reader.run input = .ok set rest ↔ set.Whole ∧ input = set.encode ++ rest := by
  constructor
  . intro h
    obtain ⟨capType, _, htype, h⟩ := run_bind_eq_ok h
    obtain ⟨length, _, hlength, h⟩ := run_bind_eq_ok h
    obtain ⟨size, _, hsize, h⟩ := run_bind_eq_ok h
    obtain ⟨body, _, hbody, h⟩ := run_bind_eq_ok h
    cases h
    obtain ⟨hsub, rfl⟩ := run_lift_eq_ok hsize
    obtain ⟨rfl, hcount⟩ := run_readExact_eq_ok.mp hbody
    obtain ⟨hle, rfl⟩ := checkedSub_eq_ok.mp hsub
    refine ⟨(Nat.sub_eq_iff_eq_add hle).mp hcount.symm, ?_⟩
    rw [run_readU16_iff_encode16.mp htype, run_readU16_iff_encode16.mp hlength, encode]
    simp only [List.append_assoc]
  . rintro ⟨hwhole, rfl⟩
    have hsize : (checkedSub set.lengthCapability.toNat 4 : RdpResult Nat) =
        .ok set.capabilitySet.length := by
      rw [hwhole]
      rfl
    unfold reader encode
    simp only [List.append_assoc]
    refine run_bind_eq_ok_iff.mpr ⟨_, _, run_readU16_encode16 _ _ _, ?_⟩
    refine run_bind_eq_ok_iff.mpr ⟨_, _, run_readU16_encode16 _ _ _, ?_⟩
    rw [hsize]
    refine run_bind_eq_ok_iff.mpr ⟨_, _, rfl, ?_⟩
    exact run_bind_eq_ok_iff.mpr ⟨_, _, run_readExact_append rest rfl, rfl⟩

theorem exact_reader : Exact encode Whole reader where
  run_eq_ok _ _ _ := run_reader_iff_encode
  length_pos set := by simp [encode, Endian.encode16, Endian.order]
  run_nil := ⟨_, rfl⟩

/--
A set that announces fewer bytes than its header has, behind sets that are complete.
-/
inductive Underflow : Bytes → Prop where
  | here {a b c d : UInt8} {rest : Bytes} (h : (le16 c d).toNat < 4) :
    Underflow (a :: b :: c :: d :: rest)
  | next {a b c d : UInt8} {body rest : Bytes} (hle : 4 ≤ (le16 c d).toNat)
    (hbody : body.length = (le16 c d).toNat - 4) (h : Underflow rest) :
    Underflow (a :: b :: c :: d :: (body ++ rest))

theorem aborts_elements_reader {input : Bytes} :
    (elements reader).Aborts input ↔ Underflow input := by
  constructor
  . intro h
    induction hn : input.length using Nat.strongRecOn generalizing input with
    | ind n ih =>
      rcases (aborts_elements_iff consumes_reader).mp h with habort | ⟨set, rest, hrun, habort⟩
      . obtain ⟨a, b, c, d, rest, rfl, hlt⟩ := aborts_reader.mp habort
        exact .here hlt
      . have hlt := consumes_reader input set rest hrun
        obtain ⟨a, b, c, d, rfl, hle, hbody⟩ := run_reader_eq_ok hrun
        exact .next hle hbody (ih rest.length (by omega) habort rfl)
  . intro h
    rw [aborts_elements_iff consumes_reader]
    induction h with
    | here hlt => exact .inl (aborts_reader.mpr ⟨_, _, _, _, _, rfl, hlt⟩)
    | next hle hbody _ ih =>
      refine .inr ⟨_, _, run_reader_of_le hle hbody _, ?_⟩
      exact (aborts_elements_iff consumes_reader).mpr ih

end RawSet

namespace CapabilitySetType

theorem not_aborts_tryFrom (v : UInt16) : ¬ (tryFrom v).Aborts := by
  unfold tryFrom
  split <;> simp

end CapabilitySetType

theorem not_aborts_template (capType : CapabilitySetType) : ¬ (template capType).Aborts := by
  unfold template
  split <;> simp

theorem total_template {capType : CapabilitySetType} {capability : Capability}
    (h : template capType = .ok capability) : ∀ f ∈ capability.message, Message.Total f.2 := by
  unfold template at h
  split at h
  case h_13 => cases h
  all_goals
    cases h
    simp [tsGeneralCapabilitySet, tsBitmapCapabilitySet, tsOrderCapabilitySet,
      tsBitmapCacheCapabilitySet, tsPointerCapabilitySet, tsInputCapabilitySet,
      tsBrushCapabilitySet, tsGlyphCapabilitySet, tsOffscreenCapabilitySet,
      tsVirtualchannelCapabilitySet, tsSoundCapabilitySet, tsMultifragmentUpdateCapabilityTs,
      cacheEntry]

theorem not_aborts_fromCapabilitySet (set : RawSet) :
    ¬ (fromCapabilitySet (Message.visitFields set.node)).Aborts := by
  change ¬ (CapabilitySetType.tryFrom set.capabilitySetType >>= _).Aborts
  rw [Except.aborts_bind]
  rintro (h | ⟨capType, _, h⟩)
  . exact CapabilitySetType.not_aborts_tryFrom _ h
  . rcases Except.aborts_bind.mp h with h | ⟨capability, htemplate, h⟩
    . exact not_aborts_template _ h
    . have hread := not_aborts_readComponent (total_template htemplate) set.capabilitySet
      change (readComponent capability.message set.capabilitySet >>= _).Aborts at h
      rcases Except.aborts_bind.mp h with h | ⟨message, _, h⟩
      . exact hread h
      . exact Except.not_aborts_ok _ h

end Capability

end Rdp
