import Rdp.Model.Data.Impl

/-!
This module contains the round trip of the message model: what is written can be read back into a
template of the same shape, and what was read is written again as it stood in the stream.
-/

namespace Rdp

namespace Leaf

theorem read_u16 (e : Endian) (v w : UInt16) (rest : Bytes) :
    (Leaf.u16 e w).read (e.encode16 v ++ rest) = ⟨.ok (), .u16 e v, rest⟩ := by
  cases e <;> exact congrArg (fun v => ReadResult.mk (.ok ()) (Leaf.u16 _ v) rest) (le16_bytes v)

theorem read_u32 (e : Endian) (v w : UInt32) (rest : Bytes) :
    (Leaf.u32 e w).read (e.encode32 v ++ rest) = ⟨.ok (), .u32 e v, rest⟩ := by
  cases e <;> exact congrArg (fun v => ReadResult.mk (.ok ()) (Leaf.u32 _ v) rest) (le32_bytes v)

theorem read_bytes_nil (input : Bytes) : (Leaf.bytes []).read input = ⟨.ok (), .bytes input, []⟩ := by
  cases input <;> rfl

theorem read_bytes {v w : Bytes} (h : v.length = w.length) (hne : w ≠ []) (rest : Bytes) :
    (Leaf.bytes w).read (v ++ rest) = ⟨.ok (), .bytes v, rest⟩ := by
  cases w with
  | nil => exact absurd rfl hne
  | cons a w =>
    simp only [List.length_cons] at h
    have hlt : w.length < (v ++ rest).length := by
      rw [List.length_append]
      omega
    simp only [read, if_pos hlt, List.take_left' h, List.drop_left' h]

/--
The template `b` has the shape of `a`: the same type, endianness and length. A vector is not empty,
unless it is `sized`, read from a sub stream of its own. It can then also be empty in the template.
-/
def Template (sized : Bool) (a b : Leaf) : Prop :=
  match a, b with
  | .u8 _, .u8 _ => True
  | .u16 e _, .u16 e' _ => e = e'
  | .u32 e _, .u32 e' _ => e = e'
  | .bytes v, .bytes w =>
    (v.length = w.length ∧ (w = [] → sized = true)) ∨ (w = [] ∧ sized = true)
  | _, _ => False

theorem read_write {sized : Bool} {a b : Leaf} (h : a.Template sized b) {rest : Bytes}
    (hrest : sized = true → rest = []) : b.read (a.write ++ rest) = ⟨.ok (), a, rest⟩ := by
  match a, b with
  | .u8 _, .u8 _ => rfl
  | .u16 e v, .u16 _ w =>
    cases h
    exact read_u16 e v w rest
  | .u32 e v, .u32 _ w =>
    cases h
    exact read_u32 e v w rest
  | .bytes v, .bytes w =>
    by_cases hw : w = []
    . have hsized : sized = true := by
        rcases h with ⟨_, h⟩ | ⟨_, h⟩
        . exact h hw
        . exact h
      rw [hw, hrest hsized, List.append_nil]
      exact read_bytes_nil v
    . rcases h with ⟨hlength, _⟩ | ⟨h, _⟩
      . exact read_bytes hlength hw rest
      . exact absurd h hw

@[simp]
theorem eq_refl (a : Leaf) : a.eq a = true := by
  cases a <;> simp [Leaf.eq]

theorem write_read {a b : Leaf} {input rest : Bytes} (h : a.read input = ⟨.ok (), b, rest⟩) :
    input = b.write ++ rest := by
  match a, input with
  | .u8 _, _ :: _ =>
    cases h
    rfl
  | .u16 e _, x :: y :: rest =>
    cases h
    cases e with
    | be => exact congrArg (fun l => l.reverse ++ rest) (bytes_le16 y x).symm
    | le => exact congrArg (· ++ rest) (bytes_le16 x y).symm
  | .u32 e _, x :: y :: z :: w :: rest =>
    cases h
    cases e with
    | be => exact congrArg (fun l => l.reverse ++ rest) (bytes_le32 w z y x).symm
    | le => exact congrArg (· ++ rest) (bytes_le32 x y z w).symm
  | .bytes [], input =>
    rw [read_bytes_nil] at h
    cases h
    rw [List.append_nil]
    rfl
  | .bytes (x :: v), input =>
    simp only [read] at h
    split at h
    . cases h
      exact (List.take_append_drop _ _).symm
    . cases h

theorem read_of_readCheck {a b : Leaf} {input rest : Bytes}
    (h : a.readCheck input = ⟨.ok (), b, rest⟩) : a.read input = ⟨.ok (), b, rest⟩ := by
  simp only [readCheck] at h
  split at h
  next => cases h
  next =>
    split at h
    . exact h
    . cases h

end Leaf

namespace Message

mutual

/--
`t` is a template of the shape of `m`: the same keys in the same order, the same option functions,
the same constants in its `Check` nodes, and leaves of the same shape. A field whose size was
announced to its component, last by one of the fields before it, is encoded in that many bytes.
Nothing is asked of the fields that are skipped.
-/
def Template (sized : Bool) (m t : Message) : Prop :=
  match m, t with
  | .leaf a, .leaf b => a.Template sized b
  | .check a, .check b => a = b ∧ (a = .bytes [] → sized = true)
  | .dynOption m f, .dynOption t g => f = g ∧ m.Template sized t
  | .trame ms, .trame ts => TemplateTrame ms ts
  | .component fs, .component gs => TemplateFields [] [] fs gs
  | _, _ => False

def TemplateTrame (ms ts : Trame) : Prop :=
  match ms, ts with
  | [], [] => True
  | m :: ms, t :: ts => m.Template false t ∧ TemplateTrame ms ts
  | _, _ => False

def TemplateFields (skips : List String) (sizes : List (String × Nat)) (fs gs : Component) : Prop :=
  match fs, gs with
  | [], [] => True
  | (name, m) :: fs, (name', t) :: gs =>
    name = name' ∧
      if name ∈ skips then
        TemplateFields skips sizes fs gs
      else
        m.Template (sizes.lookup name).isSome t ∧
        (∀ n bytes, sizes.lookup name = some n → m.write = .ok bytes → bytes.length = n) ∧
        ∀ o, m.options = .ok o → TemplateFields (o.addSkip skips) (o.addSize sizes) fs gs
  | _, _ => False

end

mutual

/--
The values of `m`, with the fields that are skipped as they are in `t`.
-/
def fill (m t : Message) : Message :=
  match m, t with
  | .dynOption m f, .dynOption t _ => .dynOption (m.fill t) f
  | .trame ms, .trame ts => .trame (fillTrame ms ts)
  | .component fs, .component gs => .component (fillFields [] fs gs)
  | m, _ => m

def fillTrame (ms ts : Trame) : Trame :=
  match ms, ts with
  | m :: ms, t :: ts => m.fill t :: fillTrame ms ts
  | _, ts => ts

def fillFields (skips : List String) (fs gs : Component) : Component :=
  match fs, gs with
  | (name, m) :: fs, (_, t) :: gs =>
    if name ∈ skips then
      (name, t) :: fillFields skips fs gs
    else
      match m.options with
      | .ok o => (name, m.fill t) :: fillFields (o.addSkip skips) fs gs
      | .error _ => (name, m.fill t) :: gs
  | _, gs => gs

end

mutual

/--
No option depends on a value that is skipped: filling in the template keeps what each field tells
its component.
-/
def OptionsKept (m t : Message) : Prop :=
  match m, t with
  | .dynOption m _, .dynOption t _ => m.OptionsKept t
  | .trame ms, .trame ts => OptionsKeptTrame ms ts
  | .component fs, .component gs => OptionsKeptFields [] fs gs
  | _, _ => True

def OptionsKeptTrame (ms ts : Trame) : Prop :=
  match ms, ts with
  | m :: ms, t :: ts => m.OptionsKept t ∧ OptionsKeptTrame ms ts
  | _, _ => True

def OptionsKeptFields (skips : List String) (fs gs : Component) : Prop :=
  match fs, gs with
  | (name, m) :: fs, (_, t) :: gs =>
    if name ∈ skips then
      OptionsKeptFields skips fs gs
    else
      m.OptionsKept t ∧ (m.fill t).options = m.options ∧
      ∀ o, m.options = .ok o → OptionsKeptFields (o.addSkip skips) fs gs
  | _, _ => True

end

theorem readSized_append {readField : Bytes → ReadResult Message} {m node : Message}
    {size : Option Nat} {bytes rest : Bytes} (hsize : ∀ n, size = some n → bytes.length = n)
    (h : ∀ rest, (size.isSome = true → rest = []) →
      readField (bytes ++ rest) = ⟨.ok (), node, rest⟩) :
    readSized readField m size (bytes ++ rest) = ⟨.ok (), node, rest⟩ := by
  cases size with
  | none => exact h rest (by simp)
  | some n =>
    have hn := hsize n rfl
    have hread := h [] (fun _ => rfl)
    rw [List.append_nil] at hread
    have hle : n ≤ (bytes ++ rest).length := by
      rw [List.length_append]
      omega
    simp only [readSized, if_pos hle, List.take_left' hn, List.drop_left' hn, hread]

theorem writeFields_cons_eq_ok {skips : List String} {name : String} {m : Message}
    {fields : Component} {bytes : Bytes} (hskip : name ∉ skips)
    (h : writeFields skips ((name, m) :: fields) = .ok bytes) :
    ∃ b₁ o b₂, m.write = .ok b₁ ∧ m.options = .ok o ∧
      writeFields (o.addSkip skips) fields = .ok b₂ ∧ bytes = b₁ ++ b₂ := by
  rw [writeFields, if_neg hskip] at h
  obtain ⟨b₁, h₁, h⟩ := Except.bind_eq_ok h
  obtain ⟨o, ho, h⟩ := Except.bind_eq_ok h
  obtain ⟨b₂, h₂, h⟩ := Except.bind_eq_ok h
  cases h
  exact ⟨b₁, o, b₂, h₁, ho, h₂, rfl⟩

theorem writeTrame_cons_eq_ok {m : Message} {ms : Trame} {bytes : Bytes}
    (h : writeTrame (m :: ms) = .ok bytes) :
    ∃ b₁ b₂, m.write = .ok b₁ ∧ writeTrame ms = .ok b₂ ∧ bytes = b₁ ++ b₂ := by
  rw [writeTrame] at h
  obtain ⟨b₁, h₁, h⟩ := Except.bind_eq_ok h
  obtain ⟨b₂, h₂, h⟩ := Except.bind_eq_ok h
  cases h
  exact ⟨b₁, b₂, h₁, h₂, rfl⟩

mutual

theorem read_write {sized : Bool} (m t : Message) (ht : m.Template sized t) (ho : m.OptionsKept t)
    {bytes : Bytes} (hw : m.write = .ok bytes) {rest : Bytes} (hrest : sized = true → rest = []) :
    t.read (bytes ++ rest) = ⟨.ok (), m.fill t, rest⟩ := by
  match m, t with
  | .leaf a, .leaf b =>
    cases hw
    rw [read, Leaf.read_write ht hrest]
    rfl
  | .check a, .check b =>
    obtain ⟨rfl, hsized⟩ := ht
    cases hw
    have ht' : a.Template sized a := by
      cases a with
      | bytes v => exact .inl ⟨rfl, fun hv => hsized (by rw [hv])⟩
      | _ => simp [Leaf.Template]
    rw [read, Leaf.readCheck, Leaf.read_write ht' hrest]
    simp only [Leaf.eq_refl, if_true]
    rfl
  | .dynOption m f, .dynOption t g =>
    obtain ⟨rfl, ht⟩ := ht
    rw [write] at hw
    rw [read, read_write m t ht ho hw hrest]
    rfl
  | .trame ms, .trame ts =>
    rw [write] at hw
    rw [read, read_writeTrame ms ts ht ho hw rest]
    rfl
  | .component fs, .component gs =>
    rw [write] at hw
    rw [read, read_writeFields [] [] fs gs ht ho hw rest]
    rfl

theorem read_writeTrame (ms ts : Trame) (ht : TemplateTrame ms ts) (ho : OptionsKeptTrame ms ts)
    {bytes : Bytes} (hw : writeTrame ms = .ok bytes) (rest : Bytes) :
    readTrame ts (bytes ++ rest) = ⟨.ok (), fillTrame ms ts, rest⟩ := by
  match ms, ts with
  | [], [] =>
    cases hw
    rfl
  | m :: ms, t :: ts =>
    obtain ⟨b₁, b₂, h₁, h₂, rfl⟩ := writeTrame_cons_eq_ok hw
    rw [List.append_assoc, readTrame, read_write m t ht.1 ho.1 h₁ (by simp)]
    simp only [read_writeTrame ms ts ht.2 ho.2 h₂ rest]
    rfl

theorem read_writeFields (skips : List String) (sizes : List (String × Nat)) (fs gs : Component)
    (ht : TemplateFields skips sizes fs gs) (ho : OptionsKeptFields skips fs gs) {bytes : Bytes}
    (hw : writeFields skips fs = .ok bytes) (rest : Bytes) :
    readFields skips sizes gs (bytes ++ rest) = ⟨.ok (), fillFields skips fs gs, rest⟩ := by
  match fs, gs with
  | [], [] =>
    cases hw
    rfl
  | (name, m) :: fs, (_, t) :: gs =>
    obtain ⟨rfl, ht⟩ := ht
    rw [OptionsKeptFields] at ho
    by_cases hskip : name ∈ skips
    . rw [writeFields, if_pos hskip] at hw
      rw [if_pos hskip] at ht ho
      rw [readFields, if_pos hskip, fillFields, if_pos hskip,
        read_writeFields skips sizes fs gs ht ho hw rest]
      rfl
    . rw [if_neg hskip] at ht ho
      obtain ⟨ht, hsize, htail⟩ := ht
      obtain ⟨ho, hkept, hotail⟩ := ho
      obtain ⟨b₁, o, b₂, h₁, hm, h₂, rfl⟩ := writeFields_cons_eq_ok hskip hw
      have hhead : readSized (fun input => t.read input) t (sizes.lookup name)
          (b₁ ++ (b₂ ++ rest)) = ⟨.ok (), m.fill t, b₂ ++ rest⟩ := by
        apply readSized_append
        . exact fun n hn => hsize n b₁ hn h₁
        . exact fun rest hrest => read_write m t ht ho h₁ hrest
      -- the field tells its component the same here as where it was written
      rw [List.append_assoc, readFields, if_neg hskip, hhead, fillFields, if_neg hskip]
      simp only [hkept, hm, read_writeFields _ _ fs gs (htail o hm) (hotail o hm) h₂ rest]
      rfl

end

def EmptyVec (m : Message) : Prop :=
  match m with
  | .leaf v | .check v => v = .bytes []
  | .dynOption inner _ => inner.EmptyVec
  | _ => False

def optionsAt (m : Message) (d : DataType) : RdpResult MessageOption :=
  match m with
  | .dynOption _ filter => filter d
  | _ => .ok .none

mutual

/--
A tree without optional nodes and arrays, whose option functions announce the size of byte vectors
only that are empty before they are read.
-/
def Streamed (t : Message) : Prop :=
  match t with
  | .leaf _ | .check _ => True
  | .dynOption inner _ => inner.Streamed
  | .trame ts => StreamedTrame ts
  | .component fields => StreamedFields fields
  | _ => False

def StreamedTrame (ts : Trame) : Prop :=
  match ts with
  | [] => True
  | t :: ts => t.Streamed ∧ StreamedTrame ts

def StreamedFields (fields : Component) : Prop :=
  match fields with
  | [] => True
  | (_, t) :: fields =>
    t.Streamed ∧
    (∀ d name n, t.optionsAt d = .ok (.size name n) → ∀ t', (name, t') ∈ fields → t'.EmptyVec) ∧
    StreamedFields fields

end

theorem options_read {t t' : Message} (ht : t.Streamed) {input rest : Bytes}
    (h : t.read input = ⟨.ok (), t', rest⟩) : ∃ d, t'.options = t.optionsAt d := by
  match t with
  | .dynOption inner filter =>
    rw [read] at h
    obtain ⟨node, _, rfl⟩ := ReadResult.map_eq h
    exact ⟨node.visit, rfl⟩
  | .leaf _ | .check _ | .trame _ | .component _ =>
    rw [read] at h
    obtain ⟨_, _, rfl⟩ := ReadResult.map_eq h
    exact ⟨.none, rfl⟩

theorem rest_read_emptyVec {t t' : Message} (ht : t.EmptyVec) {input rest : Bytes}
    (h : t.read input = ⟨.ok (), t', rest⟩) : rest = [] := by
  match t with
  | .leaf v =>
    cases ht
    rw [read, Leaf.read_bytes_nil] at h
    cases h
    rfl
  | .check v =>
    cases ht
    rw [read, Leaf.readCheck, Leaf.read_bytes_nil] at h
    obtain ⟨_, h, _⟩ := ReadResult.map_eq h
    simp only at h
    split at h <;> cases h
    rfl
  | .dynOption inner filter =>
    rw [read] at h
    obtain ⟨_, h, _⟩ := ReadResult.map_eq h
    exact rest_read_emptyVec (show inner.EmptyVec from ht) h

theorem readSized_eq_ok {t t' : Message} {size : Option Nat} {input rest : Bytes}
    (hempty : size.isSome = true → t.EmptyVec)
    (h : readSized (fun input => t.read input) t size input = ⟨.ok (), t', rest⟩) :
    ∃ taken left, t.read taken = ⟨.ok (), t', left⟩ ∧
      ((left = rest ∧ taken = input) ∨ (left = [] ∧ input = taken ++ rest)) := by
  cases size with
  | none => exact ⟨input, rest, h, .inl ⟨rfl, rfl⟩⟩
  | some n =>
    simp only [readSized] at h
    split at h
    . cases hread : t.read (input.take n) with
      | mk outcome node left =>
        rw [hread] at h
        cases h
        refine ⟨_, _, hread, .inr ⟨rest_read_emptyVec (hempty rfl) hread, ?_⟩⟩
        rw [List.take_append_drop]
    . cases h

mutual

theorem write_read (t : Message) (ht : t.Streamed) {t' : Message} {input rest : Bytes}
    (h : t.read input = ⟨.ok (), t', rest⟩) : ∃ bytes, t'.write = .ok bytes ∧ input = bytes ++ rest := by
  match t with
  | .leaf v =>
    rw [read] at h
    obtain ⟨v', hread, rfl⟩ := ReadResult.map_eq h
    exact ⟨_, rfl, Leaf.write_read hread⟩
  | .check v =>
    rw [read] at h
    obtain ⟨v', hread, rfl⟩ := ReadResult.map_eq h
    exact ⟨_, rfl, Leaf.write_read (Leaf.read_of_readCheck hread)⟩
  | .dynOption inner _ =>
    rw [read] at h
    obtain ⟨node, hread, rfl⟩ := ReadResult.map_eq h
    simpa only [write] using write_read inner ht hread
  | .trame ts =>
    rw [read] at h
    obtain ⟨_, hread, rfl⟩ := ReadResult.map_eq h
    exact write_readTrame ts ht hread
  | .component fields =>
    rw [read] at h
    obtain ⟨_, hread, rfl⟩ := ReadResult.map_eq h
    apply write_readFields [] [] fields ht _ hread
    intro name n _ h
    cases h

theorem write_readTrame (ts : Trame) (ht : StreamedTrame ts) {ts' : Trame} {input rest : Bytes}
    (h : readTrame ts input = ⟨.ok (), ts', rest⟩) :
    ∃ bytes, writeTrame ts' = .ok bytes ∧ input = bytes ++ rest := by
  match ts with
  | [] =>
    cases h
    exact ⟨[], rfl, rfl⟩
  | t :: ts =>
    rw [readTrame] at h
    split at h
    next => cases h
    next hok =>
      obtain ⟨ts', htail, rfl⟩ := ReadResult.map_eq h
      obtain ⟨b₁, h₁, hinput⟩ := write_read t ht.1 (ReadResult.eq_of_outcome hok)
      obtain ⟨b₂, h₂, hrest⟩ := write_readTrame ts ht.2 htail
      refine ⟨b₁ ++ b₂, ?_, ?_⟩
      . rw [writeTrame, h₁, h₂]
        rfl
      . rw [hinput, hrest, List.append_assoc]

theorem write_readFields (skips : List String) (sizes : List (String × Nat)) (fields : Component)
    (ht : StreamedFields fields)
    (hempty : ∀ name n t, sizes.lookup name = some n → (name, t) ∈ fields → t.EmptyVec)
    {fields' : Component} {input rest : Bytes}
    (h : readFields skips sizes fields input = ⟨.ok (), fields', rest⟩) :
    ∃ bytes, writeFields skips fields' = .ok bytes ∧ input = bytes ++ rest := by
  match fields with
  | [] =>
    cases h
    exact ⟨[], rfl, rfl⟩
  | (name, t) :: fields =>
    have hempty' : ∀ name n t, sizes.lookup name = some n → (name, t) ∈ fields → t.EmptyVec :=
      fun name n t hn hmem => hempty name n t hn (List.mem_cons_of_mem _ hmem)
    obtain ⟨ht, hsizes, htail⟩ := ht
    rw [readFields] at h
    by_cases hskip : name ∈ skips
    . rw [if_pos hskip] at h
      obtain ⟨fields', hread, rfl⟩ := ReadResult.map_eq h
      rw [writeFields, if_pos hskip]
      exact write_readFields skips sizes fields htail hempty' hread
    . rw [if_neg hskip] at h
      simp only at h
      split at h
      next => cases h
      next hok =>
        have hhead := ReadResult.eq_of_outcome hok
        split at h
        next => cases h
        next o ho =>
          obtain ⟨fields', hread, rfl⟩ := ReadResult.map_eq h
          obtain ⟨taken, left, htaken, hinput⟩ := readSized_eq_ok (by
            intro hsome
            obtain ⟨n, hn⟩ := Option.isSome_iff_exists.mp hsome
            exact hempty name n t hn List.mem_cons_self) hhead
          obtain ⟨b₁, h₁, rfl⟩ := write_read t ht htaken
          obtain ⟨d, hd⟩ := options_read ht htaken
          obtain ⟨b₂, h₂, hrest⟩ := write_readFields (o.addSkip skips) (o.addSize sizes) fields htail
            (by
              intro name' n t' hn hmem
              cases o with
              | size field k =>
                simp only [MessageOption.addSize, List.lookup_cons] at hn
                split at hn
                next heq =>
                  rw [beq_iff_eq] at heq
                  exact hsizes d name' k (by rw [← hd, ho, heq]) t' hmem
                next => exact hempty' name' n t' hn hmem
              | skipField _ | none => exact hempty' name' n t' hn hmem) hread
          refine ⟨b₁ ++ b₂, ?_, ?_⟩
          . rw [writeFields, if_neg hskip, h₁, ho]
            simp only [Except.ok_bind, h₂]
            rfl
          . rcases hinput with ⟨hleft, htaken⟩ | ⟨hleft, hinput⟩
            . rw [← htaken, hleft, hrest, List.append_assoc]
            . rw [hinput, hleft, hrest, List.append_nil, List.append_assoc]

end

end Message

theorem toVec_eq_ok_iff {m : Message} {bytes : Bytes} : toVec m = .ok bytes ↔ m.write = .ok bytes := by
  unfold toVec
  split
  next e h =>
    rw [h]
    simp
  next => rfl

/--
A message can be read back into every template of its shape, whatever follows it, provided no
option depends on a skipped value; and what is read from a stream into a template is serialized to
exactly the bytes that were consumed.
-/
theorem message_roundTrip :
    (∀ m t : Message, m.Template false t → m.OptionsKept t → ∀ bytes, toVec m = .ok bytes →
      ∀ rest, t.read (bytes ++ rest) = ⟨.ok (), m.fill t, rest⟩) ∧
    (∀ t : Message, t.Streamed → ∀ input t' rest, t.read input = ⟨.ok (), t', rest⟩ →
      ∃ bytes, toVec t' = .ok bytes ∧ input = bytes ++ rest) := by
  constructor
  . intro m t ht ho bytes hw rest
    rw [toVec_eq_ok_iff] at hw
    exact m.read_write t ht ho hw (by simp)
  . intro t ht input t' rest h
    obtain ⟨bytes, hw, hinput⟩ := t.write_read ht h
    exact ⟨bytes, toVec_eq_ok_iff.mpr hw, hinput⟩

namespace RoundTrip

def sized (n : UInt8) (body : Bytes) : Message :=
  .component [
    ("length", .dynOption (.leaf (.u8 n)) fun d =>
      match d with
      | .u8 n => .ok (.size "body" n.toNat)
      | _ => .ok .none),
    ("body", .leaf (.bytes body))
  ]

/--
A component in a `DynOption` that skips its own field `x`, on which the option depends.
-/
def skipping (x : UInt8) : Message :=
  .component [
    ("header", .dynOption
      (.component [
        ("flag", .dynOption (.leaf (.u8 1)) fun _ => .ok (.skipField "x")),
        ("x", .leaf (.u8 x))
      ])
      fun d =>
        match d with
        | .component [_, (_, .u8 5)] => .ok (.skipField "trailer")
        | _ => .ok .none),
    ("trailer", .leaf (.u8 7))
  ]

end RoundTrip

open RoundTrip in
theorem message_roundTrip_sized :
    (sized 0 []).read ([2, 10, 11] ++ [12]) = ⟨.ok (), sized 2 [10, 11], [12]⟩ ∧
    ∃ bytes, toVec (sized 2 [10, 11]) = .ok bytes ∧ [2, 10, 11, 12] = bytes ++ [12] := by
  constructor
  . apply message_roundTrip.1 (sized 2 [10, 11]) (sized 0 [])
    . simp [sized, Message.Template, Message.TemplateFields, Leaf.Template, Message.options,
        Message.visit, Leaf.visit, MessageOption.addSize, Message.write, Leaf.write]
    . simp [sized, Message.OptionsKept, Message.OptionsKeptFields, Message.fill]
    . rfl
  . apply message_roundTrip.2 (sized 0 [])
    . simp [sized, Message.Streamed, Message.StreamedFields, Message.optionsAt, Message.EmptyVec]
    . rfl

open RoundTrip in
/--
Without the condition on the options the round trip fails: `x` is not written, so the template is
asked about its own value of `x` and expects a trailer that was skipped.
-/
theorem message_roundTrip_skipped :
    (skipping 5).Template false (skipping 0) ∧ toVec (skipping 5) = .ok [1] ∧
    ((skipping 0).read [1]).outcome = .error (.error (.io .unexpectedEof)) := by
  refine ⟨?_, rfl, rfl⟩
  simp [skipping, Message.Template, Message.TemplateFields, Leaf.Template, Message.options,
    Message.visit, Message.visitFields, Leaf.visit, MessageOption.addSkip]

end Rdp
