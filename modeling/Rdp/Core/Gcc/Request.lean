import Mathlib.Data.String.Basic
import Rdp.Core.Gcc.Impl
import Rdp.Core.Per.Fields
import Rdp.Lib.Aborts

/-!
This module contains the lengths in what the client sends to create the conference: the size of its
core data, and the two lengths of the request around it.
-/

namespace Rdp.Gcc

open String (utf8Len)

section Name

def utf16Len (name : List Char) : Nat := (name.flatMap Nla.encodeUtf16).length

@[simp]
theorem utf16Len_nil : utf16Len [] = 0 := rfl

@[simp]
theorem utf16Len_cons (c : Char) (name : List Char) :
    utf16Len (c :: name) = (Nla.encodeUtf16 c).length + utf16Len name := by
  simp [utf16Len]

@[simp]
theorem utf16Len_append (name name' : List Char) : utf16Len (name ++ name') = utf16Len name + utf16Len name' := by
  simp [utf16Len]

theorem length_unicode (name : String) : (Nla.unicode name).length = 2 * utf16Len name.toList := by
  unfold Nla.unicode utf16Len
  induction name.toList.flatMap Nla.encodeUtf16 with
  | nil => rfl
  | cons v units ih =>
    rw [List.flatMap_cons, List.length_append, ih, List.length_cons]
    simp only [Endian.encode16, Endian.order, List.length_cons, List.length_nil]
    omega

theorem length_encodeUtf16 (c : Char) :
    (Nla.encodeUtf16 c).length = 1 ∧ c.utf8Size = 1 ∨
      1 < c.utf8Size ∧ (Nla.encodeUtf16 c).length < c.utf8Size := by
  -- The ASCII characters take one byte of UTF-8 and one unit of UTF-16, and the other ones more bytes
  -- than units.
  have hlength : (Nla.encodeUtf16 c).length = if c.toNat < 0x10000 then 1 else 2 := by
    unfold Nla.encodeUtf16
    split <;> rfl
  have hfour : c.utf8Size = 4 ↔ ¬ c.toNat < 0x10000 := by
    rw [Char.utf8Size_eq_four_iff, UInt32.lt_iff_toNat_lt, Nat.not_lt]
    exact Iff.rfl
  rw [hlength]
  split
  next h =>
    have hne := mt hfour.mp (not_not.mpr h)
    have hcases := c.utf8Size_eq
    omega
  next h =>
    have heq := hfour.mpr h
    omega

theorem utf16Len_le (name : List Char) : utf16Len name ≤ utf8Len name := by
  induction name with
  | nil => exact Nat.le_refl 0
  | cons c name ih =>
    have := length_encodeUtf16 c
    rw [utf16Len_cons, String.utf8Len_cons]
    omega

theorem utf16Len_eq_iff (name : List Char) :
    utf16Len name = utf8Len name ↔ ∀ c ∈ name, c.utf8Size = 1 := by
  induction name with
  | nil => simp
  | cons c name ih =>
    have hle := utf16Len_le name
    have hlength := length_encodeUtf16 c
    rw [utf16Len_cons, String.utf8Len_cons, List.forall_mem_cons, ← ih]
    constructor
    . intro h
      omega
    . rintro ⟨hc, hname⟩
      omega

theorem length_le_utf8Len (name : List Char) : name.length ≤ utf8Len name := by
  induction name with
  | nil => exact Nat.le_refl 0
  | cons c name ih =>
    have := c.utf8Size_pos
    rw [List.length_cons, String.utf8Len_cons]
    omega

theorem utf8Len_of_forall {name : List Char} (h : ∀ c ∈ name, c.utf8Size = 1) :
    utf8Len name = name.length := by
  induction name with
  | nil => rfl
  | cons c name ih =>
    rw [List.forall_mem_cons] at h
    rw [List.length_cons, String.utf8Len_cons, ih h.2, h.1]

theorem takeUtf8_eq_ok {n : Nat} {name cs : List Char} :
    takeUtf8 n name = .ok cs ↔ ∃ rest, name = cs ++ rest ∧ utf8Len cs = n := by
  induction n using Nat.strongRecOn generalizing name cs with
  | ind n ih =>
    cases n with
    | zero =>
      rw [takeUtf8]
      constructor
      . intro h
        cases h
        exact ⟨name, rfl, rfl⟩
      . rintro ⟨rest, rfl, h⟩
        have hlength := length_le_utf8Len cs
        rw [h, Nat.le_zero] at hlength
        rw [List.eq_nil_of_length_eq_zero hlength]
    | succ n =>
      cases name with
      | nil =>
        rw [takeUtf8]
        constructor
        . intro h
          cases h
        . rintro ⟨rest, h, hlen⟩
          obtain ⟨rfl, _⟩ := List.append_eq_nil_iff.mp h.symm
          cases hlen
      | cons c name =>
        have hpos := c.utf8Size_pos
        rw [takeUtf8]
        constructor
        . intro h
          split at h
          next hle =>
            obtain ⟨cs, hcs, h⟩ := Except.bind_eq_ok h
            cases h
            obtain ⟨rest, rfl, hlen⟩ := (ih _ (by omega)).mp hcs
            refine ⟨rest, rfl, ?_⟩
            rw [String.utf8Len_cons]
            omega
          next => cases h
        . rintro ⟨rest, h, hlen⟩
          cases cs with
          | nil => cases hlen
          | cons c' cs =>
            rw [List.cons_append] at h
            obtain ⟨rfl, rfl⟩ := List.cons.inj h
            rw [String.utf8Len_cons] at hlen
            rw [if_pos (by omega)]
            have hrest : utf8Len cs = n + 1 - c.utf8Size := by omega
            have hcs := (ih (n + 1 - c.utf8Size) (by omega)).mpr ⟨rest, rfl, hrest⟩
            rw [hcs]
            rfl

theorem utf8Len_toList (name : String) : utf8Len name.toList = name.utf8ByteSize := by
  rw [← String.utf8ByteSize_ofList, String.ofList_toList]

theorem utf16Len_replicate (n : Nat) : utf16Len (List.replicate n '\x00') = n := by
  induction n with
  | zero => rfl
  | succ n ih =>
    rw [List.replicate_succ, utf16Len_cons, ih]
    exact Nat.add_comm 1 n

theorem length_unicode_clientName {name : String} (h : name.utf8ByteSize < 16) :
    ∃ s, clientName name = .ok s ∧
      (Nla.unicode s).length = 2 * (utf16Len name.toList + (16 - name.utf8ByteSize)) := by
  refine ⟨_, by rw [clientName, if_neg (Nat.not_le.mpr h)], ?_⟩
  rw [length_unicode, String.toList_append, String.toList_ofList, utf16Len_append, utf16Len_replicate]

theorem clientName_eq_ok {name s : String} (h : 16 ≤ name.utf8ByteSize) :
    clientName name = .ok s ↔
      ∃ cs rest, s = .ofList cs ∧ name.toList = cs ++ rest ∧ utf8Len cs = 16 := by
  rw [clientName, if_pos h]
  constructor
  . intro h
    obtain ⟨cs, hcs, h⟩ := Except.bind_eq_ok h
    cases h
    obtain ⟨rest, hname, hlen⟩ := takeUtf8_eq_ok.mp hcs
    exact ⟨cs, rest, rfl, hname, hlen⟩
  . rintro ⟨cs, rest, rfl, hname, hlen⟩
    rw [takeUtf8_eq_ok.mpr ⟨rest, hname, hlen⟩]
    rfl

theorem clientName_fills_iff (name : String) :
    (∃ s, clientName name = .ok s ∧ (Nla.unicode s).length = 32) ↔
      ∀ c ∈ name.toList.take 16, c.utf8Size = 1 := by
  -- The name fills its sixteen units when the first sixteen characters take one byte each.
  have hlength := length_le_utf8Len name.toList
  rw [utf8Len_toList] at hlength
  by_cases h : 16 ≤ name.utf8ByteSize
  . constructor
    . rintro ⟨s, hs, hunicode⟩
      obtain ⟨cs, rest, rfl, hname, hlen⟩ := (clientName_eq_ok h).mp hs
      rw [length_unicode, String.toList_ofList] at hunicode
      have hascii := (utf16Len_eq_iff cs).mp (by omega)
      rw [hname, List.take_left' (by rw [← utf8Len_of_forall hascii, hlen])]
      exact hascii
    . intro hascii
      have hlen := utf8Len_of_forall hascii
      have htake : (name.toList.take 16).length = 16 := by
        rw [List.length_take]
        by_contra hshort
        rw [List.take_of_length_le (by omega), utf8Len_toList] at hlen
        omega
      refine ⟨_, (clientName_eq_ok h).mpr ⟨_, _, rfl, (List.take_append_drop 16 _).symm, ?_⟩, ?_⟩
      . rw [hlen, htake]
      . rw [length_unicode, String.toList_ofList, (utf16Len_eq_iff _).mpr hascii, hlen, htake]
  . obtain ⟨s, hs, hunicode⟩ := length_unicode_clientName (Nat.lt_of_not_le h)
    have hle := utf16Len_le name.toList
    rw [utf8Len_toList] at hle
    rw [List.take_of_length_le (by omega), ← utf16Len_eq_iff, utf8Len_toList]
    constructor
    . rintro ⟨s', hs', hunicode'⟩
      cases hs.symm.trans hs'
      omega
    . intro heq
      exact ⟨s, hs, by omega⟩

end Name

/--
The fields of the core data with their sizes on the wire.
-/
def coreDataLayout : List (String × Nat) := [
  ("version", 4),
  ("desktopWidth", 2),
  ("desktopHeight", 2),
  ("colorDepth", 2),
  ("sasSequence", 2),
  ("kbdLayout", 4),
  ("clientBuild", 4),
  ("clientName", 32),
  ("keyboardType", 4),
  ("keyboardSubType", 4),
  ("keyboardFnKeys", 4),
  ("imeFileName", 64),
  ("postBeta2ColorDepth", 2),
  ("clientProductId", 2),
  ("serialNumber", 4),
  ("highColorDepth", 2),
  ("supportedColorDepths", 2),
  ("earlyCapabilityFlags", 2),
  ("clientDigProductId", 64),
  ("connectionType", 1),
  ("pad1octet", 1),
  ("serverSelectedProtocol", 4)
]

/--
Every field of the core data has its place.
-/
def FixedLayout (parameter : Option ClientData) : Prop :=
  ∃ fields, clientCoreData parameter = .ok fields ∧
    fields.map (fun f => (f.1, List.length <$> f.2.write)) =
      coreDataLayout.map (fun f => (f.1, .ok f.2)) ∧
    List.length <$> (Message.component fields).write = .ok 212

/--
The name that is sent, which is empty when there are no settings.
-/
def nameOf (parameter : Option ClientData) : String :=
  match parameter with
  | some data => data.name
  | none => ""

theorem nameOf_eq (parameter : Option ClientData) :
    (parameter.getD ⟨0, 0, .french, 0, .rdpVersion5plus, ""⟩).name = nameOf parameter := by
  cases parameter <;> rfl

theorem clientCoreData_of_error {parameter : Option ClientData} {e : Fault Error}
    (h : clientName (nameOf parameter) = .error e) : clientCoreData parameter = .error e := by
  unfold clientCoreData
  rw [← nameOf_eq] at h
  dsimp only
  rw [h]
  rfl

theorem length_write_of_sizes {fields : Component} (hoptions : ∀ f ∈ fields, f.2.options = .ok .none)
    {sizes : List (String × Nat)} (h : fields.map (fun f => (f.1, List.length <$> f.2.write)) =
      sizes.map (fun f => (f.1, .ok f.2))) :
    List.length <$> (Message.component fields).write = .ok (sizes.map Prod.snd).sum := by
  rw [Message.write_component]
  induction fields generalizing sizes with
  | nil =>
    rw [List.map_nil, eq_comm, List.map_eq_nil_iff] at h
    rw [h]
    rfl
  | cons f fields ih =>
    cases sizes with
    | nil => cases h
    | cons size sizes =>
      obtain ⟨name, m⟩ := f
      rw [List.forall_mem_cons] at hoptions
      obtain ⟨hhead, htail⟩ := List.cons.inj h
      obtain ⟨bytes, hbytes, hlength⟩ := Except.map_eq_ok (congrArg Prod.snd hhead)
      obtain ⟨rest, hrest, hsum⟩ := Except.map_eq_ok (ih hoptions.2 htail)
      have hoption : m.options = .ok .none := hoptions.1
      have hwrite : m.write = .ok bytes := hbytes
      simp [hoption, hwrite, hrest, hlength, hsum]

theorem exists_fields {parameter : Option ClientData} {s : String}
    (h : clientName (nameOf parameter) = .ok s) :
    ∃ fields, clientCoreData parameter = .ok fields ∧
      (∀ f ∈ fields, f.2.options = .ok .none) ∧
      fields.map (fun f => (f.1, List.length <$> f.2.write)) =
        coreDataLayout.map (fun f =>
          (f.1, .ok (if f.1 = "clientName" then (Nla.unicode s).length else f.2))) := by
  unfold clientCoreData
  rw [← nameOf_eq] at h
  dsimp only
  rw [h]
  refine ⟨_, rfl, ?_, ?_⟩
  . simp
  . simp [coreDataLayout, Leaf.write, Endian.encode16, Endian.encode32, Endian.order]

theorem fixedLayout_iff_fills {parameter : Option ClientData} :
    FixedLayout parameter ↔
      ∃ s, clientName (nameOf parameter) = .ok s ∧ (Nla.unicode s).length = 32 := by
  constructor
  . rintro ⟨fields, hfields, hlayout, _⟩
    cases hname : clientName (nameOf parameter) with
    | error e => cases hfields.symm.trans (clientCoreData_of_error hname)
    | ok s =>
      obtain ⟨fields', hfields', _, hlayout'⟩ := exists_fields hname
      cases hfields.symm.trans hfields'
      have hsize : (.ok 32 : RdpResult Nat) = .ok (Nla.unicode s).length :=
        congrArg (fun l => (l.map Prod.snd).getD 7 (.ok 0)) (hlayout.symm.trans hlayout')
      exact ⟨s, rfl, (Except.ok.inj hsize).symm⟩
  . rintro ⟨s, hs, hunicode⟩
    obtain ⟨fields, hfields, hoptions, hlayout⟩ := exists_fields hs
    rw [hunicode] at hlayout
    have hsizes : fields.map (fun f => (f.1, List.length <$> f.2.write)) =
        coreDataLayout.map (fun f => (f.1, .ok f.2)) := hlayout
    exact ⟨fields, hfields, hsizes, length_write_of_sizes hoptions hsizes⟩

/--
The layout is fixed for the names whose first sixteen characters are ASCII.
-/
theorem fixedLayout_iff (parameter : Option ClientData) :
    FixedLayout parameter ↔
      ∀ data, parameter = some data → ∀ c ∈ data.name.toList.take 16, c.val ≤ 127 := by
  rw [fixedLayout_iff_fills, clientName_fills_iff]
  simp only [Char.utf8Size_eq_one_iff]
  cases parameter with
  | none => simp [nameOf]
  | some data => simp [nameOf]

/--
A name whose sixteenth byte is inside its last character.
-/
theorem not_fixedLayout_straddle :
    ¬ FixedLayout (some ⟨800, 600, .us, 0, .rdpVersion5plus, "aaaaaaaaaaaaaaa\u00e9"⟩) := by
  rw [fixedLayout_iff_fills, clientName_fills_iff]
  intro h
  have hlast := h '\u00e9' (by decide)
  exact absurd hlast (by decide)

/--
What stands between the length of the connect PDU and the user data, which is the same in every
request.
-/
def requestFields : Bytes := [0, 0x08, 0, 0x10, 0, 1, 0xc0, 0] ++ h221CsKey

/--
Both lengths in a request are the ones of what follows them.
-/
def Consistent (userData request : Bytes) : Prop :=
  ∃ oid connectPdu following octets length size,
    Per.writeObjectIdentifier t1240298Oid = .ok oid ∧
    request = Per.writeChoice 0 ++ (oid ++ connectPdu) ∧
    Per.readLength.run connectPdu = .ok length following ∧ length.toNat = following.length ∧
    following = requestFields ++ octets ∧
    Per.readLength.run octets = .ok size userData ∧ size.toNat = userData.length

def requestHeader : Bytes := [5, 0, 20, 124, 0, 1]

theorem writeObjectIdentifier_t1240298Oid :
    Per.writeObjectIdentifier t1240298Oid = .ok requestHeader := rfl

theorem writeNumericString_one : Per.writeNumericString (Nla.asBytes "1") 1 = .ok [0, 0x10] := rfl

theorem writeOctetStream_h221CsKey : Per.writeOctetStream h221CsKey 4 = .ok (0 :: h221CsKey) := rfl

theorem writeConferenceCreateRequest_eq (userData : Bytes) :
    writeConferenceCreateRequest userData = (do
      let length ← checkedAdd 16 (UInt16.ofNat userData.length).toNat 14
      let length ← Per.encodeLength (.ofNat length)
      let octets ← Per.writeOctetStream userData 0
      return Per.writeChoice 0 ++ (requestHeader ++ (length ++ (requestFields ++ octets)))) := by
  unfold writeConferenceCreateRequest
  rw [writeObjectIdentifier_t1240298Oid, writeNumericString_one, writeOctetStream_h221CsKey]
  change (checkedAdd 16 _ 14 >>= _) = _
  refine congrArg (_ >>= ·) (funext fun length => ?_)
  refine congrArg (_ >>= ·) (funext fun length => ?_)
  change (Per.writeOctetStream userData 0 >>= _) = _
  refine congrArg (_ >>= ·) (funext fun octets => ?_)
  refine congrArg Except.ok ?_
  simp [requestFields, Per.writeChoice, Per.writeSelection, Per.writePadding, Per.writeNumberOfSet]

section NoErrors

open Except

theorem noErrors_encodeLength (length : UInt16) : NoErrors (Per.encodeLength length) := by
  obtain ⟨bytes, h, _⟩ := Per.exists_encodeLength length
  rw [h]
  apply NoErrors.ok

theorem noErrors_notShorter (length minimum : Nat) : NoErrors (Per.notShorter length minimum) := by
  unfold Per.notShorter
  dsimp only
  split
  . apply NoErrors.ok
  . apply NoErrors.panic

theorem noErrors_writeOctetStream (bytes : Bytes) (minimum : Nat) :
    NoErrors (Per.writeOctetStream bytes minimum) := by
  have hlength (length : Nat) : NoErrors (do
      let length ← Per.encodeLength (.ofNat length)
      return length ++ bytes : RdpResult Bytes) :=
    (noErrors_encodeLength _).bind fun _ => NoErrors.ok _
  unfold Per.writeOctetStream
  apply (noErrors_notShorter _ _).bind
  intro shorter
  cases shorter with
  | true => exact (NoErrors.of_checkedSub _ _).bind hlength
  | false => exact hlength minimum

theorem noErrors_writeConferenceCreateRequest (userData : Bytes) :
    NoErrors (writeConferenceCreateRequest userData) := by
  rw [writeConferenceCreateRequest_eq]
  apply (NoErrors.of_checkedAdd _ _ _).bind
  intro length
  apply (noErrors_encodeLength _).bind
  intro length
  apply (noErrors_writeOctetStream _ _).bind
  intro octets
  apply NoErrors.ok

end NoErrors

theorem Consistent.length_lt {userData request : Bytes} (h : Consistent userData request) :
    userData.length < 2 ^ 15 - 13 := by
  obtain ⟨oid, connectPdu, following, octets, length, size, _, _, hlength, heq, rfl, hsize, _⟩ := h
  obtain ⟨_, hcode, _⟩ := Per.run_readLength_iff.mp hlength
  obtain ⟨_, hcode', rfl⟩ := Per.run_readLength_iff.mp hsize
  have hlt := hcode.lt
  have hpos := hcode'.length_pos
  have hfields : requestFields.length = 12 := rfl
  rw [heq, List.length_append, List.length_append, hfields] at hlt
  omega

theorem writeConferenceCreateRequest_of_lt {userData : Bytes} (h : userData.length < 2 ^ 15 - 13) :
    ∃ length size, Per.encodeLength (.ofNat (userData.length + 14)) = .ok length ∧
      Per.encodeLength (.ofNat userData.length) = .ok size ∧
      writeConferenceCreateRequest userData = .ok (Per.writeChoice 0 ++
        (requestHeader ++ (length ++ (requestFields ++ (size ++ userData))))) := by
  obtain ⟨length, hlength, _⟩ := Per.exists_encodeLength (.ofNat (userData.length + 14))
  obtain ⟨size, hsize, _⟩ := Per.exists_encodeLength (.ofNat userData.length)
  refine ⟨length, size, hlength, hsize, ?_⟩
  have hmod : (UInt16.ofNat userData.length).toNat = userData.length := by
    rw [UInt16.toNat_ofNat']
    omega
  rw [writeConferenceCreateRequest_eq, hmod, checkedAdd_of_lt (by omega)]
  change (Per.encodeLength (.ofNat (userData.length + 14)) >>= _) = _
  rw [hlength]
  change (Per.writeOctetStream userData 0 >>= _) = _
  rw [Per.writeOctetStream_of_le (Nat.zero_le _) (by omega) hsize]
  rfl

theorem consistent_iff {userData length size : Bytes} (hlt : userData.length < 2 ^ 15 - 13)
    (hlength : Per.encodeLength (.ofNat (userData.length + 14)) = .ok length)
    (hsize : Per.encodeLength (.ofNat userData.length) = .ok size) :
    Consistent userData (Per.writeChoice 0 ++
      (requestHeader ++ (length ++ (requestFields ++ (size ++ userData))))) ↔
        (userData.length + 14) % 2 ^ 15 = 12 + size.length + userData.length := by
  obtain ⟨v, hread, hv⟩ := Per.run_readLength_encodeLength hlength (requestFields ++ (size ++ userData))
  obtain ⟨w, hread', hw⟩ := Per.run_readLength_encodeLength hsize userData
  have hfollowing : (requestFields ++ (size ++ userData)).length = 12 + size.length + userData.length := by
    rw [List.length_append, List.length_append, show requestFields.length = 12 from rfl]
    omega
  rw [UInt16.toNat_ofNat', Nat.mod_mod_of_dvd _ (by decide)] at hv hw
  rw [← hv, ← hfollowing]
  constructor
  . rintro ⟨oid, connectPdu, following, octets, length', _, hoid, hrequest, hlength', heq, _⟩
    cases hoid.symm.trans writeObjectIdentifier_t1240298Oid
    have hconnectPdu := List.append_cancel_left (List.append_cancel_left hrequest)
    rw [← hconnectPdu, hread] at hlength'
    cases hlength'
    exact heq
  . intro heq
    refine ⟨_, _, _, _, v, w, writeObjectIdentifier_t1240298Oid, rfl, hread, heq, rfl, hread', ?_⟩
    rw [hw]
    omega

/--
The constant that is added to the length counts an inner length of two bytes, and both lengths have
fifteen bits.
-/
theorem request_consistent_iff (userData : Bytes) :
    ((∃ e, writeConferenceCreateRequest userData = .error (.error e)) ∨
      ∃ request, writeConferenceCreateRequest userData = .ok request ∧ Consistent userData request) ↔
        128 ≤ userData.length ∧ userData.length ≤ 32753 := by
  have hsizes {size : Bytes} (hlt : userData.length < 2 ^ 15 - 13)
      (hsize : Per.encodeLength (.ofNat userData.length) = .ok size) :
      size.length = if userData.length ≤ 0x7f then 1 else 2 := by
    obtain ⟨_, hsize', hlength⟩ := Per.exists_encodeLength (.ofNat userData.length)
    cases hsize.symm.trans hsize'
    rw [UInt16.toNat_ofNat', Nat.mod_eq_of_lt (by omega)] at hlength
    exact hlength
  constructor
  . rintro (⟨e, h⟩ | ⟨request, hrequest, hconsistent⟩)
    . exact absurd (Fault.isError_error e) (noErrors_writeConferenceCreateRequest userData _ h)
    . have hlt := hconsistent.length_lt
      obtain ⟨length, size, hlength, hsize, hwrite⟩ := writeConferenceCreateRequest_of_lt hlt
      cases hrequest.symm.trans hwrite
      have heq := (consistent_iff hlt hlength hsize).mp hconsistent
      have hcount := hsizes hlt hsize
      split at hcount <;> omega
  . rintro ⟨hle, hle'⟩
    have hlt : userData.length < 2 ^ 15 - 13 := by omega
    obtain ⟨length, size, hlength, hsize, hwrite⟩ := writeConferenceCreateRequest_of_lt hlt
    refine .inr ⟨_, hwrite, (consistent_iff hlt hlength hsize).mpr ?_⟩
    rw [hsizes hlt hsize, if_neg (by omega)]
    omega

/--
Without user data the length says fourteen and thirteen bytes follow.
-/
theorem not_request_consistent_nil :
    ¬ ((∃ e, writeConferenceCreateRequest [] = .error (.error e)) ∨
      ∃ request, writeConferenceCreateRequest [] = .ok request ∧ Consistent [] request) := by
  rintro (⟨e, h⟩ | ⟨request, hrequest, hconsistent⟩)
  . exact absurd (Fault.isError_error e) (noErrors_writeConferenceCreateRequest [] _ h)
  . have hlt := hconsistent.length_lt
    obtain ⟨length, size, hlength, hsize, hwrite⟩ := writeConferenceCreateRequest_of_lt hlt
    cases hrequest.symm.trans hwrite
    cases hsize
    have heq := (consistent_iff hlt hlength rfl).mp hconsistent
    exact absurd heq (by decide)

end Rdp.Gcc
