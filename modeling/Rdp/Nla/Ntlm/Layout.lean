import Rdp.Model.Data.Equations
import Rdp.Model.Data.RoundTrip
import Rdp.Nla.Ntlm.Impl

/-!
This module contains the bytes of the authenticate message: where its header says that the parts of
its payload are.
-/

namespace Rdp

open Nla Cursor

namespace Nla

def uint16At (message : Bytes) (pos : Nat) : UInt16 :=
  le16 (message.getD pos 0) (message.getD (pos + 1) 0)

def uint32At (message : Bytes) (pos : Nat) : UInt32 :=
  le32 (message.getD pos 0) (message.getD (pos + 1) 0) (message.getD (pos + 2) 0)
    (message.getD (pos + 3) 0)

/--
The bytes of a message that a length and an offset in its header announce. The length stands at
`pos`, and the offset four bytes after it.
-/
def announced (message : Bytes) (pos : Nat) : Bytes :=
  (message.drop (uint32At message (pos + 4)).toNat).take (uint16At message pos).toNat

def hasVersion (flags : UInt32) : Prop := flags &&& Negotiate.ntlmsspNegociateVersion.toU32 ≠ 0

instance (flags : UInt32) : Decidable (hasVersion flags) := inferInstanceAs (Decidable (_ ≠ _))

theorem versionOption_eq (flags : UInt32) :
    versionOption (.u32 flags) =
      .ok (if hasVersion flags then .none else .skipField "Version") := by
  unfold versionOption hasVersion
  by_cases h : flags &&& Negotiate.ntlmsspNegociateVersion.toU32 = 0 <;> simp [h]

def entry (length : Nat) (offset : UInt32) : Bytes :=
  Endian.le.encode16 (.ofNat length) ++ Endian.le.encode16 (.ofNat length) ++
    Endian.le.encode32 offset

theorem uint16At_append {front : Bytes} {pos : Nat} (h : front.length = pos) (v : UInt16)
    (rest : Bytes) : uint16At (front ++ (Endian.le.encode16 v ++ rest)) pos = v := by
  subst h
  unfold uint16At
  simp only [List.getD_eq_getElem?_getD, List.getElem?_append_right (Nat.le_refl _),
    List.getElem?_append_right (Nat.le_add_right _ _), Nat.sub_self, Nat.add_sub_cancel_left]
  exact le16_bytes v

theorem uint32At_append {front : Bytes} {pos : Nat} (h : front.length = pos) (v : UInt32)
    (rest : Bytes) : uint32At (front ++ (Endian.le.encode32 v ++ rest)) pos = v := by
  subst h
  unfold uint32At
  simp only [List.getD_eq_getElem?_getD, List.getElem?_append_right (Nat.le_refl _),
    List.getElem?_append_right (Nat.le_add_right _ _), Nat.sub_self, Nat.add_sub_cancel_left]
  exact le32_bytes v

theorem read_entry {front : Bytes} {pos : Nat} (h : front.length = pos) (length : Nat) (offset : UInt32)
    (rest : Bytes) :
    let message := front ++ (entry length offset ++ rest)
    uint16At message pos = .ofNat length ∧ uint16At message (pos + 2) = .ofNat length ∧
      uint32At message (pos + 4) = offset := by
  intro message
  refine ⟨?_, ?_, ?_⟩
  . simp only [message, entry, List.append_assoc]
    exact uint16At_append h _ _
  . simp only [message, entry, List.append_assoc]
    rw [← List.append_assoc]
    exact uint16At_append (by simp [h, Endian.encode16, Endian.order]) _ _
  . simp only [message, entry]
    rw [List.append_assoc, ← List.append_assoc]
    exact uint32At_append (by simp [h, Endian.encode16, Endian.order]) _ _

/--
The header announces this part of the payload at `pos`: its length twice, and its place in the
message.
-/
structure Announces (message : Bytes) (pos : Nat) (part : Bytes) : Prop where
  length_eq : (uint16At message pos).toNat = part.length
  maxLength_eq : uint16At message (pos + 2) = uint16At message pos
  inside : (uint32At message (pos + 4)).toNat + part.length ≤ message.length
  announced_eq : announced message pos = part

def entries (start : Nat) (parts : List Bytes) : Bytes :=
  match parts with
  | [] => []
  | part :: parts => entry part.length (.ofNat start) ++ entries (start + part.length) parts

theorem length_entries (start : Nat) (parts : List Bytes) : (entries start parts).length = 8 * parts.length := by
  induction parts generalizing start with
  | nil => rfl
  | cons part parts ih =>
    rw [entries, List.length_append, ih, List.length_cons, Nat.mul_succ, Nat.add_comm]
    rfl

theorem entries_append (start : Nat) (front back : List Bytes) :
    entries start (front ++ back) = entries start front ++ entries (start + front.flatten.length) back := by
  induction front generalizing start with
  | nil => rfl
  | cons part front ih =>
    rw [List.cons_append, entries, entries, ih, List.append_assoc, List.flatten_cons, List.length_append,
      Nat.add_assoc]

def versionBytes : Bytes := [6, 0, 0x72, 0x17, 0, 0, 0, 0x0F]

/--
The bytes of an authenticate message before the signature, with the lengths and the offsets of its
six fields.
-/
def authenticateHeader (lm nt domain user workstation key : Nat)
    (lmOffset ntOffset domainOffset userOffset workstationOffset keyOffset flags : UInt32) : Bytes :=
  ntlmssp ++ (Endian.le.encode32 3 ++ (entry lm lmOffset ++ (entry nt ntOffset ++
    (entry domain domainOffset ++ (entry user userOffset ++ (entry workstation workstationOffset ++
      (entry key keyOffset ++ (Endian.le.encode32 flags ++
        (if hasVersion flags then versionBytes else [])))))))))

theorem bufferOffset_of_lt {offset : UInt32} {length : Nat} (h : offset.toNat + length < 2 ^ 32) :
    bufferOffset offset length = .ok (.ofNat (offset.toNat + length)) := by
  have hlength : (UInt32.ofNat length).toNat = length :=
    UInt32.toNat_ofNat_of_lt' (Nat.lt_of_le_of_lt (Nat.le_add_left _ _) h)
  rw [bufferOffset, hlength, checkedAdd_of_lt h]
  rfl

def payloadOffset (flags : UInt32) : UInt32 := if hasVersion flags then 88 else 80

theorem toNat_payloadOffset (flags : UInt32) :
    (payloadOffset flags).toNat = if hasVersion flags then 88 else 80 := by
  unfold payloadOffset
  split <;> rfl

theorem write_authenticateFields (lm nt domain user workstation key : Nat)
    (lmOffset ntOffset domainOffset userOffset workstationOffset keyOffset flags : UInt32) :
    (Message.component (authenticateFields lm nt domain user workstation key lmOffset ntOffset
      domainOffset userOffset workstationOffset keyOffset flags)).write =
      .ok (authenticateHeader lm nt domain user workstation key lmOffset ntOffset domainOffset
        userOffset workstationOffset keyOffset flags) := by
  by_cases h : hasVersion flags
  . simp [authenticateFields, h, Message.visit, Leaf.visit, versionOption_eq, authenticateHeader,
      entry, Leaf.write, version]
    rfl
  . simp [authenticateFields, h, Message.visit, Leaf.visit, versionOption_eq, authenticateHeader,
      entry, Leaf.write]

theorem if_hasVersion (flags : UInt32) :
    (if flags &&& Negotiate.ntlmsspNegociateVersion.toU32 = 0 then 80 else 88) = payloadOffset flags := by
  unfold payloadOffset hasVersion
  by_cases h : flags &&& Negotiate.ntlmsspNegociateVersion.toU32 = 0 <;> simp [h]

theorem authenticateMessage_eq {lm nt domain user workstation : Bytes} (key : Bytes) (flags : UInt32)
    (h : lm.length + nt.length + domain.length + user.length + workstation.length < 2 ^ 31) :
    let start := (payloadOffset flags).toNat
    authenticateMessage lm nt domain user workstation key flags =
      .ok (authenticateFields lm.length nt.length domain.length user.length workstation.length
          key.length (payloadOffset flags) (.ofNat (start + lm.length))
          (.ofNat (start + (lm.length + nt.length)))
          (.ofNat (start + (lm.length + nt.length + domain.length)))
          (.ofNat (start + (lm.length + nt.length + domain.length + user.length)))
          (.ofNat (start + (lm.length + nt.length + domain.length + user.length +
            workstation.length))) flags,
        [lm, nt, domain, user, workstation, key].flatten) := by
  intro start
  have hlt : start ≤ 88 := by
    simp only [start, toNat_payloadOffset]
    split <;> omega
  unfold authenticateMessage
  simp only [if_hasVersion]
  rw [bufferOffset_of_lt (by omega), bufferOffset_of_lt (by omega), bufferOffset_of_lt (by omega),
    bufferOffset_of_lt (by omega), bufferOffset_of_lt (by omega)]
  rfl

theorem length_authenticateHeader (lm nt domain user workstation key : Nat)
    (lmOffset ntOffset domainOffset userOffset workstationOffset keyOffset flags : UInt32) :
    (authenticateHeader lm nt domain user workstation key lmOffset ntOffset domainOffset userOffset
      workstationOffset keyOffset flags).length + 16 = (payloadOffset flags).toNat := by
  rw [toNat_payloadOffset]
  unfold authenticateHeader
  split <;> rfl

def ntChallengeResponse (message : Bytes) : Bytes := announced message 20

def encryptedRandomSessionKey (message : Bytes) : Bytes := announced message 52

def payloadStart (message : Bytes) : Nat := (uint32At message 16).toNat

def micOf (message : Bytes) : Bytes := (message.drop (payloadStart message - 16)).take 16

def withoutMic (message : Bytes) : Bytes :=
  message.take (payloadStart message - 16) ++ (z 16 ++ message.drop (payloadStart message))

def header (lm nt domain user workstation key : Bytes) (flags : UInt32) : Bytes :=
  let start := (payloadOffset flags).toNat
  authenticateHeader lm.length nt.length domain.length user.length workstation.length
    key.length (payloadOffset flags) (.ofNat (start + lm.length))
    (.ofNat (start + (lm.length + nt.length)))
    (.ofNat (start + (lm.length + nt.length + domain.length)))
    (.ofNat (start + (lm.length + nt.length + domain.length + user.length)))
    (.ofNat (start + (lm.length + nt.length + domain.length + user.length + workstation.length)))
    flags

theorem length_header (lm nt domain user workstation key : Bytes) (flags : UInt32) :
    (header lm nt domain user workstation key flags).length + 16 = (payloadOffset flags).toNat := by
  apply length_authenticateHeader

theorem header_eq (lm nt domain user workstation key : Bytes) (flags : UInt32) :
    header lm nt domain user workstation key flags =
      ntlmssp ++ (Endian.le.encode32 3 ++
        (entries (payloadOffset flags).toNat [lm, nt, domain, user, workstation, key] ++
          (Endian.le.encode32 flags ++ (if hasVersion flags then versionBytes else [])))) := by
  simp only [header, authenticateHeader, entries, List.append_assoc, List.nil_append, Nat.add_assoc,
    UInt32.ofNat_toNat]

/--
A message with the header of an authenticate message, a signature and a payload.
-/
structure Authenticate (lm nt domain user workstation key signature message : Bytes) (flags : UInt32) :
    Prop where
  signature_length : signature.length = 16
  fields_lt : lm.length < 2 ^ 16 ∧ nt.length < 2 ^ 16 ∧ domain.length < 2 ^ 16 ∧
    user.length < 2 ^ 16 ∧ workstation.length < 2 ^ 16 ∧ key.length < 2 ^ 16
  message_eq : message = header lm nt domain user workstation key flags ++
    (signature ++ [lm, nt, domain, user, workstation, key].flatten)

theorem drop_front {front rest : Bytes} {n : Nat} (h : front.length = n) (k : Nat) :
    (front ++ rest).drop (n + k) = rest.drop k := by
  subst h
  apply List.drop_length_add_append

namespace Authenticate

variable {lm nt domain user workstation key signature message : Bytes} {flags : UInt32}

theorem payloadStart_eq (h : Authenticate lm nt domain user workstation key signature message flags) :
    payloadStart message = (payloadOffset flags).toNat := by
  rw [payloadStart, h.message_eq]
  simp only [header, authenticateHeader, entry, List.append_assoc]
  rw [← List.append_assoc, ← List.append_assoc, ← List.append_assoc]
  exact congrArg UInt32.toNat (uint32At_append rfl _ _)

theorem drop_message (h : Authenticate lm nt domain user workstation key signature message flags)
    (k : Nat) :
    message.drop ((payloadOffset flags).toNat + k) =
      ([lm, nt, domain, user, workstation, key].flatten).drop k := by
  rw [h.message_eq, ← List.append_assoc]
  apply drop_front
  rw [List.length_append, h.signature_length, length_header]

theorem length_message (h : Authenticate lm nt domain user workstation key signature message flags) :
    message.length =
      (payloadOffset flags).toNat + [lm, nt, domain, user, workstation, key].flatten.length := by
  have hheader := length_header lm nt domain user workstation key flags
  rw [h.message_eq, List.length_append, List.length_append, h.signature_length]
  omega

theorem toNat_offset {k : Nat} (hk : k < 2 ^ 31) :
    (UInt32.ofNat ((payloadOffset flags).toNat + k)).toNat = (payloadOffset flags).toNat + k := by
  apply UInt32.toNat_ofNat_of_lt'
  have : (payloadOffset flags).toNat ≤ 88 := by
    rw [toNat_payloadOffset]
    split <;> omega
  show _ < 2 ^ 32
  omega

theorem announces (h : Authenticate lm nt domain user workstation key signature message flags)
    (front : List Bytes) {back : List Bytes} {part : Bytes}
    (hparts : [lm, nt, domain, user, workstation, key] = front ++ part :: back) :
    Announces message (12 + 8 * front.length) part := by
  have hsum : front.flatten.length + (part ++ back.flatten).length < 2 ^ 19 := by
    have hlength := congrArg List.length (congrArg List.flatten hparts)
    simp only [List.flatten_append, List.flatten_cons, List.flatten_nil, List.length_append,
      List.length_nil] at hlength ⊢
    obtain ⟨hlm, hnt, hdomain, huser, hworkstation, hkey⟩ := h.fields_lt
    omega
  have hpart : part.length < 2 ^ 16 := by
    have hmem : part ∈ [lm, nt, domain, user, workstation, key] := by
      rw [hparts]
      exact List.mem_append_right _ List.mem_cons_self
    obtain ⟨hlm, hnt, hdomain, huser, hworkstation, hkey⟩ := h.fields_lt
    simp only [List.mem_cons, List.not_mem_nil, or_false] at hmem
    rcases hmem with rfl | rfl | rfl | rfl | rfl | rfl <;> assumption
  rw [List.length_append] at hsum
  -- What the offset leads to is behind the parts before this one.
  have hdrop : message.drop ((payloadOffset flags).toNat + front.flatten.length) = part ++ back.flatten := by
    rw [h.drop_message, hparts, List.flatten_append, List.flatten_cons, List.drop_left]
  have hmessage : ∃ tail, message = (ntlmssp ++ Endian.le.encode32 3 ++
      entries (payloadOffset flags).toNat front) ++
      (entry part.length (.ofNat ((payloadOffset flags).toNat + front.flatten.length)) ++ tail) := by
    rw [h.message_eq, header_eq, hparts, entries_append, entries]
    simp only [List.append_assoc]
    exact ⟨_, rfl⟩
  have hfront : (ntlmssp ++ Endian.le.encode32 3 ++
      entries (payloadOffset flags).toNat front).length = 12 + 8 * front.length := by
    rw [List.length_append, length_entries]
    rfl
  have hoffset := @toNat_offset flags front.flatten.length (by omega)
  obtain ⟨tail, htail⟩ := hmessage
  obtain ⟨hlength, hmax, hat⟩ := read_entry hfront part.length
    (.ofNat ((payloadOffset flags).toNat + front.flatten.length)) tail
  rw [← htail] at hlength hmax hat
  have htoNat : (uint16At message (12 + 8 * front.length)).toNat = part.length := by
    rw [hlength, UInt16.toNat_ofNat_of_lt' hpart]
  constructor
  . exact htoNat
  . rw [hmax, hlength]
  . rw [hat, hoffset, h.length_message, hparts, List.flatten_append, List.flatten_cons, List.length_append,
      List.length_append]
    omega
  . rw [announced, htoNat, hat, hoffset, hdrop, List.take_left]

theorem announced_nt (h : Authenticate lm nt domain user workstation key signature message flags) :
    ntChallengeResponse message = nt :=
  (h.announces [lm] rfl).announced_eq

theorem announced_key (h : Authenticate lm nt domain user workstation key signature message flags) :
    encryptedRandomSessionKey message = key :=
  (h.announces [lm, nt, domain, user, workstation] rfl).announced_eq

theorem micOf_eq (h : Authenticate lm nt domain user workstation key signature message flags) :
    micOf message = signature := by
  have hlength := length_header lm nt domain user workstation key flags
  rw [micOf, h.payloadStart_eq, h.message_eq, List.drop_left' (by omega),
    List.take_left' h.signature_length]

theorem withoutMic_eq (h : Authenticate lm nt domain user workstation key signature message flags) :
    withoutMic message = header lm nt domain user workstation key flags ++
      (z 16 ++ [lm, nt, domain, user, workstation, key].flatten) := by
  have hlength := length_header lm nt domain user workstation key flags
  have hdrop := h.drop_message 0
  rw [Nat.add_zero, List.drop_zero] at hdrop
  rw [withoutMic, h.payloadStart_eq, hdrop, h.message_eq, List.take_left' (by omega)]

end Authenticate

/--
The six parts of an authenticate message are where its header announces them, with and without a
version.
-/
theorem authenticateMessage_layout (lm nt domain user workstation key signature : Bytes) (flags : UInt32)
    (hparts : ∀ part ∈ [lm, nt, domain, user, workstation, key], part.length ≤ 65535)
    (hsignature : signature.length = 16) :
    ∃ fields payload bytes,
      authenticateMessage lm nt domain user workstation key flags = .ok (fields, payload) ∧
      toVec (.component fields) = .ok bytes ∧
      let message := bytes ++ signature ++ payload
      Announces message 12 lm ∧ Announces message 20 nt ∧ Announces message 28 domain ∧
        Announces message 36 user ∧ Announces message 44 workstation ∧ Announces message 52 key := by
  simp only [List.forall_mem_cons, List.not_mem_nil, false_imp_iff, implies_true, and_true] at hparts
  have hmessage := authenticateMessage_eq key flags
    (show lm.length + nt.length + domain.length + user.length + workstation.length < 2 ^ 31 by omega)
  have hbytes : toVec (.component _) = .ok (header lm nt domain user workstation key flags) :=
    toVec_eq_ok_iff.mpr (write_authenticateFields _ _ _ _ _ _ _ _ _ _ _ _ _)
  refine ⟨_, _, _, hmessage, hbytes, ?_⟩
  have h : Authenticate lm nt domain user workstation key signature
      (header lm nt domain user workstation key flags ++ signature ++
        [lm, nt, domain, user, workstation, key].flatten) flags := {
    signature_length := hsignature
    fields_lt := by omega
    message_eq := List.append_assoc _ _ _
  }
  refine ⟨?_, ?_, ?_, ?_, ?_, ?_⟩
  . exact h.announces [] rfl
  . exact h.announces [lm] rfl
  . exact h.announces [lm, nt] rfl
  . exact h.announces [lm, nt, domain] rfl
  . exact h.announces [lm, nt, domain, user] rfl
  . exact h.announces [lm, nt, domain, user, workstation] rfl

/--
A message with a version, of which three parts are empty.
-/
theorem authenticateMessage_layout_version :
    ∃ fields payload bytes,
      authenticateMessage [1] [2, 3] [] [4] [] [] 0x02000000 = .ok (fields, payload) ∧
      toVec (.component fields) = .ok bytes ∧
      let message := bytes ++ z 16 ++ payload
      Announces message 12 [1] ∧ Announces message 20 [2, 3] ∧ Announces message 28 [] ∧
        Announces message 36 [4] ∧ Announces message 44 [] ∧ Announces message 52 [] :=
  authenticateMessage_layout [1] [2, 3] [] [4] [] [] (z 16) 0x02000000 (by decide) rfl

end Nla

end Rdp
