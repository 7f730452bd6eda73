import Rdp.Model.Data.Equations
import Rdp.Model.Data.RoundTrip
import Rdp.Nla.Ntlm.Impl

/-!
This module contains the sessions of two security interfaces: what one of them wraps, the mirrored
one unwraps.
-/

namespace Rdp

open Nla

namespace Nla

theorem slice_take {data : Bytes} {n : Nat} (h : n ≤ data.length) :
    slice data 0 n = .ok (data.take n) := by
  unfold slice
  rw [if_pos ⟨Nat.zero_le n, h⟩]
  rfl

theorem messageSignatureEx_some {sum : Bytes} (h : sum.length = 8) (seqNum : UInt32) :
    messageSignatureEx (some sum) (some seqNum) = .ok [
      ("Version", .check (.u32 .le 1)),
      ("Checksum", .leaf (.bytes sum)),
      ("SeqNum", .leaf (.u32 .le seqNum))
    ] := by
  simp only [messageSignatureEx, slice_take (Nat.le_of_eq h.symm), List.take_of_length_le
    (Nat.le_of_eq h)]
  rfl

theorem messageSignatureEx_none :
    messageSignatureEx none none = .ok [
      ("Version", .check (.u32 .le 1)),
      ("Checksum", .leaf (.bytes (List.replicate 8 0))),
      ("SeqNum", .leaf (.u32 .le 0))
    ] := rfl

def wrapped (sum : Bytes) (seqNum : UInt32) (data : Bytes) : Bytes :=
  Endian.le.encode32 1 ++ (sum ++ (Endian.le.encode32 seqNum ++ data))

def checksum (hashes : Hashes) (key : Bytes) (seqNum : UInt32) (data : Bytes) : Bytes :=
  (hashes.hmacMd5 key (Endian.le.encode32 seqNum ++ data)).take 8

variable {hashes : Hashes} (hmac : ∀ key data, 8 ≤ (hashes.hmacMd5 key data).length)

include hmac

theorem length_checksum (key : Bytes) (seqNum : UInt32) (data : Bytes) :
    (checksum hashes key seqNum data).length = 8 := by
  have := hmac key (Endian.le.encode32 seqNum ++ data)
  rw [checksum, List.length_take]
  omega

theorem mac_eq (rc4Handle : Rc4) (signingKey : Bytes) (seqNum : UInt32) (data : Bytes) :
    mac hashes rc4Handle signingKey seqNum data =
      .ok (Endian.le.encode32 1 ++ ((rc4Handle.process (checksum hashes signingKey seqNum data)).1 ++
          Endian.le.encode32 seqNum),
        (rc4Handle.process (checksum hashes signingKey seqNum data)).2) := by
  have hsum := length_checksum hmac signingKey seqNum data
  unfold mac
  change (slice (hashes.hmacMd5 signingKey (Endian.le.encode32 seqNum ++ data)) 0 8 >>= _) = _
  rw [slice_take (hmac _ _)]
  simp only [Except.ok_bind]
  rw [show (hashes.hmacMd5 signingKey (Endian.le.encode32 seqNum ++ data)).take 8 =
    checksum hashes signingKey seqNum data from rfl]
  rw [messageSignatureEx_some (by rw [Rc4.length_process, hsum])]
  rfl

end Nla

def signature (version : UInt32) (sum : Bytes) (seqNum : UInt32) : Message := .component [
  ("Version", .check (.u32 .le version)),
  ("Checksum", .leaf (.bytes sum)),
  ("SeqNum", .leaf (.u32 .le seqNum))
]

open Cursor in
theorem reader_signature (version : UInt32) (seqNum : UInt32) :
    (signature version (List.replicate 8 0) seqNum).reader = (do
      let v ← readU32 .le
      expect (version = v)
      let sum ← readExact 8
      let seqNum ← readU32 .le
      return signature v sum seqNum) := by
  simp [signature, List.replicate]

theorem run_reader_signature {sum : Bytes} (hsum : sum.length = 8) (seqNum : UInt32) (data : Bytes) :
    (signature 1 (List.replicate 8 0) 0).reader.run (wrapped sum seqNum data) =
      .ok (signature 1 sum seqNum) data := by
  rw [reader_signature, wrapped]
  simp only [EStateM.run_bind, Cursor.run_readU32_encode32, Cursor.run_readExact_append _ hsum,
    Cursor.expect, EStateM.run_pure, decide_true, if_true]

theorem ofNat_succ (v : UInt32) : UInt32.ofNat (v.toNat + 1) = v + 1 := by
  rw [UInt32.ofNat_add, UInt32.ofNat_toNat]
  rfl

theorem toVec_pair (a b : Bytes) :
    toVec (.trame [.leaf (.bytes a), .leaf (.bytes b)]) = .ok (a ++ b) := by
  rw [toVec_eq_ok_iff]
  simp [Message.write, Message.writeTrame, Leaf.write]

namespace NTLMv2SecurityInterface

open Nla

/--
The two interfaces of a connection: what one encrypts and signs the other one decrypts and verifies.
-/
structure Mirrored (sender receiver : NTLMv2SecurityInterface) : Prop where
  rc4_eq : receiver.decrypt = sender.encrypt
  key_eq : receiver.verifyKey = sender.signingKey

variable {hashes : Hashes} (hmac : ∀ key data, 8 ≤ (hashes.hmacMd5 key data).length)

/--
The encrypted checksum of a message, and the RC4 state after it. The message is encrypted first.
-/
def sum (hashes : Hashes) (self : NTLMv2SecurityInterface) (data : Bytes) : Bytes × Rc4 :=
  (self.encrypt.process data).2.process (checksum hashes self.signingKey self.seqNum data)

def wrap (hashes : Hashes) (self : NTLMv2SecurityInterface) (data : Bytes) : Bytes :=
  wrapped (self.sum hashes data).1 self.seqNum (self.encrypt.process data).1

include hmac

theorem run_gssWrapex {self : NTLMv2SecurityInterface} (hseq : self.seqNum.toNat + 1 < 2 ^ 32)
    (data : Bytes) :
    (gssWrapex hashes data).run self =
      .ok (self.wrap hashes data)
        { self with encrypt := (self.sum hashes data).2, seqNum := self.seqNum + 1 } := by
  change (Prog.lift (mac hashes (self.encrypt.process data).2 self.signingKey self.seqNum data) >>= _ :
    Prog Error NTLMv2SecurityInterface Bytes).run self = _
  rw [mac_eq hmac, checkedAdd_of_lt hseq]
  simp only [Prog.lift_ok, pure_bind, toVec_pair, ofNat_succ]
  simp only [wrap, wrapped, List.append_assoc]
  rfl

theorem readSignedMessage_wrap (self : NTLMv2SecurityInterface) (data : Bytes) :
    readSignedMessage (self.wrap hashes data) =
      .ok ⟨(self.sum hashes data).1, self.seqNum, (self.encrypt.process data).1⟩ := by
  have hsum : (self.sum hashes data).1.length = 8 := by
    rw [sum, Rc4.length_process, length_checksum hmac]
  have hread := run_reader_signature hsum self.seqNum (self.encrypt.process data).1
  rw [signature] at hread
  rw [readSignedMessage, messageSignatureEx_none, wrap]
  simp only [Except.ok_bind]
  rw [hread]
  rfl

theorem run_gssUnwrapex {self peer : NTLMv2SecurityInterface} (h : Mirrored self peer)
    (data : Bytes) :
    (gssUnwrapex hashes (self.wrap hashes data)).run peer =
      .ok data { peer with decrypt := (self.sum hashes data).2 } := by
  have hpayload := self.encrypt.process_process data
  have hsum := (self.encrypt.process data).2.process_process
    (checksum hashes self.signingKey self.seqNum data)
  unfold gssUnwrapex
  rw [readSignedMessage_wrap hmac]
  have hseq : toVec (.leaf (.u32 .le self.seqNum)) = .ok (Endian.le.encode32 self.seqNum) := rfl
  simp only [EStateM.run_bind, EStateM.run_get, Prog.run_lift_ok, EStateM.run_set, h.rc4_eq,
    h.key_eq, hpayload, sum, hsum, hseq, slice_take (hmac _ _)]
  simp only [checksum, ne_eq, not_true, if_false]
  rfl

end NTLMv2SecurityInterface

namespace NTLMv2SecurityInterface

def seqNumOf (message : Bytes) : Bytes := (message.drop 12).take 4

/--
A session in which the texts are wrapped and unwrapped one after the other, the first of them with
the sequence number `k`.
-/
def Session (hashes : Hashes) (k : Nat) (sender receiver : NTLMv2SecurityInterface)
    (texts : List Bytes) : Prop :=
  match texts with
  | [] => True
  | text :: texts =>
    ∃ message sender' receiver',
      (gssWrapex hashes text).run sender = .ok message sender' ∧
      (gssUnwrapex hashes message).run receiver = .ok text receiver' ∧
      seqNumOf message = Endian.le.encode32 (.ofNat k) ∧
      sender'.encrypt = receiver'.decrypt ∧
      Session hashes (k + 1) sender' receiver' texts

theorem seqNumOf_wrap {hashes : Hashes} (hmac : ∀ key data, 8 ≤ (hashes.hmacMd5 key data).length)
    (self : NTLMv2SecurityInterface) (data : Bytes) :
    seqNumOf (self.wrap hashes data) = Endian.le.encode32 self.seqNum := by
  have hsum : (self.sum hashes data).1.length = 8 := by
    rw [sum, Rc4.length_process, length_checksum hmac]
  unfold seqNumOf wrap wrapped
  have hseq : (Endian.le.encode32 self.seqNum).length = 4 := rfl
  rw [← List.append_assoc, List.drop_left' (by rw [List.length_append, hsum]; rfl),
    List.take_left' hseq]

theorem session_of_mirrored {hashes : Hashes} (hmac : ∀ key data, 8 ≤ (hashes.hmacMd5 key data).length)
    {k : Nat} {sender receiver : NTLMv2SecurityInterface} {texts : List Bytes}
    (h : Mirrored sender receiver) (hseq : sender.seqNum.toNat = k)
    (hlength : k + texts.length < 2 ^ 32) : Session hashes k sender receiver texts := by
  induction texts generalizing k sender receiver with
  | nil => trivial
  | cons text texts ih =>
    rw [List.length_cons] at hlength
    refine ⟨_, _, _, run_gssWrapex hmac (by omega) text, run_gssUnwrapex hmac h text, ?_, rfl, ?_⟩
    . rw [seqNumOf_wrap hmac, ← hseq, UInt32.ofNat_toNat]
    . have hnext : (sender.seqNum + 1).toNat = k + 1 := by
        rw [UInt32.toNat_add, hseq, UInt32.toNat_one]
        exact Nat.mod_eq_of_lt (by omega)
      refine ih ⟨rfl, h.key_eq⟩ hnext ?_
      omega

/--
A session of fewer than 2^32 texts, whatever the keys are: every text is unwrapped as it was, the
sequence numbers count from zero, and the two ciphers stay at the same point of the key stream.
-/
theorem session_unwraps {hashes : Hashes} (hmac : ∀ key data, 8 ≤ (hashes.hmacMd5 key data).length)
    (key signingKey : Bytes) (hkey : 1 ≤ key.length ∧ key.length ≤ 256)
    (decrypt encrypt : Rc4) (verifyKey signingKey' : Bytes) (texts : List Bytes)
    (hlength : texts.length < 2 ^ 32) :
    ∃ rc4, Rc4.new key = .ok rc4 ∧
      Session hashes 0 (.new rc4 decrypt signingKey verifyKey) (.new encrypt rc4 signingKey' signingKey)
        texts := by
  obtain ⟨rc4, hrc4⟩ := Rc4.new_of_length hkey
  refine ⟨rc4, hrc4, ?_⟩
  have hmirrored : Mirrored (.new rc4 decrypt signingKey verifyKey)
      (.new encrypt rc4 signingKey' signingKey) := ⟨rfl, rfl⟩
  apply session_of_mirrored hmac hmirrored (k := 0) rfl
  omega

namespace Session

def hashes : Hashes where
  md4 bytes := bytes
  md5 bytes := bytes
  hmacMd5 key data := List.replicate 16 (key.sum + data.sum)
  toUppercase s := s

end Session

theorem session_unwraps_two :
    ∃ rc4, Rc4.new [102, 111, 111] = .ok rc4 ∧
      Session Session.hashes 0 (.new rc4 rc4 [98, 97, 114] []) (.new rc4 rc4 [] [98, 97, 114])
        [[1, 2, 3], []] := by
  obtain ⟨rc4, hrc4⟩ := Rc4.new_of_length (show 1 ≤ [102, 111, 111].length ∧ _ from by decide)
  obtain ⟨rc4', hrc4', h⟩ := @session_unwraps Session.hashes (by simp [Session.hashes])
    [102, 111, 111] [98, 97, 114] (by decide) rc4 rc4 [] [] [[1, 2, 3], []] (by decide)
  rw [hrc4] at hrc4'
  cases hrc4'
  exact ⟨rc4, hrc4, h⟩

end NTLMv2SecurityInterface

end Rdp
