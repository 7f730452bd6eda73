import Rdp.Nla.Ntlm.Agreement
import Rdp.Nla.Ntlm.TargetInfo

/-!
This module contains the challenge messages that are answered, or rejected with an error, and the
ones for which the client aborts.
-/

namespace Rdp

open Nla Cursor

namespace Nla

/--
These bytes are inside the payload.
-/
def Inside (request : Bytes) (offset length : Nat) : Prop :=
  headerSize request ≤ offset ∧ offset + length ≤ request.length

instance (request : Bytes) (offset length : Nat) : Decidable (Inside request offset length) :=
  inferInstanceAs (Decidable (_ ∧ _))

/--
None of the offsets in an authenticate message exceeds 32 bits.
-/
def OffsetsFit (flags : UInt32) (lm nt domain user : Nat) : Prop :=
  ∀ length ∈ [lm, lm + nt, lm + nt + domain, lm + nt + domain + user],
    (payloadOffset flags).toNat + length % 2 ^ 32 < 2 ^ 32

instance (flags : UInt32) (lm nt domain user : Nat) : Decidable (OffsetsFit flags lm nt domain user) :=
  inferInstanceAs (Decidable (∀ _ ∈ _, _))

/--
The field is the one of the message if it is inside the payload, and is an error if it is not.
-/
def Fetches (request : Bytes) (message : Component) (length : UInt16) (offset : UInt32) : Prop :=
  (Inside request offset.toNat length.toNat →
    getPayloadField message length offset = .ok ((request.drop offset.toNat).take length.toNat)) ∧
  (¬ Inside request offset.toNat length.toNat →
    ∃ e, getPayloadField message length offset = .error (.error e))

end Nla

namespace Ntlm

/--
The names as they are sent to a server that has announced these flags.
-/
def talking (self : Ntlm) (flags : UInt32) : Ntlm := { self with
  isUnicode := flags &&& Negotiate.ntlmsspNegociateUnicode.toU32 = 1 }

/--
The target info of a challenge is inside the payload, and if it is a list of pairs, it has a time,
and the answer has offsets of 32 bits.
-/
def Answers (self : Ntlm) (request : Bytes) : Prop :=
  Inside request (uint32At request 44).toNat (uint16At request 40).toNat ∧
  ∀ pairs, AvPairs (targetInfo request) pairs →
    ∃ timestamp, pairs.reverse.lookup .msvAvTimestamp = some timestamp ∧
      OffsetsFit (uint32At request 20) 24 (36 + timestamp.length + (targetInfo request).length)
        (self.talking (uint32At request 20)).getDomainName.length
        (self.talking (uint32At request 20)).getUserName.length

end Ntlm

namespace Nla

section Header

theorem run_readVersionIf (flags : UInt32) (input : Bytes)
    (h : (if hasVersion flags then 8 else 0) ≤ input.length) :
    ∃ v rest, (readVersionIf flags).run input = .ok v rest := by
  unfold readVersionIf
  split at h
  next hversion =>
    rw [if_pos hversion]
    match input, h with
    | _ :: _ :: _ :: _ :: _ :: _ :: _ :: _ :: rest, _ => exact ⟨_, rest, rfl⟩
  next hversion =>
    rw [if_neg hversion]
    exact ⟨version, input, rfl⟩

theorem exists_front (input : Bytes) (n : Nat) (h : n ≤ input.length) :
    ∃ front rest, input = front ++ rest ∧ front.length = n ∧ rest.length + n = input.length :=
  ⟨input.take n, input.drop n, (List.take_append_drop n input).symm, List.length_take_of_le h, by
    rw [List.length_drop]
    omega⟩

theorem IsChallenge.run_reader {request : Bytes} (h : IsChallenge request) :
    ∃ result rest, (Message.component challengeMessage).reader.run request = .ok result rest := by
  have hsize : 48 + (if hasVersion (uint32At request 20) then 8 else 0) ≤ request.length := by
    have hcomplete := h.complete
    rw [headerSize] at hcomplete
    by_cases hversion : hasVersion (uint32At request 20)
    . rwa [if_pos hversion] at hcomplete ⊢
    . rwa [if_neg hversion] at hcomplete ⊢
  have hrequest : request = ntlmssp ++ (Endian.le.encode32 2 ++ request.drop 12) := by
    calc
      request = request.take 8 ++ ((request.drop 8).take 4 ++ (request.drop 8).drop 4) := by
        rw [List.take_append_drop, List.take_append_drop]
      _ = ntlmssp ++ (Endian.le.encode32 2 ++ request.drop 12) := by
        rw [h.signature, h.messageType, List.drop_drop]
        rfl
  have hdrop : (request.drop 12).length + 12 = request.length := by
    rw [List.length_drop]
    omega
  obtain ⟨a, s₁, h₁, hlength₁⟩ := exists_encode16 (request.drop 12) (by omega)
  obtain ⟨b, s₂, h₂, hlength₂⟩ := exists_encode16 s₁ (by omega)
  obtain ⟨c, s₃, h₃, hlength₃⟩ := exists_encode32 s₂ (by omega)
  obtain ⟨flags, s₄, h₄, hlength₄⟩ := exists_encode32 s₃ (by omega)
  obtain ⟨chal, s₅, h₅, hchal, hlength₅⟩ := exists_front s₄ 8 (by omega)
  obtain ⟨reserved, s₆, h₆, hreserved, hlength₆⟩ := exists_front s₅ 8 (by omega)
  obtain ⟨len, s₇, h₇, hlength₇⟩ := exists_encode16 s₆ (by omega)
  obtain ⟨max, s₈, h₈, hlength₈⟩ := exists_encode16 s₇ (by omega)
  obtain ⟨off, s₉, h₉, hlength₉⟩ := exists_encode32 s₈ (by omega)
  have hflags : uint32At request 20 = flags := by
    have hfront := @uint32At_append (ntlmssp ++ Endian.le.encode32 2 ++ Endian.le.encode16 a ++
      Endian.le.encode16 b ++ Endian.le.encode32 c) 20 rfl flags s₄
    rwa [← h₄, List.append_assoc, ← h₃, List.append_assoc, ← h₂, List.append_assoc, ← h₁,
      List.append_assoc, ← hrequest] at hfront
  rw [hflags] at hsize
  obtain ⟨v, payload, hv⟩ := run_readVersionIf flags s₉ (by omega)
  rw [reader_challengeMessage, hrequest]
  refine ⟨.component (challenge ntlmssp 2 a b c flags chal reserved len max off v payload), [], ?_⟩
  refine Prog.run_bind_eq_ok_iff.mpr ⟨_, _, run_readExact_append _ rfl, ?_⟩
  refine Prog.run_bind_eq_ok_iff.mpr ⟨(), _, rfl, ?_⟩
  refine Prog.run_bind_eq_ok_iff.mpr ⟨_, _, run_readU32_encode32 _ _ 2, ?_⟩
  refine Prog.run_bind_eq_ok_iff.mpr ⟨(), _, rfl, ?_⟩
  refine Prog.run_bind_eq_ok_iff.mpr ⟨a, s₁, run_readU16_iff_encode16.mpr h₁, ?_⟩
  refine Prog.run_bind_eq_ok_iff.mpr ⟨b, s₂, run_readU16_iff_encode16.mpr h₂, ?_⟩
  refine Prog.run_bind_eq_ok_iff.mpr ⟨c, s₃, run_readU32_iff_encode32.mpr h₃, ?_⟩
  refine Prog.run_bind_eq_ok_iff.mpr ⟨flags, s₄, run_readU32_iff_encode32.mpr h₄, ?_⟩
  refine Prog.run_bind_eq_ok_iff.mpr ⟨chal, s₅, run_readExact_eq_ok.mpr ⟨h₅, hchal⟩, ?_⟩
  refine Prog.run_bind_eq_ok_iff.mpr ⟨reserved, s₆, run_readExact_eq_ok.mpr ⟨h₆, hreserved⟩, ?_⟩
  refine Prog.run_bind_eq_ok_iff.mpr ⟨len, s₇, run_readU16_iff_encode16.mpr h₇, ?_⟩
  refine Prog.run_bind_eq_ok_iff.mpr ⟨max, s₈, run_readU16_iff_encode16.mpr h₈, ?_⟩
  refine Prog.run_bind_eq_ok_iff.mpr ⟨off, s₉, run_readU32_iff_encode32.mpr h₉, ?_⟩
  exact Prog.run_bind_eq_ok_iff.mpr ⟨v, payload, hv, rfl⟩

theorem returns_reader_challengeMessage :
    Prog.Returns (Message.component challengeMessage).reader := by
  have hversion : ∀ f ∈ version, Message.Total f.2 := by
    simp [version, Message.total_trame]
  have hoption (d : DataType) : ¬ (versionOption d).Aborts := by
    cases d with
    | u32 flags =>
      rw [versionOption_eq]
      simp
    | _ => simp [versionOption]
  apply (Message.total_component ?_).1
  simp [challengeMessage, Message.total_dynOption_leaf hoption, Message.total_component hversion]

end Header

section Payload

variable {request : Bytes} {message : Component} {head payload : Bytes}

theorem getPayloadField_cases
    (hpayload : field (Message.visitFields message) "Payload" = .ok (.slice payload))
    (hlength : (Message.component message).length = .ok (head.length + payload.length))
    (hrequest : request = head ++ payload) (hhead : head.length = headerSize request)
    (length : UInt16) (offset : UInt32) :
    (Inside request offset.toNat length.toNat → getPayloadField message length offset =
      .ok ((request.drop offset.toNat).take length.toNat)) ∧
    (¬ Inside request offset.toNat length.toNat → (getPayloadField message length offset).Aborts) := by
  have heq : getPayloadField message length offset = (do
      let start ← checkedSub offset.toNat head.length
      slice payload start (start + length.toNat)) := by
    unfold getPayloadField
    rw [hpayload, hlength]
    simp only [Except.ok_bind, castSlice]
    rw [checkedSub_of_le (Nat.le_add_left _ _), Nat.add_sub_cancel]
    rfl
  have htotal : request.length = head.length + payload.length := by
    rw [hrequest, List.length_append]
  unfold Inside
  rw [← hhead, heq]
  constructor
  . rintro ⟨hstart, hstop⟩
    rw [checkedSub_of_le hstart, Except.ok_bind, slice, if_pos (by omega), hrequest, List.drop_append,
      List.drop_eq_nil_of_le hstart, List.nil_append, List.drop_take, Nat.add_sub_cancel_left]
  . intro hout
    rw [Except.aborts_bind, Except.aborts_checkedSub]
    by_cases hstart : head.length ≤ offset.toNat
    . refine .inr ⟨_, checkedSub_of_le hstart, ?_⟩
      rw [slice, if_neg (by omega)]
      simp
    . exact .inl (Nat.lt_of_not_le hstart)

end Payload

section Answer

variable {lm nt domain user : Bytes} {flags : UInt32}

theorem bufferOffset_cases (offset : UInt32) (length : Nat) :
    (offset.toNat + length % 2 ^ 32 < 2 ^ 32 → ∃ v, bufferOffset offset length = .ok v) ∧
    (¬ offset.toNat + length % 2 ^ 32 < 2 ^ 32 → (bufferOffset offset length).Aborts) := by
  have hlength : (UInt32.ofNat length).toNat = length % 2 ^ 32 := UInt32.toNat_ofNat'
  unfold bufferOffset
  rw [hlength]
  constructor
  . intro h
    rw [checkedAdd_of_lt h]
    exact ⟨_, rfl⟩
  . intro h
    rw [Except.aborts_bind, Except.aborts_checkedAdd]
    exact .inl (Nat.le_of_not_lt h)

theorem authenticateMessage_of_fits (key : Bytes)
    (h : OffsetsFit flags lm.length nt.length domain.length user.length) :
    ∃ ntOffset domainOffset userOffset workstationOffset keyOffset,
      authenticateMessage lm nt domain user [] key flags =
        .ok (authenticateFields lm.length nt.length domain.length user.length 0 key.length
          (payloadOffset flags) ntOffset domainOffset userOffset workstationOffset keyOffset flags,
          [lm, nt, domain, user, [], key].flatten) := by
  simp only [OffsetsFit, List.forall_mem_cons] at h
  obtain ⟨hnt, hdomain, huser, hworkstation, _⟩ := h
  obtain ⟨ntOffset, hnt⟩ := (bufferOffset_cases _ _).1 hnt
  obtain ⟨domainOffset, hdomain⟩ := (bufferOffset_cases _ _).1 hdomain
  obtain ⟨userOffset, huser⟩ := (bufferOffset_cases _ _).1 huser
  obtain ⟨workstationOffset, hworkstation⟩ := (bufferOffset_cases _ _).1 hworkstation
  refine ⟨ntOffset, domainOffset, userOffset, workstationOffset, workstationOffset, ?_⟩
  unfold authenticateMessage
  simp only [if_hasVersion, List.length_nil, Nat.add_zero]
  rw [hnt, Except.ok_bind, hdomain, Except.ok_bind, huser, Except.ok_bind, hworkstation, Except.ok_bind,
    Except.ok_bind]
  rfl

theorem aborts_authenticateMessage (key : Bytes)
    (h : ¬ OffsetsFit flags lm.length nt.length domain.length user.length) :
    (authenticateMessage lm nt domain user [] key flags).Aborts := by
  have hnext {α : Type} {length : Nat} {f : UInt32 → RdpResult α}
      (hf : (payloadOffset flags).toNat + length % 2 ^ 32 < 2 ^ 32 → ∀ v, (f v).Aborts) :
      (bufferOffset (payloadOffset flags) length >>= f).Aborts := by
    rw [Except.aborts_bind]
    by_cases hlength : (payloadOffset flags).toNat + length % 2 ^ 32 < 2 ^ 32
    . obtain ⟨v, hv⟩ := (bufferOffset_cases _ _).1 hlength
      exact .inr ⟨v, hv, hf hlength v⟩
    . exact .inl ((bufferOffset_cases _ _).2 hlength)
  unfold authenticateMessage
  simp only [if_hasVersion]
  refine hnext fun hnt ntOffset => ?_
  refine hnext fun hdomain domainOffset => ?_
  refine hnext fun huser userOffset => ?_
  refine hnext fun hworkstation workstationOffset => ?_
  refine absurd ?_ h
  simp only [OffsetsFit, List.forall_mem_cons]
  exact ⟨hnt, hdomain, huser, hworkstation, by simp⟩

end Answer

end Nla

namespace Ntlm

section Total

variable {hashes : Hashes} {request : Bytes} {s : Ntlm × Rng}

theorem readChallenge_of_not_isChallenge (h : ¬ IsChallenge request) :
    ∃ e, readChallenge request = .error (.error e) := by
  have hreturns := returns_reader_challengeMessage request
  unfold readChallenge
  rcases Prog.cases_of_not_aborts hreturns with ⟨result, rest, hrun⟩ | ⟨e, rest, hrun⟩
  . obtain ⟨_, _, _, _, _, _, _, _, _, _, _, _, _, _, _, hchallenge, _⟩ :=
      run_reader_challengeMessage hrun
    exact absurd hchallenge h
  . rw [hrun]
    exact ⟨e, rfl⟩

theorem aborts_readChallenge_of_not_inside (h : IsChallenge request)
    (hout : ¬ Inside request (uint32At request 44).toNat (uint16At request 40).toNat) :
    (readChallenge request).Aborts := by
  obtain ⟨result, rest, hrun⟩ := h.run_reader
  obtain ⟨sig, type, a, b, d, flags, chal, reserved, len, max, off, v, payload, head, rfl, _, hrequest,
    hhead, rfl, rfl, rfl, rfl, hlength⟩ := run_reader_challengeMessage hrun
  have hfield := (getPayloadField_cases rfl hlength hrequest hhead (uint16At request 40)
    (uint32At request 44)).2 hout
  unfold readChallenge
  rw [hrun]
  change Except.Aborts (getPayloadField _ _ _ >>= _)
  rw [Except.aborts_bind]
  exact .inl hfield

theorem readChallenge_of_inside (h : IsChallenge request)
    (hin : Inside request (uint32At request 44).toNat (uint16At request 40).toNat) :
    readChallenge request = (do
      let info ← readTargetInfo (targetInfo request)
      match info.lookup .msvAvTimestamp with
      | some timestamp =>
        return ⟨serverChallenge request, targetInfo request, timestamp, uint32At request 20⟩
      | none => .error (.panic "no timestamp available")) := by
  obtain ⟨result, rest, hrun⟩ := h.run_reader
  obtain ⟨sig, type, a, b, d, flags, chal, reserved, len, max, off, v, payload, head, rfl, _, hrequest,
    hhead, rfl, rfl, rfl, rfl, hlength⟩ := run_reader_challengeMessage hrun
  have hfield := (getPayloadField_cases rfl hlength hrequest hhead (uint16At request 40)
    (uint32At request 44)).1 hin
  unfold readChallenge
  rw [hrun]
  change (getPayloadField _ _ _ >>= _) = _
  rw [hfield]
  rfl

theorem aborts_readChallengeMessage_of_ok (hmac : ∀ key data, (hashes.hmacMd5 key data).length = 16)
    {negotiateMessage : Bytes} (hnegotiate : s.1.negotiateMessage = some negotiateMessage) {c : Challenge}
    (hc : readChallenge request = .ok c) :
    (readChallengeMessage hashes request).Aborts s ↔
      ¬ OffsetsFit c.flags 24 (36 + c.timestamp.length + c.targetName.length)
        (s.1.talking c.flags).getDomainName.length (s.1.talking c.flags).getUserName.length := by
  have hclient : ((List.range 8).map s.2).length = 8 := by simp
  have hlm := length_computeResponseV2_lm hmac s.1.responseKeyNt s.1.responseKeyLm c.serverChallenge
    ((List.range 8).map s.2) c.timestamp c.targetName
  obtain ⟨temp, htemp, _, hnt, hbase⟩ := @computeResponseV2_nt hashes s.1.responseKeyNt s.1.responseKeyLm
    c.serverChallenge ((List.range 8).map s.2) c.timestamp c.targetName
  rw [readChallengeMessage, hc, Prog.lift_ok, pure_bind,
    Prog.aborts_bind_of_run (show (random 8).run s = .ok _ _ from rfl), Prog.aborts_get_bind]
  dsimp only
  generalize computeResponseV2 hashes s.1.responseKeyNt s.1.responseKeyLm c.serverChallenge
    ((List.range 8).map s.2) c.timestamp c.targetName = response at *
  have hntlength : response.ntChallengeResponse.length = 36 + c.timestamp.length + c.targetName.length := by
    rw [hnt, List.length_append, hmac, htemp, hclient]
    omega
  have hlmlength : response.lmChallengeResponse.length = 24 := by rw [hlm, hclient]
  have hkey : response.sessionBaseKey.length = 16 := by rw [hbase, hmac]
  obtain ⟨rc4, hrc4⟩ := Rc4.new_of_length (show 1 ≤ response.sessionBaseKey.length ∧ _ by omega)
  rw [Prog.aborts_bind_of_run (show (random 16).run _ = .ok _ _ from rfl),
    Prog.aborts_bind_of_run (show (modifySelf _).run _ = .ok () _ from rfl), rc4k, kxKeyV2, hrc4,
    Except.ok_bind, Prog.aborts_bind_of_run (show (Prog.lift (pure _)).run _ = .ok _ _ from rfl),
    Prog.aborts_bind_of_run (show (modifySelf _).run _ = .ok () _ from rfl), Prog.aborts_get_bind]
  by_cases hfits : OffsetsFit c.flags 24 (36 + c.timestamp.length + c.targetName.length)
      (s.1.talking c.flags).getDomainName.length (s.1.talking c.flags).getUserName.length
  . refine iff_of_false ?_ (not_not.mpr hfits)
    rw [← hlmlength, ← hntlength] at hfits
    obtain ⟨_, _, _, _, _, hmessage⟩ := authenticateMessage_of_fits
      (rc4.process ((List.range 16).map fun i => s.2 (8 + i))).1 hfits
    intro h
    rcases Prog.aborts_lift_bind.mp h with h | ⟨message, hmessage', h⟩
    . exact Except.not_aborts_ok _ (hmessage ▸ h)
    . cases hmessage.symm.trans hmessage'
      rw [toVec_eq_ok_iff.mpr (write_authenticateFields _ _ _ _ _ _ _ _ _ _ _ _ _), Prog.lift_ok, pure_bind,
        toVec_triple, Prog.lift_ok, pure_bind, hnegotiate, unwrapOption, Prog.lift_ok, pure_bind,
        toVec_fields_triple (write_authenticateFields _ _ _ _ _ _ _ _ _ _ _ _ _)] at h
      exact Prog.not_aborts_pure _ _ h
  . refine iff_of_true ?_ hfits
    rw [← hlmlength, ← hntlength] at hfits
    rw [Prog.aborts_lift_bind]
    exact .inl (aborts_authenticateMessage _ hfits)

theorem aborts_readChallengeMessage_iff (hmac : ∀ key data, (hashes.hmacMd5 key data).length = 16)
    {negotiateMessage : Bytes} (hnegotiate : s.1.negotiateMessage = some negotiateMessage) :
    ¬ (readChallengeMessage hashes request).Aborts s ↔ (IsChallenge request → s.1.Answers request) := by
  have habort : (readChallenge request).Aborts → (readChallengeMessage hashes request).Aborts s := by
    intro h
    exact Prog.aborts_lift_bind.mpr (.inl h)
  by_cases hchallenge : IsChallenge request
  . simp only [hchallenge, true_implies]
    by_cases hin : Inside request (uint32At request 44).toNat (uint16At request 40).toNat
    . have hread := readChallenge_of_inside hchallenge hin
      rcases Except.cases_of_not_aborts (not_aborts_readTargetInfo (targetInfo request)) with
        ⟨info, hinfo⟩ | ⟨e, hinfo⟩
      . obtain ⟨pairs, hpairs, rfl⟩ := readTargetInfo_eq_ok.mp hinfo
        have hunique : ∀ pairs', AvPairs (targetInfo request) pairs' → pairs' = pairs := by
          intro pairs' hpairs'
          have hinfo' := readTargetInfo_eq_ok.mpr ⟨pairs', hpairs', rfl⟩
          exact List.reverse_injective (Except.ok.inj (hinfo'.symm.trans hinfo))
        rw [hinfo, Except.ok_bind] at hread
        cases htime : pairs.reverse.lookup .msvAvTimestamp with
        | none =>
          rw [htime] at hread
          have hpanic : (readChallenge request).Aborts := by
            rw [hread]
            simp
          refine iff_of_false (fun h => h (habort hpanic)) ?_
          rintro ⟨_, h⟩
          obtain ⟨timestamp, htimestamp, _⟩ := h pairs hpairs
          rw [htime] at htimestamp
          cases htimestamp
        | some timestamp =>
          rw [htime] at hread
          rw [aborts_readChallengeMessage_of_ok hmac hnegotiate hread, not_not]
          constructor
          . intro hfits
            refine ⟨hin, fun pairs' hpairs' => ⟨timestamp, ?_, hfits⟩⟩
            rw [hunique pairs' hpairs', htime]
          . rintro ⟨_, h⟩
            obtain ⟨timestamp', htimestamp, hfits⟩ := h pairs hpairs
            rw [htime] at htimestamp
            cases htimestamp
            exact hfits
      . -- a target info that is not a list of pairs is an error
        rw [hinfo] at hread
        have herror : ¬ (readChallengeMessage hashes request).Aborts s := by
          rintro h
          rcases Prog.aborts_lift_bind.mp h with h | ⟨c, hc, _⟩
          . rw [hread] at h
            exact (Except.aborts_error _).mp h (Fault.isError_error e)
          . cases hread.symm.trans hc
        refine iff_of_true herror ⟨hin, fun pairs hpairs => ?_⟩
        cases (readTargetInfo_eq_ok.mpr ⟨pairs, hpairs, rfl⟩).symm.trans hinfo
    . exact iff_of_false (fun h => h (habort (aborts_readChallenge_of_not_inside hchallenge hin)))
        fun h => hin h.1
  . obtain ⟨e, he⟩ := readChallenge_of_not_isChallenge hchallenge
    refine iff_of_true (fun h => ?_) fun h => absurd h hchallenge
    rcases Prog.aborts_lift_bind.mp h with h | ⟨c, hc, _⟩
    . rw [he] at h
      exact (Except.aborts_error _).mp h (Fault.isError_error e)
    . cases he.symm.trans hc

theorem run_createNegotiateMessage_negotiate {s s' : Ntlm × Rng} {negotiateMessage : Bytes}
    (h : createNegotiateMessage.run s = .ok negotiateMessage s') :
    s'.1.negotiateMessage = some negotiateMessage ∧ ∀ request, s'.1.Answers request ↔ s.1.Answers request := by
  cases run_createNegotiateMessage h
  exact ⟨rfl, fun request => Iff.rfl⟩

/--
A challenge is answered or rejected with an error exactly when its target info, if the message has
one, is inside its payload and contains a time; and a field of the message is fetched or rejected
with an error exactly when it is inside its payload.
-/
theorem challenge_total_iff (self : Ntlm) (rng : Rng) {s : Ntlm × Rng} {negotiateMessage : Bytes}
    (hmac : ∀ key data, (hashes.hmacMd5 key data).length = 16)
    (hnegotiate : createNegotiateMessage.run (self, rng) = .ok negotiateMessage s) (request : Bytes) :
    (¬ (readChallengeMessage hashes request).Aborts s ↔ (IsChallenge request → self.Answers request)) ∧
    ∀ message rest,
      (Message.component challengeMessage).reader.run request = .ok (.component message) rest →
        ∀ length offset, Fetches request message length offset ↔
          Inside request offset.toNat length.toNat := by
  obtain ⟨hsome, hanswers⟩ := run_createNegotiateMessage_negotiate hnegotiate
  refine ⟨?_, ?_⟩
  . rw [aborts_readChallengeMessage_iff hmac hsome, hanswers]
  . intro message rest hrun length offset
    obtain ⟨_, _, _, _, _, _, _, _, _, _, _, _, payload, head, hmessage, _, hrequest, hhead, _, _, _, _,
      hlength⟩ := run_reader_challengeMessage hrun
    cases hmessage
    obtain ⟨hin, hout⟩ := getPayloadField_cases rfl hlength hrequest hhead length offset
    constructor
    . intro h
      by_contra hnot
      obtain ⟨e, he⟩ := h.2 hnot
      rw [he] at hout
      exact (Except.aborts_error _).mp (hout hnot) (Fault.isError_error e)
    . intro h
      exact ⟨hin, absurd h⟩

end Total

namespace Answers

def request : Bytes :=
  ntlmssp ++ [2, 0, 0, 0, 0, 0, 0, 0, 56, 0, 0, 0, 1, 0, 0, 2, 1, 2, 3, 4, 5, 6, 7, 8,
    0, 0, 0, 0, 0, 0, 0, 0, 16, 0, 16, 0, 0, 0, 0, 0, 6, 1, 177, 29, 0, 0, 0, 15,
    7, 0, 8, 0, 1, 2, 3, 4, 5, 6, 7, 8, 0, 0, 0, 0]

def user : Ntlm := .new Agrees.sumHashes "domain" "user" "foo"

def rng : Rng := fun i => .ofNat i

end Answers

theorem exists_createNegotiateMessage (s : Ntlm × Rng) :
    ∃ negotiateMessage s', createNegotiateMessage.run s = .ok negotiateMessage s' :=
  ⟨_, _, rfl⟩

theorem answers_request : Answers.user.Answers Agrees.request := by
  refine ⟨by decide, fun pairs hpairs => ?_⟩
  have hinfo : readTargetInfo (targetInfo Agrees.request) =
      .ok [(.msvAvTimestamp, [1, 2, 3, 4, 5, 6, 7, 8])] := by decide
  have heq := readTargetInfo_eq_ok.mpr ⟨pairs, hpairs, rfl⟩
  rw [← Except.ok.inj (hinfo.symm.trans heq)]
  exact ⟨_, rfl, by decide⟩

theorem challenge_total_user : ∃ negotiateMessage s,
    createNegotiateMessage.run (Answers.user, Answers.rng) = .ok negotiateMessage s ∧
      ¬ (readChallengeMessage Agrees.sumHashes Agrees.request).Aborts s := by
  obtain ⟨negotiateMessage, s, hnegotiate⟩ := exists_createNegotiateMessage (Answers.user, Answers.rng)
  refine ⟨negotiateMessage, s, hnegotiate, ?_⟩
  have htotal := @challenge_total_iff Agrees.sumHashes Answers.user Answers.rng _ _
    (fun _ _ => List.length_replicate) hnegotiate Agrees.request
  exact htotal.1.mpr fun _ => answers_request

theorem not_challenge_total_header : ¬ ∀ negotiateMessage s,
    createNegotiateMessage.run (Answers.user, Answers.rng) = .ok negotiateMessage s → ∀ request,
      ¬ (readChallengeMessage Agrees.sumHashes request).Aborts s := by
  intro h
  obtain ⟨negotiateMessage, s, hnegotiate⟩ := exists_createNegotiateMessage (Answers.user, Answers.rng)
  have hnot := h negotiateMessage s hnegotiate Answers.request
  rw [aborts_readChallengeMessage_iff (fun _ _ => List.length_replicate)
    (run_createNegotiateMessage_negotiate hnegotiate).1] at hnot
  have hin := (hnot ⟨by decide, by decide, by decide⟩).1
  revert hin
  decide

end Ntlm

end Rdp
