import Rdp.Nla.Ntlm.Layout

/-!
This module contains what a server recovers from the authenticate message.
-/

namespace Rdp

open Nla Cursor

namespace Nla

def serverChallenge (request : Bytes) : Bytes := (request.drop 24).take 8

def targetInfo (request : Bytes) : Bytes := announced request 40

def challenge (sig : Bytes) (type : UInt32) (targetNameLen targetNameLenMax : UInt16) (targetNameBufferOffset flags : UInt32)
    (serverChallenge reserved : Bytes) (targetInfoLen targetInfoMaxLen : UInt16)
    (targetInfoBufferOffset : UInt32) (version : Component) (payload : Bytes) : Component := [
  ("Signature", .check (.bytes sig)),
  ("MessageType", .check (.u32 .le type)),
  ("TargetNameLen", .leaf (.u16 .le targetNameLen)),
  ("TargetNameLenMax", .leaf (.u16 .le targetNameLenMax)),
  ("TargetNameBufferOffset", .leaf (.u32 .le targetNameBufferOffset)),
  ("NegotiateFlags", .dynOption (.leaf (.u32 .le flags)) versionOption),
  ("ServerChallenge", .leaf (.bytes serverChallenge)),
  ("Reserved", .leaf (.bytes reserved)),
  ("TargetInfoLen", .leaf (.u16 .le targetInfoLen)),
  ("TargetInfoMaxLen", .leaf (.u16 .le targetInfoMaxLen)),
  ("TargetInfoBufferOffset", .leaf (.u32 .le targetInfoBufferOffset)),
  ("Version", .component version),
  ("Payload", .leaf (.bytes payload))
]

def readVersion : Reader Component := do
  let major ← readU8
  let minor ← readU8
  let build ← readU16 .le
  let reserved ← readU16 .le
  let reserved' ← readU8
  let revision ← readU8
  return [
    ("ProductMajorVersion", .leaf (.u8 major)),
    ("ProductMinorVersion", .leaf (.u8 minor)),
    ("ProductBuild", .leaf (.u16 .le build)),
    ("Reserved", .trame [.leaf (.u16 .le reserved), .leaf (.u8 reserved')]),
    ("NTLMRevisionCurrent", .leaf (.u8 revision))
  ]

def readVersionIf (flags : UInt32) : Reader Component :=
  if hasVersion flags then
    readVersion
  else
    return version

theorem reader_challengeMessage :
    (Message.component challengeMessage).reader = (do
      let sig ← readExact 8
      expect (ntlmssp = sig)
      let type ← readU32 .le
      expect (2 = type)
      let targetNameLen ← readU16 .le
      let targetNameLenMax ← readU16 .le
      let targetNameBufferOffset ← readU32 .le
      let flags ← readU32 .le
      let serverChallenge ← readExact 8
      let reserved ← readExact 8
      let targetInfoLen ← readU16 .le
      let targetInfoMaxLen ← readU16 .le
      let targetInfoBufferOffset ← readU32 .le
      let v ← readVersionIf flags
      let payload ← readToEnd
      return .component (challenge sig type targetNameLen targetNameLenMax targetNameBufferOffset
        flags serverChallenge reserved targetInfoLen targetInfoMaxLen targetInfoBufferOffset v
        payload)) := by
  simp [challengeMessage, challenge, ntlmssp, List.replicate, Message.visit, Leaf.visit,
    versionOption_eq]
  -- the fields up to the flags are the same on both sides
  repeat refine bind_congr fun _ => ?_
  rename_i flags
  by_cases h : hasVersion flags
  . simp [h, version, readVersion, readVersionIf]
  . simp [h, readVersionIf]

theorem run_readVersion_eq_ok {v : Component} {input rest : Bytes}
    (h : readVersion.run input = .ok v rest) :
    ∃ bytes, input = bytes ++ rest ∧ bytes.length = 8 ∧ Message.lengthFields [] v = .ok 8 := by
  obtain ⟨major, s₁, hmajor, h₁⟩ := Prog.run_bind_eq_ok h
  obtain ⟨minor, s₂, hminor, h₂⟩ := Prog.run_bind_eq_ok h₁
  obtain ⟨build, s₃, hbuild, h₃⟩ := Prog.run_bind_eq_ok h₂
  obtain ⟨reserved, s₄, hreserved, h₄⟩ := Prog.run_bind_eq_ok h₃
  obtain ⟨reserved', s₅, hreserved', h₅⟩ := Prog.run_bind_eq_ok h₄
  obtain ⟨revision, s₆, hrevision, hpure⟩ := Prog.run_bind_eq_ok h₅
  cases hpure
  cases run_readU8_eq_ok.mp hmajor
  cases run_readU8_eq_ok.mp hminor
  obtain ⟨b₀, b₁, rfl, _⟩ := run_readU16_eq_ok.mp hbuild
  obtain ⟨r₀, r₁, rfl, _⟩ := run_readU16_eq_ok.mp hreserved
  cases run_readU8_eq_ok.mp hreserved'
  cases run_readU8_eq_ok.mp hrevision
  exact ⟨[major, minor, b₀, b₁, r₀, r₁, reserved', revision], rfl, rfl, rfl⟩

theorem run_readVersionIf_eq_ok {flags : UInt32} {v : Component} {input rest : Bytes}
    (h : (readVersionIf flags).run input = .ok v rest) :
    ∃ bytes, input = bytes ++ rest ∧ bytes.length = (if hasVersion flags then 8 else 0) ∧
      (hasVersion flags → Message.lengthFields [] v = .ok 8) := by
  unfold readVersionIf at h
  split at h
  next hversion =>
    obtain ⟨bytes, hinput, hbytes, hlength⟩ := run_readVersion_eq_ok h
    exact ⟨bytes, hinput, by rw [hbytes, if_pos hversion], fun _ => hlength⟩
  next hversion =>
    cases h
    exact ⟨[], rfl, by rw [if_neg hversion]; rfl, fun hv => absurd hv hversion⟩

theorem length_challenge (type : UInt32) (a b : UInt16) (c flags : UInt32) {chal reserved : Bytes}
    (hchal : chal.length = 8) (hreserved : reserved.length = 8) (len max : UInt16) (off : UInt32)
    {v : Component} (hv : hasVersion flags → Message.lengthFields [] v = .ok 8) (payload : Bytes) :
    (Message.component (challenge ntlmssp type a b c flags chal reserved len max off v payload)).length =
      .ok ((if hasVersion flags then 56 else 48) + payload.length) := by
  by_cases h : hasVersion flags
  . simp [challenge, Leaf.length, ntlmssp, hchal, hreserved, Message.visit, Leaf.visit, versionOption_eq,
      h, hv h]
    omega
  . simp [challenge, Leaf.length, ntlmssp, hchal, hreserved, Message.visit, Leaf.visit, versionOption_eq,
      h]
    omega

def headerSize (request : Bytes) : Nat := if hasVersion (uint32At request 20) then 56 else 48

/--
A message with the two constants of a challenge message, and with all of its fields.
-/
structure IsChallenge (request : Bytes) : Prop where
  signature : request.take 8 = ntlmssp
  messageType : (request.drop 8).take 4 = [2, 0, 0, 0]
  complete : headerSize request ≤ request.length

theorem run_reader_challengeMessage {request rest : Bytes} {result : Message}
    (h : (Message.component challengeMessage).reader.run request = .ok result rest) :
    ∃ sig type a b c flags chal reserved len max off v payload head,
      result = .component (challenge sig type a b c flags chal reserved len max off v payload) ∧
      IsChallenge request ∧ request = head ++ payload ∧ head.length = headerSize request ∧
      flags = uint32At request 20 ∧ chal = serverChallenge request ∧ len = uint16At request 40 ∧
      off = uint32At request 44 ∧
      (Message.component (challenge sig type a b c flags chal reserved len max off v payload)).length =
        .ok (head.length + payload.length) := by
  rw [reader_challengeMessage] at h
  obtain ⟨sig, s₁, hsig, h₁⟩ := Prog.run_bind_eq_ok h
  obtain ⟨_, s₂, hsig', h₂⟩ := Prog.run_bind_eq_ok h₁
  obtain ⟨type, s₃, htype, h₃⟩ := Prog.run_bind_eq_ok h₂
  obtain ⟨_, s₄, htype', h₄⟩ := Prog.run_bind_eq_ok h₃
  obtain ⟨a, s₅, ha, h₅⟩ := Prog.run_bind_eq_ok h₄
  obtain ⟨b, s₆, hb, h₆⟩ := Prog.run_bind_eq_ok h₅
  obtain ⟨c, s₇, hc, h₇⟩ := Prog.run_bind_eq_ok h₆
  obtain ⟨flags, s₈, hflags, h₈⟩ := Prog.run_bind_eq_ok h₇
  obtain ⟨chal, s₉, hchal, h₉⟩ := Prog.run_bind_eq_ok h₈
  obtain ⟨reserved, s₁₀, hreserved, h₁₀⟩ := Prog.run_bind_eq_ok h₉
  obtain ⟨len, s₁₁, hlen, h₁₁⟩ := Prog.run_bind_eq_ok h₁₀
  obtain ⟨max, s₁₂, hmax, h₁₂⟩ := Prog.run_bind_eq_ok h₁₁
  obtain ⟨off, s₁₃, hoff, h₁₃⟩ := Prog.run_bind_eq_ok h₁₂
  obtain ⟨v, s₁₄, hv, h₁₄⟩ := Prog.run_bind_eq_ok h₁₃
  obtain ⟨payload, s₁₅, hpayload, hpure⟩ := Prog.run_bind_eq_ok h₁₄
  cases hpure
  obtain ⟨rfl, hsiglength⟩ := run_readExact_eq_ok.mp hsig
  obtain ⟨hsigeq, rfl⟩ := run_expect_eq_ok.mp hsig'
  obtain ⟨htypeeq, rfl⟩ := run_expect_eq_ok.mp htype'
  cases of_decide_eq_true htypeeq
  cases run_readU32_iff_encode32.mp htype
  obtain ⟨a₀, a₁, rfl, rfl⟩ := run_readU16_eq_ok.mp ha
  obtain ⟨b₀, b₁, rfl, rfl⟩ := run_readU16_eq_ok.mp hb
  obtain ⟨c₀, c₁, c₂, c₃, rfl, rfl⟩ := run_readU32_eq_ok.mp hc
  obtain ⟨f₀, f₁, f₂, f₃, rfl, hf⟩ := run_readU32_eq_ok.mp hflags
  obtain ⟨rfl, hchal8⟩ := run_readExact_eq_ok.mp hchal
  obtain ⟨rfl, hreserved8⟩ := run_readExact_eq_ok.mp hreserved
  obtain ⟨l₀, l₁, rfl, rfl⟩ := run_readU16_eq_ok.mp hlen
  obtain ⟨m₀, m₁, rfl, rfl⟩ := run_readU16_eq_ok.mp hmax
  obtain ⟨o₀, o₁, o₂, o₃, rfl, rfl⟩ := run_readU32_eq_ok.mp hoff
  obtain ⟨rfl, rfl⟩ := run_readToEnd_eq_ok.mp hpayload
  obtain ⟨bytes, rfl, hbytes, hlength⟩ := run_readVersionIf_eq_ok hv
  cases of_decide_eq_true hsigeq
  match chal, hchal8, reserved, hreserved8 with
  | [q₀, q₁, q₂, q₃, q₄, q₅, q₆, q₇], hchal8, [r₀, r₁, r₂, r₃, r₄, r₅, r₆, r₇], hreserved8 =>
    let head := ntlmssp ++ [2, 0, 0, 0, a₀, a₁, b₀, b₁, c₀, c₁, c₂, c₃, f₀, f₁, f₂, f₃,
      q₀, q₁, q₂, q₃, q₄, q₅, q₆, q₇, r₀, r₁, r₂, r₃, r₄, r₅, r₆, r₇, l₀, l₁, m₀, m₁,
      o₀, o₁, o₂, o₃] ++ bytes
    let request := head ++ s₁₄
    have hhead : head.length = headerSize request := by
      have hflags' : flags = uint32At request 20 := hf
      simp only [head, List.length_append, hbytes, headerSize, ← hflags']
      split <;> rfl
    refine ⟨_, _, _, _, _, _, _, _, _, _, _, _, s₁₄, head, rfl, ⟨rfl, rfl, ?_⟩, ?_, hhead, hf, rfl, rfl,
      rfl, ?_⟩
    . have hrequest : request.length = head.length + s₁₄.length := List.length_append
      have hle : headerSize request ≤ request.length := by omega
      simp only [request, head, List.append_assoc] at hle
      exact hle
    . simp only [head, List.append_assoc]
      rfl
    . rw [length_challenge _ _ _ _ _ hchal8 hreserved8 _ _ _ hlength]
      congr 2
      simp only [head, List.length_append, hbytes]
      split <;> rfl

theorem slice_eq_ok {data target : Bytes} {start stop : Nat} (h : slice data start stop = .ok target) :
    target = (data.take stop).drop start := by
  unfold slice at h
  split at h <;> cases h
  rfl

theorem getPayloadField_eq_ok {message : Component} {head payload target : Bytes} {len : UInt16}
    {off : UInt32}
    (hpayload : field (Message.visitFields message) "Payload" = .ok (.slice payload))
    (hlength : (Message.component message).length = .ok (head.length + payload.length))
    (h : getPayloadField message len off = .ok target) :
    target = ((head ++ payload).drop off.toNat).take len.toNat := by
  unfold getPayloadField at h
  rw [hpayload, hlength] at h
  simp only [Except.ok_bind, castSlice] at h
  obtain ⟨offset, hoffset, h₁⟩ := Except.bind_eq_ok h
  obtain ⟨start, hstart, h₂⟩ := Except.bind_eq_ok h₁
  obtain ⟨_, rfl⟩ := checkedSub_eq_ok.mp hoffset
  obtain ⟨hle, rfl⟩ := checkedSub_eq_ok.mp hstart
  rw [Nat.add_sub_cancel] at hle h₂
  rw [slice_eq_ok h₂, List.drop_append, List.drop_eq_nil_of_le hle, List.nil_append, List.drop_take,
    Nat.add_sub_cancel_left]

theorem readChallenge_eq_ok {request : Bytes} {c : Ntlm.Challenge}
    (h : Ntlm.readChallenge request = .ok c) :
    c.serverChallenge = serverChallenge request ∧ c.targetName = targetInfo request := by
  unfold Ntlm.readChallenge at h
  cases hread : (Message.component challengeMessage).reader.run request with
  | error e rest =>
    rw [hread] at h
    cases h
  | ok result rest =>
    obtain ⟨sig, type, a, b, d, flags, chal, reserved, len, max, off, v, payload, head, rfl, _, hrequest,
      _, _, rfl, rfl, rfl, hlength⟩ := run_reader_challengeMessage hread
    rw [hread] at h
    change (getPayloadField (challenge sig type a b d flags (serverChallenge request) reserved
      (uint16At request 40) max (uint32At request 44) v payload) (uint16At request 40)
      (uint32At request 44) >>= _) = _ at h
    obtain ⟨name, hname, h₁⟩ := Except.bind_eq_ok h
    obtain ⟨pairs, _, h₆⟩ := Except.bind_eq_ok h₁
    have htarget := getPayloadField_eq_ok rfl hlength hname
    split at h₆
    next => 
      cases h₆
      exact ⟨rfl, by rw [htarget, ← hrequest]; rfl⟩
    next => cases h₆

theorem toVec_triple (a b c : Bytes) :
    toVec (.trame [.leaf (.bytes a), .leaf (.bytes b), .leaf (.bytes c)]) = .ok (a ++ (b ++ c)) := by
  rw [toVec_eq_ok_iff]
  simp [Leaf.write]

theorem toVec_fields_triple {fields : Component} {a : Bytes} (h : (Message.component fields).write = .ok a)
    (b c : Bytes) :
    toVec (.trame [.component fields, .leaf (.bytes b), .leaf (.bytes c)]) = .ok (a ++ (b ++ c)) := by
  rw [toVec_eq_ok_iff, Message.write_trame, Message.writeTrame_cons, h]
  simp [Leaf.write]

end Nla

namespace Ntlm

variable {hashes : Hashes}

/--
What a server that knows the response key and the two messages it has exchanged recovers from the
authenticate message.
-/
structure Agrees (hashes : Hashes) (responseKeyNt negotiateMessage request message
    exportedSessionKey : Bytes) : Prop where
  proof_length : 16 ≤ (ntChallengeResponse message).length
  proof_eq : (ntChallengeResponse message).take 16 =
    hashes.hmacMd5 responseKeyNt
      (serverChallenge request ++ (ntChallengeResponse message).drop 16)
  targetInfo_eq : ∃ front, (ntChallengeResponse message).drop 16 = front ++ targetInfo request
  rc4k_eq : rc4k (hashes.hmacMd5 responseKeyNt ((ntChallengeResponse message).take 16))
    (encryptedRandomSessionKey message) = .ok exportedSessionKey
  mic_eq : micOf message =
    hashes.hmacMd5 exportedSessionKey (negotiateMessage ++ request ++ withoutMic message)

theorem run_createNegotiateMessage {s s' : Ntlm × Rng} {negotiateMessage : Bytes}
    (h : createNegotiateMessage.run s = .ok negotiateMessage s') :
    s' = ({ s.1 with negotiateMessage := some negotiateMessage }, s.2) := by
  obtain ⟨buffer, s₁, hbuffer, h₁⟩ := Prog.run_bind_eq_ok h
  obtain ⟨_, rfl⟩ := Prog.run_lift_eq_ok hbuffer
  cases h₁
  rfl

theorem rc4k_rc4k {key plaintext output : Bytes} (h : rc4k key plaintext = .ok output) :
    rc4k key output = .ok plaintext ∧ output.length = plaintext.length := by
  unfold rc4k at h ⊢
  obtain ⟨rc4, hrc4, h₁⟩ := Except.bind_eq_ok h
  cases h₁
  rw [hrc4]
  refine ⟨?_, rc4.length_process plaintext⟩
  simp only [Except.ok_bind, rc4.process_process]
  rfl

theorem computeResponseV2_nt (responseKeyNt responseKeyLm challenge client time name : Bytes) :
    ∃ temp, temp.length = 12 + time.length + client.length + name.length ∧
      (∃ front, temp = front ++ name) ∧
      let proof := hashes.hmacMd5 responseKeyNt (challenge ++ temp)
      let r := computeResponseV2 hashes responseKeyNt responseKeyLm challenge client time name
      r.ntChallengeResponse = proof ++ temp ∧ r.sessionBaseKey = hashes.hmacMd5 responseKeyNt proof := by
  -- The two responses and the session base key are computed from one text, which ends with the name of
  -- the server.
  refine ⟨[[1], [1], z 6, time, client, z 4, name].flatten, ?_, ?_, rfl, rfl⟩
  . simp [z]
    omega
  . exact ⟨[[1], [1], z 6, time, client, z 4].flatten, by simp⟩

theorem length_computeResponseV2_lm (hmac : ∀ key data, (hashes.hmacMd5 key data).length = 16)
    (responseKeyNt responseKeyLm challenge client time name : Bytes) :
    (computeResponseV2 hashes responseKeyNt responseKeyLm challenge client time
      name).lmChallengeResponse.length = 16 + client.length := by
  simp [computeResponseV2, hmac]

theorem length_random {n : Nat} {s t : Ntlm × Rng} {bytes : Bytes}
    (h : (random n).run s = .ok bytes t) : bytes.length = n := by
  cases h
  rw [List.length_map, List.length_range]

theorem agrees_of_parts (hmac : ∀ key data, (hashes.hmacMd5 key data).length = 16)
    {responseKeyNt responseKeyLm client exported domain user encrypted payload bytes tmp
      negotiateMessage request message : Bytes} {c : Challenge} {fields : Component}
    (hchallenge : readChallenge request = .ok c)
    (hlength : 36 + c.timestamp.length + c.targetName.length < 2 ^ 16)
    (hclient : client.length = 8) (hexported : exported.length = 16)
    (hdomain : domain.length < 2 ^ 16) (huser : user.length < 2 ^ 16)
    (hrc4k : rc4k (computeResponseV2 hashes responseKeyNt responseKeyLm c.serverChallenge client
      c.timestamp c.targetName).sessionBaseKey exported = .ok encrypted)
    (hfields : authenticateMessage
      (computeResponseV2 hashes responseKeyNt responseKeyLm c.serverChallenge client c.timestamp
        c.targetName).lmChallengeResponse
      (computeResponseV2 hashes responseKeyNt responseKeyLm c.serverChallenge client c.timestamp
        c.targetName).ntChallengeResponse domain user [] encrypted c.flags = .ok (fields, payload))
    (hbytes : toVec (.component fields) = .ok bytes)
    (htmp : toVec (.trame [.leaf (.bytes bytes), .leaf (.bytes (z 16)), .leaf (.bytes payload)]) =
      .ok tmp)
    (hfinal : toVec (.trame [.component fields,
      .leaf (.bytes (mic hashes exported negotiateMessage request tmp)), .leaf (.bytes payload)]) =
      .ok message) :
    Agrees hashes responseKeyNt negotiateMessage request message exported := by
  obtain ⟨hserver, hinfo⟩ := readChallenge_eq_ok hchallenge
  obtain ⟨temp, htemp, ⟨front, hfront⟩, hnt, hbase⟩ := @computeResponseV2_nt hashes
    responseKeyNt responseKeyLm c.serverChallenge client c.timestamp c.targetName
  have hlm := length_computeResponseV2_lm hmac responseKeyNt responseKeyLm c.serverChallenge client
    c.timestamp c.targetName
  generalize computeResponseV2 hashes responseKeyNt responseKeyLm c.serverChallenge client
    c.timestamp c.targetName = response at *
  obtain ⟨hdecrypt, hkeylength⟩ := rc4k_rc4k hrc4k
  have hproof : (hashes.hmacMd5 responseKeyNt (c.serverChallenge ++ temp)).length = 16 := hmac _ _
  have hntlength : response.ntChallengeResponse.length = 16 + temp.length := by
    rw [hnt, List.length_append, hproof]
  rw [authenticateMessage_eq _ _ (by simp only [List.length_nil]; omega)] at hfields
  cases hfields
  cases (toVec_eq_ok_iff.mp hbytes).symm.trans (write_authenticateFields _ _ _ _ _ _ _ _ _ _ _ _ _)
  rw [toVec_triple] at htmp
  rw [toVec_fields_triple (toVec_eq_ok_iff.mp hbytes)] at hfinal
  cases htmp
  have hmessage : Authenticate response.lmChallengeResponse response.ntChallengeResponse domain user []
      encrypted _ message c.flags := {
    signature_length := hmac _ _
    fields_lt := by simp only [List.length_nil]; omega
    message_eq := (Except.ok.inj hfinal).symm
  }
  have htake : (ntChallengeResponse message).take 16 =
      hashes.hmacMd5 responseKeyNt (c.serverChallenge ++ temp) := by
    rw [hmessage.announced_nt, hnt, List.take_left' hproof]
  have hdrop : (ntChallengeResponse message).drop 16 = temp := by
    rw [hmessage.announced_nt, hnt, List.drop_left' hproof]
  constructor
  . rw [hmessage.announced_nt]
    omega
  . rw [htake, hdrop, hserver]
  . exact ⟨front, by rw [hdrop, hfront, hinfo]⟩
  . rw [htake, hmessage.announced_key, ← hbase]
    exact hdecrypt
  . rw [hmessage.micOf_eq, hmessage.withoutMic_eq]
    rfl

theorem run_readChallengeMessage {s s' : Ntlm × Rng} {negotiateMessage request message : Bytes}
    (hmac : ∀ key data, (hashes.hmacMd5 key data).length = 16)
    (hnegotiate : s.1.negotiateMessage = some negotiateMessage)
    (hlengths : ∀ c, readChallenge request = .ok c →
      36 + c.timestamp.length + c.targetName.length < 2 ^ 16)
    (hdomain : s'.1.getDomainName.length < 2 ^ 16) (huser : s'.1.getUserName.length < 2 ^ 16)
    (h : (readChallengeMessage hashes request).run s = .ok message s') :
    ∃ exportedSessionKey, s'.1.exportedSessionKey = some exportedSessionKey ∧
      Agrees hashes s.1.responseKeyNt negotiateMessage request message exportedSessionKey := by
  obtain ⟨c, s₁, hc, h₁⟩ := Prog.run_bind_eq_ok h
  obtain ⟨hchallenge, rfl⟩ := Prog.run_lift_eq_ok hc
  obtain ⟨clientChallenge, s₂, hclient, h₂⟩ := Prog.run_bind_eq_ok h₁
  have hclient8 := length_random hclient
  cases hclient
  obtain ⟨_, _, hget, h₃⟩ := Prog.run_bind_eq_ok h₂
  cases hget
  obtain ⟨exportedSessionKey, s₄, hexported, h₄⟩ := Prog.run_bind_eq_ok h₃
  have hexported16 := length_random hexported
  cases hexported
  obtain ⟨_, _, hkey, h₅⟩ := Prog.run_bind_eq_ok h₄
  cases hkey
  obtain ⟨encrypted, _, hencrypted, h₆⟩ := Prog.run_bind_eq_ok h₅
  obtain ⟨hrc4k, rfl⟩ := Prog.run_lift_eq_ok hencrypted
  obtain ⟨_, _, hunicode, h₇⟩ := Prog.run_bind_eq_ok h₆
  cases hunicode
  obtain ⟨_, _, hget, h₈⟩ := Prog.run_bind_eq_ok h₇
  cases hget
  obtain ⟨⟨fields, payload⟩, _, hauthenticate, h₉⟩ := Prog.run_bind_eq_ok h₈
  obtain ⟨hfields, rfl⟩ := Prog.run_lift_eq_ok hauthenticate
  obtain ⟨bytes, _, hheader, h₁₀⟩ := Prog.run_bind_eq_ok h₉
  obtain ⟨hbytes, rfl⟩ := Prog.run_lift_eq_ok hheader
  obtain ⟨tmp, _, hcovered, h₁₁⟩ := Prog.run_bind_eq_ok h₁₀
  obtain ⟨htmp, rfl⟩ := Prog.run_lift_eq_ok hcovered
  obtain ⟨nego, _, hkept, h₁₂⟩ := Prog.run_bind_eq_ok h₁₁
  obtain ⟨hnego, rfl⟩ := Prog.run_lift_eq_ok hkept
  obtain ⟨hfinal, rfl⟩ := Prog.run_lift_eq_ok h₁₂
  refine ⟨_, rfl, ?_⟩
  simp only [Ntlm.unwrapOption, hnegotiate] at hnego
  cases hnego
  exact agrees_of_parts hmac hchallenge (hlengths c hchallenge) hclient8 hexported16 hdomain huser hrc4k
    hfields hbytes htmp hfinal

/--
The client and a server that knows the response key of the client agree on the session key: the
server finds the proof of the client over the target info, the encrypted session key and the
signature at the places that the message itself announces. The responses and the names have to fit
the two bytes of their lengths.
-/
theorem challenge_agrees (self : Ntlm) (rng : Rng) {s s' : Ntlm × Rng}
    {negotiateMessage request message : Bytes}
    (hmac : ∀ key data, (hashes.hmacMd5 key data).length = 16)
    (hnegotiate : createNegotiateMessage.run (self, rng) = .ok negotiateMessage s)
    (hchallenge : (readChallengeMessage hashes request).run s = .ok message s')
    (hresponse : ∀ c, readChallenge request = .ok c →
      36 + c.timestamp.length + c.targetName.length < 2 ^ 16)
    (hdomain : s'.1.getDomainName.length < 2 ^ 16) (huser : s'.1.getUserName.length < 2 ^ 16) :
    ∃ exportedSessionKey, s'.1.exportedSessionKey = some exportedSessionKey ∧
      Agrees hashes self.responseKeyNt negotiateMessage request message exportedSessionKey := by
  have hstate := run_createNegotiateMessage hnegotiate
  subst hstate
  exact run_readChallengeMessage hmac rfl hresponse hdomain huser hchallenge

namespace Agrees

def request : Bytes :=
  ntlmssp ++ [2, 0, 0, 0, 0, 0, 0, 0, 56, 0, 0, 0, 1, 0, 0, 2, 1, 2, 3, 4, 5, 6, 7, 8,
    0, 0, 0, 0, 0, 0, 0, 0, 16, 0, 16, 0, 56, 0, 0, 0, 6, 1, 177, 29, 0, 0, 0, 15,
    7, 0, 8, 0, 1, 2, 3, 4, 5, 6, 7, 8, 0, 0, 0, 0]

def sumHashes : Hashes where
  md4 bytes := bytes
  md5 bytes := bytes
  hmacMd5 key data := List.replicate 16 (key.sum + data.sum)
  toUppercase s := s

end Agrees

theorem challenge_agrees_user :
    ∃ nego s message s' key,
      createNegotiateMessage.run (.new Agrees.sumHashes "domain" "user" "foo", fun i => .ofNat i) =
        .ok nego s ∧
      (readChallengeMessage Agrees.sumHashes Agrees.request).run s = .ok message s' ∧
      s'.1.exportedSessionKey = some key ∧
      Agrees Agrees.sumHashes (Ntlm.new Agrees.sumHashes "domain" "user" "foo").responseKeyNt nego
        Agrees.request message key := by
  let self := Ntlm.new Agrees.sumHashes "domain" "user" "foo"
  have hruns : (match createNegotiateMessage.run (self, fun i => .ofNat i) with
      | .error _ _ => false
      | .ok _ s => match (readChallengeMessage Agrees.sumHashes Agrees.request).run s with
        | .error _ _ => false
        | .ok _ s' => decide (s'.1.getDomainName.length < 2 ^ 16 ∧ s'.1.getUserName.length < 2 ^ 16)) = true := by
    decide +kernel
  have hresponse : ∀ c, readChallenge Agrees.request = .ok c →
      36 + c.timestamp.length + c.targetName.length < 2 ^ 16 := by
    have hchallenge : (readChallenge Agrees.request).toOption.all
        fun c => decide (36 + c.timestamp.length + c.targetName.length < 2 ^ 16) := by
      decide +kernel
    intro c hc
    rw [hc] at hchallenge
    exact of_decide_eq_true hchallenge
  cases hnegotiate : createNegotiateMessage.run (self, fun i => .ofNat i) with
  | error e s => simp [hnegotiate] at hruns
  | ok nego s =>
    cases hmessage : (readChallengeMessage Agrees.sumHashes Agrees.request).run s with
    | error e s' => simp [hnegotiate, hmessage] at hruns
    | ok message s' =>
      simp only [hnegotiate, hmessage, decide_eq_true_eq] at hruns
      obtain ⟨key, hkey, hagrees⟩ := challenge_agrees self _ (by simp [Agrees.sumHashes]) hnegotiate hmessage
        hresponse hruns.1 hruns.2
      exact ⟨nego, s, message, s', key, rfl, hmessage, hkey, hagrees⟩

end Ntlm

end Rdp
