import Rdp.Core.X224.Impl
import Rdp.Model.Data.Equations
import Rdp.Nla.Cssp.Release

/-!
This module contains the negotiation of the security protocol: which answers of the server the
client accepts.
-/

namespace Rdp

namespace Tpkt

/--
The bytes that a read of the body of a packet takes from the stream. After a header that announces
no body this is whatever a single read finds.
-/
def content (length : Nat) (reads : List Arrival) : Except IoError Bytes × List Arrival :=
  if length = 4 then
    Arrival.read 1500 reads
  else
    Arrival.readExact (length - 4) reads

/--
The next packet of a stream is a slow path packet with this body.
-/
def Incoming (reads : List Arrival) (body : Bytes) : Prop :=
  ∃ flag hi lo reads₁ reads₂ reads₃,
    Arrival.readExact 2 reads = (.ok [3, flag], reads₁) ∧
    Arrival.readExact 2 reads₁ = (.ok [hi, lo], reads₂) ∧
    4 ≤ (le16 lo hi).toNat ∧
    content (le16 lo hi).toNat reads₂ = (.ok body, reads₃)

/--
The same, with what is left of the stream behind the packet.
-/
def Received (reads : List Arrival) (body : Bytes) (left : List Arrival) : Prop :=
  ∃ flag hi lo reads₁ reads₂,
    Arrival.readExact 2 reads = (.ok [3, flag], reads₁) ∧
    Arrival.readExact 2 reads₁ = (.ok [hi, lo], reads₂) ∧
    4 ≤ (le16 lo hi).toNat ∧
    content (le16 lo hi).toNat reads₂ = (.ok body, left)

theorem incoming_iff {reads : List Arrival} {body : Bytes} :
    Incoming reads body ↔ ∃ left, Received reads body left := by
  constructor
  . rintro ⟨flag, hi, lo, reads₁, reads₂, left, h⟩
    exact ⟨left, flag, hi, lo, reads₁, reads₂, h⟩
  . rintro ⟨left, flag, hi, lo, reads₁, reads₂, h⟩
    exact ⟨flag, hi, lo, reads₁, reads₂, left, h⟩

end Tpkt

theorem Arrival.length_readExact {n : Nat} {reads left : List Arrival} {bytes : Bytes}
    (h : readExact n reads = (.ok bytes, left)) : bytes.length = n := by
  induction reads generalizing n bytes with
  | nil =>
    cases n with
    | zero =>
      cases h
      rfl
    | succ n => cases h
  | cons a reads ih =>
    cases n with
    | zero =>
      simp only [readExact] at h
      cases h
      rfl
    | succ n =>
      cases a with
      | byte b =>
        simp only [readExact] at h
        cases hread : readExact n reads with
        | mk r left' =>
          rw [hread] at h
          cases r with
          | error e => cases h
          | ok taken =>
            cases h
            simp [ih hread]
      | cut => exact ih h
      | fail e =>
        cases e with
        | interrupted => exact ih h
        | unexpectedEof => cases h
        | other m => cases h

theorem Link.run_read_eq_ok {n : Nat} {link link' : Link} {bytes : Bytes}
    (h : (Link.read (n + 1)).run link = .ok bytes link') :
    ∃ left, Arrival.readExact (n + 1) link.reads = (.ok bytes, left) ∧ link' = link.withReads left := by
  rw [Link.run_read_pos] at h
  cases hread : Arrival.readExact (n + 1) link.reads with
  | mk r left =>
    rw [hread] at h
    cases r with
    | error e => cases h
    | ok taken =>
      cases h
      exact ⟨left, rfl, rfl⟩

namespace Tpkt.Client

theorem run_readBody_of_le {length : Nat} (h : 4 ≤ length) (link : Link) :
    (readBody length 4).run link =
      match content length link.reads with
      | (.ok bytes, left) => .ok bytes (link.withReads left)
      | (.error e, left) => .error (.error (.io e)) (link.withReads left) := by
  rw [readBody, if_neg (by omega), checkedSub_of_le h]
  change (Link.read (length - 4)).run link = _
  by_cases hfour : length = 4
  . subst hfour
    rw [content, if_pos rfl]
    exact Link.run_read_zero link
  . obtain ⟨n, hn⟩ : ∃ n, length - 4 = n + 1 := ⟨length - 5, by omega⟩
    rw [content, if_neg hfour, hn]
    exact Link.run_read_pos link n

theorem run_readBody_eq_ok {length : Nat} {link link' : Link} {body : Bytes}
    (h : (readBody length 4).run link = .ok body link') :
    4 ≤ length ∧ ∃ left, content length link.reads = (.ok body, left) ∧ link' = link.withReads left := by
  by_cases hlt : length < 4
  . rw [readBody, if_pos hlt] at h
    cases h
  . have hle : 4 ≤ length := by omega
    refine ⟨hle, ?_⟩
    rw [run_readBody_of_le hle] at h
    cases hread : content length link.reads with
    | mk r left =>
      rw [hread] at h
      cases r with
      | error e => cases h
      | ok taken =>
        cases h
        exact ⟨left, rfl, rfl⟩

theorem run_read_slowPath {flag hi lo : UInt8} {link : Link} {reads₁ reads₂ : List Arrival}
    (header : Arrival.readExact 2 link.reads = (.ok [3, flag], reads₁))
    (size : Arrival.readExact 2 reads₁ = (.ok [hi, lo], reads₂)) :
    read.run link =
      (do return .raw (← readBody (le16 lo hi).toNat 4) : Prog Error Link Payload).run
        ((link.withReads reads₁).withReads reads₂) := by
  rw [read, EStateM.run_bind, Link.run_read_pos, header]
  change (Link.read 2 >>= _ : Prog Error Link Payload).run (link.withReads reads₁) = _
  rw [EStateM.run_bind, Link.run_read_pos, Link.reads_withReads, size]
  rfl

theorem run_read_raw_iff {link link' : Link} {body : Bytes} :
    read.run link = .ok (.raw body) link' ↔
      ∃ left, Received link.reads body left ∧ link' = link.withReads left := by
  constructor
  . intro h
    obtain ⟨buffer, link₁, hread, hrest⟩ := Prog.run_bind_eq_ok h
    obtain ⟨left₁, hheader, rfl⟩ := Link.run_read_eq_ok hread
    match buffer, Arrival.length_readExact hheader with
    | [action, flag], _ =>
      obtain ⟨r, link₂, haction, hkind⟩ := Prog.run_bind_eq_ok hrest
      cases haction
      simp only at hkind
      split at hkind
      next hx224 =>
        cases hx224
        obtain ⟨_, _, hflag, hsize⟩ := Prog.run_bind_eq_ok hkind
        cases hflag
        obtain ⟨size, link₃, hread₂, hbody⟩ := Prog.run_bind_eq_ok hsize
        obtain ⟨left₂, hlength, rfl⟩ := Link.run_read_eq_ok hread₂
        rw [Link.reads_withReads] at hlength
        match size, Arrival.length_readExact hlength with
        | [hi, lo], _ =>
          obtain ⟨_, _, hlo, hraw⟩ := Prog.run_bind_eq_ok hbody
          cases hlo
          obtain ⟨got, link₄, hgot, hpure⟩ := Prog.run_bind_eq_ok hraw
          cases hpure
          obtain ⟨hle, left₃, hcontent, rfl⟩ := run_readBody_eq_ok hgot
          rw [Link.reads_withReads] at hcontent
          refine ⟨left₃, ⟨flag, hi, lo, left₁, left₂, hheader, hlength, hle, hcontent⟩, ?_⟩
          rw [Link.withReads_withReads, Link.withReads_withReads]
      next =>
        -- a fast path packet does not come out as a slow path one
        exfalso
        unfold readFastPath at hkind
        obtain ⟨_, _, _, hkind⟩ := Prog.run_bind_eq_ok hkind
        simp only at hkind
        split at hkind
        . obtain ⟨_, _, _, hkind⟩ := Prog.run_bind_eq_ok hkind
          obtain ⟨_, _, _, hkind⟩ := Prog.run_bind_eq_ok hkind
          obtain ⟨_, _, _, hkind⟩ := Prog.run_bind_eq_ok hkind
          cases hkind
        . obtain ⟨_, _, _, hkind⟩ := Prog.run_bind_eq_ok hkind
          cases hkind
  . rintro ⟨left, ⟨flag, hi, lo, left₁, left₂, hheader, hlength, hle, hcontent⟩, rfl⟩
    rw [run_read_slowPath hheader hlength, EStateM.run_bind, run_readBody_of_le hle,
      Link.reads_withReads, hcontent, Link.withReads_withReads]
    exact congrArg (EStateM.Result.ok (Payload.raw body)) (Link.withReads_withReads link left₂ left)

theorem read_raw_iff (link : Link) (body : Bytes) :
    (∃ link', read.run link = .ok (.raw body) link') ↔ Incoming link.reads body := by
  rw [incoming_iff]
  constructor
  . rintro ⟨link', h⟩
    obtain ⟨left, hreceived, _⟩ := run_read_raw_iff.mp h
    exact ⟨left, hreceived⟩
  . rintro ⟨left, hreceived⟩
    exact ⟨_, run_read_raw_iff.mpr ⟨left, hreceived, rfl⟩⟩

end Tpkt.Client

namespace X224

open Cursor

/--
The body of a connection confirm that selects a protocol: a header, the type of a response, a flag,
the length of the negotiation data and the number of the protocol.
-/
def Selects (body : Bytes) (p : UInt32) : Prop :=
  ∃ len code a b c d e flag v₀ v₁ v₂ v₃ rest,
    body = len :: code :: a :: b :: c :: d :: e :: 2 :: flag :: 8 :: 0 :: v₀ :: v₁ :: v₂ :: v₃ ::
      rest ∧ p = le32 v₀ v₁ v₂ v₃

def connectionPdu (len code : UInt8) (a b : UInt16) (c type flag : UInt8) (length : UInt16)
    (result : UInt32) : Message :=
  .component [
    ("header", .component [
      ("len", .leaf (.u8 len)),
      ("code", .leaf (.u8 code)),
      ("padding", .trame [.leaf (.u16 .le a), .leaf (.u16 .le b), .leaf (.u8 c)])
    ]),
    ("negotiation", .component [
      ("type", .leaf (.u8 type)),
      ("flag", .leaf (.u8 flag)),
      ("length", .check (.u16 .le length)),
      ("result", .leaf (.u32 .le result))
    ])
  ]

theorem reader_connectionPdu (len code : UInt8) (a b : UInt16) (c type flag : UInt8)
    (length : UInt16) (result : UInt32) :
    (connectionPdu len code a b c type flag length result).reader = (do
      let len ← readU8
      let code ← readU8
      let a ← readU16 .le
      let b ← readU16 .le
      let c ← readU8
      let type ← readU8
      let flag ← readU8
      let w ← readU16 .le
      expect (length = w)
      let result ← readU32 .le
      return connectionPdu len code a b c type flag w result) := by
  simp [connectionPdu]

theorem Protocols.toU32_of_tryFrom {v : UInt32} {p : Protocols} (h : Protocols.tryFrom v = .ok p) :
    p.toU32 = v := by
  unfold Protocols.tryFrom at h
  split at h
  next hv =>
    cases h
    exact hv.symm
  next =>
    split at h
    next hv =>
      cases h
      exact hv.symm
    next =>
      split at h
      next hv =>
        cases h
        exact hv.symm
      next =>
        split at h
        next hv =>
          cases h
          exact hv.symm
        next => cases h

namespace Client

theorem selectedProtocol_connectionPdu (len code : UInt8) (a b : UInt16) (c type flag : UInt8)
    (length : UInt16) (result : UInt32) :
    selectedProtocol (connectionPdu len code a b c type flag length result).visit = (do
      match ← NegotiationType.tryFrom type with
      | .typeRDPNegFailure =>
        .error (.error (.new .protocolNegFailure "Error during negotiation step"))
      | .typeRDPNegReq =>
        .error (.error (.new .invalidAutomata "Server reject security protocols"))
      | .typeRDPNegRsp => Protocols.tryFrom result) := rfl

theorem selectedProtocol_eq_ok_iff {len code : UInt8} {a b : UInt16} {c type flag : UInt8}
    {length : UInt16} {result : UInt32} {p : Protocols} :
    selectedProtocol (connectionPdu len code a b c type flag length result).visit = .ok p ↔
      type = 2 ∧ Protocols.tryFrom result = .ok p := by
  rw [selectedProtocol_connectionPdu]
  unfold NegotiationType.tryFrom
  constructor
  . intro h
    split at h
    next => cases h
    next =>
      split at h
      next htype => exact ⟨htype, h⟩
      next => split at h <;> cases h
  . rintro ⟨rfl, h⟩
    exact h

theorem reads_connectionPdu_iff {body : Bytes} {p : Protocols} :
    (∃ m rest, (connectionPdu 14 0xE0 0 0 0 1 0 8 0).reader.run body = .ok m rest ∧
      selectedProtocol m.visit = .ok p) ↔
      ∃ v, Selects body v ∧ Protocols.tryFrom v = .ok p := by
  rw [reader_connectionPdu]
  constructor
  . rintro ⟨m, rest, hrun, hp⟩
    simp only [Prog.run_bind_eq_ok_iff, run_readU8_eq_ok, run_readU16_eq_ok, run_readU32_eq_ok,
      run_expect_eq_ok] at hrun
    obtain ⟨len, _, rfl, code, _, rfl, _, _, ⟨a, b, rfl, rfl⟩, _, _, ⟨c, d, rfl, rfl⟩, e, _, rfl,
      type, _, rfl, flag, _, rfl, _, _, ⟨l₀, l₁, rfl, rfl⟩, _, _, ⟨hlength, rfl⟩, _, _,
      ⟨v₀, v₁, v₂, v₃, rfl, rfl⟩, hpure⟩ := hrun
    cases hpure
    obtain ⟨rfl, hp⟩ := selectedProtocol_eq_ok_iff.mp hp
    have hl := bytes_le16 l₀ l₁
    rw [← show 8 = le16 l₀ l₁ from of_decide_eq_true hlength] at hl
    cases hl
    exact ⟨_, ⟨len, code, a, b, c, d, e, flag, v₀, v₁, v₂, v₃, rest, rfl, rfl⟩, hp⟩
  . rintro ⟨v, ⟨len, code, a, b, c, d, e, flag, v₀, v₁, v₂, v₃, rest, rfl, rfl⟩, hp⟩
    exact ⟨_, rest, rfl, selectedProtocol_eq_ok_iff.mpr ⟨rfl, hp⟩⟩

theorem run_readConnectionConfirm_iff {link : Link} {p : Protocols} :
    (∃ link', readConnectionConfirm.run link = .ok p link') ↔
      ∃ body v, Tpkt.Incoming link.reads body ∧ Selects body v ∧ Protocols.tryFrom v = .ok p := by
  constructor
  . rintro ⟨link', h⟩
    obtain ⟨payload, link₁, hread, hrest⟩ := Prog.run_bind_eq_ok h
    cases payload with
    | fastPath flag payload => cases hrest
    | raw body =>
      obtain ⟨_, _, hpdu, hconfirm⟩ := Prog.run_bind_eq_ok hrest
      cases hpdu
      obtain ⟨⟨m, rest⟩, link₂, hon, hselect⟩ := Prog.run_bind_eq_ok hconfirm
      obtain ⟨hm, rfl⟩ := Prog.run_on_eq_ok hon
      obtain ⟨hp, _⟩ := Prog.run_lift_eq_ok hselect
      obtain ⟨v, hv, hp⟩ := reads_connectionPdu_iff.mp ⟨m, rest, hm, hp⟩
      exact ⟨body, v, (Tpkt.Client.read_raw_iff link body).mp ⟨_, hread⟩, hv, hp⟩
  . rintro ⟨body, v, hbody, hv, hp⟩
    obtain ⟨link', hread⟩ := (Tpkt.Client.read_raw_iff link body).mpr hbody
    obtain ⟨m, rest, hm, hp⟩ := reads_connectionPdu_iff.mpr ⟨v, hv, hp⟩
    refine ⟨link', ?_⟩
    rw [readConnectionConfirm, EStateM.run_bind, hread]
    change (Prog.on body (connectionPdu 14 0xE0 0 0 0 1 0 8 0).reader >>= _ :
      Prog Error Link Protocols).run link' = _
    rw [EStateM.run_bind, Prog.run_on, hm]
    simp only [hp, Prog.run_lift_ok]

def request (securityProtocols : UInt32) (mode : UInt8) : Bytes :=
  [3, 0, 0, 19, 14, 0xE0, 0, 0, 0, 0, 0, 1, mode, 8, 0] ++ Endian.le.encode32 securityProtocols

theorem write_request (securityProtocols : UInt32) (mode : UInt8) :
    (Message.trame [.component [
        ("action", .leaf (.u8 3)), ("flag", .leaf (.u8 0)), ("size", .leaf (.u16 .be 19))],
      connectionPdu 14 0xE0 0 0 0 1 mode 8 securityProtocols]).write =
      .ok (request securityProtocols mode) := rfl

theorem run_writeConnectionRequest (securityProtocols : UInt32) (mode : UInt8) (link : Link) :
    (writeConnectionRequest securityProtocols (some mode)).run link =
      (Link.write (.trame [.component [
          ("action", .leaf (.u8 3)), ("flag", .leaf (.u8 0)), ("size", .leaf (.u16 .be 19))],
        connectionPdu 14 0xE0 0 0 0 1 mode 8 securityProtocols])).run link := rfl

def Answers (link : Link) (v : UInt32) : Prop :=
  link.Writable ∧ ∃ body, Tpkt.Incoming link.reads body ∧ Selects body v

variable {σ : Type}

theorem answers_of_run_connectWith {startNla startSsl : Prog Error (Link × σ) Unit}
    {securityProtocols : UInt32} {restrictedAdminMode : Bool} {link : Link} {s : σ}
    {p : Protocols} {t : Link × σ}
    (h : (connectWith startNla startSsl securityProtocols restrictedAdminMode).run (link, s) =
      .ok p t) : Answers link p.toU32 ∧ p ≠ .protocolHybridEx := by
  obtain ⟨_, s₁, hwrite, hconfirm⟩ := Prog.run_bind_eq_ok h
  obtain ⟨hrequest, _⟩ := Cssp.run_onLink_eq_ok hwrite
  rw [run_writeConnectionRequest] at hrequest
  obtain ⟨hwritable, hreads⟩ := Link.writable_of_run_write (write_request _ _) hrequest
  obtain ⟨q, s₂, hread, hrest⟩ := Prog.run_bind_eq_ok hconfirm
  obtain ⟨hselect, _⟩ := Cssp.run_onLink_eq_ok hread
  obtain ⟨body, v, hbody, hv, hq⟩ := run_readConnectionConfirm_iff.mp ⟨_, hselect⟩
  rw [hreads] at hbody
  have hp : q = p ∧ p ≠ .protocolHybridEx := by
    cases q with
    | protocolHybrid =>
      obtain ⟨_, _, _, hpure⟩ := Prog.run_bind_eq_ok hrest
      cases hpure
      exact ⟨rfl, by decide⟩
    | protocolSSL =>
      obtain ⟨_, _, _, hpure⟩ := Prog.run_bind_eq_ok hrest
      cases hpure
      exact ⟨rfl, by decide⟩
    | protocolRDP =>
      cases hrest
      exact ⟨rfl, by decide⟩
    | protocolHybridEx => cases hrest
  obtain ⟨rfl, hne⟩ := hp
  rw [Protocols.toU32_of_tryFrom hq]
  exact ⟨⟨hwritable, body, hbody, hv⟩, hne⟩

theorem run_connectWith_of_answers {securityProtocols : UInt32} {restrictedAdminMode : Bool}
    {link : Link} {s : σ} {v : UInt32} {p : Protocols} (hp : Protocols.tryFrom v = .ok p)
    (hne : p ≠ .protocolHybridEx) (h : Answers link v) :
    ∃ t, (connectWith (pure ()) (pure ()) securityProtocols restrictedAdminMode).run (link, s) =
      .ok p t := by
  obtain ⟨hwritable, body, hbody, hv⟩ := h
  unfold connectWith
  obtain ⟨link₁, hrequest⟩ := Link.run_write_of_writable
    (write_request securityProtocols
      (if restrictedAdminMode then RequestMode.restrictedAdminModeRequired.toU8 else 0)) hwritable
  obtain ⟨_, hreads⟩ := Link.writable_of_run_write (write_request _ _) hrequest
  rw [← hreads] at hbody
  obtain ⟨link₂, hconfirm⟩ := run_readConnectionConfirm_iff.mpr ⟨body, v, hbody, hv, hp⟩
  rw [EStateM.run_bind, Cssp.onLink, Prog.run_zoom, run_writeConnectionRequest, hrequest]
  simp only [EStateM.run_bind, Cssp.onLink, Prog.run_zoom, hconfirm]
  cases p with
  | protocolHybrid | protocolSSL | protocolRDP => exact ⟨_, rfl⟩
  | protocolHybridEx => exact absurd rfl hne

/--
The protocol that is recorded was offered, whatever becomes of TLS and CSSP, if and only if the
server does not select one of the three protocols the client goes on with and that was not offered.
-/
theorem connect_offered_iff (securityProtocols : UInt32) (restrictedAdminMode : Bool) (link : Link)
    (s : σ) :
    (∀ (startNla startSsl : Prog Error (Link × σ) Unit) (p : Protocols) (t : Link × σ),
      (connectWith startNla startSsl securityProtocols restrictedAdminMode).run (link, s) = .ok p t →
        p.toU32 &&& securityProtocols ≠ 0) ↔
      ¬ ∃ v : UInt32, (v = 0 ∨ v = 1 ∨ v = 2) ∧ v &&& securityProtocols = 0 ∧ Answers link v := by
  constructor
  . rintro h ⟨v, hv, hmask, hanswers⟩
    obtain ⟨p, hp, hne⟩ : ∃ p, Protocols.tryFrom v = .ok p ∧ p ≠ .protocolHybridEx := by
      rcases hv with rfl | rfl | rfl
      . exact ⟨.protocolRDP, rfl, by decide⟩
      . exact ⟨.protocolSSL, rfl, by decide⟩
      . exact ⟨.protocolHybrid, rfl, by decide⟩
    obtain ⟨t, hrun⟩ := run_connectWith_of_answers (s := s) hp hne hanswers
    apply h _ _ p t hrun
    rw [Protocols.toU32_of_tryFrom hp]
    exact hmask
  . intro h startNla startSsl p t hrun hmask
    obtain ⟨hanswers, hne⟩ := answers_of_run_connectWith hrun
    apply h
    refine ⟨p.toU32, ?_, hmask, hanswers⟩
    cases p with
    | protocolRDP => exact .inl rfl
    | protocolSSL => exact .inr (.inl rfl)
    | protocolHybrid => exact .inr (.inr rfl)
    | protocolHybridEx => exact absurd rfl hne

namespace Downgrade

def tls : Tls := ⟨fun _ => .ok (), fun _ _ => .error (.error .sslHandshakeError)⟩

def der : Der := ⟨fun _ => [], fun t _ => .ok t, fun t _ => .ok t, fun _ => none⟩

def auth : AuthenticationProtocol Unit Unit where
  createNegotiateMessage := return []
  readChallengeMessage _ := return []
  buildSecurityInterface _ := .ok ()
  gss := ⟨fun bytes => return bytes, fun bytes => return bytes⟩
  getDomainName _ := []
  getUserName _ := []
  getPassword _ := []

def answer : Bytes := [3, 0, 0, 19, 14, 0xD0, 0, 0, 0, 0, 0, 2, 0, 8, 0, 0, 0, 0, 0]

def link (reads : List Arrival) (sent : List Bytes) : Link := ⟨.raw ⟨reads, [], sent.flatten⟩, sent⟩

end Downgrade

open Downgrade in
/--
The client offered TLS and CSSP, and it goes on over the raw link.
-/
theorem connect_downgraded :
    (connect tls der 3 true (some auth) false false).run (link (answer.map .byte) [], ()) =
      .ok .protocolRDP (link [] [request 3 0], ()) ∧
    Protocols.protocolRDP.toU32 &&& 3 = 0 := ⟨rfl, rfl⟩

end Client

end X224

end Rdp
