import Rdp.Core.Tpkt.Impl
import Rdp.Model.Link.Receive

/-!
This module contains the framing of the TPKT layer: the packets a peer can send, and what successive
calls of `read` make of a stream of them.
-/

namespace Rdp.Tpkt

/--
A packet with one of the three headers. A fast path packet starts with any byte that is not the
action of a slow path packet, and announces its length in seven or in fifteen bits.
-/
inductive Packet where
  | slowPath (flag : UInt8) (body : Bytes) (h : 4 + body.length < 2 ^ 16)
  | fastPathShort (action : UInt8) (body : Bytes) (haction : action ≠ 3) (h : 2 + body.length < 2 ^ 7)
  | fastPathLong (action : UInt8) (body : Bytes) (haction : action ≠ 3)
      (h : 3 + body.length < 2 ^ 15)

namespace Packet

def body (p : Packet) : Bytes :=
  match p with
  | .slowPath _ body _ | .fastPathShort _ body _ _ | .fastPathLong _ body _ _ => body

def header (p : Packet) : Bytes :=
  match p with
  | .slowPath flag body _ => 3 :: flag :: Endian.be.encode16 (.ofNat (4 + body.length))
  | .fastPathShort action body _ _ => [action, .ofNat (2 + body.length)]
  | .fastPathLong action body _ _ =>
    [action, .ofNat (2 ^ 7 + (3 + body.length) / 2 ^ 8), .ofNat (3 + body.length)]

def encode (p : Packet) : Bytes := p.header ++ p.body

/--
The kind of the packet and the two topmost bits of its first byte, around a given body.
-/
def payloadOf (p : Packet) (body : Bytes) : Payload :=
  match p with
  | .slowPath .. => .raw body
  | .fastPathShort action .. | .fastPathLong action .. =>
    .fastPath (.ofNat (action.toNat / 2 ^ 6)) body

def payload (p : Packet) : Payload := p.payloadOf p.body

theorem payloadOf_inj {p : Packet} {a b : Bytes} (h : p.payloadOf a = p.payloadOf b) : a = b := by
  cases p <;>
    cases h <;>
    rfl

theorem encode_ne_nil (p : Packet) : p.encode ≠ [] := by
  cases p <;> simp [encode, header]

end Packet

def encodeAll (packets : List Packet) : Bytes := (packets.map Packet.encode).flatten

inductive Undersized : Bytes → Prop where
  | slowPath (flag hi lo : UInt8) (h : 2 ^ 8 * hi.toNat + lo.toNat < 4) :
    Undersized [3, flag, hi, lo]
  | fastPathShort (action length : UInt8) (haction : action ≠ 3) (h : length.toNat < 2) :
    Undersized [action, length]
  | fastPathLong (action lo : UInt8) (haction : action ≠ 3) (h : lo.toNat < 3) :
    Undersized [action, 2 ^ 7, lo]

theorem secFlag_eq (action : UInt8) : (action >>> 6) &&& 0x3 = .ofNat (action.toNat / 2 ^ 6) := by
  revert action
  apply forall_uint8
  decide +kernel

theorem and_0x80_eq_zero_iff (length : UInt8) : length &&& 0x80 = 0 ↔ length.toNat < 2 ^ 7 := by
  revert length
  apply forall_uint8
  decide +kernel

theorem toNat_and_not_0x80 (hi : UInt8) : (hi &&& ~~~0x80).toNat = hi.toNat % 2 ^ 7 := by
  revert hi
  apply forall_uint8
  decide +kernel

theorem toNat_longLength (hi lo : UInt8) :
    ((hi &&& ~~~0x80).toUInt16 <<< 8 ||| lo.toUInt16).toNat =
      2 ^ 8 * (hi.toNat % 2 ^ 7) + lo.toNat := by
  have hlo := lo.toNat_lt
  have hhi : (hi &&& ~~~0x80).toNat <<< 8 < 2 ^ 16 := by
    rw [toNat_and_not_0x80, Nat.shiftLeft_eq]
    omega
  rw [UInt16.toNat_or, UInt16.toNat_shiftLeft]
  simp only [UInt8.toNat_toUInt16, UInt16.toNat_ofNat]
  rw [show 8 % 2 ^ 16 % 16 = 8 from rfl, Nat.mod_eq_of_lt hhi, ← Nat.shiftLeft_add_eq_or_of_lt hlo,
    Nat.shiftLeft_eq, toNat_and_not_0x80, Nat.mul_comm]

namespace Client

theorem run_readBody {length header n : Nat} (hlength : length = header + n) (link : Link) :
    (readBody length header).run link = (Link.read n).run link := by
  rw [readBody, if_neg (by omega), checkedSub_of_le (by omega)]
  rw [show length - header = n by omega]
  rfl

theorem run_readBody_of_lt {length header : Nat} (h : length < header) (link : Link) :
    (readBody length header).run link = .error (.error invalidSize) link := by
  rw [readBody, if_pos h]
  rfl

theorem run_on_readU8 (a : UInt8) (rest : Bytes) (link : Link) :
    (Prog.on (a :: rest) Cursor.readU8).run link = .ok (a, rest) link := rfl

theorem run_on_readU16 (a b : UInt8) (link : Link) :
    (Prog.on [a, b] (Cursor.readU16 .be)).run link = .ok (le16 b a, []) link := rfl

theorem run_read_header {a b : UInt8} {more : Bytes} {rest : List Arrival} {link : Link}
    (h : link.Brings (a :: b :: more) rest) :
    ∃ link', link'.Brings more rest ∧
      read.run link = (if a = 3 then readX224 [b] else readFastPath a [b]).run link' := by
  obtain ⟨link', hread, hleft⟩ := Link.run_read_of_brings (List.cons_ne_nil a [b]) h
  refine ⟨link', hleft, ?_⟩
  change (Link.read 2).run link = _ at hread
  rw [read, EStateM.run_bind, hread]
  simp only [EStateM.run_bind, run_on_readU8]
  rfl

theorem run_readX224 {flag hi lo : UInt8} {more : Bytes} {rest : List Arrival} {link : Link}
    (h : link.Brings (hi :: lo :: more) rest) :
    ∃ link', link'.Brings more rest ∧
      (readX224 [flag]).run link = (do
        let body ← readBody (2 ^ 8 * hi.toNat + lo.toNat) 4
        return .raw body : Prog Error Link Payload).run link' := by
  obtain ⟨link', hread, hleft⟩ := Link.run_read_of_brings (List.cons_ne_nil hi [lo]) h
  refine ⟨link', hleft, ?_⟩
  have hsize : (le16 lo hi).toNat = 2 ^ 8 * hi.toNat + lo.toNat := by
    have := hi.toNat_lt
    have := lo.toNat_lt
    simp only [le16, UInt16.toNat_ofNat']
    omega
  change (Link.read 2).run link = _ at hread
  rw [readX224, EStateM.run_bind, run_on_readU8]
  simp only [EStateM.run_bind, hread, run_on_readU16, hsize]

theorem run_readFastPath_short {action length : UInt8} (hlength : length.toNat < 2 ^ 7) (link : Link) :
    (readFastPath action [length]).run link = (do
      let body ← readBody length.toNat 2
      return .fastPath (.ofNat (action.toNat / 2 ^ 6)) body : Prog Error Link Payload).run link := by
  rw [readFastPath, EStateM.run_bind, run_on_readU8, secFlag_eq]
  simp only [ne_eq, (and_0x80_eq_zero_iff length).mpr hlength, not_true, if_false]

theorem run_readFastPath_long {action hi lo : UInt8} (hhi : 2 ^ 7 ≤ hi.toNat) {more : Bytes}
    {rest : List Arrival} {link : Link} (h : link.Brings (lo :: more) rest) :
    ∃ link', link'.Brings more rest ∧
      (readFastPath action [hi]).run link = (do
        let body ← readBody (2 ^ 8 * (hi.toNat % 2 ^ 7) + lo.toNat) 3
        return .fastPath (.ofNat (action.toNat / 2 ^ 6)) body : Prog Error Link Payload).run link' := by
  obtain ⟨link', hread, hleft⟩ := Link.run_read_of_brings (List.cons_ne_nil lo []) h
  refine ⟨link', hleft, ?_⟩
  have hne : hi &&& 0x80 ≠ 0 := by
    rw [ne_eq, and_0x80_eq_zero_iff]
    omega
  rw [readFastPath, EStateM.run_bind, run_on_readU8, secFlag_eq]
  simp only [hne, ne_eq, not_false_eq_true, if_true]
  change (Link.read 1).run link = _ at hread
  rw [Prog.run_bind_of_ok hread]
  simp only [EStateM.run_bind, run_on_readU8, toNat_longLength]

theorem run_read_packet {p : Packet} {more : Bytes} {rest : List Arrival} {link : Link}
    (h : link.Brings (p.encode ++ more) rest) :
    ∃ link', link'.Brings (p.body ++ more) rest ∧
      read.run link = (do
        let body ← Link.read p.body.length
        return p.payloadOf body : Prog Error Link Payload).run link' := by
  rw [Packet.encode, List.append_assoc] at h
  match p with
  | .slowPath flag body hbody =>
    obtain ⟨link₁, h₁, hrun⟩ := run_read_header h
    obtain ⟨link₂, h₂, hrun₂⟩ := run_readX224 h₁
    have hsize : 2 ^ 8 * (UInt8.ofNat ((UInt16.ofNat (4 + body.length)).toNat / 256)).toNat +
        (UInt8.ofNat (UInt16.ofNat (4 + body.length)).toNat).toNat = 4 + body.length := by
      simp only [UInt8.toNat_ofNat', UInt16.toNat_ofNat']
      omega
    refine ⟨link₂, h₂, ?_⟩
    rw [hrun, if_pos rfl, hrun₂, EStateM.run_bind, run_readBody hsize]
    rfl
  | .fastPathShort action body haction hbody =>
    obtain ⟨link₁, h₁, hrun⟩ := run_read_header h
    have hlength : (UInt8.ofNat (2 + body.length)).toNat = 2 + body.length := by
      rw [UInt8.toNat_ofNat']
      omega
    refine ⟨link₁, h₁, ?_⟩
    rw [hrun, if_neg haction, run_readFastPath_short (by omega), EStateM.run_bind, run_readBody hlength]
    rfl
  | .fastPathLong action body haction hbody =>
    obtain ⟨link₁, h₁, hrun⟩ := run_read_header h
    have hhi : 2 ^ 7 ≤ (UInt8.ofNat (2 ^ 7 + (3 + body.length) / 2 ^ 8)).toNat := by
      rw [UInt8.toNat_ofNat']
      omega
    obtain ⟨link₂, h₂, hrun₂⟩ := run_readFastPath_long hhi h₁
    have hlength : 2 ^ 8 * ((UInt8.ofNat (2 ^ 7 + (3 + body.length) / 2 ^ 8)).toNat % 2 ^ 7) +
        (UInt8.ofNat (3 + body.length)).toNat = 3 + body.length := by
      simp only [UInt8.toNat_ofNat']
      omega
    refine ⟨link₂, h₂, ?_⟩
    rw [hrun, if_neg haction, hrun₂, EStateM.run_bind, run_readBody hlength]
    rfl

theorem run_read_of_body {p : Packet} (hbody : p.body ≠ []) {more : Bytes} {rest : List Arrival} {link : Link}
    (h : link.Brings (p.encode ++ more) rest) :
    ∃ link', read.run link = .ok p.payload link' ∧ link'.Brings more rest := by
  obtain ⟨link₁, h₁, hrun⟩ := run_read_packet h
  obtain ⟨link₂, hread, h₂⟩ := Link.run_read_of_brings hbody h₁
  refine ⟨link₂, ?_, h₂⟩
  rw [hrun, EStateM.run_bind, hread]
  rfl

theorem run_read_empty_iff {p : Packet} (hbody : p.body = []) {more : Bytes} {rest : List Arrival} {link : Link}
    (h : link.Brings (p.encode ++ more) rest) :
    (∃ link', read.run link = .ok p.payload link' ∧ link'.Brings more rest) ↔
      more = [] ∧ Arrival.Delivers [] rest := by
  -- An empty body is only read as such at the end of the stream: the call reads whatever follows.
  obtain ⟨link₁, h₁, hrun⟩ := run_read_packet h
  rw [hbody, List.nil_append] at h₁
  rw [hbody] at hrun
  rw [← Link.run_read_zero_iff h₁, hrun]
  constructor
  . rintro ⟨link₂, hread, h₂⟩
    obtain ⟨body, link₃, hzero, hpayload⟩ := Prog.run_bind_eq_ok hread
    injection hpayload with hpayload hlink
    rw [Packet.payload, hbody] at hpayload
    rw [Packet.payloadOf_inj hpayload, hlink] at hzero
    exact ⟨link₂, hzero, h₂⟩
  . rintro ⟨link₂, hread, h₂⟩
    refine ⟨link₂, ?_, h₂⟩
    change (Link.read 0 >>= _ : Prog Error Link Payload).run link₁ = _
    rw [EStateM.run_bind, hread, Packet.payload, hbody]
    rfl

theorem run_read_undersized {header : Bytes} (hheader : Undersized header) {rest : List Arrival} {link : Link}
    (h : link.Brings header rest) :
    ∃ link', read.run link = .error (.error invalidSize) link' := by
  cases hheader with
  | slowPath flag hi lo hsize =>
    obtain ⟨link₁, h₁, hrun⟩ := run_read_header h
    obtain ⟨link₂, _, hrun₂⟩ := run_readX224 h₁
    refine ⟨link₂, ?_⟩
    rw [hrun, if_pos rfl, hrun₂, EStateM.run_bind, run_readBody_of_lt hsize]
  | fastPathShort action length haction hsize =>
    obtain ⟨link₁, _, hrun⟩ := run_read_header h
    refine ⟨link₁, ?_⟩
    rw [hrun, if_neg haction, run_readFastPath_short (by omega), EStateM.run_bind,
      run_readBody_of_lt hsize]
  | fastPathLong action lo haction hsize =>
    obtain ⟨link₁, h₁, hrun⟩ := run_read_header h
    have hhi : 2 ^ 7 ≤ (2 ^ 7 : UInt8).toNat := Nat.le_refl _
    obtain ⟨link₂, _, hrun₂⟩ := run_readFastPath_long hhi h₁
    refine ⟨link₂, ?_⟩
    have hlength : 2 ^ 8 * ((2 ^ 7 : UInt8).toNat % 2 ^ 7) + lo.toNat < 3 := by
      rw [show (2 ^ 7 : UInt8).toNat % 2 ^ 7 = 0 from rfl]
      omega
    rw [hrun, if_neg haction, hrun₂, EStateM.run_bind, run_readBody_of_lt hlength]

section Faults

open Prog

theorem faults_readBody (length header : Nat) :
    Faults (fun e => ∃ err, e = .error err) (readBody length header) := by
  unfold readBody
  split
  . exact Faults.throw ⟨_, rfl⟩
  next h =>
    rw [checkedSub_of_le (by omega)]
    exact Faults.bind (Faults.lift (by simp)) fun _ => Link.faults_read _

theorem faults_readX224 (buffer : Bytes) :
    Faults (fun e => ∃ err, e = .error err) (readX224 buffer) := by
  unfold readX224
  apply Faults.bind (Faults.on Cursor.faults_readU8 buffer)
  intro _
  apply Faults.bind (Link.faults_read 2)
  intro buffer
  apply Faults.bind (Faults.on (Cursor.faults_readU16 .be) buffer)
  intro ⟨size, _⟩
  apply Faults.bind (faults_readBody size.toNat 4)
  intro body
  apply Faults.pure

theorem faults_readFastPath (action : UInt8) (buffer : Bytes) :
    Faults (fun e => ∃ err, e = .error err) (readFastPath action buffer) := by
  unfold readFastPath
  apply Faults.bind (Faults.on Cursor.faults_readU8 buffer)
  intro ⟨shortLength, _⟩
  simp only
  split
  . apply Faults.bind (Link.faults_read 1)
    intro buffer
    apply Faults.bind (Faults.on Cursor.faults_readU8 buffer)
    intro ⟨hiLength, _⟩
    apply Faults.bind (faults_readBody _ 3)
    intro body
    apply Faults.pure
  . apply Faults.bind (faults_readBody _ 2)
    intro body
    apply Faults.pure

theorem faults_read : Faults (fun e => ∃ err, e = .error err) read := by
  unfold read
  apply Faults.bind (Link.faults_read 2)
  intro buffer
  apply Faults.bind (Faults.on Cursor.faults_readU8 buffer)
  intro ⟨action, buffer⟩
  simp only
  split
  . apply faults_readX224
  . apply faults_readFastPath

end Faults

/--
Successive calls of `read` return these packets in this order, and each of them leaves exactly the
packets after it in the stream, and what follows them.
-/
def ReadsInOrder (packets : List Packet) (rest : List Arrival) (link : Link) : Prop :=
  match packets with
  | [] => True
  | p :: packets =>
    ∃ link', read.run link = .ok p.payload link' ∧ link'.Brings (encodeAll packets) rest ∧
      ReadsInOrder packets rest link'

/--
A packet with an empty body is the last one, and the stream ends behind it.
-/
def Bounded (packets : List Packet) (rest : List Arrival) : Prop :=
  ∀ front p back, packets = front ++ p :: back → p.body = [] → back = [] ∧ Arrival.Delivers [] rest

theorem bounded_cons {p : Packet} {packets : List Packet} {rest : List Arrival} :
    Bounded (p :: packets) rest ↔
      (p.body = [] → packets = [] ∧ Arrival.Delivers [] rest) ∧ Bounded packets rest := by
  constructor
  . intro h
    refine ⟨h [] p packets rfl, ?_⟩
    intro front q back hpackets
    exact h (p :: front) q back (by rw [hpackets, List.cons_append])
  . rintro ⟨hfirst, hrest⟩ front q back hpackets
    cases front with
    | nil =>
      cases hpackets
      exact hfirst
    | cons r front =>
      cases hpackets
      exact hrest front q back rfl

theorem encodeAll_eq_nil {packets : List Packet} : encodeAll packets = [] ↔ packets = [] := by
  cases packets with
  | nil => simp [encodeAll]
  | cons p packets => simp [encodeAll, p.encode_ne_nil]

theorem readsInOrder_iff {packets : List Packet} {rest : List Arrival} {link : Link}
    (h : link.Brings (encodeAll packets) rest) : ReadsInOrder packets rest link ↔ Bounded packets rest := by
  induction packets generalizing link with
  | nil => simp [ReadsInOrder, Bounded]
  | cons p packets ih =>
    rw [bounded_cons]
    have h' : link.Brings (p.encode ++ encodeAll packets) rest := h
    by_cases hbody : p.body = []
    . -- nothing is left behind an empty body, so the rest of the list is empty
      have hempty := run_read_empty_iff hbody h'
      rw [encodeAll_eq_nil] at hempty
      constructor
      . rintro ⟨link', hread, hbrings, hpackets⟩
        have hlast := hempty.mp ⟨link', hread, hbrings⟩
        exact ⟨fun _ => hlast, (ih hbrings).mp hpackets⟩
      . rintro ⟨hlast, hpackets⟩
        obtain ⟨link', hread, hbrings⟩ := hempty.mpr (hlast hbody)
        exact ⟨link', hread, hbrings, (ih hbrings).mpr hpackets⟩
    . obtain ⟨link', hread, hbrings⟩ := run_read_of_body hbody h'
      constructor
      . rintro ⟨link₁, hread₁, _, hpackets⟩
        cases hread.symm.trans hread₁
        exact ⟨fun hnil => absurd hnil hbody, (ih hbrings).mp hpackets⟩
      . rintro ⟨_, hpackets⟩
        exact ⟨link', hread, hbrings, (ih hbrings).mpr hpackets⟩

/--
However the transport cuts a sequence of packets and whatever it does behind them, they are read one
after the other if and only if no packet with an empty body is followed by anything but the end of the
stream. A header that announces less than itself is an error, and no call aborts.
-/
theorem read_framing {packets : List Packet} {rest : List Arrival} {link : Link}
    (h : link.Brings (encodeAll packets) rest) :
    (ReadsInOrder packets rest link ↔ Bounded packets rest) ∧
    (∀ (header : Bytes) (rest : List Arrival) (link : Link), Undersized header → link.Brings header rest →
      ∃ link', read.run link =
        .error (.error (.new .invalidSize "Invalid minimal size for TPKT")) link') ∧
    (∀ (link link' : Link) (e : Fault Error), read.run link = .error e link' →
      ∃ err, e = .error err) := by
  refine ⟨readsInOrder_iff h, ?_, ?_⟩
  . intro header rest link hheader h
    exact run_read_undersized hheader h
  . intro link link' e h
    exact faults_read link e link' h

namespace Framing

def link (bytes : Bytes) : Link := ⟨.raw ⟨bytes.flatMap fun b => [.byte b, .cut], [], []⟩, []⟩

theorem delivers_link (bytes : Bytes) : (link bytes).Delivers bytes := by
  induction bytes with
  | nil => rfl
  | cons b bytes ih => exact ⟨bytes, rfl, ih⟩

def update : Packet := .fastPathShort 0x40 [7] (by decide) (by decide)

def empty : Packet := .slowPath 0 [] (by decide)

end Framing

open Framing in
theorem read_framing_two :
    ReadsInOrder [update, empty] [] (link [0x40, 3, 7, 3, 0, 0, 4]) ∧
    ReadsInOrder [update] [.fail .interrupted]
      ⟨.raw ⟨[.byte 0x40, .byte 3, .byte 7, .fail .interrupted], [], []⟩, []⟩ ∧
    ∃ link', read.run (link [0x40, 1]) =
      .error (.error (.new .invalidSize "Invalid minimal size for TPKT")) link' := by
  have hdelivers : (link [0x40, 3, 7, 3, 0, 0, 4]).Brings (encodeAll [update, empty]) [] :=
    Arrival.brings_nil_iff.mpr (delivers_link _)
  refine ⟨?_, ?_, ?_⟩
  . apply (read_framing hdelivers).1.mpr
    simp only [bounded_cons, update, Packet.body]
    simp [Bounded, Arrival.Delivers]
  . have hbrings : Link.Brings (encodeAll [update]) [.fail .interrupted]
        ⟨.raw ⟨[.byte 0x40, .byte 3, .byte 7, .fail .interrupted], [], []⟩, []⟩ :=
      ⟨[.byte 0x40, .byte 3, .byte 7], [], _, rfl, rfl, ⟨_, rfl, _, rfl, _, rfl, rfl⟩, rfl⟩
    apply (read_framing hbrings).1.mpr
    simp only [bounded_cons, update, Packet.body]
    simp [Bounded]
  . apply (read_framing hdelivers).2.1 [0x40, 1] []
    . exact .fastPathShort 0x40 1 (by decide) (by decide)
    . exact Arrival.brings_nil_iff.mpr (delivers_link [0x40, 1])

open Framing in
/--
The body of an empty packet is filled with the packet after it.
-/
theorem read_swallows :
    (link [3, 0, 0, 4, 0x40, 3, 7]).Brings (encodeAll [empty, update]) [] ∧
    ¬ ReadsInOrder [empty, update] [] (link [3, 0, 0, 4, 0x40, 3, 7]) ∧
    ∃ link', read.run (link [3, 0, 0, 4, 0x40, 3, 7]) = .ok (.raw [0x40]) link' := by
  have hread : ∃ link', read.run (link [3, 0, 0, 4, 0x40, 3, 7]) = .ok (.raw [0x40]) link' :=
    ⟨_, rfl⟩
  refine ⟨?_, ?_, hread⟩
  . exact Arrival.brings_nil_iff.mpr (delivers_link _)
  . rintro ⟨link₁, hread₁, _⟩
    obtain ⟨link₂, hread₂⟩ := hread
    rw [hread₂] at hread₁
    cases hread₁

end Client

end Rdp.Tpkt
