import Rdp.Lib.Channel
import Rdp.Nla.Ntlm.Session

/-!
This module contains connections of two security interfaces that are built from one session key: both
ends wrap and unwrap as they like, and their messages cross each other.
-/

namespace Rdp.NTLMv2SecurityInterface

open Nla

def sealing (self : NTLMv2SecurityInterface) : Rc4 × Bytes := (self.encrypt, self.signingKey)

def unsealing (self : NTLMv2SecurityInterface) : Rc4 × Bytes := (self.decrypt, self.verifyKey)

/--
The interface of the server, which has the keys of the client the other way round.
-/
def ofServer (hashes : Hashes) (exportedSessionKey : Bytes) : RdpResult NTLMv2SecurityInterface := do
  let encrypt ← Rc4.new (sealKey hashes exportedSessionKey false)
  let decrypt ← Rc4.new (sealKey hashes exportedSessionKey true)
  return .new encrypt decrypt (signKey hashes exportedSessionKey false)
    (signKey hashes exportedSessionKey true)

/--
One end of a connection: the texts it has wrapped, the texts it has unwrapped, and the messages of the
other end that it has not unwrapped yet.
-/
structure Peer where
  interface : NTLMv2SecurityInterface
  sent : List Bytes
  got : List Bytes
  inbox : List Bytes

structure Duplex where
  client : Peer
  server : Peer

inductive Side where
  | client
  | server
  deriving DecidableEq, Repr

inductive Action where
  | wrap (side : Side) (text : Bytes)
  | unwrap (side : Side)
  deriving DecidableEq, Repr

namespace Peer

def new (interface : NTLMv2SecurityInterface) : Peer := ⟨interface, [], [], []⟩

def wrap (hashes : Hashes) (text : Bytes) : Prog Error Peer Bytes := do
  let message ← Prog.zoom (·.interface) (fun interface peer => { peer with interface })
    (gssWrapex hashes text)
  modify fun peer => { peer with sent := peer.sent ++ [text] }
  return message

def deliver (message : Bytes) (peer : Peer) : Peer := { peer with inbox := peer.inbox ++ [message] }

/--
Nothing happens as long as no message has arrived.
-/
def unwrap (hashes : Hashes) : Prog Error Peer Unit := do
  match (← get).inbox with
  | [] => return ()
  | message :: inbox =>
    modify fun peer => { peer with inbox }
    let text ← Prog.zoom (·.interface) (fun interface peer => { peer with interface })
      (gssUnwrapex hashes message)
    modify fun peer => { peer with got := peer.got ++ [text] }

end Peer

namespace Duplex

def onClient (x : Prog Error Peer α) : Prog Error Duplex α :=
  Prog.zoom (·.client) (fun client duplex => { duplex with client }) x

def onServer (x : Prog Error Peer α) : Prog Error Duplex α :=
  Prog.zoom (·.server) (fun server duplex => { duplex with server }) x

def act (hashes : Hashes) (action : Action) : Prog Error Duplex Unit :=
  match action with
  | .wrap .client text => do
    let message ← onClient (Peer.wrap hashes text)
    onServer (modify (Peer.deliver message))
  | .wrap .server text => do
    let message ← onServer (Peer.wrap hashes text)
    onClient (modify (Peer.deliver message))
  | .unwrap .client => onClient (Peer.unwrap hashes)
  | .unwrap .server => onServer (Peer.unwrap hashes)

def acts (hashes : Hashes) (actions : List Action) : Prog Error Duplex Unit :=
  match actions with
  | [] => return ()
  | action :: actions => do
    act hashes action
    acts hashes actions

end Duplex

def textsOf (side : Side) (actions : List Action) : List Bytes :=
  actions.filterMap fun action =>
    match action with
    | .wrap s text => if s = side then some text else none
    | .unwrap _ => none

/--
What the receiver has is a front of what the sender wrapped, and the rest is waiting for it.
-/
structure Delivered (sender receiver : Peer) : Prop where
  isPrefix : receiver.got <+: sender.sent
  length_eq : sender.sent.length = receiver.got.length + receiver.inbox.length

section Flows

variable {hashes : Hashes} (hmac : ∀ key data, 8 ≤ (hashes.hmacMd5 key data).length)

def channel : Channel (Rc4 × Bytes) (Rc4 × Bytes) Bytes Bytes where
  sends half text message half' := ∃ self : NTLMv2SecurityInterface, self.sealing = half ∧
    message = self.wrap hashes text ∧ half' = ((self.sum hashes text).2, self.signingKey)
  receives half message text half' := ∀ self : NTLMv2SecurityInterface, self.unsealing = half →
    (gssUnwrapex hashes message).run self = .ok text { self with decrypt := half'.1 } ∧
      half'.2 = self.verifyKey
  inStep sealing unsealing := sealing = unsealing
  receives_of_sends := by
    rintro _ _ text _ _ rfl ⟨self, rfl, rfl, rfl⟩
    refine ⟨_, ?_, rfl⟩
    intro peer hpeer
    have hmirrored : Mirrored self peer := ⟨congrArg Prod.fst hpeer, congrArg Prod.snd hpeer⟩
    exact ⟨run_gssUnwrapex hmac hmirrored text, hmirrored.key_eq.symm⟩

/--
One direction of a connection. The sequence number counts the texts that were wrapped.
-/
structure Flows (sender receiver : Peer) : Prop where
  carries : (channel hmac).Carries sender.interface.sealing receiver.interface.unsealing receiver.inbox
    sender.sent receiver.got
  seqNum : sender.interface.seqNum.toNat = sender.sent.length

def Peer.wrapped (hashes : Hashes) (text : Bytes) (peer : Peer) : Peer := { peer with
  interface := { peer.interface with
    encrypt := (peer.interface.sum hashes text).2
    seqNum := peer.interface.seqNum + 1 }
  sent := peer.sent ++ [text] }

include hmac in
theorem Peer.run_wrap {peer : Peer} (hseq : peer.interface.seqNum.toNat + 1 < 2 ^ 32) (text : Bytes) :
    (Peer.wrap hashes text).run peer =
      .ok (peer.interface.wrap hashes text) (peer.wrapped hashes text) := by
  rw [Peer.wrap, EStateM.run_bind, Prog.run_zoom, run_gssWrapex hmac hseq]
  rfl

variable {hmac} {sender receiver : Peer}

theorem Flows.delivered (h : Flows hmac sender receiver) : Delivered sender receiver :=
  ⟨h.carries.isPrefix, h.carries.length_eq⟩

theorem Flows.wrap (h : Flows hmac sender receiver) (hlt : sender.sent.length + 1 < 2 ^ 32)
    (text : Bytes) :
    Flows hmac (sender.wrapped hashes text) (receiver.deliver (sender.interface.wrap hashes text)) where
  carries := h.carries.send ⟨sender.interface, rfl, rfl, rfl⟩
  seqNum := by
    have hseq := h.seqNum
    rw [Peer.wrapped, List.length_append, List.length_singleton, UInt32.toNat_add, hseq,
      UInt32.toNat_one]
    exact Nat.mod_eq_of_lt hlt

theorem Flows.wrap_other (h : Flows hmac sender receiver) (text message : Bytes) :
    Flows hmac (sender.deliver message) (receiver.wrapped hashes text) := ⟨h.carries, h.seqNum⟩

theorem Flows.unwrap (h : Flows hmac sender receiver) :
    ∃ receiver', (Peer.unwrap hashes).run receiver = .ok () receiver' ∧ Flows hmac sender receiver' ∧
      receiver'.sent = receiver.sent ∧ (Flows hmac receiver sender → Flows hmac receiver' sender) := by
  obtain ⟨interface, sent, got, inbox⟩ := receiver
  cases inbox with
  | nil => exact ⟨_, rfl, h, rfl, id⟩
  | cons message inbox =>
    obtain ⟨text, half, hreceives, hcarries⟩ := h.carries.receive
    obtain ⟨hrun, hkey⟩ := hreceives interface rfl
    refine ⟨⟨{ interface with decrypt := half.1 }, sent, got ++ [text], inbox⟩, ?_, ?_, rfl, ?_⟩
    . rw [Peer.unwrap, EStateM.run_bind, EStateM.run_get]
      dsimp only
      rw [EStateM.run_bind, EStateM.run_modify]
      dsimp only
      rw [EStateM.run_bind, Prog.run_zoom, hrun]
      rfl
    . refine ⟨?_, h.seqNum⟩
      rwa [show half = (half.1, interface.verifyKey) from Prod.ext rfl hkey] at hcarries
    . exact fun hother => ⟨hother.carries, hother.seqNum⟩

end Flows

section Acts

variable {hashes : Hashes} {hmac : ∀ key data, 8 ≤ (hashes.hmacMd5 key data).length}

structure Duplex.Holds (hmac : ∀ key data, 8 ≤ (hashes.hmacMd5 key data).length) (duplex : Duplex) :
    Prop where
  toServer : Flows hmac duplex.client duplex.server
  toClient : Flows hmac duplex.server duplex.client

theorem Duplex.Holds.act {duplex : Duplex} (h : duplex.Holds hmac) (action : Action)
    (hclient : duplex.client.sent.length + (textsOf .client [action]).length < 2 ^ 32)
    (hserver : duplex.server.sent.length + (textsOf .server [action]).length < 2 ^ 32) :
    ∃ duplex', (Duplex.act hashes action).run duplex = .ok () duplex' ∧ duplex'.Holds hmac ∧
      duplex'.client.sent = duplex.client.sent ++ textsOf .client [action] ∧
      duplex'.server.sent = duplex.server.sent ++ textsOf .server [action] := by
  obtain ⟨client, server⟩ := duplex
  obtain ⟨hto, hfrom⟩ := h
  cases action with
  | wrap side text =>
    cases side with
    | client =>
      have hseq : client.interface.seqNum.toNat + 1 < 2 ^ 32 := by
        rw [hto.seqNum]
        exact hclient
      refine ⟨⟨client.wrapped hashes text, server.deliver (client.interface.wrap hashes text)⟩, ?_,
        ⟨hto.wrap hclient text, hfrom.wrap_other text _⟩, rfl, (List.append_nil _).symm⟩
      rw [Duplex.act, EStateM.run_bind, Duplex.onClient, Prog.run_zoom, Peer.run_wrap hmac hseq]
      rfl
    | server =>
      have hseq : server.interface.seqNum.toNat + 1 < 2 ^ 32 := by
        rw [hfrom.seqNum]
        exact hserver
      refine ⟨⟨client.deliver (server.interface.wrap hashes text), server.wrapped hashes text⟩, ?_,
        ⟨hto.wrap_other text _, hfrom.wrap hserver text⟩, (List.append_nil _).symm, rfl⟩
      rw [Duplex.act, EStateM.run_bind, Duplex.onServer, Prog.run_zoom, Peer.run_wrap hmac hseq]
      rfl
  | unwrap side =>
    cases side with
    | client =>
      obtain ⟨client', hrun, hfrom', hsent, hother⟩ := hfrom.unwrap
      refine ⟨⟨client', server⟩, ?_, ⟨hother hto, hfrom'⟩, ?_, (List.append_nil _).symm⟩
      . rw [Duplex.act, Duplex.onClient, Prog.run_zoom, hrun]
      . exact hsent.trans (List.append_nil _).symm
    | server =>
      obtain ⟨server', hrun, hto', hsent, hother⟩ := hto.unwrap
      refine ⟨⟨client, server'⟩, ?_, ⟨hto', hother hfrom⟩, (List.append_nil _).symm, ?_⟩
      . rw [Duplex.act, Duplex.onServer, Prog.run_zoom, hrun]
      . exact hsent.trans (List.append_nil _).symm

theorem textsOf_cons (side : Side) (action : Action) (actions : List Action) :
    textsOf side (action :: actions) = textsOf side [action] ++ textsOf side actions := by
  rw [textsOf, textsOf, textsOf, ← List.filterMap_append, List.singleton_append]

theorem Duplex.Holds.acts {duplex : Duplex} (h : duplex.Holds hmac) (actions : List Action)
    (hclient : duplex.client.sent.length + (textsOf .client actions).length < 2 ^ 32)
    (hserver : duplex.server.sent.length + (textsOf .server actions).length < 2 ^ 32) :
    ∃ duplex', (Duplex.acts hashes actions).run duplex = .ok () duplex' ∧ duplex'.Holds hmac ∧
      duplex'.client.sent = duplex.client.sent ++ textsOf .client actions ∧
      duplex'.server.sent = duplex.server.sent ++ textsOf .server actions := by
  induction actions generalizing duplex with
  | nil => exact ⟨duplex, rfl, h, (List.append_nil _).symm, (List.append_nil _).symm⟩
  | cons action actions ih =>
    rw [textsOf_cons, List.length_append] at hclient hserver
    obtain ⟨duplex₁, hrun₁, h₁, hsent₁, hsent₁'⟩ := h.act action (by omega) (by omega)
    obtain ⟨duplex₂, hrun₂, h₂, hsent₂, hsent₂'⟩ := ih h₁
      (by rw [hsent₁, List.length_append]; omega) (by rw [hsent₁', List.length_append]; omega)
    refine ⟨duplex₂, ?_, h₂, ?_, ?_⟩
    . rw [Duplex.acts, EStateM.run_bind, hrun₁]
      exact hrun₂
    . rw [hsent₂, hsent₁, List.append_assoc, textsOf_cons .client action actions]
    . rw [hsent₂', hsent₁', List.append_assoc, textsOf_cons .server action actions]

end Acts

/--
The two ends of a connection wrap and unwrap in any order, fewer than 2^32 texts each: no call fails,
and both ends receive the texts of the other one, unchanged, in order and once each.
-/
theorem duplex_delivers {hashes : Hashes} (hmac : ∀ key data, 8 ≤ (hashes.hmacMd5 key data).length)
    (hmd5 : ∀ data, 1 ≤ (hashes.md5 data).length ∧ (hashes.md5 data).length ≤ 256) {self : Ntlm}
    {key : Bytes} (hkey : self.exportedSessionKey = some key) (actions : List Action)
    (hcount : ∀ side, (textsOf side actions).length < 2 ^ 32) :
    ∃ client server duplex, self.buildSecurityInterface hashes = .ok client ∧
      ofServer hashes key = .ok server ∧
      (Duplex.acts hashes actions).run ⟨.new client, .new server⟩ = .ok () duplex ∧
      duplex.client.sent = textsOf .client actions ∧ duplex.server.sent = textsOf .server actions ∧
      Delivered duplex.client duplex.server ∧ Delivered duplex.server duplex.client := by
  obtain ⟨toServer, hto⟩ := @Rc4.new_of_length (sealKey hashes key true) (hmd5 _)
  obtain ⟨toClient, hfrom⟩ := @Rc4.new_of_length (sealKey hashes key false) (hmd5 _)
  have hclient : self.buildSecurityInterface hashes = .ok (.new toServer toClient
      (signKey hashes key true) (signKey hashes key false)) := by
    simp only [Ntlm.buildSecurityInterface, hkey, Ntlm.unwrapOption, Except.ok_bind, hto, hfrom]
    rfl
  have hserver : ofServer hashes key = .ok (.new toClient toServer (signKey hashes key false)
      (signKey hashes key true)) := by
    rw [ofServer, hto, hfrom]
    rfl
  have hstart : Duplex.Holds hmac ⟨.new (.new toServer toClient (signKey hashes key true)
      (signKey hashes key false)), .new (.new toClient toServer (signKey hashes key false)
      (signKey hashes key true))⟩ := ⟨⟨.start rfl, rfl⟩, ⟨.start rfl, rfl⟩⟩
  obtain ⟨duplex, hrun, hholds, hsent, hsent'⟩ := hstart.acts actions
    (by simpa [Peer.new] using hcount .client) (by simpa [Peer.new] using hcount .server)
  exact ⟨_, _, duplex, hclient, hserver, hrun, hsent, hsent', hholds.toServer.delivered,
    hholds.toClient.delivered⟩

namespace Duplex

def hashes : Hashes := { Session.hashes with md5 := fun bytes => List.replicate 16 bytes.sum }

def ntlm : Ntlm := { Ntlm.new hashes "" "" "" with exportedSessionKey := some [1] }

def crossing : List Action :=
  [.wrap .client [1, 2], .wrap .server [3], .unwrap .client, .unwrap .server]

end Duplex

open Duplex in
theorem duplex_delivers_crossing :
    ∃ client server duplex, ntlm.buildSecurityInterface hashes = .ok client ∧
      ofServer hashes [1] = .ok server ∧
      (acts hashes crossing).run ⟨.new client, .new server⟩ = .ok () duplex ∧
      duplex.client.sent = [[1, 2]] ∧ duplex.server.sent = [[3]] ∧
      Delivered duplex.client duplex.server ∧ Delivered duplex.server duplex.client := by
  refine duplex_delivers (by simp [hashes, Session.hashes]) (by simp [hashes]) rfl crossing ?_
  intro side
  cases side <;> decide

end Rdp.NTLMv2SecurityInterface
