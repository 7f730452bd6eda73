import Rdp.Lib.Same
import Rdp.Nla.Asn1.Der
import Rdp.Nla.Cssp.Release

/-!
This module contains what the CSSP handshake makes of the cuts in the stream of the server: which of
them have no influence.
-/

namespace Rdp

open Prog

namespace Arrival

/--
The reads of chunks: a single read does not go past the start of the next chunk.
-/
def ofChunks (chunks : List Bytes) : List Arrival := chunks.flatMap fun chunk => .cut :: chunk.map .byte

theorem takeAvailable_map (n : Nat) (chunk : Bytes) {reads : List Arrival}
    (hreads : ∀ m, takeAvailable m reads = ([], reads)) :
    takeAvailable n (chunk.map .byte ++ reads) =
      (chunk.take n, (chunk.drop n).map .byte ++ reads) := by
  induction chunk generalizing n with
  | nil =>
    rw [List.map_nil, List.nil_append, hreads, List.take_nil, List.drop_nil]
    rfl
  | cons b chunk ih =>
    cases n with
    | zero => rfl
    | succ n =>
      rw [List.map_cons, List.cons_append, takeAvailable, ih]
      rfl

theorem takeAvailable_ofChunks (chunks : List Bytes) (n : Nat) :
    takeAvailable n (ofChunks chunks) = ([], ofChunks chunks) := by
  cases chunks <;> cases n <;> rfl

theorem read_ofChunks {chunk : Bytes} (hne : chunk ≠ []) (chunks : List Bytes) (n : Nat) :
    read n (ofChunks (chunk :: chunks)) =
      (.ok (chunk.take n), (chunk.drop n).map .byte ++ ofChunks chunks) := by
  obtain ⟨b, chunk, rfl⟩ := List.exists_cons_of_ne_nil hne
  have htake := takeAvailable_map n (b :: chunk) (takeAvailable_ofChunks chunks)
  rw [List.map_cons, List.cons_append] at htake
  change read n (.byte b :: (chunk.map .byte ++ ofChunks chunks)) = _
  rw [read, htake]

end Arrival

namespace Link

def Twins (reads reads' : List Arrival) (link link' : Link) : Prop :=
  ∃ base : Link, link = base.withReads reads ∧ link' = base.withReads reads'

theorem run_write_withReads (m : Message) (link : Link) (reads : List Arrival) :
    (write m).run (link.withReads reads) =
      match (write m).run link with
      | .ok a link' => .ok a (link'.withReads reads)
      | .error e link' => .error e (link'.withReads reads) := by
  cases hm : m.write with
  | error e =>
    unfold write
    rw [hm]
    rfl
  | ok buffer =>
    rw [run_write hm, run_write hm]
    match link with
    | ⟨.raw ⟨_, [], _⟩, _⟩ | ⟨.raw ⟨_, .accept _ :: _, _⟩, _⟩ | ⟨.raw ⟨_, .fail _ :: _, _⟩, _⟩ => rfl
    | ⟨.ssl ⟨⟨_, [], _⟩, _⟩, _⟩ | ⟨.ssl ⟨⟨_, .accept _ :: _, _⟩, _⟩, _⟩
    | ⟨.ssl ⟨⟨_, .fail _ :: _, _⟩, _⟩, _⟩ => rfl

theorem same_write (m : Message) (reads reads' : List Arrival) : Same (Twins reads reads') (write m) := by
  rintro _ _ ⟨base, rfl, rfl⟩
  rw [run_write_withReads, run_write_withReads]
  cases (write m).run base with
  | ok a link => exact .ok ⟨rfl, link, rfl, rfl⟩
  | error e link => exact .error ⟨link, rfl, rfl⟩

theorem same_getPeerCertificate (reads reads' : List Arrival) :
    Same (Twins reads reads') getPeerCertificate := by
  apply Same.get_bind
  . rintro _ _ ⟨⟨stream, sent⟩, rfl, rfl⟩
    cases stream <;> rfl
  . intro link
    split
    . exact Same.lift _
    . exact Same.throw _

theorem related_read {reads reads' left left' : List Arrival} {bytes : Bytes}
    (h : Arrival.read 1500 reads = (.ok bytes, left)) (h' : Arrival.read 1500 reads' = (.ok bytes, left'))
    {link link' : Link} (htwins : Twins reads reads' link link') (E : Link → Link → Prop) :
    Related (fun a l b l' => a = bytes ∧ b = bytes ∧ Twins left left' l l') E
      ((read 0).run link) ((read 0).run link') := by
  obtain ⟨base, rfl, rfl⟩ := htwins
  rw [run_read_zero, run_read_zero, reads_withReads, reads_withReads, h, h']
  refine .ok ⟨rfl, rfl, base, ?_, ?_⟩
  . exact withReads_withReads base reads left
  . exact withReads_withReads base reads' left'

end Link

namespace Cssp

variable {σ τ : Type}

def Alike (reads reads' : List Arrival) (s t : Link × σ) : Prop :=
  Link.Twins reads reads' s.1 t.1 ∧ s.2 = t.2

section Same

variable {reads reads' : List Arrival} (der : Der) (auth : AuthenticationProtocol σ τ)

theorem Alike.onLink {x : Prog Error Link α} (hx : Same (Link.Twins reads reads') x) :
    Same (Alike reads reads') (Cssp.onLink x : Prog Error (Link × σ) α) := by
  apply Same.zoom hx
  . exact fun _ _ h => h.1
  . exact fun _ _ _ _ h hlink => ⟨hlink, h.2⟩

theorem Alike.onAuth (x : Prog Error σ α) : Same (Alike reads reads') (Cssp.onAuth x) := by
  apply Same.zoom (Same.of_eq x)
  . exact fun _ _ h => h.2
  . exact fun _ _ _ _ h hauth => ⟨h.1, hauth⟩

theorem Alike.writeVec (bytes : Bytes) :
    Same (Alike reads reads') (Cssp.writeVec bytes : Prog Error (Link × σ) Unit) :=
  Alike.onLink (Link.same_write _ reads reads')

theorem Alike.sendNegotiate : Same (Alike reads reads') (Cssp.sendNegotiate der auth) := by
  apply (Alike.onAuth _).bind
  intro nego
  apply Alike.writeVec

theorem Alike.getPublicKey :
    Same (Alike reads reads') (Cssp.getPublicKey der : Prog Error (Link × σ) Bytes) := by
  apply (Alike.onLink (Link.same_getPeerCertificate reads reads')).bind
  intro certificate
  cases certificate with
  | none => exact Same.throw _
  | some certificate =>
    apply (Same.lift _).bind
    intro certificateDer
    apply Same.lift

def authenticate (clientChallenge : Bytes) : Prog Error (Link × σ) (τ × Bytes) := do
  let securityInterface ← Prog.lift (auth.buildSecurityInterface (← get).2)
  let publicKey ← Cssp.getPublicKey der
  let (pubKeyAuth, securityInterface) ←
    Prog.on securityInterface (auth.gss.gssWrapex publicKey)
  let challenge := createTsAuthenticate der clientChallenge pubKeyAuth
  Cssp.writeVec challenge
  return (securityInterface, publicKey)

theorem sendAuthenticate_eq :
    sendAuthenticate der auth = receiveChallenge der auth >>= authenticate der auth := rfl

theorem Alike.authenticate (clientChallenge : Bytes) :
    Same (Alike reads reads') (Cssp.authenticate der auth clientChallenge) := by
  apply Same.get_bind
  . intro s t hst
    rw [hst.2]
  intro s
  apply (Same.lift _).bind
  intro securityInterface
  apply (Alike.getPublicKey der).bind
  intro publicKey
  apply (Same.on _ _).bind
  intro wrapped
  apply (Alike.writeVec _).bind
  intro _
  apply Same.pure

theorem Alike.sendCredentials (restrictedAdminMode : Bool) (securityInterface : τ) :
    Same (Alike reads reads') (Cssp.sendCredentials der auth restrictedAdminMode securityInterface) := by
  apply Same.get_bind
  . intro s t hst
    rw [hst.2]
  intro s
  apply (Same.on _ _).bind
  intro authInfo
  apply Alike.writeVec

end Same

def SameSent (s t : Link × σ) : Prop := s.1.sent = t.1.sent

theorem Alike.sameSent {reads reads' : List Arrival} {s t : Link × σ} (h : Alike reads reads' s t) :
    SameSent s t := by
  obtain ⟨⟨base, hs, ht⟩, _⟩ := h
  rw [SameSent, hs, ht]
  rfl

section Related

variable {reads reads' left left' : List Arrival} {s t : Link × σ} {bytes : Bytes}

theorem Alike.related {x : Prog Error (Link × σ) α} (hx : Same (Alike reads reads') x)
    (h : Alike reads reads' s t) :
    Related (fun a s' b t' => a = b ∧ Alike reads reads' s' t') SameSent (x.run s) (x.run t) :=
  (hx s t h).imp (fun _ _ _ _ h => h) (fun _ _ h => h.sameSent)

theorem Alike.related_read (hread : Arrival.read 1500 reads = (.ok bytes, left))
    (hread' : Arrival.read 1500 reads' = (.ok bytes, left')) (h : Alike reads reads' s t) :
    Related (fun a s' b t' => a = bytes ∧ b = bytes ∧ Alike left left' s' t') SameSent
      ((Cssp.onLink (Link.read 0)).run s) ((Cssp.onLink (Link.read 0)).run t) := by
  have hlinks := Link.related_read hread hread' h.1 (fun _ _ => False)
  simp only [Cssp.onLink, run_zoom]
  generalize (Link.read 0).run s.1 = r at hlinks
  generalize (Link.read 0).run t.1 = r' at hlinks
  cases hlinks with
  | ok hlinks => exact .ok ⟨hlinks.1, hlinks.2.1, hlinks.2.2, h.2⟩
  | error hfalse => exact hfalse.elim

variable (der : Der) (auth : AuthenticationProtocol σ τ)

theorem Alike.related_receiveChallenge (hread : Arrival.read 1500 reads = (.ok bytes, left))
    (hread' : Arrival.read 1500 reads' = (.ok bytes, left')) (h : Alike reads reads' s t) :
    Related (fun a s' b t' => a = b ∧ (∃ token, readTsServerChallenge der bytes = .ok token) ∧
      Alike left left' s' t') SameSent
      ((receiveChallenge der auth).run s) ((receiveChallenge der auth).run t) := by
  -- The reads go on only behind a challenge that can be read.
  apply (h.related_read hread hread').bind
  rintro _ s' reply t' ⟨rfl, rfl, h'⟩
  cases hchallenge : readTsServerChallenge der reply with
  | error e => exact .error h'.sameSent
  | ok token =>
    apply (h'.related (Alike.onAuth (auth.readChallengeMessage token))).imp
    . rintro a s'' b t'' ⟨rfl, h''⟩
      exact ⟨rfl, ⟨token, rfl⟩, h''⟩
    . exact fun _ _ hsent => hsent

theorem Alike.related_checkPublicKey (hread : Arrival.read 1500 reads = (.ok bytes, left))
    (hread' : Arrival.read 1500 reads' = (.ok bytes, left')) (h : Alike reads reads' s t)
    (securityInterface : τ) (publicKey : Bytes) :
    Related (fun a s' b t' => a = b ∧ Alike left left' s' t') SameSent
      ((checkPublicKey der auth securityInterface publicKey).run s)
      ((checkPublicKey der auth securityInterface publicKey).run t) := by
  apply (h.related_read hread hread').bind
  rintro _ s' _ t' ⟨rfl, rfl, h'⟩
  apply h'.related
  apply (Same.lift _).bind
  intro pubKeyAuth
  apply (Same.on _ _).bind
  intro unwrapped
  simp only
  split
  . exact Same.throw _
  . exact Same.pure _

theorem Alike.related_csspConnect (restrictedAdminMode : Bool)
    (hread : Arrival.read 1500 reads = (.ok bytes, left))
    (hread' : Arrival.read 1500 reads' = (.ok bytes, left'))
    (hsecond : ∀ token, readTsServerChallenge der bytes = .ok token →
      ∃ second rest rest', Arrival.read 1500 left = (.ok second, rest) ∧
        Arrival.read 1500 left' = (.ok second, rest'))
    (h : Alike reads reads' s t) :
    Related (fun _ s' _ t' => SameSent s' t') SameSent
      ((csspConnect der auth restrictedAdminMode).run s)
      ((csspConnect der auth restrictedAdminMode).run t) := by
  unfold csspConnect
  apply (h.related (Alike.sendNegotiate der auth)).bind
  rintro _ s₁ _ t₁ ⟨rfl, h₁⟩
  rw [sendAuthenticate_eq, bind_assoc]
  apply (h₁.related_receiveChallenge der auth hread hread').bind
  rintro clientChallenge s₂ _ t₂ ⟨rfl, ⟨token, htoken⟩, h₂⟩
  obtain ⟨second, rest, rest', hrest, hrest'⟩ := hsecond token htoken
  apply (h₂.related (Alike.authenticate der auth clientChallenge)).bind
  rintro ⟨securityInterface, publicKey⟩ s₃ _ t₃ ⟨rfl, h₃⟩
  apply (h₃.related_checkPublicKey der auth hrest hrest' securityInterface publicKey).bind
  rintro securityInterface' s₄ _ t₄ ⟨rfl, h₄⟩
  apply (h₄.related (Alike.sendCredentials der auth restrictedAdminMode securityInterface')).imp
  . exact fun _ _ _ _ h => h.2.sameSent
  . exact fun _ _ hsent => hsent

end Related

/--
The messages of a server, each of which the transport delivers in chunks of its own.
-/
def IsCutting (messages : List Bytes) (cuts : List (List Bytes)) : Prop :=
  List.Forall₂ (fun message chunks => chunks.flatten = message ∧ ∀ chunk ∈ chunks, chunk ≠ [])
    messages cuts

def arrivals (cuts : List (List Bytes)) : List Arrival := Arrival.ofChunks cuts.flatten

/--
The message comes in one chunk, which is not longer than the buffer of a read of unknown size.
-/
def WholeAt (messages : List Bytes) (cuts : List (List Bytes)) (n : Nat) : Prop :=
  ∀ message, messages[n]? = some message → cuts[n]? = some [message] ∧ message.length ≤ 1500

section Cutting

variable {messages : List Bytes} {cuts : List (List Bytes)}

theorem read_of_wholeAt (hne : ∀ message ∈ messages, message ≠ []) (hcuts : IsCutting messages cuts)
    (h : WholeAt messages cuts 0) :
    Arrival.read 1500 (arrivals cuts) = (.ok (messages.headD []), arrivals cuts.tail) := by
  cases hcuts with
  | nil => rfl
  | @cons message chunks messages cuts _ _ =>
    obtain ⟨hchunks, hle⟩ := h message rfl
    cases hchunks
    change Arrival.read 1500 (Arrival.ofChunks (message :: cuts.flatten)) = _
    rw [Arrival.read_ofChunks (hne message List.mem_cons_self), List.take_of_length_le hle,
      List.drop_of_length_le hle]
    rfl

theorem wholeAt_of_read (hcuts : IsCutting messages cuts) (hne : ∀ message ∈ messages, message ≠ [])
    (h : ∀ message, messages[0]? = some message →
      ∃ left, Arrival.read 1500 (arrivals cuts) = (.ok message, left)) : WholeAt messages cuts 0 := by
  intro message hmessage
  obtain ⟨left, hread⟩ := h message hmessage
  cases hcuts with
  | nil => cases hmessage
  | @cons _ chunks messages cuts hchunks _ =>
    cases hmessage
    obtain ⟨hflatten, hchunk⟩ := hchunks
    cases chunks with
    | nil => exact absurd hflatten.symm (hne message List.mem_cons_self)
    | cons chunk chunks =>
      change Arrival.read 1500 (Arrival.ofChunks (chunk :: (chunks ++ cuts.flatten))) = _ at hread
      rw [Arrival.read_ofChunks (hchunk chunk List.mem_cons_self), ← hflatten, List.flatten_cons] at hread
      injection hread with hread _
      injection hread with htake
      have hlength := congrArg List.length htake
      rw [List.length_take, List.length_append] at hlength
      have hnil : chunks = [] := by
        cases chunks with
        | nil => rfl
        | cons second chunks =>
          have hpos := List.length_pos_of_ne_nil (hchunk second (List.mem_cons_of_mem _ List.mem_cons_self))
          rw [List.flatten_cons, List.length_append] at hlength
          omega
      subst hnil
      rw [List.flatten_cons, List.flatten_nil, List.append_nil] at hflatten
      subst hflatten
      refine ⟨rfl, ?_⟩
      simp only [List.flatten_nil, List.length_nil] at hlength
      omega

theorem headD_of_getElem? {message : Bytes} (h : messages[0]? = some message) :
    messages.headD [] = message := by
  rw [List.headD_eq_head?_getD, List.head?_eq_getElem?, h]
  rfl

theorem wholeAt_tail : WholeAt messages.tail cuts.tail 0 ↔ WholeAt messages cuts 1 := by
  unfold WholeAt
  rw [List.getElem?_tail, List.getElem?_tail]

theorem IsCutting.tail (h : IsCutting messages cuts) : IsCutting messages.tail cuts.tail := by
  cases h with
  | nil => exact .nil
  | cons _ h => exact h

end Cutting

/--
Every message that the handshake gets to read is received completely before it is parsed.
-/
def ReceivesWhole (der : Der) (auth : AuthenticationProtocol σ τ) (messages : List Bytes) (s : Link × σ) :
    Prop :=
  (∀ t, (sendNegotiate der auth).run s = .ok () t → ∀ message, messages[0]? = some message →
    ∃ link, (Link.read 0).run t.1 = .ok message link) ∧
  (∀ t a u, (sendNegotiate der auth).run s = .ok () t → (sendAuthenticate der auth).run t = .ok a u →
    ∀ message, messages[1]? = some message → ∃ link, (Link.read 0).run u.1 = .ok message link)

def observe (r : EStateM.Result (Fault Error) (Link × σ) Unit) : Option (Fault Error) × List Bytes :=
  (outcome r, (finalState r).1.sent)

/--
For every client the two cuttings have the same result, and all is received completely.
-/
def CuttingIrrelevant (der : Der) (messages : List Bytes) (cuts cuts' : List (List Bytes)) : Prop :=
  ∀ (σ τ : Type) (auth : AuthenticationProtocol σ τ) (restrictedAdminMode : Bool) (link : Link) (s : σ),
    observe ((csspConnect der auth restrictedAdminMode).run (link.withReads (arrivals cuts), s)) =
      observe ((csspConnect der auth restrictedAdminMode).run (link.withReads (arrivals cuts'), s)) ∧
    ReceivesWhole der auth messages (link.withReads (arrivals cuts), s) ∧
    ReceivesWhole der auth messages (link.withReads (arrivals cuts'), s)

/--
The first message comes whole, and so does the second one, which is only read behind a challenge that
can be read.
-/
def ComesWhole (der : Der) (messages : List Bytes) (cuts : List (List Bytes)) : Prop :=
  WholeAt messages cuts 0 ∧
    ((∃ message token, messages[0]? = some message ∧ readTsServerChallenge der message = .ok token) →
      WholeAt messages cuts 1)

section Runs

variable (der : Der) (auth : AuthenticationProtocol σ τ) {messages : List Bytes}
  {cuts cuts' : List (List Bytes)}

theorem reads_of_same {x : Prog Error (Link × σ) α} {reads : List Arrival}
    (hx : Same (Alike reads reads) x) {s t : Link × σ} {a : α} (hs : s.1.reads = reads)
    (hrun : x.run s = .ok a t) : t.1.reads = reads := by
  have halike : Alike reads reads s s := by
    refine ⟨⟨s.1, ?_, ?_⟩, rfl⟩ <;> rw [← hs, Link.reads_eq_withReads]
  have hrelated := hx s s halike
  rw [hrun] at hrelated
  cases hrelated with
  | ok h =>
    obtain ⟨_, ⟨base, hbase, _⟩, _⟩ := h
    rw [hbase, Link.reads_withReads]

theorem ComesWhole.second (h : ComesWhole der messages cuts) {token : Bytes}
    (htoken : readTsServerChallenge der (messages.headD []) = .ok token) : WholeAt messages cuts 1 := by
  cases messages with
  | nil =>
    intro message hmessage
    cases hmessage
  | cons message messages => exact h.2 ⟨message, token, rfl, htoken⟩

theorem run_read_of_wholeAt (hne : ∀ message ∈ messages, message ≠ []) (hcuts : IsCutting messages cuts)
    (h : WholeAt messages cuts 0) {link : Link} (hreads : link.reads = arrivals cuts) :
    (Link.read 0).run link = .ok (messages.headD []) (link.withReads (arrivals cuts.tail)) := by
  rw [Link.run_read_zero, hreads, read_of_wholeAt hne hcuts h]

theorem reads_of_run_sendAuthenticate (hne : ∀ message ∈ messages, message ≠ [])
    (hcuts : IsCutting messages cuts) (h : WholeAt messages cuts 0) {s t : Link × σ} {a : τ × Bytes}
    (hreads : s.1.reads = arrivals cuts) (hrun : (sendAuthenticate der auth).run s = .ok a t) :
    t.1.reads = arrivals cuts.tail ∧
      ∃ token, readTsServerChallenge der (messages.headD []) = .ok token := by
  -- The stream is where the first message ends once the challenge was read.
  rw [sendAuthenticate_eq] at hrun
  obtain ⟨clientChallenge, s₁, hreceive, hrun⟩ := run_bind_eq_ok hrun
  obtain ⟨reply, s₂, hread, hreceive⟩ := run_bind_eq_ok hreceive
  obtain ⟨token, s₃, htoken, hchallenge⟩ := run_bind_eq_ok hreceive
  obtain ⟨hread, _⟩ := run_onLink_eq_ok hread
  obtain ⟨hparse, rfl⟩ := run_lift_eq_ok htoken
  rw [run_read_of_wholeAt hne hcuts h hreads] at hread
  injection hread with hreply hlink
  have hleft : s₃.1.reads = arrivals cuts.tail := by rw [← hlink, Link.reads_withReads]
  have hleft₁ := reads_of_same (Alike.onAuth (auth.readChallengeMessage token)) hleft hchallenge
  constructor
  . exact reads_of_same (Alike.authenticate der auth clientChallenge) hleft₁ hrun
  . rw [hreply]
    exact ⟨token, hparse⟩

theorem ComesWhole.receivesWhole (hne : ∀ message ∈ messages, message ≠ [])
    (hcuts : IsCutting messages cuts) (h : ComesWhole der messages cuts) (link : Link) (s : σ) :
    ReceivesWhole der auth messages (link.withReads (arrivals cuts), s) := by
  have hreads : (link.withReads (arrivals cuts)).reads = arrivals cuts := Link.reads_withReads _ link
  constructor
  . intro t hrun message hmessage
    have ht := reads_of_same (Alike.sendNegotiate der auth) hreads hrun
    have hread := run_read_of_wholeAt hne hcuts h.1 ht
    rw [headD_of_getElem? hmessage] at hread
    exact ⟨_, hread⟩
  . intro t a u hrun hauthenticate message hmessage
    have ht := reads_of_same (Alike.sendNegotiate der auth) hreads hrun
    obtain ⟨hu, token, htoken⟩ := reads_of_run_sendAuthenticate der auth hne hcuts h.1 ht hauthenticate
    have hread := run_read_of_wholeAt (fun message hmem => hne message (List.mem_of_mem_tail hmem))
      hcuts.tail (wholeAt_tail.mpr (h.second der htoken)) hu
    rw [← List.getElem?_tail] at hmessage
    rw [headD_of_getElem? hmessage] at hread
    exact ⟨_, hread⟩

theorem ComesWhole.observe_eq (hne : ∀ message ∈ messages, message ≠ [])
    (hcuts : IsCutting messages cuts) (hcuts' : IsCutting messages cuts') (h : ComesWhole der messages cuts)
    (h' : ComesWhole der messages cuts') (restrictedAdminMode : Bool) (link : Link) (s : σ) :
    observe ((csspConnect der auth restrictedAdminMode).run (link.withReads (arrivals cuts), s)) =
      observe ((csspConnect der auth restrictedAdminMode).run (link.withReads (arrivals cuts'), s)) := by
  have htail : ∀ message ∈ messages.tail, message ≠ [] :=
    fun message hmem => hne message (List.mem_of_mem_tail hmem)
  have halike : Alike (arrivals cuts) (arrivals cuts') (link.withReads (arrivals cuts), s)
      (link.withReads (arrivals cuts'), s) := ⟨⟨link, rfl, rfl⟩, rfl⟩
  have hsecond : ∀ token, readTsServerChallenge der (messages.headD []) = .ok token →
      ∃ second rest rest', Arrival.read 1500 (arrivals cuts.tail) = (.ok second, rest) ∧
        Arrival.read 1500 (arrivals cuts'.tail) = (.ok second, rest') := by
    intro token htoken
    have hread := read_of_wholeAt htail hcuts.tail (wholeAt_tail.mpr (h.second der htoken))
    have hread' := read_of_wholeAt htail hcuts'.tail (wholeAt_tail.mpr (h'.second der htoken))
    exact ⟨_, _, _, hread, hread'⟩
  have hrelated := halike.related_csspConnect der auth restrictedAdminMode
    (read_of_wholeAt hne hcuts h.1) (read_of_wholeAt hne hcuts' h'.1) hsecond
  apply Prod.ext
  . exact hrelated.outcome_eq
  . exact hrelated.finalState

def trusting : AuthenticationProtocol Unit Unit where
  createNegotiateMessage := return []
  readChallengeMessage := fun _ => return []
  buildSecurityInterface := fun _ => return ()
  gss := { gssWrapex := fun data => return data, gssUnwrapex := fun data => return data }
  getDomainName := fun _ => []
  getUserName := fun _ => []
  getPassword := fun _ => []

def presenting (certificate received : Bytes) (sent : List Bytes) : Link where
  stream := .ssl ⟨⟨[], [], received⟩, .ok (some ⟨.ok certificate⟩)⟩
  sent := sent

theorem run_writeVec_presenting (bytes certificate received : Bytes) (sent : List Bytes)
    (reads : List Arrival) (s : σ) :
    (writeVec bytes).run ((presenting certificate received sent).withReads reads, s) =
      .ok () ((presenting certificate (received ++ bytes) (sent ++ [bytes])).withReads reads, s) := by
  have hbuffer : (Message.leaf (.bytes bytes)).write = .ok bytes := rfl
  unfold writeVec
  rw [onLink, run_zoom, Link.run_write hbuffer]
  rfl

theorem run_receiveChallenge_trusting {message token : Bytes} {left : List Arrival} {link : Link}
    (hread : Arrival.read 1500 link.reads = (.ok message, left))
    (htoken : readTsServerChallenge der message = .ok token) :
    (receiveChallenge der trusting).run (link, ()) = .ok [] (link.withReads left, ()) := by
  unfold receiveChallenge
  rw [EStateM.run_bind, onLink, run_zoom, Link.run_read_zero, hread]
  simp only [EStateM.run_bind, htoken, run_lift_ok]
  rfl

theorem run_authenticate_presenting {certificate key : Bytes} (hkey : der.parseX509Der certificate = some key)
    (clientChallenge received : Bytes) (sent : List Bytes) (reads : List Arrival) :
    ∃ received' sent', (authenticate der trusting clientChallenge).run
      ((presenting certificate received sent).withReads reads, ()) =
        .ok ((), key) ((presenting certificate received' sent').withReads reads, ()) := by
  have hgetPublicKey : (getPublicKey der).run ((presenting certificate received sent).withReads reads, ()) =
      .ok key ((presenting certificate received sent).withReads reads, ()) := by
    change (lift (readPublicCertificate der certificate)).run _ = _
    rw [readPublicCertificate, hkey]
    rfl
  let challenge := createTsAuthenticate der clientChallenge key
  have hwrite := run_writeVec_presenting challenge certificate received sent reads ()
  refine ⟨received ++ challenge, sent ++ [challenge], ?_⟩
  change (do
    let publicKey ← getPublicKey der
    writeVec (createTsAuthenticate der clientChallenge publicKey)
    return ((), publicKey) : Prog Error (Link × Unit) (Unit × Bytes)).run _ = _
  rw [Prog.run_bind_of_ok hgetPublicKey]
  simp only [EStateM.run_bind]
  rw [hwrite]
  rfl

theorem comesWhole_of_receivesWhole {certificate key : Bytes}
    (hkey : der.parseX509Der certificate = some key) (hne : ∀ message ∈ messages, message ≠ [])
    (hcuts : IsCutting messages cuts)
    (h : ReceivesWhole der trusting messages ((presenting certificate [] []).withReads (arrivals cuts), ())) :
    ComesWhole der messages cuts := by
  obtain ⟨hfirst, hsecond⟩ := h
  have hnegotiate := run_writeVec_presenting (createTsRequest der []) certificate [] [] (arrivals cuts) ()
  have hwhole : WholeAt messages cuts 0 := by
    apply wholeAt_of_read hcuts hne
    intro message hmessage
    obtain ⟨link, hread⟩ := hfirst _ hnegotiate message hmessage
    obtain ⟨left, hread, _⟩ := Link.run_read_zero_eq_ok hread
    rw [Link.reads_withReads] at hread
    exact ⟨left, hread⟩
  refine ⟨hwhole, ?_⟩
  rintro ⟨message, token, hmessage, htoken⟩
  have hread := read_of_wholeAt hne hcuts hwhole
  rw [headD_of_getElem? hmessage] at hread
  have hreceive : (receiveChallenge der trusting).run ((presenting certificate ([] ++ createTsRequest der [])
      ([] ++ [createTsRequest der []])).withReads (arrivals cuts), ()) =
        .ok [] ((presenting certificate ([] ++ createTsRequest der [])
          ([] ++ [createTsRequest der []])).withReads (arrivals cuts.tail), ()) := by
    rw [← Link.reads_withReads (arrivals cuts)] at hread
    rw [run_receiveChallenge_trusting der hread htoken, Link.withReads_withReads]
  obtain ⟨received, sent, hauthenticate⟩ := run_authenticate_presenting der hkey []
    ([] ++ createTsRequest der []) ([] ++ [createTsRequest der []]) (arrivals cuts.tail)
  have hrun := run_bind_eq_ok_iff.mpr ⟨_, _, hreceive, hauthenticate⟩
  apply wholeAt_tail.mp
  apply wholeAt_of_read hcuts.tail (fun message hmem => hne message (List.mem_of_mem_tail hmem))
  intro second hsecondMessage
  rw [List.getElem?_tail] at hsecondMessage
  obtain ⟨link, hread⟩ := hsecond _ _ _ hnegotiate hrun second hsecondMessage
  obtain ⟨left, hread, _⟩ := Link.run_read_zero_eq_ok hread
  rw [Link.reads_withReads] at hread
  exact ⟨left, hread⟩

/--
The cuts have no influence exactly when the reads, each of which is a single one with room for 1500
bytes, find every message that the handshake gets to in one chunk.
-/
theorem cutting_irrelevant_iff (hcertificate : ∃ certificate key, der.parseX509Der certificate = some key)
    (hne : ∀ message ∈ messages, message ≠ []) (hcuts : IsCutting messages cuts)
    (hcuts' : IsCutting messages cuts') :
    CuttingIrrelevant der messages cuts cuts' ↔
      ComesWhole der messages cuts ∧ ComesWhole der messages cuts' := by
  constructor
  . intro h
    obtain ⟨certificate, key, hkey⟩ := hcertificate
    obtain ⟨_, hreceives, hreceives'⟩ := h Unit Unit trusting false (presenting certificate [] []) ()
    constructor
    . exact comesWhole_of_receivesWhole der hkey hne hcuts hreceives
    . exact comesWhole_of_receivesWhole der hkey hne hcuts' hreceives'
  . rintro ⟨h, h'⟩ σ τ auth restrictedAdminMode link s
    refine ⟨?_, ?_, ?_⟩
    . exact h.observe_eq der auth hne hcuts hcuts' h' restrictedAdminMode link s
    . exact h.receivesWhole der auth hne hcuts link s
    . exact h'.receivesWhole der auth hne hcuts' link s

end Runs

def smallRequest : Bytes := [48, 18, 160, 3, 2, 1, 2, 161, 11, 48, 9, 48, 7, 160, 5, 4, 3, 0, 1, 2]

theorem cutting_irrelevant_iff_small :
    CuttingIrrelevant (Standard.yasna.der some) [smallRequest, smallRequest]
        [[smallRequest], [smallRequest.take 5, smallRequest.drop 5]] [[smallRequest], [smallRequest]] ↔
      ComesWhole (Standard.yasna.der some) [smallRequest, smallRequest]
        [[smallRequest], [smallRequest.take 5, smallRequest.drop 5]] ∧
      ComesWhole (Standard.yasna.der some) [smallRequest, smallRequest]
        [[smallRequest], [smallRequest]] := by
  apply cutting_irrelevant_iff
  . exact ⟨[], [], rfl⟩
  . decide
  . exact .cons (by decide) (.cons (by decide) .nil)
  . exact .cons (by decide) (.cons (by decide) .nil)

/--
A challenge that comes in two chunks is taken for a broken one, and no answer is sent.
-/
theorem not_cutting_irrelevant :
    IsCutting [smallRequest] [[smallRequest.take 1, smallRequest.drop 1]] ∧
    IsCutting [smallRequest] [[smallRequest]] ∧
    ¬ CuttingIrrelevant (Standard.yasna.der some) [smallRequest]
      [[smallRequest.take 1, smallRequest.drop 1]] [[smallRequest]] := by
  refine ⟨?_, ?_, ?_⟩
  . exact .cons (by decide) .nil
  . exact .cons (by decide) .nil
  . intro h
    obtain ⟨hobserve, _⟩ := h Unit Unit trusting false (presenting [] [] []) ()
    revert hobserve
    decide

end Cssp

end Rdp
