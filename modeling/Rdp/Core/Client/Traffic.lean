import Rdp.Core.Client.Inputs

/-!
This module contains the general argument about the traffic of a connection: what every read and every
write of the link keeps, the whole connection keeps behind the start of TLS, and the session after it.
-/

namespace Rdp

open Prog

/--
A preorder on the states of a link that every read and every write follows.
-/
class Link.Traffic (R : Link → Link → Prop) : Prop extends IsPreorder Link R where
  moves_read (n : Nat) : Moves R (Link.read n)
  moves_write (m : Message) : Moves R (Link.write m)

open Link (Traffic Through)

variable {R : Link → Link → Prop} [Traffic R]

namespace X224.Client

theorem traffic_write (m : Message) : Moves R (write m) := moves_write Traffic.moves_write m

theorem traffic_read : Moves R read := moves_read Traffic.moves_read

end X224.Client

namespace Cssp

variable {σ τ : Type} (der : Der) (auth : AuthenticationProtocol σ τ)

omit [Traffic R] in
theorem traffic_onLink {x : Prog Error Link α} (h : Moves R x) :
    Moves (Through R Prod.fst) (onLink x : Prog Error (Link × σ) α) :=
  h.zoom fun _ _ hlink => hlink

theorem traffic_onAuth (x : Prog Error σ α) :
    Moves (Through R Prod.fst) (onAuth x : Prog Error (Link × σ) α) := by
  have hx : Moves (fun _ _ => True) x := fun _ => trivial
  refine hx.zoom ?_
  exact fun s _ _ => refl_of R s.1

theorem traffic_getPeerCertificate : Moves R Link.getPeerCertificate := by
  unfold Link.getPeerCertificate
  refine Moves.bind Moves.get ?_
  intro link
  split
  . exact Moves.lift _
  . exact Moves.throw _

theorem traffic_receiveChallenge : Moves (Through R Prod.fst) (receiveChallenge der auth) := by
  unfold receiveChallenge
  refine Moves.bind (traffic_onLink (Traffic.moves_read 0)) ?_
  intro reply
  refine Moves.bind (Moves.lift _) ?_
  exact fun challenge => traffic_onAuth _

theorem traffic_getPublicKey :
    Moves (Through R Prod.fst) (getPublicKey der : Prog Error (Link × σ) Bytes) := by
  unfold getPublicKey
  refine Moves.bind (traffic_onLink traffic_getPeerCertificate) ?_
  intro certificate
  cases certificate with
  | none => exact Moves.throw _
  | some certificate =>
    refine Moves.bind (Moves.lift _) ?_
    exact fun bytes => Moves.lift _

theorem traffic_sendAuthenticate : Moves (Through R Prod.fst) (sendAuthenticate der auth) := by
  unfold sendAuthenticate
  refine Moves.bind (traffic_receiveChallenge der auth) ?_
  intro answer
  refine Moves.bind Moves.get ?_
  intro s
  refine Moves.bind (Moves.lift _) ?_
  intro securityInterface
  refine Moves.bind (traffic_getPublicKey der) ?_
  intro publicKey
  refine Moves.bind (Moves.on _ _) ?_
  rintro ⟨pubKeyAuth, securityInterface⟩
  refine Moves.bind (traffic_onLink (Traffic.moves_write _)) ?_
  exact fun _ => Moves.pure _

theorem traffic_csspConnect (restrictedAdminMode : Bool) :
    Moves (Through R Prod.fst) (csspConnect der auth restrictedAdminMode) := by
  unfold csspConnect
  refine Moves.bind ?_ ?_
  . refine Moves.bind (traffic_onAuth _) ?_
    exact fun nego => traffic_onLink (Traffic.moves_write _)
  intro
  refine Moves.bind (traffic_sendAuthenticate der auth) ?_
  rintro ⟨securityInterface, publicKey⟩
  refine Moves.bind ?_ ?_
  . refine Moves.bind (traffic_onLink (Traffic.moves_read 0)) ?_
    intro reply
    refine Moves.bind (Moves.lift _) ?_
    intro pubKeyAuth
    refine Moves.bind (Moves.on _ _) ?_
    rintro ⟨incPubKey, securityInterface⟩
    dsimp only
    split
    . exact Moves.throw _
    . exact Moves.pure _
  intro securityInterface
  refine Moves.bind Moves.get ?_
  intro s
  refine Moves.bind (Moves.on _ _) ?_
  rintro ⟨authInfo, securityInterface⟩
  exact traffic_onLink (Traffic.moves_write _)

end Cssp

namespace Mcs.Client

open Gcc (KeyboardLayout)

theorem traffic_modify {f : Client → Client} (h : ∀ client, (f client).link = client.link) :
    Moves (Through R Mcs.Client.link) (modifyThe Client f : Prog Error Client PUnit) := by
  refine Moves.modify ?_
  intro client
  rw [Through, h]
  exact refl_of R client.link

theorem traffic_writeConnectInitial (der : Der) (screenWidth screenHeight : UInt16)
    (keyboardLayout : KeyboardLayout) (clientName : String) : Moves (Through R Mcs.Client.link)
      (writeConnectInitial der screenWidth screenHeight keyboardLayout clientName) := by
  unfold writeConnectInitial
  refine Moves.bind Moves.get ?_
  intro client
  refine Moves.bind (Moves.lift _) ?_
  intro userData
  refine Moves.bind (Moves.lift _) ?_
  exact fun conference => through_onX224 (X224.Client.traffic_write _)

theorem traffic_readConnectResponse (der : Der) :
    Moves (Through R Mcs.Client.link) (readConnectResponse der) := by
  unfold readConnectResponse
  refine Moves.bind (through_onX224 X224.Client.traffic_read) ?_
  intro payload
  refine Moves.bind (Moves.lift _) ?_
  intro payload
  refine Moves.bind (Moves.lift _) ?_
  intro response
  refine Moves.bind (Moves.lift _) ?_
  intro userData
  refine Moves.bind (Moves.lift _) ?_
  intro ccResponse
  refine Moves.bind (Moves.on _ _) ?_
  exact fun _ => traffic_modify fun _ => rfl

theorem traffic_joinChannels (channelIds : List UInt16) :
    Moves (Through R Mcs.Client.link) (joinChannels channelIds) := by
  induction channelIds with
  | nil => exact Moves.pure ()
  | cons channelId channelIds ih =>
    rw [joinChannels]
    refine Moves.bind Moves.get ?_
    intro client
    refine Moves.bind (Moves.lift _) ?_
    intro request
    refine Moves.bind (through_onX224 (X224.Client.traffic_write _)) ?_
    intro
    refine Moves.bind (Moves.lift _) ?_
    intro userId
    refine Moves.bind (through_onX224 X224.Client.traffic_read) ?_
    intro payload
    refine Moves.bind (Moves.lift _) ?_
    intro payload
    refine Moves.bind (Moves.on _ _) ?_
    exact fun _ => ih

theorem traffic_attachUser : Moves (Through R Mcs.Client.link) attachUser := by
  unfold attachUser
  refine Moves.bind (Moves.lift _) ?_
  intro request
  refine Moves.bind (through_onX224 (X224.Client.traffic_write _)) ?_
  intro
  refine Moves.bind (through_onX224 (X224.Client.traffic_write _)) ?_
  intro
  refine Moves.bind (through_onX224 X224.Client.traffic_read) ?_
  intro payload
  refine Moves.bind (Moves.lift _) ?_
  intro payload
  refine Moves.bind (Moves.on _ _) ?_
  exact fun _ => Moves.pure _

theorem traffic_connect (der : Der) (clientName : String) (screenWidth screenHeight : UInt16)
    (keyboardLayout : KeyboardLayout) : Moves (Through R Mcs.Client.link)
      (connect der clientName screenWidth screenHeight keyboardLayout) := by
  unfold connect
  refine Moves.bind (traffic_writeConnectInitial der _ _ _ _) ?_
  intro
  refine Moves.bind (traffic_readConnectResponse der) ?_
  intro
  refine Moves.bind traffic_attachUser ?_
  intro userId
  refine Moves.bind (traffic_modify fun _ => rfl) ?_
  intro
  refine Moves.bind Moves.get ?_
  exact fun client => traffic_joinChannels _

theorem traffic_write (name : String) (m : Message) :
    Moves (Through R Mcs.Client.link) (write name m) := through_write Traffic.moves_write name m

theorem traffic_read : Moves (Through R Mcs.Client.link) read := by
  unfold read
  refine Moves.bind (through_onX224 X224.Client.traffic_read) ?_
  intro payload
  cases payload with
  | fastPath secFlag payload => exact Moves.pure _
  | raw payload =>
    refine Moves.bind Moves.get ?_
    intro client
    refine Moves.bind (Moves.on _ _) ?_
    exact fun payload => Moves.pure _

end Mcs.Client

theorem Sec.traffic_connect (domain username password : String) (autoLogon : Bool) :
    Moves (Through R Mcs.Client.link) (connect domain username password autoLogon) := by
  unfold connect
  refine Moves.bind Moves.get ?_
  intro client
  refine Moves.bind (Moves.lift _) ?_
  intro isExtendedInfo
  refine Moves.bind (Mcs.Client.traffic_write _ _) ?_
  intro
  refine Moves.bind Mcs.Client.traffic_read ?_
  rintro ⟨_, payload⟩
  refine Moves.bind (Moves.lift _) ?_
  intro stream
  refine Moves.bind (Moves.on _ _) ?_
  exact fun _ => Moves.pure _

namespace Global

def Session.link (s : Session) : Link := s.mcs.link

namespace Client

omit [Traffic R] in
theorem traffic_onMcs {x : Prog Error Mcs.Client α} (h : Moves (Through R Mcs.Client.link) x) :
    Moves (Through R Session.link) (onMcs x) :=
  h.zoom fun _ _ hmcs => hmcs

theorem traffic_modify {f : Session → Session} (h : ∀ s, (f s).mcs = s.mcs) :
    Moves (Through R Session.link) (modifyThe Session f : Prog Error Session PUnit) := by
  refine Moves.modify ?_
  intro s
  rw [Through, Session.link, Session.link, h]
  exact refl_of R s.mcs.link

theorem traffic_writePdu (message : PDU) : Moves (Through R Session.link) (writePdu message) := by
  unfold writePdu
  refine Moves.bind Moves.get ?_
  intro s
  refine Moves.bind (Moves.lift _) ?_
  intro bytes
  refine Moves.bind (Moves.lift _) ?_
  intro header
  refine Moves.bind (traffic_modify fun _ => rfl) ?_
  exact fun _ => traffic_onMcs (Mcs.Client.traffic_write _ _)

theorem traffic_writeDataPdu (message : DataPDU) :
    Moves (Through R Session.link) (writeDataPdu message) := by
  unfold writeDataPdu
  refine Moves.bind Moves.get ?_
  intro s
  refine Moves.bind (Moves.lift _) ?_
  exact traffic_writePdu

theorem traffic_writeConfirmActivePdu : Moves (Through R Session.link) writeConfirmActivePdu := by
  unfold writeConfirmActivePdu
  refine Moves.bind Moves.get ?_
  intro s
  refine Moves.bind (Moves.lift _) ?_
  exact traffic_writePdu

theorem traffic_writeClientFinalize : Moves (Through R Session.link) writeClientFinalize := by
  unfold writeClientFinalize
  refine Moves.bind Moves.get ?_
  intro s
  refine Moves.bind (traffic_writeDataPdu _) ?_
  intro
  refine Moves.bind (traffic_writeDataPdu _) ?_
  intro
  refine Moves.bind (traffic_writeDataPdu _) ?_
  exact fun _ => traffic_writeDataPdu _

theorem traffic_writeInputEvent (event : TSInputEvent) :
    Moves (Through R Session.link) (writeInputEvent event) := by
  unfold writeInputEvent
  refine Moves.bind Moves.get ?_
  intro s
  split
  . refine Moves.bind (Moves.lift _) ?_
    exact fun data => traffic_writeDataPdu _
  . exact Moves.throw _

theorem traffic_readCapabilities (capabilitySets : List DataType) :
    Moves (Through R Session.link) (readCapabilities capabilitySets) := by
  induction capabilitySets with
  | nil => exact Moves.pure ()
  | cons capabilitySet capabilitySets ih =>
    rw [readCapabilities]
    refine Moves.bind (Moves.lift _) ?_
    intro capability
    cases capability with
    | none => exact ih
    | some capability =>
      refine Moves.bind (traffic_modify fun _ => rfl) ?_
      exact fun _ => ih

theorem traffic_readDemandActivePdu (stream : Bytes) :
    Moves (Through R Session.link) (readDemandActivePdu stream) := by
  unfold readDemandActivePdu
  refine Moves.bind (Moves.lift _) ?_
  intro pdu
  split
  . refine Moves.bind (Moves.lift _) ?_
    intro capabilitySets
    refine Moves.bind (traffic_readCapabilities _) ?_
    intro
    refine Moves.bind (Moves.lift _) ?_
    intro shareId
    refine Moves.bind (traffic_modify fun _ => rfl) ?_
    exact fun _ => Moves.pure _
  . exact Moves.pure _

theorem traffic_expectPdu (read : Bytes → RdpResult Bool) (next : ClientState) (payload : Tpkt.Payload) :
    Moves (Through R Session.link) (expectPdu read next payload) := by
  unfold expectPdu
  refine Moves.bind (Moves.lift _) ?_
  intro found
  split
  . exact traffic_modify fun _ => rfl
  . exact Moves.pure ()

theorem traffic_expectDemandActivePdu (payload : Tpkt.Payload) :
    Moves (Through R Session.link) (expectDemandActivePdu payload) := by
  unfold expectDemandActivePdu
  refine Moves.bind (Moves.lift _) ?_
  intro stream
  refine Moves.bind (traffic_readDemandActivePdu stream) ?_
  intro found
  cases found with
  | false => exact Moves.pure ()
  | true =>
    refine Moves.bind traffic_writeConfirmActivePdu ?_
    intro
    refine Moves.bind traffic_writeClientFinalize ?_
    exact fun _ => traffic_modify fun _ => rfl

theorem traffic_readDataPdu (stream : Bytes) :
    Moves (Through R Session.link) (readDataPdu stream) := by
  intro s
  have hfinal := finalState_readDataPdu stream s
  by_cases hdeactivates : Deactivates stream
  . rw [hfinal.1 hdeactivates]
    exact refl_of R s.mcs.link
  . rw [hfinal.2 hdeactivates]
    exact refl_of R s.mcs.link

theorem traffic_readFastPath (stream : Bytes) :
    Moves (Through R Session.link) (readFastPath stream) := by
  refine (moves_readFastPath stream).imp ?_
  intro s t hkept
  rw [Through, Session.link, Session.link, hkept.2.1]
  exact refl_of R s.mcs.link

theorem traffic_read (payload : Tpkt.Payload) : Moves (Through R Session.link) (read payload) := by
  unfold read
  refine Moves.bind Moves.get ?_
  intro s
  cases s.client.state with
  | demandActivePDU => exact traffic_expectDemandActivePdu payload
  | data =>
    cases payload with
    | raw stream => exact traffic_readDataPdu stream
    | fastPath secFlag stream => exact traffic_readFastPath stream
  | _ => exact traffic_expectPdu _ _ payload

end Client

end Global

namespace RdpClient

open Global (Session)

theorem traffic_read : Moves (Through R Session.link) read := by
  unfold read
  refine Moves.bind (Global.Client.traffic_onMcs Mcs.Client.traffic_read) ?_
  rintro ⟨channelName, message⟩
  dsimp only
  split
  . exact Global.Client.traffic_read message
  . exact Moves.throw _

theorem traffic_write (event : RdpEvent) : Moves (Through R Session.link) (write event) := by
  cases event with
  | bitmap event => exact Moves.throw _
  | pointer pointer => exact Global.Client.traffic_writeInputEvent _
  | key key => exact Global.Client.traffic_writeInputEvent _

theorem traffic_tryWrite (event : RdpEvent) : Moves (Through R Session.link) (tryWrite event) := by
  intro s
  rw [finalState_tryWrite]
  exact traffic_write event s

theorem Use.traffic_after (uses : List Use) (s : Session) :
    Through R Session.link s (after uses s) := by
  induction uses generalizing s with
  | nil => exact refl_of R s.link
  | cons use uses ih =>
    refine trans_of (Through R Session.link) ?_ (ih _)
    cases use with
    | read => exact traffic_read s
    | write event => exact traffic_write event s
    | tryWrite event => exact traffic_tryWrite event s

end RdpClient

end Rdp
