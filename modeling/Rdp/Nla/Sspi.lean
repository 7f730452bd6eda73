import Rdp.Model.Cursor

/-!
This module contains the interfaces of an authentication protocol, as CSSP uses them. An
implementation is a record of programs over its own state.
-/

namespace Rdp

structure GenericSecurityService (τ : Type) where
  gssWrapex : Bytes → Prog Error τ Bytes
  gssUnwrapex : Bytes → Prog Error τ Bytes

structure AuthenticationProtocol (σ τ : Type) where
  createNegotiateMessage : Prog Error σ Bytes
  readChallengeMessage : Bytes → Prog Error σ Bytes
  buildSecurityInterface : σ → RdpResult τ
  gss : GenericSecurityService τ
  getDomainName : σ → Bytes
  getUserName : σ → Bytes
  getPassword : σ → Bytes

end Rdp
