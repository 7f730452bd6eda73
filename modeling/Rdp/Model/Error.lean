import Rdp.Lib.Program

/-!
The errors of the crate. A function that returns `RdpResult` can also abort.
-/

namespace Rdp

inductive RdpErrorKind where
  | invalidData
  | invalidRespond
  | notImplemented
  | protocolNegFailure
  | invalidAutomata
  | invalidProtocol
  | invalidCast
  | invalidConst
  | invalidChecksum
  | invalidOptionalField
  | invalidSize
  | possibleMITM
  | rejectedByServer
  | disconnect
  | unknown
  | unexpectedType
  deriving DecidableEq, Repr

structure RdpError where
  kind : RdpErrorKind
  message : String
  deriving DecidableEq, Repr

/--
The kinds of `std::io::Error` the crate can see. Only `interrupted` is treated apart by the
standard library, which retries the call.
-/
inductive IoError where
  | interrupted
  | unexpectedEof
  | other (message : String)
  deriving DecidableEq, Repr

inductive Error where
  | rdpError (e : RdpError)
  | io (e : IoError)
  | sslHandshakeError
  | sslError (message : String)
  | asn1Error (message : String)
  | tryError (message : String)
  deriving DecidableEq, Repr

def Error.new (kind : RdpErrorKind) (message : String) : Error := .rdpError ⟨kind, message⟩

abbrev RdpResult (α : Type) := Except (Fault Error) α

/--
`From<TryFromPrimitiveError<T>>`: the conversion of a number that is no variant of an enumeration.
-/
def Error.enumConversion : Error := .new .invalidCast "Invalid enum conversion"

end Rdp
