import Rdp.Model.Transport
import Rdp.Model.Data.Impl

/-!
This module contains the link layer: a stream that is raw or wrapped into TLS, and the messages and
byte counts that go over it.
-/

namespace Rdp

/--
A certificate of the TLS library, which encodes it on request.
-/
structure Certificate where
  toDer : RdpResult Bytes

structure TlsStream where
  socket : Socket
  peerCertificate : RdpResult (Option Certificate)

inductive Stream where
  | raw (stream : Socket)
  | ssl (stream : TlsStream)

namespace Stream

def socket (s : Stream) : Socket :=
  match s with
  | .raw stream => stream
  | .ssl stream => stream.socket

def withSocket (socket : Socket) (s : Stream) : Stream :=
  match s with
  | .raw _ => .raw socket
  | .ssl stream => .ssl { stream with socket }

def readExact (n : Nat) : Prog Error Stream Bytes :=
  Prog.zoom socket withSocket (Socket.readExact n)

def read (n : Nat) : Prog Error Stream Bytes :=
  Prog.zoom socket withSocket (Socket.read n)

def write (buffer : Bytes) : Prog Error Stream Nat :=
  Prog.zoom socket withSocket (Socket.write buffer)

end Stream

/--
The TLS library: it may fail to build a connector for these options, and it turns a raw stream into
a TLS stream or fails in the handshake.
-/
structure Tls where
  build : Bool → RdpResult Unit
  connect : Bool → Socket → RdpResult TlsStream

/--
The link also remembers the buffers it was given to send, in order, whatever became of them.
-/
structure Link where
  stream : Stream
  sent : List Bytes

namespace Link

def onStream (x : Prog Error Stream α) : Prog Error Link α :=
  Prog.zoom (·.stream) (fun stream link => { link with stream }) x

def record (buffer : Bytes) : Prog Error Link Unit :=
  modify fun link => { link with sent := link.sent ++ [buffer] }

/--
The count of the bytes that were accepted is dropped.
-/
def write (message : Message) : Prog Error Link Unit := do
  let buffer ← Prog.lift message.write
  record buffer
  let _ ← onStream (Stream.write buffer)
  return ()

/--
For an expected size of zero this is a single read of whatever is there.
-/
def read (expectedSize : Nat) : Prog Error Link Bytes :=
  if expectedSize = 0 then
    onStream (Stream.read 1500)
  else
    onStream (Stream.readExact expectedSize)

/--
`start_ssl` consumes the link: the TLS stream goes on in its place.
-/
def startSsl (tls : Tls) (checkCertificate : Bool) : Prog Error Link Unit := do
  Prog.lift (tls.build checkCertificate)
  match (← get).stream with
  | .raw stream =>
    let stream ← Prog.lift (tls.connect checkCertificate stream)
    modify fun link => { link with stream := .ssl stream }
  | .ssl _ => Prog.fail (.new .notImplemented "start_ssl on ssl stream is forbidden")

def getPeerCertificate : Prog Error Link (Option Certificate) := do
  match (← get).stream with
  | .ssl stream => Prog.lift stream.peerCertificate
  | .raw _ =>
    Prog.fail (.new .invalidData "get peer certificate on non ssl link is impossible")

/--
Only a TLS stream is closed, which may fail in the TLS library.
-/
def shutdown (close : TlsStream → RdpResult Unit) : Prog Error Link Unit := do
  match (← get).stream with
  | .ssl stream => Prog.lift (close stream)
  | .raw _ => return ()

end Link

end Rdp
