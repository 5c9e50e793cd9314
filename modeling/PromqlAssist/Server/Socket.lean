import PromqlAssist.Server.Stream

/-!
# Serving sockets

A client at a socket sends one message body a frame, without a header. The header is put in front of
what comes in and taken off what goes out, so that a connection sees the same bytes as on a stream.
Every client has a connection of its own.
-/

namespace PromqlAssist

/-- A frame from a client. -/
inductive SocketFrame where
  | text (t : Text)
  | binary (bytes : Bytes)
  | ping (payload : Bytes)
  | pong (payload : Bytes)
  | close
deriving DecidableEq, Repr

/-- A frame to a client. -/
inductive SocketReply where
  | text (t : Text)
  | pong (payload : Bytes)
  | close
deriving DecidableEq, Repr

/-- The server's side of one client. -/
structure SocketClient where
  stream : ServerStream
  /-- What the connection has written of a message that is not whole yet. -/
  written : Bytes
  isOpen : Bool

namespace SocketClient

def start (vocabulary : Vocabulary) (options : SessionOptions) : SocketClient :=
  ⟨.start vocabulary options, [], true⟩

/-- Sends every message that is whole as one frame of text. -/
def relay (c : SocketClient) (bytes : Bytes) : List SocketReply × SocketClient :=
  let (bodies, left, _) := Framing.drain (c.written ++ bytes)
  (bodies.map .text, { c with written := left })

/-- Closes the socket if the connection has stopped reading. -/
def closeUnlessReading (c : SocketClient) : List SocketReply × SocketClient :=
  if c.stream.isReading then ([], c) else ([.close], { c with isOpen := false })

/-- Hands a message body to the connection and sends what it answers. -/
def deliver (c : SocketClient) (now : Nat) (body : Bytes) : List SocketReply × SocketClient :=
  let (out, stream) := c.stream.receive now (Framing.frame body)
  let (sent, c) := { c with stream := stream }.relay (ServerStream.encode out)
  let (last, c) := c.closeUnlessReading
  (sent ++ last, c)

/-- Takes a frame. Once the socket is closed nothing is taken. -/
def receive (c : SocketClient) (now : Nat) (frame : SocketFrame) :
    List SocketReply × SocketClient :=
  if !c.isOpen then ([], c)
  else
    match frame with
    | .text t => c.deliver now (Utf8.encode t)
    | .binary bytes => c.deliver now bytes
    | .ping payload => ([.pong payload], c)
    | .pong _ => ([], c)
    | .close => ([.close], { c with isOpen := false })

/-- Lets time pass. A closed socket is sent nothing. -/
def advance (c : SocketClient) (now time : Nat) : List SocketReply × SocketClient :=
  let (out, stream) := c.stream.advance now time
  if c.isOpen then { c with stream := stream }.relay (ServerStream.encode out)
  else ([], { c with stream := stream })

end SocketClient

end PromqlAssist
