import PromqlAssist.Server.Connection
import PromqlAssist.Server.Framing

/-!
# Serving byte streams

A connection over a stream of framed messages. Bytes may arrive in pieces of any size.
-/

namespace PromqlAssist

/-- A connection with the bytes that make up no whole message yet. -/
structure ServerStream where
  connection : Connection
  buffer : Bytes
  /-- Whether more messages are read. -/
  isReading : Bool

namespace ServerStream

def start (vocabulary : Vocabulary) (options : SessionOptions) : ServerStream :=
  ⟨.start vocabulary options, [], true⟩

/-- Takes the bodies of messages in their order, as long as the connection reads. -/
def take (s : ServerStream) (now : Nat) : List Bytes → List Outgoing × ServerStream
  | [] => ([], s)
  | body :: bodies =>
    if s.isReading then
      let (out, c, goesOn) := s.connection.exchange now body
      let (later, s) := take { s with connection := c, isReading := goesOn } now bodies
      (out ++ later, s)
    else ([], s)

/-- Takes bytes as they arrive. -/
def receive (s : ServerStream) (now : Nat) (bytes : Bytes) : List Outgoing × ServerStream :=
  let (bodies, left) := Framing.bodies (s.buffer ++ bytes)
  { s with buffer := left }.take now bodies

/-- Lets time pass. -/
def advance (s : ServerStream) (now time : Nat) : List Outgoing × ServerStream :=
  let (ps, c) := s.connection.advance now time
  (ps.map fun p => Connection.publication p.2, { s with connection := c })

/-- What is sent for messages, as bytes. -/
def encode (out : List Outgoing) : Bytes :=
  out.flatMap fun o => Framing.frame o.body

end ServerStream

end PromqlAssist
