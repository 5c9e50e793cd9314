import PromqlAssist.Server.Clock
import PromqlAssist.Server.Request

/-!
# Connections

A connection takes the messages of one client in their order. Most calls are only served between the
first request and the request to shut down; a notification to exit ends the connection for good.
-/

namespace PromqlAssist

/-- How far a connection has come. -/
inductive Phase where
  | uninitialized
  | initialized
  | shutDown
  | exited
deriving DecidableEq, Repr

structure Connection where
  phase : Phase
  backend : Backend

namespace Connection

def start (vocabulary : Vocabulary) (options : SessionOptions) : Connection :=
  ⟨.uninitialized, .start vocabulary options⟩

def serverName : String :=
  "promsense"

def serverVersion : String :=
  "0.1.0"

/-- The characters that make a client ask for completions. -/
def triggerCharacters : List String :=
  ["(", "\x7b", "[", ",", "=", " "]

/-- What the server offers. A document is always sent as a whole. -/
def capabilities : Json :=
  Json.object
    [("capabilities", Json.object
      [("textDocumentSync", .ofNat 1),
       ("completionProvider", Json.object
        [("resolveProvider", .bool false),
         ("triggerCharacters", .arr (triggerCharacters.map .ofString))])]),
     ("serverInfo", Json.object
      [("name", .ofString serverName), ("version", .ofString serverVersion)])]

/-- The greeting that the server logs at the client. -/
def greeting : Outgoing :=
  .notice "window/logMessage" (Json.object
    [("type", .ofNat 3), ("message", .ofString "promsense language server initialized")])

def publication (p : Publication) : Outgoing :=
  .notice "textDocument/publishDiagnostics" p.toJson

/-- The error for a call in the wrong phase. -/
def phaseError : Phase → CallError
  | .uninitialized => .notInitialized
  | _ => .invalidRequest

/-- Serves a request, its parameters read. -/
def serve (c : Connection) : Request → Except CallError Json
  | .start => .ok capabilities
  | .unsupported => .error .methodNotFound
  | .completion uri position =>
    .ok (match c.backend.completions uri position with
      | some items => .arr (items.map (·.toJson))
      | none => .null)

/-- Takes note of a notification, its parameters read. -/
def note (c : Connection) (now : Nat) : Notification → List Outgoing × Connection
  | .initialized => ([greeting], c)
  | .opened uri version text =>
    ([], { c with backend := c.backend.openDocument now uri version text })
  | .changed uri version texts =>
    ([], { c with backend := c.backend.changeDocument now uri version texts })
  | .closed uri =>
    let (p, backend) := c.backend.closeDocument uri
    ([publication p], { c with backend := backend })
  | .other => ([], c)

def reply (id : RequestId) : Except CallError Json → Outgoing
  | .ok value => .result id value
  | .error e => .error id e

/-- The request to start. It is served once. -/
def receiveInitialize (c : Connection) (call : Call) : List Outgoing × Connection :=
  match call.id? with
  | none => ([], c)
  | some id =>
    if c.phase ≠ .uninitialized then ([.error id .invalidRequest], c)
    else
      match call.params?.bind Params.start? with
      | none => ([.error id .invalidParams], c)
      | some r => ([reply id (c.serve r)], { c with phase := .initialized })

/-- The request to shut down. It takes no parameters. -/
def receiveShutdown (c : Connection) (call : Call) : List Outgoing × Connection :=
  if c.phase ≠ .initialized then
    (call.id?.toList.map fun id => .error id (phaseError c.phase), c)
  else
    let c := { c with phase := .shutDown }
    match call.id? with
    | none => ([], c)
    | some id =>
      if call.params?.isSome then ([.error id .invalidParams], c)
      else ([.result id .null], { c with backend := c.backend.shutDown })

/-- A request, given the reader of its parameters. Without an identifier it is not served. -/
def receiveRequest (c : Connection) (call : Call) (read : Json → Option Request) :
    List Outgoing :=
  match call.id? with
  | none => []
  | some id =>
    if c.phase ≠ .initialized then [.error id (phaseError c.phase)]
    else
      match call.params?.bind read with
      | none => [.error id .invalidParams]
      | some r => [reply id (c.serve r)]

/-- A notification, given the reader of its parameters. One with an identifier is only answered when
it comes in the wrong phase, and one with bad parameters is dropped. -/
def receiveNotification (c : Connection) (now : Nat) (call : Call)
    (read : Json → Option Notification) : List Outgoing × Connection :=
  if c.phase ≠ .initialized then
    (call.id?.toList.map fun id => .error id (phaseError c.phase), c)
  else if call.id?.isSome then ([], c)
  else
    match call.params?.bind read with
    | none => ([], c)
    | some n => c.note now n

/-- Takes a call. Methods that the protocol does not have are not found in any phase, except that
optional ones, whose name starts with `$/`, are passed over. -/
def receive (c : Connection) (now : Nat) (call : Call) : List Outgoing × Connection :=
  if c.phase = .exited then ([], c)
  else if call.method = "exit" then ([], { c with phase := .exited })
  else if call.method = "initialize" then c.receiveInitialize call
  else if call.method = "shutdown" then c.receiveShutdown call
  else if let some read := Request.reader? call.method then (c.receiveRequest call read, c)
  else if let some read := Notification.reader? call.method then
    c.receiveNotification now call read
  else if "$/".toList.isPrefixOf call.method.toList then ([], c)
  else (call.id?.toList.map fun id => .error id .methodNotFound, c)

/-- Lets time pass. Nothing is published before the first request or after the exit. -/
def advance (c : Connection) (now time : Nat) : List (Nat × Publication) × Connection :=
  let (ps, backend) := c.backend.advance now time
  (if c.phase = .initialized ∨ c.phase = .shutDown then ps else [], { c with backend := backend })

/-- Takes the body of a message, and tells whether the connection goes on reading. It stops at a
body that is no message. -/
def receiveBody (c : Connection) (now : Nat) (body : Bytes) : List Outgoing × Connection × Bool :=
  match Incoming.ofBody body with
  | .error e => ([.error .null e], c, false)
  | .ok none => ([], c, true)
  | .ok (some .reply) => ([], c, true)
  | .ok (some (.call call)) =>
    let (out, c) := c.receive now call
    (out, c, true)

/-- Takes the body of a message and then runs what is due at once. -/
def exchange (c : Connection) (now : Nat) (body : Bytes) : List Outgoing × Connection × Bool :=
  if c.phase = .exited then ([], c, false)
  else
    let (out, c, goesOn) := c.receiveBody now body
    let (ps, c) := c.advance now now
    (out ++ ps.map fun p => publication p.2, c, goesOn)

end Connection

end PromqlAssist
