import PromqlAssist.Format.Json.Parser
import PromqlAssist.Format.Json.Printer
import PromqlAssist.Format.Utf8

/-!
# Remote procedure calls

The messages of JSON-RPC 2.0: calls, which carry an identifier when they want a reply, replies, and
notices from the server.
-/

namespace PromqlAssist

inductive RequestId where
  | null
  | number (n : Int)
  | string (t : Text)
deriving DecidableEq, Repr

namespace RequestId

def toJson : RequestId → Json
  | .null => .null
  | .number n => .int n
  | .string t => .str t

/-- Identifiers are strings, numbers of 64 bits with a sign, or null. -/
def ofJson? : Json → Option RequestId
  | .null => some .null
  | .int n => if -Int.pow 2 63 ≤ n ∧ n < Int.pow 2 63 then some (.number n) else none
  | .str t => some (.string t)
  | _ => none

end RequestId

/-- Why a call fails. -/
inductive CallError where
  /-- The message is no JSON. -/
  | parse
  /-- The message is no call, or it comes at the wrong time. -/
  | invalidRequest
  | methodNotFound
  | invalidParams
  /-- The server has not been initialized. -/
  | notInitialized
deriving DecidableEq, Repr

namespace CallError

def code : CallError → Int
  | .parse => -32700
  | .invalidRequest => -32600
  | .methodNotFound => -32601
  | .invalidParams => -32602
  | .notInitialized => -32002

def message : CallError → String
  | .parse => "Parse error"
  | .invalidRequest => "Invalid request"
  | .methodNotFound => "Method not found"
  | .invalidParams => "Invalid params"
  | .notInitialized => "Server not initialized"

end CallError

/-- A call of a method. Without an identifier it is a notification. -/
structure Call where
  method : String
  params? : Option Json
  id? : Option RequestId

/-- A message from a client. -/
inductive Incoming where
  | call (call : Call)
  /-- A reply to a call of the server, of which there are none. -/
  | reply

/-- A message to a client. -/
inductive Outgoing where
  | result (id : RequestId) (value : Json)
  | error (id : RequestId) (why : CallError)
  | notice (method : String) (params : Json)

namespace Outgoing

def toJson : Outgoing → Json
  | .result id v =>
    Json.object [("jsonrpc", .ofString "2.0"), ("result", v), ("id", id.toJson)]
  | .error id e =>
    Json.object [("jsonrpc", .ofString "2.0"),
      ("error", Json.object [("code", .int e.code), ("message", .ofString e.message)]),
      ("id", id.toJson)]
  | .notice method params =>
    Json.object [("jsonrpc", .ofString "2.0"), ("method", .ofString method), ("params", params)]

/-- The message as it is sent. -/
def body (o : Outgoing) : Bytes :=
  Utf8.encode o.toJson.compact

end Outgoing

namespace Incoming

/-- Whether an object has a member more than once. -/
def repeats (name : String) : Json → Bool
  | .obj members => 1 < (members.filter fun m => m.1 = name.toList).length
  | _ => false

def isErrorObject (j : Json) : Bool :=
  ((j.member? "code").bind Json.int?).isSome && ((j.member? "message").bind Json.text?).isSome

/-- Whether an object is a reply: it has an identifier, and a result or an error. -/
def isReply (j : Json) : Bool :=
  ((j.member? "id").bind RequestId.ofJson?).isSome
    && ((j.member? "result").isSome || ((j.member? "error").map isErrorObject).getD false)

/-- A call. A call that names no method calls the one with the empty name. -/
def call? (j : Json) : Option Call := do
  let method ← match j.member? "method" with
    | none => some []
    | some m => m.text?
  let id? ← match j.member? "id" with
    | none => some none
    | some id => (RequestId.ofJson? id).map some
  some ⟨String.ofList method, j.member? "params", id?⟩

/-- A message in JSON. It has to name the version of the protocol. -/
def ofJson? (j : Json) : Option Incoming :=
  if (j.member? "jsonrpc").bind Json.text? ≠ some "2.0".toList
      || ["jsonrpc", "method", "params", "id"].any fun name => repeats name j then none
  else if isReply j then some .reply
  else (call? j).map .call

/-- Reads the body of a message. An empty one says nothing. -/
def ofBody (bytes : Bytes) : Except CallError (Option Incoming) :=
  if bytes.isEmpty then .ok none
  else
    match (Utf8.decode? bytes).bind Json.parse? with
    | none => .error .parse
    | some j =>
      match ofJson? j with
      | none => .error .invalidRequest
      | some m => .ok (some m)

end Incoming

end PromqlAssist
