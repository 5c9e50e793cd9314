import PromqlAssist.Command.Arguments
import PromqlAssist.Command.Configuration
import PromqlAssist.Command.Listing
import PromqlAssist.Server.Connection

/-!
# Running commands

Checking a query, completing it, listing the templates, and serving an editor.
-/

namespace PromqlAssist

/-- What a command comes to. -/
inductive CommandOutcome where
  /-- The program ends with a status, having written to its two output streams. -/
  | finished (status : Nat) (output errors : Text)
  /-- The language server talks over the standard streams. -/
  | serve (vocabulary : Vocabulary) (options : SessionOptions)
  /-- The language server listens at an address. -/
  | listen (address : SocketAddress) (vocabulary : Vocabulary) (options : SessionOptions)

namespace CommandOutcome

def line (t : Text) : Text :=
  t ++ ['\n']

def success (output : Text) : CommandOutcome :=
  .finished 0 (line output) []

def failureStatus : Nat :=
  1

def failure (errors : Text) : CommandOutcome :=
  .finished failureStatus [] (line errors)

def settingsFailure (e : SettingsError) : CommandOutcome :=
  failure ("Configuration error: ".toList ++ e.message)

/-- What is written when an address cannot be listened at. The status is that of any failure. -/
def listenErrors (why : Text) : Text :=
  "WebSocket server error: ".toList ++ why

end CommandOutcome

namespace Command

open CommandOutcome Inquiry

/-- The verdict on a query that goes by a name. -/
def checked (vocabulary : Vocabulary) (name query : Text) : CommandOutcome :=
  match validate vocabulary query with
  | [] => success ("OK: ".toList ++ name ++ " is valid".toList)
  | found => failure (List.intercalate ['\n'] (found.map fun f => f.line.toList))

/-- The verdict on a query that was read. -/
def checkedContent (vocabulary : Vocabulary) (name : Text) : FileContent → CommandOutcome
  | .absent why | .unreadable why => failure ("Error reading query: ".toList ++ why)
  | .text query => checked vocabulary name query

def completed (s : Settings) (query : Text) (cursor? : Option Nat) (json : Bool) :
    CommandOutcome :=
  let ps := PromqlAssist.complete s.vocabulary s.limit query (cursor?.getD query.size)
  if json then success (Json.arr (ps.map (·.toJson))).pretty
  else if ps.isEmpty then success "No proposals.".toList
  else success (Listing.proposals ps)

def listed (json : Bool) : CommandOutcome :=
  success (if json then (Json.arr (Template.builtin.map (·.toJson))).pretty
    else Listing.templates Template.builtin)

/-- Runs a command under settings. -/
def run (s : Settings) : Command → Inquiry CommandOutcome
  | .check (.given query) => return checked s.vocabulary "<query>".toList query
  | .check (.file path) => return checkedContent s.vocabulary path (← askFile path)
  | .check .input => return checkedContent s.vocabulary "<stdin>".toList (← askInput)
  | .complete query cursor? json => return completed s query cursor? json
  | .templates json => return listed json
  | .serve .standardStreams => return .serve s.vocabulary s.options
  | .serve .configuredSocket => do
    match ← s.askAddress with
    | .error e => return settingsFailure e
    | .ok address => return .listen address s.vocabulary s.options
  | .serve (.socket written) =>
    return match SocketAddress.ofText? written with
      | some address => .listen address s.vocabulary s.options
      | none =>
        failure ("Invalid address '".toList ++ written
          ++ "': invalid socket address syntax".toList)

end Command

namespace Invocation

open CommandOutcome

def usage : Text :=
  List.intercalate ['\n']
    (["Usage: promsense [-c <CONFIG>] <COMMAND>", "", "Commands:", "  check [QUERY] [-f <FILE>]",
      "  complete <QUERY> [--cursor <CURSOR>] [--json]", "  templates [--json]",
      "  lsp [--websocket [<ADDRESS>]]"].map String.toList)

def versionLine : Text :=
  (Connection.serverName ++ " " ++ Connection.serverVersion).toList

/-- Runs the program. The settings are loaded before the command looks at anything else. -/
def run (args : List Text) : Inquiry CommandOutcome := do
  match ofArguments args with
  | .error .usage => return .finished 2 [] (line usage)
  | .error .help => return success usage
  | .error .version => return success versionLine
  | .ok invocation =>
    match ← Settings.load invocation.config? with
    | .error e => return settingsFailure e
    | .ok settings => invocation.command.run settings

end Invocation

end PromqlAssist
