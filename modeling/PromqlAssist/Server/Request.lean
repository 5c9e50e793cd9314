import PromqlAssist.Server.Message
import PromqlAssist.Text.Position

/-!
# Requests of the language server protocol

The methods that the server answers or knows by name, and their parameters.
-/

namespace PromqlAssist

/-- A call with its parameters read. -/
inductive Request where
  | start
  | completion (uri : String) (position : Position)
  /-- A method of the protocol that the server does not offer. -/
  | unsupported
deriving DecidableEq, Repr

/-- A notification with its parameters read. -/
inductive Notification where
  | initialized
  | opened (uri : String) (version : Int) (text : Text)
  | changed (uri : String) (version : Int) (texts : List Text)
  | closed (uri : String)
  /-- A notification of the protocol that the server takes no notice of. -/
  | other
deriving DecidableEq, Repr

namespace Params

/-- The address of a document: a scheme, a colon, and the rest. Schemes are in lower case. -/
def uri? (j : Json) : Option String := do
  let t ← j.text?
  let (scheme, rest) ← Text.splitAt? [':'] t
  match scheme with
  | c :: more =>
    if c.isAlpha && more.all (fun d => d.isAlphanum || d = '+' || d = '-' || d = '.') then
      some (String.ofList (scheme.map Char.toLower ++ ':' :: rest))
    else none
  | [] => none

/-- The address of the document that parameters are about. -/
def document? (j : Json) : Option String :=
  (j.member? "textDocument").bind fun d => (d.member? "uri").bind uri?

/-- Versions are numbers of 32 bits with a sign. -/
def version? (j : Json) : Option Int := do
  let n ← (← (← j.member? "textDocument").member? "version").int?
  if -Int.pow 2 31 ≤ n ∧ n < Int.pow 2 31 then some n else none

/-- Lines and columns are numbers of 32 bits. -/
def position? (j : Json) : Option Position := do
  let line ← (← j.member? "line").natBelow? (Nat.pow 2 32)
  let column ← (← j.member? "character").natBelow? (Nat.pow 2 32)
  some ⟨line, column⟩

def opened? (j : Json) : Option Notification := do
  let document ← j.member? "textDocument"
  let _ ← (← document.member? "languageId").text?
  some (.opened (← document? j) (← version? j) (← (← document.member? "text").text?))

/-- The text of a change. A change of a part of the document has a range, which is not read. -/
def changeText? (j : Json) : Option Text :=
  (j.member? "text").bind Json.text?

def changed? (j : Json) : Option Notification := do
  let changes ← (← j.member? "contentChanges").items?
  some (.changed (← document? j) (← version? j) (← changes.mapM changeText?))

def closed? (j : Json) : Option Notification :=
  (document? j).map .closed

def completion? (j : Json) : Option Request := do
  some (.completion (← document? j) (← position? (← j.member? "position")))

/-- The server reads nothing from the parameters of the first request, but they have to list the
client's capabilities. -/
def start? (j : Json) : Option Request :=
  match j.member? "capabilities" with
  | some (.obj _) => some .start
  | _ => none

def isObject : Json → Bool
  | .obj _ => true
  | _ => false

def anyObject? {α : Type} (value : α) (j : Json) : Option α :=
  if isObject j then some value else none

def atDocument? {α : Type} (value : α) (j : Json) : Option α :=
  (document? j).map fun _ => value

def atPosition? {α : Type} (value : α) (j : Json) : Option α := do
  let _ ← document? j
  let _ ← position? (← j.member? "position")
  some value

end Params

namespace Request

/-- Methods at a position of a document that the server does not offer. -/
def positionMethods : List String :=
  ["textDocument/declaration", "textDocument/definition", "textDocument/typeDefinition",
    "textDocument/implementation", "textDocument/references", "textDocument/prepareCallHierarchy",
    "textDocument/prepareTypeHierarchy", "textDocument/documentHighlight", "textDocument/hover",
    "textDocument/moniker", "textDocument/signatureHelp", "textDocument/onTypeFormatting",
    "textDocument/rename", "textDocument/prepareRename", "textDocument/linkedEditingRange"]

/-- Methods of a whole document that the server does not offer. -/
def documentMethods : List String :=
  ["textDocument/documentLink", "textDocument/codeLens", "textDocument/foldingRange",
    "textDocument/selectionRange", "textDocument/documentSymbol",
    "textDocument/semanticTokens/full", "textDocument/semanticTokens/full/delta",
    "textDocument/semanticTokens/range", "textDocument/inlineValue", "textDocument/inlayHint",
    "textDocument/diagnostic", "textDocument/codeAction", "textDocument/documentColor",
    "textDocument/colorPresentation", "textDocument/formatting", "textDocument/rangeFormatting",
    "textDocument/willSaveWaitUntil"]

/-- Other methods that the server does not offer. -/
def otherMethods : List String :=
  ["callHierarchy/incomingCalls", "callHierarchy/outgoingCalls", "typeHierarchy/supertypes",
    "typeHierarchy/subtypes", "documentLink/resolve", "codeLens/resolve", "inlayHint/resolve",
    "completionItem/resolve", "codeAction/resolve", "workspace/diagnostic", "workspace/symbol",
    "workspaceSymbol/resolve", "workspace/willCreateFiles", "workspace/willRenameFiles",
    "workspace/willDeleteFiles", "workspace/executeCommand"]

/-- The reader of a method's parameters, if the protocol has the method. -/
def reader? (method : String) : Option (Json → Option Request) :=
  if method = "initialize" then some Params.start?
  else if method = "textDocument/completion" then some Params.completion?
  else if method ∈ positionMethods then some (Params.atPosition? .unsupported)
  else if method ∈ documentMethods then some (Params.atDocument? .unsupported)
  else if method ∈ otherMethods then some (Params.anyObject? .unsupported)
  else none

end Request

namespace Notification

/-- Notifications that the server takes no notice of. -/
def ignoredMethods : List String :=
  ["textDocument/willSave", "textDocument/didSave", "workspace/didChangeWorkspaceFolders",
    "workspace/didChangeConfiguration", "workspace/didChangeWatchedFiles",
    "workspace/didCreateFiles", "workspace/didRenameFiles", "workspace/didDeleteFiles",
    "$/cancelRequest"]

/-- The reader of a notification's parameters, if the protocol has it. -/
def reader? (method : String) : Option (Json → Option Notification) :=
  if method = "initialized" then some (Params.anyObject? .initialized)
  else if method = "textDocument/didOpen" then some Params.opened?
  else if method = "textDocument/didChange" then some Params.changed?
  else if method = "textDocument/didClose" then some Params.closed?
  else if method ∈ ignoredMethods then some (Params.anyObject? .other)
  else none

end Notification

end PromqlAssist
