import PromqlAssist.Command.Inquiry
import PromqlAssist.Settings.Document

/-!
# Finding the settings

Settings are read from the file that the command line names, or else from the one that a variable
names, or else from the first that exists of one in the working directory and one in the user's
configuration directory. Without a file the defaults are in force.
-/

namespace PromqlAssist.Settings

open Inquiry

def pathVariable : Text :=
  "PROMSENSE_CONFIG".toList

def fileName : Text :=
  "promsense.toml".toList

/-- A path below a directory. -/
def below (directory name : Text) : Text :=
  if directory.isEmpty || directory.getLast? = some '/' then directory ++ name
  else directory ++ '/' :: name

/-- The user's configuration directory. A path that is not absolute does not count as one. -/
def userDirectory : Inquiry (Option Text) := do
  match ← askVariable "XDG_CONFIG_HOME".toList with
  | some ('/' :: path) => return some ('/' :: path)
  | _ => return (← askVariable "HOME".toList).map fun home => below home ".config".toList

def ofFile (path : Text) : FileContent → Except SettingsError Settings
  | .absent _ => .error (.fileNotFound path)
  | .unreadable _ => .error .unreadable
  | .text t => ofText t

/-- The settings of the first file that exists. -/
def search : List Text → Inquiry (Except SettingsError Settings)
  | [] => return .ok default
  | path :: paths => do
    let content ← askFile path
    if content.isPresent then return ofFile path content else search paths

def load (explicit? : Option Text) : Inquiry (Except SettingsError Settings) := do
  let named? ← match explicit? with
    | some path => pure (some path)
    | none => askVariable pathVariable
  match named? with
  | some path => return ofFile path (← askFile path)
  | none =>
    let user := (← userDirectory).map fun directory =>
      below (below directory "promsense".toList) fileName
    search (fileName :: user.toList)

/-- The names of the variables that the server's address refers to. -/
def addressVariables (s : Settings) : List Text :=
  (TextPiece.ofText s.serverAddress).filterMap fun
    | .literal _ => none
    | .reference name _ => some name

/-- The server's address, for which variables are asked. -/
def askAddress (s : Settings) : Inquiry (Except SettingsError SocketAddress) := do
  return s.address (← askEnvironment s.addressVariables)

end PromqlAssist.Settings
