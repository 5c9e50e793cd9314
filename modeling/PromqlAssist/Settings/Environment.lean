import PromqlAssist.Format.SocketAddress
import PromqlAssist.Settings.Basic

/-!
# Variables in settings

A dollar sign refers to a variable: its name follows in braces, perhaps with a default, or as the
longest run of letters, digits and underscores. What a variable holds is put in as it is; it is not
searched for references.
-/

namespace PromqlAssist

/-- The variables that are set. -/
abbrev Environment := Text → Option Text

/-- A piece of a text with references. -/
inductive TextPiece where
  | literal (c : Char)
  | reference (name : Text) (default? : Option Text)
deriving DecidableEq, Repr

namespace TextPiece

def isNameChar (c : Char) : Bool :=
  Text.isAlphanumeric c || c = '_'

/-- The reference of what stands between braces. -/
def ofBody (body : Text) : TextPiece :=
  match Text.splitAt? ":-".toList body with
  | some (name, default) => .reference name (some default)
  | none => .reference body none

/-- The pieces of a text. A brace that is never closed reaches to the end, and a dollar sign that
starts no reference stands for itself. -/
def ofText : Text → List TextPiece
  | [] => []
  | '$' :: '{' :: t =>
    let body := t.takeWhile (· ≠ '}')
    ofBody body :: ofText (t.drop (body.length + 1))
  | '$' :: t =>
    let name := t.takeWhile isNameChar
    if name.isEmpty then .literal '$' :: ofText t
    else .reference name none :: ofText (t.drop name.length)
  | c :: t => .literal c :: ofText t
termination_by t => t.length
decreasing_by all_goals simp; try omega

/-- What a piece stands for. -/
def expand (env : Environment) : TextPiece → Except SettingsError Text
  | .literal c => .ok [c]
  | .reference name default? =>
    match env name, default? with
    | some value, _ => .ok value
    | none, some default => .ok default
    | none, none => .error (.missingVariable name)

end TextPiece

namespace Environment

/-- Puts variables in place of the references to them. The first reference to a variable that is not
set and has no default is the error. -/
def expand (env : Environment) (t : Text) : Except SettingsError Text :=
  ((TextPiece.ofText t).mapM (TextPiece.expand env)).map List.flatten

end Environment

/-- The address of the server, with variables expanded. -/
def Settings.address (s : Settings) (env : Environment) : Except SettingsError SocketAddress := do
  let expanded ← env.expand s.serverAddress
  match SocketAddress.ofText? expanded with
  | some address => .ok address
  | none => .error (.invalid (.address expanded))

end PromqlAssist
