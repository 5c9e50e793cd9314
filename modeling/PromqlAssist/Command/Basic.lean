import PromqlAssist.Text.Basic

/-!
# Commands

What the command line asks for.
-/

namespace PromqlAssist

/-- Where the query of a check comes from. -/
inductive QuerySource where
  | given (query : Text)
  | file (path : Text)
  | input
deriving DecidableEq, Repr

/-- Where the language server talks to its client. -/
inductive ServerPlace where
  | standardStreams
  /-- A socket at the address in the settings. -/
  | configuredSocket
  /-- A socket at an address, which is not read yet. -/
  | socket (written : Text)
deriving DecidableEq, Repr

inductive Command where
  | check (source : QuerySource)
  /-- The cursor is at the end of the query when none is given. -/
  | complete (query : Text) (cursor? : Option Nat) (json : Bool)
  | templates (json : Bool)
  | serve (place : ServerPlace)
deriving DecidableEq, Repr

/-- A command with the path of the settings, when one is given. -/
structure Invocation where
  config? : Option Text
  command : Command
deriving DecidableEq, Repr

/-- What the arguments come to when they make up no command. -/
inductive ArgumentStop where
  | usage
  | help
  | version
deriving DecidableEq, Repr

end PromqlAssist
