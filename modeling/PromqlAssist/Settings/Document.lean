import PromqlAssist.Format.Toml.Document
import PromqlAssist.Settings.Basic

/-!
# Settings from a document

Settings are read from a configuration document. What it leaves out has its default, and names that
mean nothing here are passed over. A section may also be an array of its values, in the order in
which this module lists their names, and a date stands for an empty section.
-/

namespace PromqlAssist.Settings

/-- The values of a section under a list of names. -/
def fields? (names : List String) : Toml → Option (List (Option Toml))
  | .table _ entries =>
    if Toml.entriesInRange (entries.filter fun e => String.ofList e.1 ∉ names) then
      some (names.map fun n => entries.lookup n.toList)
    else none
  | .array items | .tables items => some (names.mapIdx fun i _ => items[i]?)
  | .dateTime => some (names.map fun _ => none)
  | _ => none

/-- The value of a field, or its default when it is left out. -/
def field {α : Type} (default : α) (read : Toml → Option α) : Option Toml → Option α
  | none => some default
  | some v => read v

/-- Numbers are below 2 ^ 64. -/
def number? : Toml → Option Nat
  | .integer n => if 0 ≤ n ∧ n < Int.pow 2 64 then some n.toNat else none
  | _ => none

def text? : Toml → Option Text
  | .string t => some t
  | _ => none

def names? : Toml → Option (List String)
  | .array items | .tables items => items.mapM fun v => (text? v).map String.ofList
  | _ => none

def labels? : Toml → Option (List (String × List String))
  | .table _ entries => do
    let read ← entries.mapM fun e => (names? e.2).map fun ls => (String.ofList e.1, ls)
    some (read.mergeSort fun a b => a.1 ≤ b.1)
  | _ => none

def editor? (s : Settings) (v : Toml) : Option Settings := do
  match ← fields? ["validation_delay_ms", "projection_delay_ms", "max_proposals"] v with
  | [validation, projection, limit] =>
    some { s with
      validationDelay := ← field s.validationDelay number? validation
      projectionDelay := ← field s.projectionDelay number? projection
      limit := ← field s.limit number? limit }
  | _ => none

def grammar? (s : Settings) (v : Toml) : Option Settings := do
  match ← fields? ["extra_metrics", "labels"] v with
  | [metrics, labels] =>
    some { s with
      extraMetrics := ← field s.extraMetrics names? metrics
      labels := ← field s.labels labels? labels }
  | _ => none

def server? (s : Settings) (v : Toml) : Option Settings := do
  match ← fields? ["websocket_addr"] v with
  | [address] => some { s with serverAddress := ← field s.serverAddress text? address }
  | _ => none

def logging? (s : Settings) (v : Toml) : Option Settings := do
  match ← fields? ["filter"] v with
  | [filter] => some { s with logFilter := ← field s.logFilter text? filter }
  | _ => none

/-- The settings that a document gives, sound or not. -/
def ofDocument? (entries : TomlEntries) : Option Settings := do
  match ← fields? ["editor", "grammar", "server", "logging"] (.table .header entries) with
  | [editor, grammar, server, logging] => do
    let s ← editor.elim (some default) (editor? default)
    let s ← grammar.elim (some s) (grammar? s)
    let s ← server.elim (some s) (server? s)
    logging.elim (some s) (logging? s)
  | _ => none

/-- Reads settings and checks them. -/
def ofText (t : Text) : Except SettingsError Settings :=
  match (Toml.document? t).bind ofDocument? with
  | none => .error .malformed
  | some s =>
    match s.fault? with
    | some fault => .error (.invalid fault)
    | none => .ok s

end PromqlAssist.Settings
