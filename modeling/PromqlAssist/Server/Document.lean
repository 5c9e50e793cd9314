import PromqlAssist.Keyed
import PromqlAssist.Text.Basic

/-!
# Open documents

The documents that are open in a client, by their address. Versions may arrive out of order; an
older one never replaces a newer one.
-/

namespace PromqlAssist

structure Document where
  version : Int
  text : Text
deriving DecidableEq, Repr

/-- Open documents by address. -/
abbrev DocumentStore := Keyed Document

namespace DocumentStore

/-- Opens a document or brings it up to date. -/
def update (store : DocumentStore) (uri : String) (version : Int) (text : Text) : DocumentStore :=
  match store.get? uri with
  | some old => if old.version ≤ version then Keyed.put uri ⟨version, text⟩ store else store
  | none => Keyed.put uri ⟨version, text⟩ store

/-- Closes a document and returns it. -/
def remove (store : DocumentStore) (uri : String) : Option Document × DocumentStore :=
  (Keyed.get? uri store, Keyed.erase uri store)

def document? (store : DocumentStore) (uri : String) : Option Document :=
  Keyed.get? uri store

end DocumentStore

end PromqlAssist
