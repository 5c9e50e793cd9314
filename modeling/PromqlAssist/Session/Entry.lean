import PromqlAssist.Format.Timestamp
import PromqlAssist.Format.Uuid

/-!
# History entries

A query that was run, as it is kept in a file: an object with an identifier, the text and a time.
-/

namespace PromqlAssist

structure HistoryEntry where
  id : Uuid
  text : Text
  timestamp : Timestamp
deriving DecidableEq, Repr

namespace HistoryEntry

def toJson (e : HistoryEntry) : Json :=
  Json.object [("id", .str e.id.render), ("text", .str e.text),
    ("timestamp", .str e.timestamp.render)]

/-- The values of the three members, from an object, in which others are passed over, or from an
array in the order above. -/
def members? : Json → Option (Json × Json × Json)
  | .arr [id, text, timestamp] => some (id, text, timestamp)
  | .arr _ => none
  | j => do some (← j.member? "id", ← j.member? "text", ← j.member? "timestamp")

def ofJson? (j : Json) : Option HistoryEntry := do
  let (id, text, timestamp) ← members? j
  let id ← id.text?.bind Uuid.ofText?
  let text ← text.text?
  let timestamp ← timestamp.text?.bind Timestamp.ofText?
  some ⟨id, text, timestamp⟩

end HistoryEntry

end PromqlAssist
