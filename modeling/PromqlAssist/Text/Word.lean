import PromqlAssist.Text.Span

/-!
# Identifier words

A word is a run of identifier characters. `Text.words` lists all of a text, `Text.wordBefore` looks
back from a cursor.
-/

namespace PromqlAssist.Text

/-- The characters of metric names. Identifiers are ASCII. -/
def isIdent (c : Char) : Bool :=
  c = '_' || c = ':' || c.isAlphanum

/-- The characters of label names: those of metric names but the colon. -/
def isLabelChar (c : Char) : Bool :=
  c = '_' || c.isAlphanum

/-- A metric name: identifier characters, the first not a digit. -/
def isMetricName : Text → Bool
  | [] => false
  | c :: t => (c = '_' || c = ':' || c.isAlpha) && t.all isIdent

/-- A label name: label characters, the first not a digit. -/
def isLabelName : Text → Bool
  | [] => false
  | c :: t => (c = '_' || c.isAlpha) && t.all isLabelChar

/-- Where the identifier that ends at the cursor starts. -/
def wordStart (t : Text) (cursor : Nat) : Nat :=
  size (dropTrailing isIdent (before t cursor))

/-- The identifier that ends at the cursor, with its span. -/
def wordBefore (t : Text) (cursor : Nat) : Span × Text :=
  (⟨wordStart t cursor, clamp t cursor⟩, trailing isIdent (before t cursor))

/-- The words of a text that starts at offset `n`. An open word is given by its start and its
characters so far, the last first. -/
def wordsFrom (n : Nat) (openWord : Option (Nat × Text)) : Text → List (Nat × Text)
  | [] => (openWord.map fun w => (w.1, w.2.reverse)).toList
  | c :: t =>
    if isIdent c then
      let w := openWord.getD (n, [])
      wordsFrom (n + c.utf8Size) (some (w.1, c :: w.2)) t
    else
      (openWord.map fun w => (w.1, w.2.reverse)).toList ++ wordsFrom (n + c.utf8Size) none t

/-- Every word with the offset of its start. -/
def words (t : Text) : List (Nat × Text) :=
  wordsFrom 0 none t

end PromqlAssist.Text
