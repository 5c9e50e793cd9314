import PromqlAssist.Format.Toml.Quoted
import PromqlAssist.Format.Toml.Scalar
import PromqlAssist.Format.Toml.Table

/-!
# Statements

A configuration document is a list of statements, one a line: a header, which opens a table, or a
value under a dotted key. Arrays and text on many lines may go over line ends.
-/

namespace PromqlAssist

/-- A statement of a configuration document. No path is empty. -/
inductive TomlStatement where
  /-- A value under a dotted key of the open table. -/
  | assign (path : List Text) (value : Toml)
  /-- The header of a table. -/
  | header (path : List Text)
  /-- The header of one more table of those under one name. -/
  | arrayHeader (path : List Text)

namespace Toml

def isInlineSpace (c : Char) : Bool :=
  c = ' ' || c = '\t'

def skipSpace (t : Text) : Text :=
  t.dropWhile isInlineSpace

/-- The text behind blanks, line ends and comments. -/
def skipVoid? (inComment : Bool) : Text → Option Text
  | [] => some []
  | c :: t =>
    if atLineEnd (c :: t) then skipVoid? (inComment && c = '\r') t
    else if isControl c then none
    else if inComment then skipVoid? true t
    else if isInlineSpace c then skipVoid? false t
    else if c = '#' then skipVoid? true t
    else some (c :: t)

/-- The text of the lines behind, if nothing but a comment is left on this one. -/
def endOfLine? (t : Text) : Option Text :=
  match skipSpace t with
  | [] => some []
  | c :: t => if c = '#' || atLineEnd (c :: t) then some (c :: t) else none

def isBareKeyChar (c : Char) : Bool :=
  c.isAlphanum || c = '_' || c = '-'

/-- One part of a key: a bare word or quoted text on one line. -/
def keyPart? : Text → Option (Text × Text)
  | '"' :: t => basic? [] t
  | '\x27' :: t => literal? [] t
  | t =>
    let word := t.takeWhile isBareKeyChar
    if word.isEmpty then none else some (word, t.drop word.length)

/-- A key of any number of parts, between which dots stand. `fuel` bounds their number. -/
def key? : Nat → Text → Option (List Text × Text)
  | 0, _ => none
  | fuel + 1, t => do
    let (part, rest) ← keyPart? (skipSpace t)
    match skipSpace rest with
    | '.' :: rest => (key? fuel rest).map fun (parts, rest) => (part :: parts, rest)
    | rest => some ([part], rest)

def isWordChar (c : Char) : Bool :=
  c.isAlphanum || c = '_' || c = '-' || c = '+' || c = '.' || c = ':'

/-- An unquoted word. A date and the time of day behind a single space are one word. -/
def word (t : Text) : Text × Text :=
  let first := t.takeWhile isWordChar
  let rest := t.drop first.length
  match afterDate? first, rest with
  | some [], ' ' :: d :: more =>
    if d.isDigit then
      let second := (d :: more).takeWhile isWordChar
      (first ++ ' ' :: second, (d :: more).drop second.length)
    else (first, rest)
  | _, _ => (first, rest)

/-- How deep arrays and inline tables may be nested. -/
def depthLimit : Nat :=
  80

mutual

/-- A value at the start of a text, and the text behind it. `depth` levels of nesting are left, and
`fuel` bounds the number of characters that are read. -/
def value? (depth : Nat) : Nat → Text → Option (Toml × Text)
  | 0, _ => none
  | fuel + 1, t =>
    match t with
    | '"' :: _ | '\x27' :: _ => (quoted? t).map fun (s, rest) => (.string s, rest)
    | '[' :: rest =>
      if depth = 0 then none
      else (items? (depth - 1) fuel rest).map fun (vs, rest) => (.array vs, rest)
    | '{' :: rest =>
      if depth = 0 then none
      else
        match skipSpace rest with
        | '}' :: rest => some (.table .inline [], rest)
        | rest =>
          (members? (depth - 1) fuel [] rest).map fun (es, rest) => (.table .inline es, rest)
    | _ =>
      let (w, rest) := word t
      (scalar? w).map fun v => (v, rest)

/-- The items of an array up to its closing bracket. A comma may follow the last. -/
def items? (depth : Nat) : Nat → Text → Option (List Toml × Text)
  | 0, _ => none
  | fuel + 1, t => do
    match ← skipVoid? false t with
    | ']' :: rest => some ([], rest)
    | t =>
      let (v, rest) ← value? depth fuel t
      match ← skipVoid? false rest with
      | ']' :: rest => some ([v], rest)
      | ',' :: rest => (items? depth fuel rest).map fun (vs, rest) => (v :: vs, rest)
      | _ => none

/-- The members of an inline table up to its closing brace, behind those in `done`. -/
def members? (depth : Nat) : Nat → TomlEntries → Text → Option (TomlEntries × Text)
  | 0, _, _ => none
  | fuel + 1, done, t => do
    let (path, rest) ← key? t.length t
    match rest with
    | '=' :: rest =>
      let (v, rest) ← value? depth fuel (skipSpace rest)
      let done ← assign v path done
      match skipSpace rest with
      | '}' :: rest => some (done, rest)
      | ',' :: rest => members? depth fuel done rest
      | _ => none
    | _ => none

end

/-- A statement at the start of a text, and the lines behind it. -/
def statement? (t : Text) : Option (TomlStatement × Text) :=
  match t with
  | '[' :: '[' :: rest => do
    match ← key? rest.length rest with
    | (path, ']' :: ']' :: rest) => some (.arrayHeader path, ← endOfLine? rest)
    | _ => none
  | '[' :: rest => do
    match ← key? rest.length rest with
    | (path, ']' :: rest) => some (.header path, ← endOfLine? rest)
    | _ => none
  | _ => do
    match ← key? t.length t with
    | (path, '=' :: rest) =>
      let (v, rest) ← value? depthLimit (2 * rest.length + 2) (skipSpace rest)
      some (.assign path v, ← endOfLine? rest)
    | _ => none

/-- The statements of a text, of which there are at most `fuel`. -/
def statements? : Nat → Text → Option (List TomlStatement)
  | 0, _ => none
  | fuel + 1, t => do
    match ← skipVoid? false t with
    | [] => some []
    | t =>
      let (s, rest) ← statement? t
      let later ← statements? fuel rest
      some (s :: later)

end Toml

end PromqlAssist
