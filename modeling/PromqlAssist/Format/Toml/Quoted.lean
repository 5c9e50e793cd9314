import PromqlAssist.Format.Json.Parser

/-!
# Quoted text

The four kinds of quoted text: with or without escapes, and on one line or on many. On many lines
the line end right behind the opening quotes does not count, and up to two quotes may stand in front
of the closing ones.
-/

namespace PromqlAssist.Toml

/-- Controls that may not stand in a document. The horizontal tab may. -/
def isControl (c : Char) : Bool :=
  (c.toNat < 0x20 && c ≠ '\t') || c.toNat = 0x7f

/-- The character of a code point in hexadecimal digits. -/
def codePoint? (digits : Text) : Option Char := do
  let values ← digits.mapM Json.hexValue?
  let n := values.foldl (fun n v => n * 16 + v) 0
  if n.isValidChar then some (Char.ofNat n) else none

/-- The character behind the backslash of a short escape. -/
def shortEscape? : Char → Option Char
  | 'b' => some (Char.ofNat 8)
  | 't' => some '\t'
  | 'n' => some '\n'
  | 'f' => some (Char.ofNat 12)
  | 'r' => some '\r'
  | '"' => some '"'
  | '\\' => some '\\'
  | _ => none

/-- Whether a line ends here. -/
def atLineEnd : Text → Bool
  | '\n' :: _ => true
  | '\r' :: '\n' :: _ => true
  | _ => false

/-- The text behind the line end at its start, if there is one. -/
def dropLineEnd : Text → Text
  | '\n' :: t => t
  | '\r' :: '\n' :: t => t
  | t => t

/-- Whether nothing but blanks stands in front of the end of the line. -/
def isBlankToLineEnd : Text → Bool
  | c :: t => if c = ' ' || c = '\t' then isBlankToLineEnd t else atLineEnd (c :: t)
  | [] => false

/-- The rest of a text with escapes on one line, and what stands behind its closing quote. The
characters read so far are in `done`, the last first. -/
def basic? (done : Text) : Text → Option (Text × Text)
  | [] => none
  | '"' :: t => some (done.reverse, t)
  | '\\' :: 'u' :: a :: b :: c :: d :: t =>
    match codePoint? [a, b, c, d] with
    | some e => basic? (e :: done) t
    | none => none
  | '\\' :: 'U' :: a :: b :: c :: d :: e :: f :: g :: h :: t =>
    match codePoint? [a, b, c, d, e, f, g, h] with
    | some e => basic? (e :: done) t
    | none => none
  | '\\' :: c :: t =>
    match shortEscape? c with
    | some e => basic? (e :: done) t
    | none => none
  | c :: t => if c = '\\' || isControl c then none else basic? (c :: done) t

/-- The rest of a text with escapes on many lines. A backslash at the end of a line takes out all
blanks and line ends behind it; while that happens, `skipping` holds. -/
def basicLines? (skipping : Bool) (done : Text) : Text → Option (Text × Text)
  | [] => none
  | '"' :: '"' :: '"' :: '"' :: '"' :: t => some (('"' :: '"' :: done).reverse, t)
  | '"' :: '"' :: '"' :: '"' :: t => some (('"' :: done).reverse, t)
  | '"' :: '"' :: '"' :: t => some (done.reverse, t)
  | '\\' :: 'u' :: a :: b :: c :: d :: t =>
    match codePoint? [a, b, c, d] with
    | some e => basicLines? false (e :: done) t
    | none => none
  | '\\' :: 'U' :: a :: b :: c :: d :: e :: f :: g :: h :: t =>
    match codePoint? [a, b, c, d, e, f, g, h] with
    | some e => basicLines? false (e :: done) t
    | none => none
  | '\\' :: c :: t =>
    match shortEscape? c with
    | some e => basicLines? false (e :: done) t
    | none => if isBlankToLineEnd (c :: t) then basicLines? true done (c :: t) else none
  | c :: t =>
    if skipping && (c = ' ' || c = '\t' || atLineEnd (c :: t)) then basicLines? true done t
    else if c = '\\' || (isControl c && !atLineEnd (c :: t)) then none
    else basicLines? false (c :: done) t

/-- The rest of a text without escapes on one line. -/
def literal? (done : Text) : Text → Option (Text × Text)
  | [] => none
  | '\x27' :: t => some (done.reverse, t)
  | c :: t => if isControl c then none else literal? (c :: done) t

/-- The rest of a text without escapes on many lines. -/
def literalLines? (done : Text) : Text → Option (Text × Text)
  | [] => none
  | '\x27' :: '\x27' :: '\x27' :: '\x27' :: '\x27' :: t =>
    some (('\x27' :: '\x27' :: done).reverse, t)
  | '\x27' :: '\x27' :: '\x27' :: '\x27' :: t => some (('\x27' :: done).reverse, t)
  | '\x27' :: '\x27' :: '\x27' :: t => some (done.reverse, t)
  | c :: t =>
    if isControl c && !atLineEnd (c :: t) then none else literalLines? (c :: done) t

/-- Quoted text of any kind. -/
def quoted? : Text → Option (Text × Text)
  | '"' :: '"' :: '"' :: t => basicLines? false [] (dropLineEnd t)
  | '"' :: t => basic? [] t
  | '\x27' :: '\x27' :: '\x27' :: t => literalLines? [] (dropLineEnd t)
  | '\x27' :: t => literal? [] t
  | _ => none

end PromqlAssist.Toml
