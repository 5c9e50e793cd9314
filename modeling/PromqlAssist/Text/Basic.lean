import PromqlAssist.Text.Blank

/-!
# Text

A text is a list of characters; an offset counts the bytes of its UTF-8 encoding. An offset cuts a
text into what lies before it and what lies after it. An offset past the end cuts at the end, and
one inside a character cuts in front of that character, so that both parts together are always the
whole text.
-/

namespace PromqlAssist

/-- Query text. -/
abbrev Text := List Char

namespace Text

/-- The number of bytes of the UTF-8 encoding. -/
def size : Text → Nat
  | [] => 0
  | c :: t => c.utf8Size + size t

@[simp] theorem size_nil : size [] = 0 := rfl

@[simp] theorem size_cons (c : Char) (t : Text) : size (c :: t) = c.utf8Size + size t := rfl

@[simp] theorem size_append (s t : Text) : size (s ++ t) = size s + size t := by
  induction s with
  | nil => simp
  | cons c s ih => simp [ih, Nat.add_assoc]

/-- The characters that lie wholly before an offset. -/
def before : Text → Nat → Text
  | [], _ => []
  | c :: t, n => if c.utf8Size ≤ n then c :: before t (n - c.utf8Size) else []

/-- The characters from an offset on. -/
def after : Text → Nat → Text
  | [], _ => []
  | c :: t, n => if c.utf8Size ≤ n then after t (n - c.utf8Size) else c :: t

theorem before_append_after (t : Text) (n : Nat) : before t n ++ after t n = t := by
  induction t generalizing n with
  | nil => rfl
  | cons c t ih =>
    simp only [before, after]
    split <;> simp [ih]

/-- The text between two offsets. -/
def slice (t : Text) (start stop : Nat) : Text :=
  before (after t start) (stop - start)

/-- Whether an offset lies between two characters, or at either end. -/
def IsBoundary (t : Text) (n : Nat) : Prop :=
  size (before t n) = n

instance (t : Text) (n : Nat) : Decidable (IsBoundary t n) :=
  inferInstanceAs (Decidable (_ = _))

/-- The last boundary that is not past `offset`. -/
def clamp (t : Text) (offset : Nat) : Nat :=
  size (before t offset)

/-- The longest run of characters of a class at the end of a text. -/
def trailing (p : Char → Bool) (t : Text) : Text :=
  (t.reverse.takeWhile p).reverse

/-- A text without the run of characters of a class at its end. -/
def dropTrailing (p : Char → Bool) (t : Text) : Text :=
  (t.reverse.dropWhile p).reverse

theorem dropTrailing_append_trailing (p : Char → Bool) (t : Text) :
    dropTrailing p t ++ trailing p t = t := by
  simp [dropTrailing, trailing, ← List.reverse_append]

/-- What follows the last occurrence of `c`, if it occurs. -/
def afterLast? (c : Char) : Text → Option Text
  | [] => none
  | d :: t => (afterLast? c t).orElse fun _ => if d = c then some t else none

def trimStart (t : Text) : Text :=
  t.dropWhile isBlank

def trimEnd (t : Text) : Text :=
  dropTrailing isBlank t

def trim (t : Text) : Text :=
  trimEnd (trimStart t)

/-- Whether every character is blank; so of the empty text. -/
def isAllBlank (t : Text) : Bool :=
  t.all isBlank

/-- Whether `part` occurs anywhere in a text. -/
def hasInfix (part : Text) : Text → Bool
  | [] => part.isEmpty
  | c :: t => part.isPrefixOf (c :: t) || hasInfix part t

/-- The rest of a text after `part`, if it starts with it. -/
def dropPart? : (part t : Text) → Option Text
  | [], t => some t
  | _ :: _, [] => none
  | p :: part, c :: t => if p = c then dropPart? part t else none

theorem dropPart?_length_le {part t rest : Text} (h : dropPart? part t = some rest) :
    rest.length ≤ t.length := by
  induction part generalizing t with
  | nil => simp only [dropPart?, Option.some.injEq] at h; simp [h]
  | cons p part ih =>
    cases t with
    | nil => simp [dropPart?] at h
    | cons c t =>
      simp only [dropPart?] at h
      split at h
      · exact Nat.le_succ_of_le (ih h)
      · simp at h

/-- What stands on either side of the first occurrence of `part`. -/
def splitAt? (part : Text) : Text → Option (Text × Text)
  | [] => if part.isEmpty then some ([], []) else none
  | c :: t =>
    match dropPart? part (c :: t) with
    | some rest => some ([], rest)
    | none => (splitAt? part t).map fun r => (c :: r.1, r.2)

end Text

end PromqlAssist
