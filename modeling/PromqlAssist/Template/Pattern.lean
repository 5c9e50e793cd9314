import PromqlAssist.Template.Basic
import PromqlAssist.Text.Position

/-!
# Recognising filled-in templates

The skeleton of a template is a pattern: its text has to be there character by character, except
that blanks may be fewer or more, and each placeholder stands for a run of value characters. Of
several ways to match, the one with the longest blanks and values counts, the earlier ones first.
-/

namespace PromqlAssist

/-- One part of a pattern. -/
inductive PatternPart where
  | char (c : Char)
  | blanks
  | slot (name : Text)
deriving DecidableEq, Repr

namespace Template

/-- What a placeholder value can hold. -/
def isValueChar (c : Char) : Bool :=
  !(Text.isBlank c || c = '(' || c = ')' || c = '{' || c = '}' || c = '[' || c = ']' || c = ','
    || c = '"')

/-- The parts of literal text. A run of blanks is one part. -/
def literalParts : Text → List PatternPart
  | [] => []
  | [c] => if Text.isBlank c then [.blanks] else [.char c]
  | c :: d :: t =>
    if Text.isBlank c then
      if Text.isBlank d then literalParts (d :: t) else .blanks :: literalParts (d :: t)
    else .char c :: literalParts (d :: t)

/-- The pattern of a template. -/
def pattern (t : Template) : List PatternPart :=
  t.segments.flatMap fun
    | .literal text => literalParts text
    | .placeholder _ name => [.slot name]

end Template

namespace PatternPart

/-- Takes the longest run of characters of a class after which `k` succeeds. -/
def longestRun? {β : Type} (p : Char → Bool) (k : Text → Option β) : Text → Option (Text × β)
  | [] => (k []).map fun b => ([], b)
  | c :: t =>
    if p c then
      match longestRun? p k t with
      | some (run, b) => some (c :: run, b)
      | none => (k (c :: t)).map fun b => ([], b)
    else (k (c :: t)).map fun b => ([], b)

/-- A placeholder with the span of its value. -/
structure Capture where
  name : Text
  span : Span
deriving DecidableEq, Repr

/-- Matches a pattern at the start of a text that stands at offset `n`. Returns the values and the
text behind the match. -/
def matchAt? : List PatternPart → Nat → Text → Option (List Capture × Text)
  | [], _, t => some ([], t)
  | .char _ :: _, _, [] => none
  | .char c :: parts, n, d :: t => if c = d then matchAt? parts (n + c.utf8Size) t else none
  | .blanks :: parts, n, t =>
    -- The run is as long as what it leaves is short.
    (longestRun? Text.isBlank
      (fun rest => matchAt? parts (n + (Text.size t - Text.size rest)) rest) t).map (·.2)
  | .slot name :: parts, n, t =>
    (longestRun? Template.isValueChar
      (fun rest => matchAt? parts (n + (Text.size t - Text.size rest)) rest) t).map
        fun (run, captures, rest) => (⟨name, ⟨n, n + Text.size run⟩⟩ :: captures, rest)

/-- The matches in a text at offset `n`, from left to right and without overlap. The first `skip`
characters belong to the match before. -/
def matchesFrom (parts : List PatternPart) (n skip : Nat) : Text → List (List Capture)
  | [] => if skip = 0 then ((matchAt? parts n []).map (·.1)).toList else []
  | c :: t =>
    match skip with
    | skip + 1 => matchesFrom parts (n + c.utf8Size) skip t
    | 0 =>
      match matchAt? parts n (c :: t) with
      | some (captures, rest) =>
        captures :: matchesFrom parts (n + c.utf8Size) (t.length - rest.length) t
      | none => matchesFrom parts (n + c.utf8Size) 0 t

end PatternPart

end PromqlAssist
