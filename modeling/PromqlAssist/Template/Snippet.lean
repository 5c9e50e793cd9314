import PromqlAssist.Template.Skeleton

/-!
# Snippets

A snippet is a skeleton for an editor: its markers hold default values, and a backslash takes the
special meaning from a dollar sign, a closing brace or a backslash.
-/

namespace PromqlAssist.Snippet

/-- The characters that a backslash protects. -/
def isSpecial (c : Char) : Bool :=
  c = '\\' || c = '$' || c = '}'

/-- Puts a backslash in front of each special character. -/
def escape : Text → Text
  | [] => []
  | c :: t => if isSpecial c then '\\' :: c :: escape t else c :: escape t

/-- Takes the backslash from each special character. Any other backslash stays. -/
def unescape : Text → Text
  | [] => []
  | [c] => [c]
  | c :: d :: t => if c = '\\' && isSpecial d then d :: unescape t else c :: unescape (d :: t)

/-- The text of a snippet for an editor that knows none: markers give way to their defaults. -/
def expand (snippet : Text) : Text :=
  (Skeleton.segments snippet).flatMap fun
    | .literal text => unescape text
    | .placeholder _ name => unescape name

end PromqlAssist.Snippet
