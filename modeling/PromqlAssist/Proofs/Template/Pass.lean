import PromqlAssist.Proofs.Template.Escape

/-!
# Escaping in passes

Special characters can be protected one after the other, each in a pass over the whole text, if the
backslash is the first: the backslashes of the later passes are then not protected again.
`escapeLaw_escape` says that escaping is this, and that unescaping undoes it, also where pieces were
escaped apart and joined.
-/

namespace PromqlAssist.Snippet

/-- Puts a backslash in front of every `c`. -/
def protect (c : Char) (t : Text) : Text :=
  t.flatMap fun d => if d = c then ['\\', d] else [d]

@[simp] theorem protect_cons_self (c : Char) (t : Text) :
    protect c (c :: t) = '\\' :: c :: protect c t := by
  simp [protect]

theorem protect_cons_of_ne {c d : Char} (h : d ≠ c) (t : Text) :
    protect c (d :: t) = d :: protect c t := by
  simp [protect, h]

/-- How an encoding goes with unescaping. It protects one special character after the other, and is
undone in a text as in pieces that were encoded apart and joined. -/
structure EscapeLaw (encode : Text → Text) : Prop where
  passes : ∀ t, encode t = protect '}' (protect '$' (protect '\\' t))
  undone : ∀ s, unescape (encode s) = s
  joined : ∀ s t, unescape (encode s ++ encode t) = s ++ t
  pieces : ∀ parts : List Text, unescape (parts.flatMap encode) = parts.flatten

/-- One pass protects what three passes do. -/
theorem escape_eq_protect (t : Text) : escape t = protect '}' (protect '$' (protect '\\' t)) := by
  induction t with
  | nil => rfl
  | cons c t ih =>
    rw [escape, ih]
    split
    · rename_i h
      obtain rfl | rfl | rfl := isSpecial_iff.mp h
      all_goals simp [protect_cons_of_ne]
    · rename_i h
      rw [isSpecial_iff, not_or, not_or] at h
      obtain ⟨hslash, hdollar, hbrace⟩ := h
      rw [protect_cons_of_ne hslash, protect_cons_of_ne hdollar, protect_cons_of_ne hbrace]

/-- In another order the backslash of a dollar sign is protected again, and stays. -/
example : unescape (protect '}' (protect '\\' (protect '$' ['$']))) = ['\\', '$'] := by decide

theorem unescape_flatMap_escape (parts : List Text) :
    unescape (parts.flatMap escape) = parts.flatten := by
  induction parts with
  | nil => rfl
  | cons s parts ih => rw [List.flatMap_cons, unescape_escape_append, ih, List.flatten_cons]

/-- Unescaping undoes escaping, piece by piece and of all pieces together. -/
theorem escapeLaw_escape : EscapeLaw escape where
  passes := escape_eq_protect
  undone := unescape_escape_self
  joined s t := by rw [unescape_escape_append, unescape_escape_self]
  pieces := unescape_flatMap_escape

end PromqlAssist.Snippet
