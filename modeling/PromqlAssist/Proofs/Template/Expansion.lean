import PromqlAssist.Proofs.Template.Escape
import PromqlAssist.Proofs.Template.Segments

/-!
# Expanding snippets

A snippet is cut at its markers before anything is unescaped, and the cut takes no notice of
backslashes. `Snippet.expand` is followed here along the reading of the snippet.
-/

namespace PromqlAssist.Snippet

/-- What an editor that knows no snippets inserts for a segment. -/
def inserted : Segment → Text
  | .literal text => unescape text
  | .placeholder _ name => unescape name

theorem expand_eq (snippet : Text) :
    expand snippet = (Skeleton.segments snippet).flatMap inserted := by
  unfold expand
  congr 1

open Skeleton

/-- Leading text is unescaped apart from the rest where no escaped character spans both. -/
theorem flatMap_inserted_lead {text : Text} (segs : List Segment)
    (h : ∀ t, unescape (text ++ t) = unescape text ++ unescape t) :
    (lead text segs).flatMap inserted = unescape text ++ segs.flatMap inserted :=
  flatMap_lead rfl h segs

@[simp] theorem expand_nil : expand [] = [] := by
  simp [expand_eq]

theorem expand_marker {body name rest : Text} {index : Nat}
    (h : marker? body = some (index, name, rest)) :
    expand ('$' :: '{' :: body) = unescape name ++ expand rest := by
  simp [expand_eq, segments_marker h, inserted]

theorem expand_unmarked {body : Text} (h : marker? body = none) :
    expand ('$' :: '{' :: body) = '$' :: '{' :: expand body := by
  rw [expand_eq, segments_unmarked h,
    flatMap_inserted_lead _ (unescape_append_of_not_mem (by decide)),
    ← expand_eq]
  rfl

theorem expand_cons {c : Char} {t : Text} (h : ¬ opensMarker (c :: t)) (hc : c ≠ '\\') :
    expand (c :: t) = c :: expand t := by
  rw [expand_eq, segments_cons h, flatMap_inserted_lead _ (fun u => unescape_cons hc u),
    ← expand_eq]
  rfl

theorem not_opensMarker_of_ne {c : Char} (h : c ≠ '$') (t : Text) : ¬ opensMarker (c :: t) := by
  rintro ⟨body, heq⟩
  exact h (List.cons.inj heq).1

theorem expand_append {s : Text} (hs : ∀ c ∈ s, c ≠ '$' ∧ c ≠ '\\') (t : Text) :
    expand (s ++ t) = s ++ expand t := by
  induction s with
  | nil => rfl
  | cons c s ih =>
    rw [List.cons_append, expand_cons (not_opensMarker_of_ne (hs c (by simp)).1 _)
      (hs c (by simp)).2, ih fun d hd => hs d (by simp [hd]), List.cons_append]

/-- An escaped character that opens no marker with what follows gives itself. -/
theorem expand_special {c : Char} {t : Text} (hc : isSpecial c) (h : ¬ opensMarker (c :: t)) :
    expand ('\\' :: c :: t) = c :: expand t := by
  have aligned : ∀ u, unescape (['\\', c] ++ u) = unescape ['\\', c] ++ unescape u := by
    intro u
    simp [unescape_special hc]
  rw [expand_eq, segments_cons (not_opensMarker_of_ne (by decide) _), segments_cons h, lead_lead,
    List.singleton_append, flatMap_inserted_lead _ aligned, ← expand_eq, unescape_special hc]
  rfl

theorem expand_special_unmarked {body : Text} (h : marker? body = none) :
    expand ('\\' :: '$' :: '{' :: body) = '$' :: '{' :: expand body := by
  have aligned : ∀ u,
      unescape (['\\', '$', '{'] ++ u) = unescape ['\\', '$', '{'] ++ unescape u := by
    intro u
    simp [unescape_special (c := '$') (by decide), unescape_cons (c := '{') (by decide)]
  rw [expand_eq, segments_cons (not_opensMarker_of_ne (by decide) _), segments_unmarked h,
    lead_lead,
    List.singleton_append, flatMap_inserted_lead _ aligned, ← expand_eq]
  rfl

/-- A marker whose dollar sign was escaped is cut out all the same, and the backslash stays. -/
theorem expand_special_marker {body name rest : Text} {index : Nat}
    (h : marker? body = some (index, name, rest)) :
    expand ('\\' :: '$' :: '{' :: body) = '\\' :: (unescape name ++ expand rest) := by
  rw [expand_eq, segments_cons (not_opensMarker_of_ne (by decide) _), segments_marker h, expand_eq]
  rfl

/-- Cutting a snippet at its markers loses no backslash of it, whatever text it is. -/
theorem backslashes_unescape_le_expand (t : Text) :
    backslashes (unescape t) ≤ backslashes (expand t) := by
  have behind : ∀ text, backslashes (unescape (text ++ t)) ≤
      backslashes ((lead text (segments t)).flatMap inserted) := by
    induction t using reading with
    | nil =>
      intro text
      cases text <;> simp [lead, inserted]
    | marker body index name rest h ih =>
      intro text
      obtain ⟨digits, rfl, hdigits, -, -⟩ := marker?_eq_some_iff.mp h
      have plain : ∀ c ∈ digits, c ≠ '\\' := by
        rintro c hc rfl
        exact absurd (Decimal.mem_of_parse? hdigits hc) (by decide)
      have opening : '\\' ∉ '$' :: '{' :: (digits ++ [':']) := by
        simpa using fun hmem => plain _ hmem rfl
      have skip := backslashes_unescape_append opening (name ++ '}' :: rest)
      have cutText := backslashes_unescape_append_le text (c := '$') (by decide)
        ('{' :: (digits ++ ':' :: (name ++ '}' :: rest)))
      have cutName := backslashes_unescape_append_le name (c := '}') (by decide) rest
      rw [unescape_cons (by decide), backslashes_cons (by decide)] at cutName
      have whole : backslashes (unescape rest) ≤
          backslashes ((segments rest).flatMap inserted) := by
        simpa using ih []
      simp only [List.cons_append, List.append_assoc, List.nil_append] at skip
      rw [segments_marker h, lead_placeholder, List.flatMap_append, flatMap_flush rfl,
        List.flatMap_cons, backslashes_append, backslashes_append]
      simp only [inserted]
      omega
    | unmarked body h ih =>
      intro text
      simpa [segments_unmarked h] using ih (text ++ ['$', '{'])
    | cons c t h ih =>
      intro text
      simpa [segments_cons h] using ih (text ++ [c])
  simpa [expand_eq] using behind []

end PromqlAssist.Snippet
