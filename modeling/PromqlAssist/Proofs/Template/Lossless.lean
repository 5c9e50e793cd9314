import Mathlib.Data.List.Chain
import Mathlib.Data.List.Forall2
import PromqlAssist.Proofs.Template.Segments

/-!
# Skeletons as partitions of a text

The segments of a skeleton are read from consecutive pieces that make up the whole text, whatever
the text is: a marker that is not well formed stays in a literal. What is printed from segments is
read back if no literal could be read in another way.
-/

namespace PromqlAssist

open Skeleton

namespace Segment

/-- A segment as text. The index of a marker is printed in plain digits. -/
def print : Segment → Text
  | .literal text => text
  | .placeholder index name => '$' :: '{' :: (Decimal.render index ++ ':' :: (name ++ ['}']))

/-- The piece of text that a segment is read from. A marker may write its index in more than one
way. -/
inductive ReadFrom : Segment → Text → Prop
  | literal {text : Text} (nonempty : text ≠ []) : ReadFrom (.literal text) text
  | placeholder {index : Nat} {digits name : Text}
    (number : Decimal.parse? indexLimit digits = some index) (named : name ≠ [])
    (inside : '}' ∉ name) :
    ReadFrom (.placeholder index name) ('$' :: '{' :: (digits ++ ':' :: (name ++ ['}'])))

/-- Whether a segment is no literal that goes on with another one. -/
def Separate : Segment → Segment → Prop
  | .literal _, .literal _ => False
  | _, _ => True

/-- Whether a segment can be read back where it is printed. -/
def Printable : Segment → Prop
  | .literal text => text ≠ [] ∧ ¬ ['$', '{'] <:+: text
  | .placeholder index name => index < indexLimit ∧ name ≠ [] ∧ '}' ∉ name

instance : DecidableRel Separate
  | .literal _, .literal _ => isFalse id
  | .literal _, .placeholder _ _ => isTrue trivial
  | .placeholder _ _, _ => isTrue trivial

instance : DecidablePred Printable
  | .literal text => inferInstanceAs (Decidable (text ≠ [] ∧ ¬ ['$', '{'] <:+: text))
  | .placeholder index name =>
    inferInstanceAs (Decidable (index < indexLimit ∧ name ≠ [] ∧ '}' ∉ name))

end Segment

namespace Skeleton

open Segment

/-- Whether segments are read from consecutive pieces of a text that leave nothing out. -/
def Partitions (segs : List Segment) (t : Text) : Prop :=
  ∃ pieces, List.Forall₂ ReadFrom segs pieces ∧ pieces.flatten = t

/-- What reading a text as segments keeps of it. -/
structure LosslessLaw (read : Text → List Segment) : Prop where
  partitions : ∀ t, Partitions (read t) t
  separate : ∀ t, (read t).IsChain Separate
  read_print : ∀ segs, (∀ s ∈ segs, Printable s) → segs.IsChain Separate →
    read (segs.flatMap print) = segs

variable {t text body name : Text} {segs : List Segment} {s : Segment} {index : Nat}

/-! ## Reading a text -/

/-- Literal text in front belongs to the first literal, or is one of its own. -/
theorem Partitions.lead (h : Partitions segs t) (text : Text) :
    Partitions (lead text segs) (text ++ t) := by
  obtain ⟨pieces, hpieces, rfl⟩ := h
  cases text with
  | nil => exact ⟨pieces, by rwa [lead_nil], rfl⟩
  | cons c text =>
    have hnew : ReadFrom (.literal (c :: text)) (c :: text) := .literal (List.cons_ne_nil c text)
    cases hpieces with
    | nil => exact ⟨[c :: text], .cons hnew .nil, by simp⟩
    | cons hfirst hrest =>
      cases hfirst with
      | literal nonempty => exact ⟨_, .cons (.literal (by simp)) hrest, by simp⟩
      | placeholder number named inside =>
        exact ⟨_, .cons hnew (.cons (.placeholder number named inside) hrest), rfl⟩

theorem partitions_segments (t : Text) : Partitions (segments t) t := by
  induction t using reading with
  | nil => exact ⟨[], by rw [segments_nil]; exact .nil, rfl⟩
  | marker body index name rest h ih =>
    obtain ⟨digits, rfl, number, named, inside⟩ := marker?_eq_some_iff.mp h
    obtain ⟨pieces, hpieces, hflat⟩ := ih
    rw [segments_marker h]
    exact ⟨_, .cons (.placeholder number named inside) hpieces, by simp [hflat]⟩
  | unmarked body h ih =>
    rw [segments_unmarked h]
    exact ih.lead ['$', '{']
  | cons c t h ih =>
    rw [segments_cons h]
    exact ih.lead [c]

/-- What may stand behind a literal does not depend on its text. -/
theorem separate_literal_iff {text t : Text} (next : Segment) :
    Separate (.literal t) next ↔ Separate (.literal text) next := by
  cases next <;> rfl

theorem isChain_lead (h : segs.IsChain Separate) (text : Text) :
    (lead text segs).IsChain Separate := by
  cases text with
  | nil => rwa [lead_nil]
  | cons c text =>
    cases segs with
    | nil => exact .singleton _
    | cons s segs =>
      cases s with
      | literal t =>
        obtain ⟨hnext, htail⟩ := List.isChain_cons.mp h
        refine List.isChain_cons.mpr ⟨fun next hmem => ?_, htail⟩
        exact (separate_literal_iff next).mp (hnext next hmem)
      | placeholder index name => exact .cons_cons trivial h

theorem isChain_segments (t : Text) : (segments t).IsChain Separate := by
  induction t using reading with
  | nil => rw [segments_nil]; exact .nil
  | marker body index name rest h ih =>
    rw [segments_marker h]
    exact List.isChain_cons.mpr ⟨fun _ _ => trivial, ih⟩
  | unmarked body h ih =>
    rw [segments_unmarked h]
    exact isChain_lead ih ['$', '{']
  | cons c t h ih =>
    rw [segments_cons h]
    exact isChain_lead ih [c]

/-! ## Reading what is printed -/

theorem segments_placeholder (h : (Segment.placeholder index name).Printable) (t : Text) :
    segments ((Segment.placeholder index name).print ++ t) =
      .placeholder index name :: segments t := by
  obtain ⟨hindex, hname, hclose⟩ := h
  have hmarker : marker? (Decimal.render index ++ ':' :: (name ++ '}' :: t)) =
      some (index, name, t) :=
    marker?_eq_some_iff.mpr ⟨_, rfl, Decimal.parse?_render hindex, hname, hclose⟩
  have hprint : (Segment.placeholder index name).print ++ t =
      '$' :: '{' :: (Decimal.render index ++ ':' :: (name ++ '}' :: t)) := by
    simp [print]
  rw [hprint, segments_marker hmarker]

/-- Text without a bracket is literal up to what stands behind it, which a dollar sign at its end
does not open. -/
theorem segments_append (h : ¬ ['$', '{'] <:+: text) (ht : t.head? ≠ some '{') :
    segments (text ++ t) = lead text (segments t) := by
  induction text with
  | nil => simp
  | cons c text ih =>
    rw [List.infix_cons_iff, not_or] at h
    have hopens : ¬ opensMarker (c :: (text ++ t)) := by
      rintro ⟨body, hbody⟩
      obtain ⟨rfl, hbrace⟩ := List.cons.inj hbody
      cases text with
      | nil =>
        rw [List.nil_append] at hbrace
        exact ht (by rw [hbrace]; rfl)
      | cons d text =>
        obtain ⟨rfl, -⟩ := List.cons.inj hbrace
        exact h.1 ⟨text, rfl⟩
    rw [List.cons_append, segments_cons hopens, ih h.2, lead_lead, List.singleton_append]

/-- A literal has nothing or a marker behind it. -/
theorem eq_nil_or_placeholder (h : ∀ next ∈ segs.head?, Separate (.literal text) next) :
    segs = [] ∨ ∃ index name rest, segs = .placeholder index name :: rest := by
  cases segs with
  | nil => exact .inl rfl
  | cons next rest =>
    cases next with
    | literal t => exact (h _ rfl).elim
    | placeholder index name => exact .inr ⟨index, name, rest, rfl⟩

theorem segments_print (h : ∀ s ∈ segs, Printable s) (hchain : segs.IsChain Separate) :
    segments (segs.flatMap print) = segs := by
  induction segs with
  | nil => exact segments_nil
  | cons s segs ih =>
    obtain ⟨hs, hsegs⟩ := List.forall_mem_cons.mp h
    obtain ⟨hnext, htail⟩ := List.isChain_cons.mp hchain
    have hread := ih hsegs htail
    rw [List.flatMap_cons]
    cases s with
    | placeholder index name => rw [segments_placeholder hs, hread]
    | literal text =>
      obtain ⟨hne, hbracket⟩ := hs
      obtain rfl | ⟨index, name, rest, rfl⟩ := eq_nil_or_placeholder hnext
      · rw [print, segments_append hbracket (by simp), hread, lead_empty]
        simp [flush, hne]
      · rw [print, segments_append hbracket (by simp [print]), hread, lead_placeholder]
        simp [flush, hne]

/-- Reading loses nothing of a skeleton and inverts printing. -/
theorem losslessLaw_segments : LosslessLaw segments where
  partitions := partitions_segments
  separate := isChain_segments
  read_print := fun _ => segments_print

/-- A literal that ends in a dollar sign, names with a bracket and a colon in them, and the largest
index. -/
theorem losslessLaw_segments_dollars :
    let segs := [.literal ['a', '$'], .placeholder 1 ['$', '{', '2', ':', 'x'],
      .placeholder 4294967295 [':'], .literal ['{', '}']]
    (∀ s ∈ segs, Printable s) ∧ segs.IsChain Separate ∧ segments (segs.flatMap print) = segs := by
  intro segs
  have hprintable : ∀ s ∈ segs, Printable s := by decide
  have hchain : segs.IsChain Separate := by decide
  exact ⟨hprintable, hchain, losslessLaw_segments.read_print segs hprintable hchain⟩

end Skeleton

end PromqlAssist
