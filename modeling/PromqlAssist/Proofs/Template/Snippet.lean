import Mathlib.Data.List.Basic
import PromqlAssist.Completion.Proposal
import PromqlAssist.Proofs.Template.Expansion
import PromqlAssist.Template.Basic

/-!
# Snippets of templates

A template's snippet, expanded for an editor that knows none, ought to be the rendered template.
`Template.plainText_snippet_iff` tells for which templates it is: those whose snippets are cut
between whole pieces and have no marker that lost its name.

A bad cut leaves a backslash behind, and the rendered text has none to match it. Without bad cuts
the expanded text differs only by the markers whose values are empty, which stay in it.
-/

namespace PromqlAssist

namespace Snippet

open Skeleton

/-- The snippet text of a segment, with `value` for the names of placeholders. -/
def encoded (value : Text → Text) : Segment → Text
  | .literal text => escape text
  | .placeholder index name =>
    '$' :: '{' :: (Decimal.render index ++ ':' :: (escape (value name) ++ ['}']))

/-- The rendered text of a segment. -/
def filled (value : Text → Text) : Segment → Text
  | .literal text => text
  | .placeholder _ name => value name

variable {value : Text → Text}

theorem not_mem_render {c : Char} (h : c.isDigit = false) (n : Nat) : c ∉ Decimal.render n := by
  intro hc
  rw [Decimal.isDigit_of_mem_render hc] at h
  simp at h

theorem flatMap_encoded_lead (text : Text) (segs : List Segment) :
    (lead text segs).flatMap (encoded value) = escape text ++ segs.flatMap (encoded value) :=
  flatMap_lead rfl (fun t => escape_append text t) segs

theorem flatMap_filled_lead (text : Text) (segs : List Segment) :
    (lead text segs).flatMap (filled value) = text ++ segs.flatMap (filled value) :=
  flatMap_lead rfl (fun _ => rfl) segs

/-- As a whole, a snippet unescapes to the backslashes of the rendered text. -/
theorem backslashes_unescape_encoded (value : Text → Text) (segs : List Segment) (t : Text) :
    backslashes (unescape (segs.flatMap (encoded value) ++ t)) =
      backslashes (segs.flatMap (filled value)) + backslashes (unescape t) := by
  induction segs with
  | nil => simp
  | cons s segs ih =>
    cases s with
    | literal text =>
      simp only [List.flatMap_cons, encoded, filled, List.append_assoc, unescape_escape_append,
        backslashes_append, ih]
      omega
    | placeholder index name =>
      have opening : '\\' ∉ '$' :: '{' :: (Decimal.render index ++ [':']) := by
        simpa using not_mem_render (c := '\\') (by decide) index
      have skip := backslashes_unescape_append opening
        (escape (value name) ++ '}' :: (segs.flatMap (encoded value) ++ t))
      simp only [List.cons_append, List.append_assoc, List.nil_append] at skip
      simp only [List.flatMap_cons, encoded, filled, List.append_assoc, List.cons_append,
        List.nil_append, skip, unescape_escape_append, backslashes_append]
      rw [unescape_cons (by decide), backslashes_cons (by decide), ih]
      omega

/-- What reads as a marker but for the name, which is empty. -/
def unnamed (digits : Text) : Text :=
  '$' :: '{' :: (digits ++ [':', '}'])

/-- Whether a marker with an index and no name stands in a text. Escaping its brace gives it a
name. -/
def HasUnnamed (text : Text) : Prop :=
  ∃ digits, (Decimal.parse? indexLimit digits).isSome ∧ unnamed digits <:+: text

/-- Whether the snippet text of a segment is cut inside an escaped character. -/
def Broken (value : Text → Text) : Segment → Prop
  | .literal text => HasUnnamed text
  | .placeholder _ name => '}' ∈ value name

@[simp] theorem broken_literal {text : Text} :
    Broken value (.literal text) ↔ HasUnnamed text := Iff.rfl

@[simp] theorem broken_placeholder {index : Nat} {name : Text} :
    Broken value (.placeholder index name) ↔ '}' ∈ value name := Iff.rfl

/-- Whether segments start with the index and the end of an unnamed marker. -/
def EndsUnnamed (segs : List Segment) : Prop :=
  ∃ digits text rest, (Decimal.parse? indexLimit digits).isSome ∧
    segs = .literal (digits ++ ':' :: '}' :: text) :: rest

theorem hasUnnamed_cons {c : Char} {t : Text} :
    HasUnnamed (c :: t) ↔
      (∃ digits, (Decimal.parse? indexLimit digits).isSome ∧ unnamed digits <+: c :: t) ∨
        HasUnnamed t := by
  constructor
  · rintro ⟨digits, hdigits, h⟩
    rcases List.infix_cons_iff.mp h with h | h
    · exact .inl ⟨digits, hdigits, h⟩
    · exact .inr ⟨digits, hdigits, h⟩
  · rintro (⟨digits, hdigits, h⟩ | ⟨digits, hdigits, h⟩)
    · exact ⟨digits, hdigits, h.isInfix⟩
    · exact ⟨digits, hdigits, List.infix_cons_iff.mpr (.inr h)⟩

theorem not_hasUnnamed_singleton (c : Char) : ¬ HasUnnamed [c] := by
  rintro ⟨digits, -, h⟩
  simpa [unnamed] using h.length_le

/-- A character in front of segments breaks one of them only as the start of an unnamed marker. -/
theorem exists_broken_lead {c : Char} {segs : List Segment} :
    (∃ s ∈ lead [c] segs, Broken value s) ↔
      (∃ text rest digits, segs = .literal text :: rest ∧
        (Decimal.parse? indexLimit digits).isSome ∧ unnamed digits <+: c :: text) ∨
        ∃ s ∈ segs, Broken value s := by
  rcases segs with _ | ⟨t | ⟨index, name⟩, segs⟩
  · simpa [lead] using not_hasUnnamed_singleton c
  · simp only [lead_literal, List.mem_cons, exists_eq_or_imp, broken_literal, List.singleton_append,
      hasUnnamed_cons]
    constructor
    · rintro ((⟨digits, hdigits, h⟩ | h) | h)
      · exact .inl ⟨t, segs, digits, rfl, hdigits, h⟩
      · exact .inr (.inl h)
      · exact .inr (.inr h)
    · rintro (⟨text, rest, digits, heq, hdigits, h⟩ | h | h)
      · obtain ⟨rfl, rfl⟩ : t = text ∧ segs = rest := by simpa using heq
        exact .inl (.inl ⟨digits, hdigits, h⟩)
      · exact .inl (.inr h)
      · exact .inr h
  · simpa [lead] using fun h => absurd h (not_hasUnnamed_singleton c)

theorem exists_broken_lead_of_ne {c : Char} (hc : c ≠ '$') {segs : List Segment} :
    (∃ s ∈ lead [c] segs, Broken value s) ↔ ∃ s ∈ segs, Broken value s := by
  rw [exists_broken_lead, or_iff_right]
  rintro ⟨text, rest, digits, -, -, h⟩
  exact hc (List.cons_prefix_cons.mp h).1.symm

/-- A bracket that opens no marker breaks its literal only where an unnamed marker ends. -/
theorem exists_broken_bracket {segs : List Segment} :
    (∃ s ∈ lead ['$', '{'] segs, Broken value s) ↔
      EndsUnnamed segs ∨ ∃ s ∈ segs, Broken value s := by
  rw [← List.singleton_append, ← lead_lead, exists_broken_lead,
    exists_broken_lead_of_ne (by decide)]
  refine or_congr_left ⟨?_, ?_⟩
  · rintro ⟨text, rest, digits, hsegs, hdigits, hpre⟩
    obtain ⟨tail, heq⟩ := (List.cons_prefix_cons.mp hpre).2
    rcases segs with _ | ⟨t | ⟨index, name⟩, segs⟩
    · obtain ⟨rfl, -⟩ : ['{'] = text ∧ _ := by simpa [lead] using hsegs
      simp at heq
    · obtain ⟨rfl, -⟩ : '{' :: t = text ∧ segs = rest := by simpa using hsegs
      refine ⟨digits, tail, segs, hdigits, ?_⟩
      simpa using heq.symm
    · obtain ⟨rfl, -⟩ : ['{'] = text ∧ _ := by simpa [lead] using hsegs
      simp at heq
  · rintro ⟨digits, text, rest, hdigits, rfl⟩
    exact ⟨_, _, digits, rfl, hdigits, ⟨text, by simp [unnamed]⟩⟩

/-- The first literal of a skeleton is where the skeleton starts. -/
theorem prefix_of_segments {t text : Text} {rest : List Segment}
    (h : segments t = .literal text :: rest) : text <+: t := by
  obtain ⟨front, ⟨rfl, hsegs⟩ | ⟨body, index, name, tail, rfl, -, hsegs⟩⟩ := segments_split t
  · rw [hsegs] at h
    cases t <;> simp [lead] at h
    simp [h.1]
  · rw [hsegs] at h
    cases front <;> simp [lead] at h
    exact ⟨_, by rw [← h.1]⟩

/-- A character that opens no marker breaks no segment. -/
theorem exists_broken_segments_cons {c : Char} {t : Text} (h : ¬ opensMarker (c :: t)) :
    (∃ s ∈ lead [c] (segments t), Broken value s) ↔ ∃ s ∈ segments t, Broken value s := by
  rw [exists_broken_lead, or_iff_right]
  rintro ⟨text, rest, digits, hsegs, -, hpre⟩
  obtain ⟨rfl, tail, heq⟩ := List.cons_prefix_cons.mp hpre
  obtain ⟨u, rfl⟩ := prefix_of_segments hsegs
  exact h ⟨digits ++ [':', '}'] ++ tail ++ u, by simp [← heq]⟩

/-- The characters of a numeral and a colon are not escaped. -/
theorem not_isSpecial_of_index {digits : Text}
    (h : (Decimal.parse? indexLimit digits).isSome) : ∀ c ∈ digits ++ [':'], ¬ isSpecial c := by
  obtain ⟨index, hindex⟩ := Option.isSome_iff_exists.mp h
  intro c hc
  rcases List.mem_append.mp hc with hc | hc
  · intro hspecial
    rcases Decimal.mem_of_parse? hindex hc with hd | rfl
    · obtain rfl | rfl | rfl := isSpecial_iff.mp hspecial
      all_goals exact absurd hd (by decide)
    · exact absurd hspecial (by decide)
  · rw [List.mem_singleton.mp hc]
    decide

/-- Characters that are not escaped come from the escaped text itself, up to the first marker
behind it. -/
theorem prefix_of_escape_append {s text u w : Text} (hs : ∀ c ∈ s, ¬ isSpecial c)
    (hu : ∀ c v, u = c :: v → isSpecial c) (h : escape text ++ u = s ++ w) :
    ∃ text', text = s ++ text' ∧ escape text' ++ u = w := by
  induction s generalizing text with
  | nil => exact ⟨text, rfl, h⟩
  | cons c s ih =>
    have hc : ¬ isSpecial c := hs c (by simp)
    cases text with
    | nil => exact absurd (hu c (s ++ w) h) hc
    | cons d text =>
      by_cases hd : isSpecial d
      · rw [escape, if_pos hd] at h
        obtain ⟨rfl, -⟩ : '\\' = c ∧ _ := List.cons.inj h
        exact absurd (by decide) hc
      · rw [escape, if_neg hd] at h
        obtain ⟨rfl, htail⟩ := List.cons.inj h
        obtain ⟨text', rfl, hw⟩ := ih (fun e he => hs e (by simp [he])) htail
        exact ⟨text', rfl, hw⟩

/-- Behind an index and its colon no marker is read only if the name is empty or no brace ends
it. -/
theorem eq_close_of_unmarked {digits w : Text} (hdigits : (Decimal.parse? indexLimit digits).isSome)
    (h : marker? (digits ++ ':' :: w) = none) (hw : '}' ∈ w) : ∃ w', w = '}' :: w' := by
  obtain ⟨index, hindex⟩ := Option.isSome_iff_exists.mp hdigits
  obtain ⟨name, rest, rfl, hname⟩ := List.eq_append_cons_of_mem hw
  cases name with
  | nil => exact ⟨rest, rfl⟩
  | cons c name =>
    have read : marker? (digits ++ ':' :: (c :: name ++ '}' :: rest)) =
        some (index, c :: name, rest) :=
      marker?_eq_some_iff.mpr ⟨digits, rfl, hindex, List.cons_ne_nil c name, hname⟩
    rw [h] at read
    cases read

/-- Behind a bracket that opens no marker, the snippet text of a skeleton reads as a marker only
where an unnamed marker ends: the escape of its brace became its name. -/
theorem endsUnnamed_of_marker? {body : Text} (h : marker? body = none)
    (hread : (marker? ((segments body).flatMap (encoded value))).isSome) :
    EndsUnnamed (segments body) := by
  obtain ⟨⟨index, name, rest⟩, hread⟩ := Option.isSome_iff_exists.mp hread
  obtain ⟨digits, heq, hdigits, hname, hclose⟩ := marker?_eq_some_iff.mp hread
  have hindex : (Decimal.parse? indexLimit digits).isSome := by simp [hdigits]
  have plain := not_isSpecial_of_index hindex
  rw [List.append_cons] at heq
  obtain ⟨text, ⟨rfl, hsegs⟩ | ⟨inner, i, n, tail, rfl, hinner, hsegs⟩⟩ := segments_split body
  · rw [hsegs, flatMap_encoded_lead, List.flatMap_nil] at heq
    obtain ⟨text, rfl, htext⟩ := prefix_of_escape_append plain (by simp) heq
    have hmem : '}' ∈ text := by
      rw [← mem_escape (by decide), ← List.append_nil (escape text), htext]
      simp
    rw [List.append_assoc, List.singleton_append] at h hsegs
    obtain ⟨text, rfl⟩ := eq_close_of_unmarked hindex h hmem
    refine ⟨digits, text, [], hindex, ?_⟩
    rw [List.append_assoc, List.singleton_append, hsegs, lead_empty]
    simp [flush]
  · rw [hsegs, flatMap_encoded_lead] at heq
    obtain ⟨text, rfl, htext⟩ := prefix_of_escape_append plain (by simp [encoded, isSpecial]) heq
    rw [List.append_assoc, List.append_assoc, List.singleton_append] at h
    have hmem : '}' ∈ text ++ '$' :: '{' :: inner := by
      obtain ⟨digits', rfl, -⟩ := marker?_eq_some_iff.mp hinner
      simp
    obtain ⟨w, hw⟩ := eq_close_of_unmarked hindex h hmem
    obtain ⟨-, hw⟩ | ⟨text, rfl, -⟩ := List.append_eq_cons_iff.mp hw
    · simp at hw
    · refine ⟨digits, text, .placeholder i n :: segments tail, hindex, ?_⟩
      rw [hsegs, lead_placeholder]
      simp [flush]

/-- Where an unnamed marker ends, the escaped brace reads as a name and an end. -/
theorem marker?_of_endsUnnamed {segs : List Segment} (h : EndsUnnamed segs) :
    (marker? (segs.flatMap (encoded value))).isSome := by
  obtain ⟨digits, text, rest, hdigits, rfl⟩ := h
  obtain ⟨index, hindex⟩ := Option.isSome_iff_exists.mp hdigits
  have plain := not_isSpecial_of_index hdigits
  have split : (Segment.literal (digits ++ ':' :: '}' :: text) :: rest).flatMap (encoded value) =
      digits ++ ':' :: (['\\'] ++ '}' :: (escape text ++ rest.flatMap (encoded value))) := by
    rw [List.flatMap_cons, encoded, List.append_cons, escape_append, escape_eq_self plain]
    simp [escape, isSpecial]
  rw [split, marker?_eq_some_iff.mpr ⟨digits, rfl, hindex, by simp, by decide⟩]
  rfl

/-- The snippet text of a skeleton starts with an opening brace only where the skeleton does. -/
theorem head_of_encoded {t u : Text} (h : (segments t).flatMap (encoded value) = '{' :: u) :
    ∃ t', t = '{' :: t' := by
  induction t using reading with
  | nil => simp at h
  | marker body index name rest hm _ =>
    simp [segments_marker hm, encoded] at h
  | unmarked body hm _ =>
    rw [segments_unmarked hm, flatMap_encoded_lead] at h
    simp [escape, isSpecial] at h
  | cons c t hc _ =>
    rw [segments_cons hc, flatMap_encoded_lead, escape, escape] at h
    by_cases hs : isSpecial c
    · simp [hs] at h
    · simp only [hs, Bool.false_eq_true, if_false, List.cons_append, List.nil_append,
        List.cons.injEq] at h
      exact ⟨t, by rw [h.1]⟩

theorem expand_encoded_cons {c : Char} {t : Text} (h : ¬ opensMarker (c :: t)) :
    expand ((segments (c :: t)).flatMap (encoded value)) =
      c :: expand ((segments t).flatMap (encoded value)) := by
  have behind : ¬ opensMarker (c :: (segments t).flatMap (encoded value)) := by
    rintro ⟨body, hopen⟩
    obtain ⟨rfl, hbrace⟩ := List.cons.inj hopen
    obtain ⟨t', rfl⟩ := head_of_encoded hbrace
    exact h ⟨t', rfl⟩
  rw [segments_cons h, flatMap_encoded_lead, escape, escape]
  by_cases hc : isSpecial c
  · rw [if_pos hc]
    exact expand_special hc behind
  · rw [if_neg hc]
    exact expand_cons behind (ne_backslash_of_not_special hc)

theorem encoded_unmarked {body : Text} (h : marker? body = none) :
    (segments ('$' :: '{' :: body)).flatMap (encoded value) =
      '\\' :: '$' :: '{' :: (segments body).flatMap (encoded value) := by
  rw [segments_unmarked h, flatMap_encoded_lead]
  rfl

theorem encoded_marker {body name rest : Text} {index : Nat}
    (h : marker? body = some (index, name, rest)) :
    (segments ('$' :: '{' :: body)).flatMap (encoded value) =
      '$' :: '{' :: (Decimal.render index ++ ':' ::
        (escape (value name) ++ '}' :: (segments rest).flatMap (encoded value))) := by
  simp [segments_marker h, encoded]

theorem parse?_render_of_marker? {body name rest : Text} {index : Nat}
    (h : marker? body = some (index, name, rest)) :
    Decimal.parse? indexLimit (Decimal.render index) = some index := by
  obtain ⟨digits, -, hdigits, -, -⟩ := marker?_eq_some_iff.mp h
  exact Decimal.parse?_render (Decimal.lt_of_parse? hdigits)

/-- A marker whose value holds no brace is read back with the value. -/
theorem expand_encoded_marker {body name rest : Text} {index : Nat}
    (h : marker? body = some (index, name, rest)) (hne : value name ≠ [])
    (hclose : '}' ∉ value name) :
    expand ((segments ('$' :: '{' :: body)).flatMap (encoded value)) =
      value name ++ expand ((segments rest).flatMap (encoded value)) := by
  rw [encoded_marker h, expand_marker (marker?_eq_some_iff.mpr ⟨_, rfl, parse?_render_of_marker? h,
    mt escape_eq_nil_iff.mp hne, mt (mem_escape (by decide)).mp hclose⟩), unescape_escape_self]

/-- A marker without a value stays in the text. -/
theorem expand_encoded_empty {body name rest : Text} {index : Nat}
    (h : marker? body = some (index, name, rest)) (hempty : value name = []) :
    expand ((segments ('$' :: '{' :: body)).flatMap (encoded value)) =
      encoded value (.placeholder index name) ++
        expand ((segments rest).flatMap (encoded value)) := by
  have unread := marker?_unnamed (parse?_render_of_marker? h)
    ((segments rest).flatMap (encoded value))
  have plain : ∀ c ∈ Decimal.render index ++ [':', '}'], c ≠ '$' ∧ c ≠ '\\' := by
    intro c hc
    rcases List.mem_append.mp hc with hc | hc
    · exact ⟨fun heq => not_mem_render (by decide) index (heq ▸ hc),
        fun heq => not_mem_render (by decide) index (heq ▸ hc)⟩
    · obtain rfl | rfl : c = ':' ∨ c = '}' := by simpa using hc
      all_goals decide
  rw [encoded_marker h, hempty, escape, List.nil_append, expand_unmarked unread]
  simpa [encoded, hempty, escape] using
    expand_append plain ((segments rest).flatMap (encoded value))

/-- Where a bracket that opened no marker reads as one, the backslash in front of it is left. -/
theorem backslashes_lt_of_read {body : Text} (h : marker? body = none)
    (hread : (marker? ((segments body).flatMap (encoded value))).isSome) :
    backslashes ((segments ('$' :: '{' :: body)).flatMap (filled value)) <
      backslashes (expand ((segments ('$' :: '{' :: body)).flatMap (encoded value))) := by
  obtain ⟨⟨index, name, rest⟩, hread⟩ := Option.isSome_iff_exists.mp hread
  obtain ⟨digits, heq, hdigits, -, -⟩ := marker?_eq_some_iff.mp hread
  have opening : '\\' ∉ digits ++ [':'] := fun hmem =>
    not_isSpecial_of_index (by simp [hdigits]) _ hmem (by decide)
  have whole := backslashes_unescape_encoded value (segments body) []
  have skip := backslashes_unescape_append opening (name ++ '}' :: rest)
  have cut := backslashes_unescape_append_le name (c := '}') (by decide) rest
  have tail := backslashes_unescape_le_expand rest
  rw [List.append_nil, heq, List.append_cons, skip, unescape_nil, backslashes_nil] at whole
  rw [unescape_cons (by decide), backslashes_cons (by decide)] at cut
  rw [encoded_unmarked h, expand_special_marker hread, segments_unmarked h, flatMap_filled_lead]
  simp only [backslashes_append, backslashes_backslash, List.cons_append, List.nil_append]
  rw [backslashes_cons (by decide), backslashes_cons (by decide)]
  omega

/-- A marker whose value holds a brace ends there, behind the backslash that escapes it. -/
theorem backslashes_lt_of_close {body name rest : Text} {index : Nat}
    (h : marker? body = some (index, name, rest)) (hclose : '}' ∈ value name) :
    backslashes ((segments ('$' :: '{' :: body)).flatMap (filled value)) <
      backslashes (expand ((segments ('$' :: '{' :: body)).flatMap (encoded value))) := by
  obtain ⟨front, back, hvalue, hfront⟩ := List.eq_append_cons_of_mem hclose
  have escaped : escape (value name) = (escape front ++ ['\\']) ++ '}' :: escape back := by
    rw [hvalue, escape_append, escape, if_pos (by decide), List.append_cons]
  have read : marker? (Decimal.render index ++ ':' :: (escape (value name) ++
      '}' :: (segments rest).flatMap (encoded value))) =
      some (index, escape front ++ ['\\'],
        escape back ++ '}' :: (segments rest).flatMap (encoded value)) := by
    refine marker?_eq_some_iff.mpr ⟨_, ?_, parse?_render_of_marker? h, by simp, ?_⟩
    · rw [escaped, List.append_assoc (escape front ++ _), List.cons_append]
    · simpa using mt (mem_escape (by decide)).mp hfront
  have tail := backslashes_unescape_le_expand
    (escape back ++ '}' :: (segments rest).flatMap (encoded value))
  have whole := backslashes_unescape_encoded value (segments rest) []
  rw [List.append_nil, unescape_nil, backslashes_nil, Nat.add_zero] at whole
  rw [unescape_escape_append, unescape_cons (by decide), backslashes_append,
    backslashes_cons (by decide), whole] at tail
  rw [encoded_marker h, expand_marker read, segments_marker h, List.flatMap_cons, filled, hvalue,
    unescape_escape_append]
  simp only [backslashes_append, unescape, backslashes_backslash, backslashes_nil]
  rw [backslashes_cons (by decide)]
  omega

/-- A segment that is cut inside an escaped character leaves a backslash that the rendered text does
not have. -/
theorem backslashes_lt_of_broken {t : Text} (h : ∃ s ∈ segments t, Broken value s) :
    backslashes ((segments t).flatMap (filled value)) <
      backslashes (expand ((segments t).flatMap (encoded value))) := by
  induction t using reading with
  | nil => simp at h
  | marker body index name rest hm ih =>
    by_cases hclose : '}' ∈ value name
    · exact backslashes_lt_of_close hm hclose
    · have hrest : ∃ s ∈ segments rest, Broken value s := by
        simpa [segments_marker hm, hclose] using h
      have := ih hrest
      by_cases hempty : value name = []
      · rw [expand_encoded_empty hm hempty, segments_marker hm, List.flatMap_cons, filled, hempty,
          List.nil_append, backslashes_append]
        omega
      · rw [expand_encoded_marker hm hempty hclose, segments_marker hm, List.flatMap_cons, filled,
          backslashes_append, backslashes_append]
        omega
  | unmarked body hm ih =>
    by_cases hread : (marker? ((segments body).flatMap (encoded value))).isSome
    · exact backslashes_lt_of_read hm hread
    · rw [segments_unmarked hm, exists_broken_bracket,
        or_iff_right (mt marker?_of_endsUnnamed hread)] at h
      have := ih h
      rw [encoded_unmarked hm, expand_special_unmarked (Option.not_isSome_iff_eq_none.mp hread),
        segments_unmarked hm, flatMap_filled_lead]
      simpa [backslashes_cons] using this
  | cons c t hc ih =>
    rw [segments_cons hc, exists_broken_segments_cons hc] at h
    rw [expand_encoded_cons hc, segments_cons hc, flatMap_filled_lead,
      ← List.singleton_append (l := expand _), backslashes_append, backslashes_append]
    exact Nat.add_lt_add_left (ih h) _

/-- The text of a segment that is cut between whole pieces: the rendered text, but that a marker
without a value stays. -/
def kept (value : Text → Text) : Segment → Text
  | .literal text => text
  | .placeholder index name =>
    if value name = [] then encoded value (.placeholder index name) else value name

theorem flatMap_kept_lead (text : Text) (segs : List Segment) :
    (lead text segs).flatMap (kept value) = text ++ segs.flatMap (kept value) :=
  flatMap_lead rfl (fun _ => rfl) segs

theorem expand_encoded_eq_kept {t : Text} (h : ∀ s ∈ segments t, ¬ Broken value s) :
    expand ((segments t).flatMap (encoded value)) = (segments t).flatMap (kept value) := by
  induction t using reading with
  | nil => simp
  | marker body index name rest hm ih =>
    rw [segments_marker hm, List.forall_mem_cons] at h
    by_cases hempty : value name = []
    · rw [expand_encoded_empty hm hempty, ih h.2, segments_marker hm, List.flatMap_cons, kept,
        if_pos hempty]
    · rw [expand_encoded_marker hm hempty h.1, ih h.2, segments_marker hm, List.flatMap_cons, kept,
        if_neg hempty]
  | unmarked body hm ih =>
    have whole : ¬ (EndsUnnamed (segments body) ∨ ∃ s ∈ segments body, Broken value s) := by
      rw [← exists_broken_bracket, ← segments_unmarked hm]
      simpa using h
    obtain ⟨hends, hbody⟩ := not_or.mp whole
    have unread : marker? ((segments body).flatMap (encoded value)) = none :=
      Option.not_isSome_iff_eq_none.mp (mt (endsUnnamed_of_marker? hm) hends)
    rw [encoded_unmarked hm, expand_special_unmarked unread, ih (by simpa using hbody),
      segments_unmarked hm, flatMap_kept_lead]
    rfl
  | cons c t hc ih =>
    have whole : ¬ ∃ s ∈ segments t, Broken value s := by
      rw [← exists_broken_segments_cons hc, ← segments_cons hc]
      simpa using h
    rw [expand_encoded_cons hc, ih (by simpa using whole), segments_cons hc, flatMap_kept_lead]
    rfl

/-- Whether a segment is inserted as it is rendered by an editor that knows no snippets. A value
may be neither empty nor hold a closing brace. -/
def Survives (value : Text → Text) : Segment → Prop
  | .literal text => ¬ HasUnnamed text
  | .placeholder _ name => value name ≠ [] ∧ '}' ∉ value name

theorem not_broken_of_survives {s : Segment} (h : Survives value s) : ¬ Broken value s := by
  cases s with
  | literal text => exact h
  | placeholder index name => exact h.2

theorem length_filled_le (value : Text → Text) (s : Segment) :
    (filled value s).length ≤ (kept value s).length := by
  cases s with
  | literal text => exact Nat.le_refl _
  | placeholder index name =>
    by_cases h : value name = [] <;> simp [filled, kept, h]

theorem length_flatMap_filled_le (value : Text → Text) (segs : List Segment) :
    (segs.flatMap (filled value)).length ≤ (segs.flatMap (kept value)).length := by
  induction segs with
  | nil => exact Nat.le_refl _
  | cons s segs ih =>
    have := length_filled_le value s
    simp only [List.flatMap_cons, List.length_append]
    omega

theorem kept_eq_filled {s : Segment} (h : Survives value s) : kept value s = filled value s := by
  cases s with
  | literal text => rfl
  | placeholder index name => exact if_neg h.1

/-- What is kept is the rendered text only if no value is empty. -/
theorem survives_of_kept_eq {segs : List Segment} (hbroken : ∀ s ∈ segs, ¬ Broken value s)
    (h : segs.flatMap (kept value) = segs.flatMap (filled value)) :
    ∀ s ∈ segs, Survives value s := by
  induction segs with
  | nil => simp
  | cons s segs ih =>
    rw [List.forall_mem_cons] at hbroken ⊢
    have hs : Survives value s := by
      cases s with
      | literal text => exact hbroken.1
      | placeholder index name =>
        refine ⟨fun hempty => ?_, hbroken.1⟩
        have hlen := congrArg List.length h
        have hrest := length_flatMap_filled_le value segs
        have hmarker : 0 < (encoded value (.placeholder index name)).length := Nat.succ_pos _
        rw [List.flatMap_cons, List.flatMap_cons, kept, if_pos hempty, filled, hempty,
          List.nil_append, List.length_append] at hlen
        omega
    rw [List.flatMap_cons, List.flatMap_cons, kept_eq_filled hs, List.append_cancel_left_eq] at h
    exact ⟨hs, ih hbroken.2 h⟩

/-- A skeleton's snippet expands to the skeleton with its values exactly if every segment
survives. -/
theorem expand_encoded_iff (t : Text) :
    expand ((segments t).flatMap (encoded value)) = (segments t).flatMap (filled value) ↔
      ∀ s ∈ segments t, Survives value s := by
  constructor
  · intro h
    have hbroken : ∀ s ∈ segments t, ¬ Broken value s := by
      intro s hs hb
      have := backslashes_lt_of_broken ⟨s, hs, hb⟩
      rw [h] at this
      exact absurd this (Nat.lt_irrefl _)
    refine survives_of_kept_eq hbroken ?_
    rw [← expand_encoded_eq_kept hbroken, h]
  · intro h
    rw [expand_encoded_eq_kept fun s hs => not_broken_of_survives (h s hs)]
    exact List.flatMap_congr fun s hs => kept_eq_filled (h s hs)

end Snippet

namespace Template

theorem snippet_eq (t : Template) :
    t.snippet = t.segments.flatMap (Snippet.encoded t.defaultOf) := by
  unfold snippet
  apply List.flatMap_congr
  intro s _
  cases s <;> simp [Snippet.encoded]

theorem rendered_eq (t : Template) :
    t.rendered = t.segments.flatMap (Snippet.filled t.defaultOf) := by
  unfold rendered fill
  apply List.flatMap_congr
  intro s _
  cases s <;> rfl

/-- An editor that knows no snippets inserts the rendered template exactly if every literal is free
of unnamed markers and the default of every placeholder is not empty and holds no closing brace. -/
theorem plainText_snippet_iff (t : Template) (p : Proposal) :
    (p.withSnippet t.snippet).plainText = t.rendered ↔
      ∀ s ∈ t.segments, Snippet.Survives t.defaultOf s := by
  rw [snippet_eq, rendered_eq]
  exact Snippet.expand_encoded_iff t.skeleton.toList

/-- A template whose only parameter defaults to a closing brace. -/
def braced : Template where
  name := "braced"
  description := "A closing brace"
  skeleton := "$\x7b1:v\x7d"
  parameters := [{ name := "v", kind := .labelValue, default := "\x7d", optional := false }]

/-- The brace is inserted with the backslash that escapes it. -/
theorem plainText_braced :
    ((Proposal.plain "braced" .template ⟨0, 0⟩).withSnippet braced.snippet).plainText =
        ['\\', '}'] ∧
      braced.rendered = ['}'] := by
  have hskeleton : braced.skeleton.toList = ['$', '{', '1', ':', 'v', '}'] := by decide
  have hdefault : braced.defaultOf ['v'] = ['}'] := by decide
  have hmarker : Skeleton.marker? ['1', ':', 'v', '}'] = some (1, ['v'], []) := by decide
  have hsegs : braced.segments = [.placeholder 1 ['v']] := by
    rw [segments, hskeleton, Skeleton.segments_marker hmarker, Skeleton.segments_nil]
  have hsnippet : braced.snippet = ['$', '{', '1', ':', '\\', '}', '}'] := by
    rw [snippet_eq, hsegs, List.flatMap_singleton, Snippet.encoded, hdefault]
    decide
  have hread : Skeleton.marker? ['1', ':', '\\', '}', '}'] = some (1, ['\\'], ['}']) := by
    decide
  constructor
  · rw [hsnippet]
    refine (Snippet.expand_marker hread).trans ?_
    rw [Snippet.expand_cons (Snippet.not_opensMarker_of_ne (by decide) _) (by decide),
      Snippet.expand_nil]
    rfl
  · rw [rendered_eq, hsegs, List.flatMap_singleton, Snippet.filled, hdefault]

end Template

end PromqlAssist
