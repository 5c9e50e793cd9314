import PromqlAssist.Proofs.Template.Expansion
import PromqlAssist.Proofs.Template.Pattern
import PromqlAssist.Proofs.Text.Position
import PromqlAssist.Session.Workbench

/-!
# Where proposals are inserted

All proposals for a cursor replace one span, which depends on the context: the word in front of the
cursor, what follows the last bracket, nothing at all, or the value of a placeholder. Whichever it
is, inserting a proposal edits the text at the cursor and glues no two words together.
-/

namespace PromqlAssist

open Text

variable {vocabulary : Vocabulary} {context : Context} {span : Span} {p : Proposal}
variable {t : Text} {cursor : Nat}

/-- A proposal that replaces a part of the text that the cursor touches, and starts no word behind
an identifier. -/
structure Proposal.WellPlaced (t : Text) (cursor : Nat) (p : Proposal) : Prop where
  fits : p.span.Fits t
  touches : p.span.touches (t.clamp cursor)
  stop_eq : p.span.stop = t.clamp cursor ∨
    ∃ found, Placeholder.find? t (t.clamp cursor) = some found ∧ p.span = found.span
  apart : ClosesWord (t.before p.span.start) ∨
    p.insertText.head? = some ' ' ∧ p.plainText.head? = some ' '

/-! ## All suggestions share a span -/

namespace Suggestion

theorem span_of_mem_map {α : Type} {f : α → Proposal} {xs : List α}
    (hf : ∀ x ∈ xs, (f x).span = span) (h : p ∈ xs.map f) : p.span = span := by
  obtain ⟨x, hx, rfl⟩ := List.mem_map.mp h
  exact hf x hx

theorem span_of_mem_durations (h : p ∈ durations span) : p.span = span := by
  refine span_of_mem_map (fun preset _ => ?_) h
  dsimp only
  split <;> rfl

theorem span_of_mem_labels {names : List String} (h : p ∈ labels names span) : p.span = span :=
  span_of_mem_map (fun _ _ => rfl) h

theorem span_of_mem_metrics {names : List String} (h : p ∈ metrics names span) : p.span = span :=
  span_of_mem_map (fun _ _ => rfl) h

theorem span_of_mem_groupings (h : p ∈ groupings span) : p.span = span :=
  span_of_mem_map (fun _ _ => rfl) h

theorem span_of_mem_binaryOperators (h : p ∈ binaryOperators span) : p.span = span :=
  span_of_mem_map (fun _ _ => rfl) h

theorem span_of_mem_candidates (h : p ∈ candidates vocabulary span context) : p.span = span := by
  cases context with
  | groupingLabel clause => exact span_of_mem_labels h
  | timeRange => exact span_of_mem_durations h
  | comparator label => exact span_of_mem_map (fun _ _ => rfl) h
  | label metric? => exact span_of_mem_labels h
  | groupingAndBinary =>
    rcases List.mem_append.mp h with h | h
    · exact span_of_mem_groupings h
    · exact span_of_mem_binaryOperators h
  | groupingOperator aggregation => exact span_of_mem_groupings h
  | binaryOperator =>
    rcases List.mem_append.mp h with h | h
    · exact span_of_mem_binaryOperators h
    · exact span_of_mem_map (fun _ _ => rfl) h
  | functionOrMetric scope =>
    simp only [candidates, List.mem_append] at h
    rcases h with ((htemplate | haggregation) | hfunction) | hmetric
    · split at htemplate
      · exact span_of_mem_map (fun _ _ => rfl) htemplate
      · cases htemplate
    · exact span_of_mem_map (fun _ _ => rfl) haggregation
    · exact span_of_mem_map (fun _ _ => rfl) hfunction
    · exact span_of_mem_metrics hmetric
  | any => cases h

end Suggestion

theorem span_of_mem_suggest (h : p ∈ suggest vocabulary context span) : p.span = span := by
  have hmem : p ∈ Suggestion.candidates vocabulary span context := by
    rw [suggest, Proposal.ranked, List.mem_append, List.mem_filter, List.mem_filter] at h
    exact h.elim And.left And.left
  exact Suggestion.span_of_mem_candidates hmem

/-! ## What a context replaces -/

namespace Completion

/-- A span that ends at the cursor, and starts behind no identifier unless it is empty. -/
structure EndsAtCursor (t : Text) (cursor : Nat) (span : Span) : Prop where
  fits : span.Fits t
  stop_eq : span.stop = t.clamp cursor
  apart : span.isEmpty ∨ ClosesWord (t.before span.start)

theorem EndsAtCursor.of_before {a b : Text} (h : t.before cursor = a ++ b) (ha : ClosesWord a) :
    EndsAtCursor t cursor ⟨size a, t.clamp cursor⟩ := by
  obtain ⟨ht, hclamp⟩ := eq_append_of_before h
  have hfits : Span.Fits ⟨size a, size a + size b⟩ t := Span.fits_iff.mpr ⟨a, b, _, ht, rfl⟩
  refine ⟨hclamp ▸ hfits, rfl, .inr ?_⟩
  rw [ht, before_size_append]
  exact ha

theorem EndsAtCursor.point (t : Text) (cursor : Nat) :
    EndsAtCursor t cursor (.point (t.clamp cursor)) :=
  ⟨⟨Nat.le_refl _, isBoundary_clamp t cursor, isBoundary_clamp t cursor⟩, rfl,
    .inl (by simp [Span.isEmpty, Span.point])⟩

theorem endsAtCursor_wordBefore (t : Text) (cursor : Nat) :
    EndsAtCursor t cursor (t.wordBefore cursor).1 :=
  .of_before (dropTrailing_append_trailing isIdent (t.before cursor)).symm
    (closesWord_dropTrailing _)

theorem endsAtCursor_target (context : Context) (t : Text) (cursor : Nat) :
    EndsAtCursor t cursor (target context t cursor).1 := by
  cases context with
  | groupingLabel clause => exact endsAtCursor_wordBefore t cursor
  | label metric? => exact endsAtCursor_wordBefore t cursor
  | functionOrMetric scope => exact endsAtCursor_wordBefore t cursor
  | timeRange =>
    simp only [target]
    cases hopen : afterLast? '[' (t.before cursor) with
    | none => exact .point t cursor
    | some typed =>
      obtain ⟨front, hfront⟩ := afterLast?_eq_some hopen
      have hbefore : t.before cursor = (front ++ ['[']) ++ typed := by
        simpa using hfront
      have hbracket : ClosesWord (front ++ ['[']) := by
        intro c hc
        obtain rfl : '[' = c := by simpa using hc
        decide
      have hstart : t.clamp cursor - size typed = size (front ++ ['[']) := by
        rw [(eq_append_of_before hbefore).2, Nat.add_sub_cancel]
      rw [Option.getD_some, hstart]
      exact .of_before hbefore hbracket
  | comparator label => exact .point t cursor
  | groupingAndBinary => exact .point t cursor
  | groupingOperator aggregation => exact .point t cursor
  | binaryOperator => exact .point t cursor
  | any => exact .point t cursor

theorem EndsAtCursor.wellPlaced (h : EndsAtCursor t cursor p.span)
    (apart : ClosesWord (t.before p.span.start) ∨
      p.insertText.head? = some ' ' ∧ p.plainText.head? = some ' ') : p.WellPlaced t cursor where
  fits := h.fits
  touches := by simpa [Span.touches, h.stop_eq] using h.stop_eq ▸ h.fits.1
  stop_eq := .inl h.stop_eq
  apart := apart

/-- The space stays in front when the snippet is expanded. -/
theorem plainText_spaced (p : Proposal) : (spaced p).plainText = ' ' :: p.plainText := by
  unfold Proposal.plainText spaced
  split
  · exact Snippet.expand_cons (Snippet.not_opensMarker_of_ne (by decide) _) (by decide)
  · rfl

theorem wellPlaced_of_mem_ofContext (h : p ∈ ofContext vocabulary t cursor) :
    p.WellPlaced t cursor := by
  have htarget := endsAtCursor_target (Context.classify vocabulary t cursor) t cursor
  simp only [ofContext] at h
  generalize Context.classify vocabulary t cursor = context at h htarget
  split at h
  · -- The proposal is inserted right behind an identifier.
    obtain ⟨q, hq, rfl⟩ := List.mem_map.mp h
    have hspan : q.span = (target context t cursor).1 :=
      span_of_mem_suggest (List.mem_filter.mp hq).1
    have hends : EndsAtCursor t cursor (spaced q).span := hspan ▸ htarget
    have hspace : (spaced q).plainText.head? = some ' ' := by
      rw [plainText_spaced, List.head?_cons]
    exact hends.wellPlaced (.inr ⟨rfl, hspace⟩)
  · rename_i hbehind
    have hspan : p.span = (target context t cursor).1 :=
      span_of_mem_suggest (List.mem_filter.mp h).1
    rw [← hspan] at htarget hbehind
    refine htarget.wellPlaced (.inl ?_)
    rcases htarget.apart with hempty | hword
    · have hstart : p.span.start = t.clamp cursor := by
        simpa [Span.isEmpty, htarget.stop_eq] using hempty
      rw [hstart, before_clamp]
      intro c hc
      simpa [hempty, Option.mem_def.mp hc] using hbehind
    · exact hword

end Completion

/-! ## What a placeholder replaces -/

namespace Placeholder

variable {found : Placeholder}

theorem mem_of_ofCaptures? {template : Template} {captures : List PatternPart.Capture}
    (h : ofCaptures? template captures cursor = some found) :
    (∃ c ∈ captures, c.span = found.span) ∧ found.span.touches cursor := by
  obtain ⟨parameter, -, h⟩ := List.exists_of_findSome?_eq_some h
  obtain ⟨c, hc, h⟩ := Option.bind_eq_some_iff.mp h
  split at h
  · rename_i htouches
    obtain rfl := Option.some.inj h
    exact ⟨⟨c, List.mem_of_find?_eq_some hc, rfl⟩, htouches⟩
  · cases h

/-- A placeholder that is found has the span of a value captured on the line of the cursor. -/
theorem exists_of_find? (h : find? t cursor = some found) : found.span.touches cursor ∧
    ∃ template ∈ Template.builtin, ∃ front line rest, t = front ++ (line ++ rest) ∧
      t.lineBounds cursor = ⟨size front, size front + size line⟩ ∧
      ∃ captures ∈ PatternPart.matchesFrom template.pattern (size front) 0 line,
        ∃ c ∈ captures, c.span = found.span := by
  obtain ⟨template, htemplate, h⟩ := List.exists_of_findSome?_eq_some h
  obtain ⟨captures, hcaptures, h⟩ := List.exists_of_findSome?_eq_some h
  obtain ⟨hspan, htouches⟩ := mem_of_ofCaptures? h
  obtain ⟨front, line, rest, ht, hbounds⟩ := exists_lineBounds t cursor
  have hline : (t.lineBounds cursor).slice t = line := by
    rw [hbounds, ht]
    exact slice_append front line rest
  rw [hline, hbounds] at hcaptures
  exact ⟨htouches, template, htemplate, front, line, rest, ht, hbounds, captures, hcaptures, hspan⟩

/-- The value of a placeholder is a part of the text with no identifier up to it. -/
theorem within_of_find? (h : find? t cursor = some found) :
    (∃ a b d, t = a ++ (b ++ d) ∧ found.span = ⟨size a, size a + size b⟩ ∧ ClosesWord a) ∧
      found.span.touches cursor := by
  obtain ⟨htouches, template, htemplate, front, line, rest, ht, -, captures, hcaptures, c, hc,
    hspan⟩ := exists_of_find? h
  obtain ⟨a, b, d, heq, hvalue, hword⟩ := PatternPart.within_of_mem_matchesFrom
    (Template.slotsApart_pattern htemplate) hcaptures c hc
  refine ⟨⟨a, b, d ++ rest, ?_, hspan ▸ hvalue, hword⟩, htouches⟩
  rw [ht, ← List.append_assoc, heq, List.append_assoc, List.append_assoc]

theorem span_of_mem_candidates (h : p ∈ candidates vocabulary found) : p.span = found.span := by
  have hvalues : ∀ {names : List String}, p ∈ values names found.span → p.span = found.span :=
    Suggestion.span_of_mem_map fun _ _ => rfl
  unfold candidates at h
  split at h
  · exact Suggestion.span_of_mem_metrics h
  split at h
  · exact hvalues h
  split at h
  · exact Suggestion.span_of_mem_metrics h
  split at h
  · exact Suggestion.span_of_mem_metrics h
  unfold ofKind at h
  split at h
  · exact Suggestion.span_of_mem_durations h
  · exact Suggestion.span_of_mem_metrics h
  · exact Suggestion.span_of_mem_labels h
  · exact hvalues h
  · cases h

theorem span_of_mem_proposals (h : p ∈ found.proposals vocabulary) : p.span = found.span := by
  obtain ⟨q, hq, rfl⟩ := List.mem_map.mp h
  exact span_of_mem_candidates (p := q) hq

theorem wellPlaced_of_mem_proposals (hfound : find? t (t.clamp cursor) = some found)
    (h : p ∈ found.proposals vocabulary) : p.WellPlaced t cursor := by
  have hspan := span_of_mem_proposals h
  obtain ⟨⟨a, b, d, ht, hvalue, hword⟩, htouches⟩ := within_of_find? hfound
  refine ⟨?_, hspan ▸ htouches, .inr ⟨found, hfound, hspan⟩, .inl ?_⟩
  · exact hspan ▸ Span.fits_iff.mpr ⟨a, b, d, ht, hvalue⟩
  · rw [hspan, hvalue, ht, before_size_append]
    exact hword

end Placeholder

/-! ## Every proposal -/

/-- A proposal is for the context of the cursor, or for the placeholder that the cursor touches. -/
theorem Placeholder.exists_of_complete? {n : Nat} {ps : List Proposal}
    (h : complete? vocabulary t n = some ps) :
    ∃ found, find? t n = some found ∧ ps = found.proposals vocabulary := by
  obtain ⟨found, hfound, hps⟩ := Option.bind_eq_some_iff.mp h
  dsimp only at hps
  split at hps
  · cases hps
  · exact ⟨found, hfound, (Option.some.inj hps).symm⟩

theorem mem_of_mem_complete {limit : Nat} (h : p ∈ complete vocabulary limit t cursor) :
    (Placeholder.complete? vocabulary t (t.clamp cursor) = none ∧
      p ∈ Completion.ofContext vocabulary t cursor) ∨
    ((Placeholder.complete? vocabulary t (t.clamp cursor)).isSome ∧
      ∃ found, Placeholder.find? t (t.clamp cursor) = some found ∧
        p ∈ found.proposals vocabulary) := by
  have hmem := List.mem_of_mem_take h
  cases hplaceholder : Placeholder.complete? vocabulary t (t.clamp cursor) with
  | none =>
    rw [hplaceholder] at hmem
    exact .inl ⟨rfl, hmem⟩
  | some ps =>
    rw [hplaceholder] at hmem
    obtain ⟨found, hfound, rfl⟩ := Placeholder.exists_of_complete? hplaceholder
    exact .inr ⟨rfl, found, hfound, hmem⟩

theorem wellPlaced_of_mem_complete {limit : Nat} (h : p ∈ complete vocabulary limit t cursor) :
    p.WellPlaced t cursor := by
  obtain ⟨-, hmem⟩ | ⟨-, found, hfound, hmem⟩ := mem_of_mem_complete h
  · exact Completion.wellPlaced_of_mem_ofContext hmem
  · exact Placeholder.wellPlaced_of_mem_proposals hfound hmem

namespace Workbench

/-- A proposal goes between `a` and `c`, and the text that this makes waits to be validated. -/
structure Inserts (w : Workbench) (p : Proposal) (now : Nat) (a c : Text) : Prop where
  text_eq : (w.step (.insert p now)).2.editor.text = a ++ (p.plainText ++ c)
  answer_eq : (w.step (.insert p now)).1 = ⟨.token (w.session.validation.issued + 1), []⟩
  pending_eq : (w.step (.insert p now)).2.session.validation.pending? =
    some ⟨w.session.validation.issued + 1, now + w.session.validation.delay,
      a ++ (p.plainText ++ c)⟩

theorem inserts_of_fits (w : Workbench) (p : Proposal) (now : Nat) {a b c : Text}
    (ht : w.editor.text = a ++ (b ++ c)) (hspan : p.span = ⟨size a, size a + size b⟩) :
    w.Inserts p now a c := by
  have hfits : p.span.Fits w.editor.text := Span.fits_iff.mpr ⟨a, b, c, ht, hspan⟩
  have hstep : w.step (.insert p now) = w.insertProposal p now := if_pos hfits
  have hreplace : p.span.replace w.editor.text p.plainText = a ++ (p.plainText ++ c) := by
    rw [hspan, ht, Span.replace_append]
  constructor
  · rw [hstep]
    exact hreplace
  · rw [hstep]
    rfl
  · rw [hstep, ← hreplace]
    rfl

/-- Every proposal for the cursor is well placed, and inserting it changes the text at the cursor
only. -/
theorem wellPlaced_completions (w : Workbench) (now : Nat) (h : p ∈ w.completions) :
    p.WellPlaced w.editor.text w.editor.cursor ∧
      ∃ a b c, w.editor.text = a ++ (b ++ c) ∧ p.span = ⟨size a, size a + size b⟩ ∧
        w.Inserts p now a c := by
  have placed := wellPlaced_of_mem_complete h
  obtain ⟨a, b, c, ht, hspan⟩ := placed.fits.exists_append
  exact ⟨placed, a, b, c, ht, hspan, w.inserts_of_fits p now ht hspan⟩

/-- A query of two lines with the cursor inside the metric of a template. -/
def rateQuery : Workbench :=
  { start ⟨["up"], []⟩ .default 1 with
    editor := ⟨"é\nsum(rate(ab\x7bjob=\"x\"\x7d[5m])) by (g)".toList, 13, []⟩ }

/-- The one proposal for the metric, which replaces it on both sides of the cursor. -/
def upMetric : Proposal :=
  ((Proposal.plain "up" .metric ⟨12, 14⟩).withDetail "metric").withDocumentation
    "metric for `request_rate.metric`"

/-- A function name that is typed up to the cursor. -/
def functionQuery : Workbench :=
  { rateQuery with editor := ⟨"é\nsum(rat + 1)".toList, 10, []⟩ }

/-- The call that takes the place of the typed name. -/
def rateCall : Proposal :=
  (((Proposal.plain "rate" .function ⟨7, 10⟩).withSnippet
    "rate($\x7b1:metric\x7d[$\x7b2:5m\x7d])".toList).withDetail
      "range-vector function").withDocumentation
        "Per-second average rate of increase of a counter over the range."

/-- An open time range, with the cursor behind its first character. -/
def rangeQuery : Workbench :=
  { rateQuery with editor := ⟨"é\nrate(up[5 or 1".toList, 12, []⟩ }

/-- A duration takes the place of all that is typed of the range. -/
def fiveMinutes : Proposal :=
  (Proposal.plain "5m" .duration ⟨11, 12⟩).withDetail "5 minutes"

/-- An aggregation with the cursor right behind it. -/
def sumQuery : Workbench :=
  { rateQuery with editor := ⟨"é\nsum offset".toList, 6, []⟩ }

/-- A clause that only is inserted, with a space in front of it. -/
def spacedClause : Proposal :=
  Completion.spaced ((((Proposal.plain "by" .grouping ⟨6, 6⟩).withSnippet
    "by ($\x7b1:label\x7d)".toList).withDetail "grouping").withDocumentation
      "Keep only the listed labels when aggregating.")

/-- The value of a placeholder, a word, a time range and an empty span are replaced. -/
theorem wellPlaced_fourEdits :
    (upMetric ∈ rateQuery.completions ∧
      upMetric.WellPlaced rateQuery.editor.text 13 ∧
        ∃ a b c, rateQuery.editor.text = a ++ (b ++ c) ∧
          upMetric.span = ⟨size a, size a + size b⟩ ∧ rateQuery.Inserts upMetric 0 a c) ∧
    (rateCall ∈ functionQuery.completions ∧
      rateCall.WellPlaced functionQuery.editor.text 10 ∧
        ∃ a b c, functionQuery.editor.text = a ++ (b ++ c) ∧
          rateCall.span = ⟨size a, size a + size b⟩ ∧ functionQuery.Inserts rateCall 0 a c) ∧
    (fiveMinutes ∈ rangeQuery.completions ∧
      fiveMinutes.WellPlaced rangeQuery.editor.text 12 ∧
        ∃ a b c, rangeQuery.editor.text = a ++ (b ++ c) ∧
          fiveMinutes.span = ⟨size a, size a + size b⟩ ∧ rangeQuery.Inserts fiveMinutes 0 a c) ∧
    (spacedClause ∈ sumQuery.completions ∧
      spacedClause.WellPlaced sumQuery.editor.text 6 ∧
        ∃ a b c, sumQuery.editor.text = a ++ (b ++ c) ∧
          spacedClause.span = ⟨size a, size a + size b⟩ ∧
            sumQuery.Inserts spacedClause 0 a c) := by
  have hvalue : upMetric ∈ rateQuery.completions := by decide +kernel
  -- The three look for the same placeholders, which takes most of the evaluation.
  have hcontext : rateCall ∈ functionQuery.completions ∧
      fiveMinutes ∈ rangeQuery.completions ∧ spacedClause ∈ sumQuery.completions := by
    decide +kernel
  obtain ⟨hword, hrange, hempty⟩ := hcontext
  exact ⟨⟨hvalue, wellPlaced_completions rateQuery 0 hvalue⟩,
    ⟨hword, wellPlaced_completions functionQuery 0 hword⟩,
    ⟨hrange, wellPlaced_completions rangeQuery 0 hrange⟩,
    ⟨hempty, wellPlaced_completions sumQuery 0 hempty⟩⟩

end Workbench

end PromqlAssist
