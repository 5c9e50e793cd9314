import PromqlAssist.Proofs.Completion.Placement

/-!
# The order of proposals

Templates stand in front of all other proposals, and there are only as many of them as are builtin.
Both hold of whatever a context suggests, and no step behind that adds or moves a proposal: names
are filtered, a space may be put in front, and the list is cut off. Placeholders are never offered
a template.
-/

namespace PromqlAssist

variable {vocabulary : Vocabulary} {context : Context} {span : Span}
variable {ps qs : List Proposal}

namespace Category

theorem rank_le_one (c : Category) : c.rank ≤ 1 := by
  cases c <;> decide

theorem rank_eq_zero_iff {c : Category} : c.rank = 0 ↔ c = .template := by
  cases c <;> decide

end Category

namespace Proposal

/-- Proposals in the order of their ranks, with no more templates than are builtin. -/
structure TemplatesFirst (ps : List Proposal) : Prop where
  ordered : ps.Pairwise fun p q => p.category.rank ≤ q.category.rank
  few : ps.countP (·.category.rank = 0) ≤ Template.builtin.length

/-- Proposals none of which is a template. -/
def NoTemplate (ps : List Proposal) : Prop :=
  ∀ p ∈ ps, p.category ≠ .template

theorem noTemplate_map {α : Type} {f : α → Proposal} (hf : ∀ x, (f x).category ≠ .template)
    (xs : List α) : NoTemplate (xs.map f) := by
  intro p hp
  obtain ⟨x, -, rfl⟩ := List.mem_map.mp hp
  exact hf x

theorem NoTemplate.append (hp : NoTemplate ps) (hq : NoTemplate qs) : NoTemplate (ps ++ qs) := by
  intro p hmem
  exact (List.mem_append.mp hmem).elim (hp p) (hq p)

theorem NoTemplate.countP_eq_zero (h : NoTemplate ps) :
    ps.countP (·.category.rank = 0) = 0 := by
  rw [List.countP_eq_zero]
  intro p hp
  rw [decide_eq_true_eq, Category.rank_eq_zero_iff]
  exact h p hp

theorem NoTemplate.templatesFirst (h : NoTemplate ps) : TemplatesFirst ps where
  ordered := by
    apply List.pairwise_of_forall_mem_list
    intro p _ q hq
    have hrank : q.category.rank ≠ 0 := fun hzero => h q hq (Category.rank_eq_zero_iff.mp hzero)
    have hle := p.category.rank_le_one
    omega
  few := by
    rw [h.countP_eq_zero]
    exact Nat.zero_le _

theorem TemplatesFirst.sublist (h : TemplatesFirst ps) (hs : qs.Sublist ps) :
    TemplatesFirst qs where
  ordered := h.ordered.sublist hs
  few := Nat.le_trans hs.countP_le h.few

theorem TemplatesFirst.map {f : Proposal → Proposal} (hf : ∀ p, (f p).category = p.category)
    (h : TemplatesFirst ps) : TemplatesFirst (ps.map f) where
  ordered := by
    rw [List.pairwise_map]
    simpa only [hf] using h.ordered
  few := by
    rw [List.countP_map]
    simpa only [Function.comp_def, hf] using h.few

theorem ranked_perm (ps : List Proposal) : (ranked ps).Perm ps := by
  have hnot : (fun p : Proposal => decide (p.category.rank ≠ 0)) =
      fun p => !decide (p.category.rank = 0) := by
    funext p
    exact decide_not
  rw [ranked, hnot]
  exact List.filter_append_perm _ ps

theorem templatesFirst_ranked (h : ps.countP (·.category.rank = 0) ≤ Template.builtin.length) :
    TemplatesFirst (ranked ps) where
  ordered := by
    have hzero : ∀ p ∈ ps.filter (·.category.rank = 0), p.category.rank = 0 := by
      simp
    have hnonzero : ∀ p ∈ ps.filter (·.category.rank ≠ 0), p.category.rank ≠ 0 := by
      simp
    rw [ranked, List.pairwise_append]
    refine ⟨?_, ?_, ?_⟩
    · apply List.pairwise_of_forall_mem_list
      intro p hp q _
      rw [hzero p hp]
      exact Nat.zero_le _
    · apply List.pairwise_of_forall_mem_list
      intro p _ q hq
      have hq := hnonzero q hq
      have hle := p.category.rank_le_one
      omega
    · intro p hp q _
      rw [hzero p hp]
      exact Nat.zero_le _
  few := by
    rwa [(ranked_perm ps).countP_eq]

/-- Behind as many proposals as there are templates, none is a template. -/
theorem TemplatesFirst.rank_eq_one (h : TemplatesFirst ps) {n : Nat} (hn : n < ps.length)
    (hle : Template.builtin.length ≤ n) : ps[n].category.rank = 1 := by
  obtain hzero | hone := Nat.le_one_iff_eq_zero_or_eq_one.mp ps[n].category.rank_le_one
  case inr => exact hone
  -- All that stand in front of a template are templates as well, so there are too many.
  have hall : ∀ p ∈ ps.take (n + 1), p.category.rank = 0 := by
    intro p hp
    obtain ⟨i, hi, rfl⟩ := List.mem_take_iff_getElem.mp hp
    obtain hlt | rfl : i < n ∨ i = n := by omega
    · have hordered := List.pairwise_iff_getElem.mp h.ordered i n (by omega) hn hlt
      omega
    · exact hzero
  have hcount : (ps.take (n + 1)).countP (·.category.rank = 0) = n + 1 := by
    rw [List.countP_eq_length.mpr (by simpa using hall), List.length_take]
    omega
  have hfew := Nat.le_trans (List.take_sublist (n + 1) ps).countP_le h.few
  omega

end Proposal

open Proposal

/-! ## What is suggested -/

namespace Suggestion

theorem noTemplate_durations (span : Span) : NoTemplate (durations span) := by
  refine noTemplate_map (fun preset => ?_) _
  dsimp only
  split <;> exact Category.noConfusion

theorem noTemplate_labels (names : List String) (span : Span) : NoTemplate (labels names span) :=
  noTemplate_map (fun _ => Category.noConfusion) _

theorem noTemplate_metrics (names : List String) (span : Span) :
    NoTemplate (metrics names span) :=
  noTemplate_map (fun _ => Category.noConfusion) _

theorem noTemplate_groupings (span : Span) : NoTemplate (groupings span) :=
  noTemplate_map (fun _ => Category.noConfusion) _

theorem noTemplate_binaryOperators (span : Span) : NoTemplate (binaryOperators span) :=
  noTemplate_map (fun _ => Category.noConfusion) _

/-- Only an expression may be a template, and each is suggested once for it. -/
theorem countP_candidates_le (vocabulary : Vocabulary) (span : Span) (context : Context) :
    (candidates vocabulary span context).countP (·.category.rank = 0) ≤
      Template.builtin.length := by
  have hnone : ∀ {ps : List Proposal}, NoTemplate ps →
      ps.countP (·.category.rank = 0) ≤ Template.builtin.length :=
    fun h => h.templatesFirst.few
  cases context with
  | groupingLabel clause => exact hnone (noTemplate_labels _ span)
  | timeRange => exact hnone (noTemplate_durations span)
  | comparator label => exact hnone (noTemplate_map (fun _ => Category.noConfusion) _)
  | label metric? => exact hnone (noTemplate_labels _ span)
  | groupingAndBinary =>
    exact hnone ((noTemplate_groupings span).append (noTemplate_binaryOperators span))
  | groupingOperator aggregation => exact hnone (noTemplate_groupings span)
  | binaryOperator =>
    exact hnone ((noTemplate_binaryOperators span).append
      (noTemplate_map (fun _ => Category.noConfusion) _))
  | functionOrMetric scope =>
    have haggregations : NoTemplate (aggregations span) :=
      noTemplate_map (fun _ => Category.noConfusion) _
    have hfunctions : NoTemplate (functions span) :=
      noTemplate_map (fun _ => Category.noConfusion) _
    have hmetrics := noTemplate_metrics vocabulary.metrics span
    rw [candidates, List.countP_append, List.countP_append, List.countP_append,
      haggregations.countP_eq_zero, hfunctions.countP_eq_zero, hmetrics.countP_eq_zero]
    split
    · exact Nat.le_trans List.countP_le_length (Nat.le_of_eq (List.length_map _))
    · exact Nat.zero_le _
  | any => exact Nat.zero_le _

end Suggestion

/-- A placeholder is given values, and never a template. -/
theorem Placeholder.noTemplate_proposals (vocabulary : Vocabulary) (found : Placeholder) :
    NoTemplate (found.proposals vocabulary) := by
  have hvalues : ∀ names, NoTemplate (values names found.span) :=
    fun names => noTemplate_map (fun _ => Category.noConfusion) names
  have hcandidates : NoTemplate (candidates vocabulary found) := by
    unfold candidates
    repeat' split
    · exact Suggestion.noTemplate_metrics _ _
    · exact hvalues _
    · exact Suggestion.noTemplate_metrics _ _
    · exact Suggestion.noTemplate_metrics _ _
    · unfold ofKind
      split
      · exact Suggestion.noTemplate_durations _
      · exact Suggestion.noTemplate_metrics _ _
      · exact Suggestion.noTemplate_labels _ _
      · exact hvalues _
      · exact fun p hp => nomatch hp
  intro p hp
  obtain ⟨q, hq, rfl⟩ := List.mem_map.mp hp
  exact hcandidates q hq

theorem Completion.templatesFirst_ofContext (vocabulary : Vocabulary) (t : Text) (cursor : Nat) :
    TemplatesFirst (ofContext vocabulary t cursor) := by
  have hsuggested : ∀ context span, TemplatesFirst (suggest vocabulary context span) := by
    intro context span
    exact templatesFirst_ranked (Suggestion.countP_candidates_le vocabulary span context)
  unfold ofContext
  dsimp only
  split
  · exact ((hsuggested _ _).sublist List.filter_sublist).map fun _ => rfl
  · exact (hsuggested _ _).sublist List.filter_sublist

/-- Templates come first in what is returned for a cursor. -/
theorem templatesFirst_complete (vocabulary : Vocabulary) (limit : Nat) (t : Text) (cursor : Nat) :
    TemplatesFirst (complete vocabulary limit t cursor) := by
  refine TemplatesFirst.sublist ?_ (List.take_sublist limit _)
  cases hplaceholder : Placeholder.complete? vocabulary t (t.clamp cursor) with
  | none => exact Completion.templatesFirst_ofContext vocabulary t cursor
  | some ps =>
    obtain ⟨found, -, rfl⟩ := Placeholder.exists_of_complete? hplaceholder
    exact (Placeholder.noTemplate_proposals vocabulary found).templatesFirst

end PromqlAssist
