import PromqlAssist.Proofs.Context.Nesting
import PromqlAssist.Proofs.Text.CharClass
import PromqlAssist.Proofs.Text.Position

/-!
# Aggregation keywords and identifiers

A keyword counts behind every character that is no word character, and the only identifier character
among those is the colon. So an aggregation keyword in front of the cursor is the whole identifier
that ends there, or what the identifier has behind its last colon.
-/

namespace PromqlAssist.Context

open Text

/-- The identifier at the end of a text, up to blanks. -/
def lastIdentifier (t : Text) : Text :=
  trailing isIdent (trimEnd t)

/-- How a keyword for which the cursor stands behind an aggregation lies in the identifier there. -/
structure KeywordLaw (t : Text) (keyword : String) : Prop where
  mem_names : keyword ∈ Operator.aggregationNames
  identifier_cases : lastIdentifier t = keyword.toList ∨
    ∃ front, lastIdentifier t = front ++ ':' :: keyword.toList
  whole_iff : lastIdentifier t = keyword.toList ↔ ¬ ':' :: keyword.toList <:+ trimEnd t

variable {vocabulary : Vocabulary} {t front : Text} {keyword : String} {cursor : Nat} {c : Char}

/-- Only the rule about aggregation keywords gives the context behind one. -/
theorem trailingAggregation?_of_ofPrefix (h : ofPrefix vocabulary t = .groupingOperator keyword) :
    trailingAggregation? t = some keyword := by
  rw [ofPrefix_of_not_inBlock (by rw [h]; exact id)] at h
  split at h
  · cases h
  split at h
  · rename_i found hfound
    obtain rfl := Context.groupingOperator.inj h
    exact hfound
  split at h
  · cases h
  split at h
  · cases h
  · cases h

theorem exists_of_trailingAggregation? (h : trailingAggregation? t = some keyword) :
    keyword ∈ Operator.aggregationNames ∧
      ∃ front, trimEnd t = front ++ keyword.toList ∧ startsWord front.getLast? := by
  refine ⟨List.mem_of_find?_eq_some h, endsWithWord_iff.mp ?_⟩
  exact List.find?_some (p := fun name : String => endsWithWord (trimEnd t) name.toList) h

theorem isIdent_of_mem_aggregationNames (h : keyword ∈ Operator.aggregationNames) :
    ∀ c ∈ keyword.toList, isIdent c := by
  have hall : ∀ name ∈ Operator.aggregationNames, ∀ c ∈ name.toList, isIdent c := by decide
  exact hall keyword h

/-- The colon is the only identifier character behind which a keyword may start. -/
theorem eq_colon_of_startsWord (hstart : startsWord (some c)) (hc : isIdent c) : c = ':' := by
  by_contra hne
  simp [startsWord, isWordChar_of_isIdent hc hne] at hstart

/-- In front of a keyword no identifier is open, or one that ends with a colon. -/
theorem trailing_cases_of_startsWord (hstart : startsWord front.getLast?) :
    trailing isIdent front = [] ∧ ¬ [':'] <:+ front ∨
      (∃ name, trailing isIdent front = name ++ [':']) ∧ [':'] <:+ front := by
  obtain rfl | ⟨p, c, rfl⟩ := List.eq_nil_or_concat' front
  · exact .inl ⟨rfl, by simp⟩
  have hlast : startsWord (some c) := by simpa using hstart
  by_cases hc : isIdent c
  · obtain rfl := eq_colon_of_startsWord hlast hc
    refine .inr ⟨⟨trailing isIdent p, ?_⟩, List.suffix_append p [':']⟩
    exact trailing_append_of_forall (by simpa using hc) p
  · rw [Bool.not_eq_true] at hc
    refine .inl ⟨trailing_eq_nil (by simpa using hc), ?_⟩
    rintro ⟨q, hq⟩
    obtain ⟨-, rfl⟩ : q = p ∧ ':' = c := by simpa using hq
    cases hc

/-- The keyword of an aggregation position is the identifier that ends in front of the cursor, or
what it has behind its last colon. -/
theorem keywordLaw_of_classify (h : classify vocabulary t cursor = .groupingOperator keyword) :
    KeywordLaw (before t cursor) keyword := by
  obtain ⟨hmem, front, htrim, hstart⟩ :=
    exists_of_trailingAggregation? (trailingAggregation?_of_ofPrefix h)
  have hidentifier : lastIdentifier (before t cursor) =
      trailing isIdent front ++ keyword.toList := by
    rw [lastIdentifier, htrim, trailing_append_of_forall (isIdent_of_mem_aggregationNames hmem)]
  have hcolon : ':' :: keyword.toList <:+ trimEnd (before t cursor) ↔ [':'] <:+ front := by
    rw [htrim, ← List.singleton_append]
    exact List.suffix_append_self_iff
  obtain ⟨hnil, hnot⟩ | ⟨⟨name, hname⟩, hsuffix⟩ := trailing_cases_of_startsWord hstart
  · rw [hnil, List.nil_append] at hidentifier
    exact ⟨hmem, .inl hidentifier, iff_of_true hidentifier (mt hcolon.mp hnot)⟩
  · rw [hname, List.append_assoc, List.singleton_append] at hidentifier
    refine ⟨hmem, .inr ⟨name, hidentifier⟩, iff_of_false ?_ (not_not_intro (hcolon.mpr hsuffix))⟩
    intro hwhole
    have hlength := congrArg List.length (hidentifier.symm.trans hwhole)
    simp only [List.length_append, List.length_cons] at hlength
    omega

/-- A keyword behind an operator, with a wide blank between it and the cursor. -/
theorem keywordLaw_of_classify_quantile :
    classify .builtin "job:up /quantile\u2003(".toList 19 = .groupingOperator "quantile" ∧
      KeywordLaw (before "job:up /quantile\u2003(".toList 19) "quantile" := by
  have hclassify :
      classify .builtin "job:up /quantile\u2003(".toList 19 = .groupingOperator "quantile" := by
    decide +kernel
  exact ⟨hclassify, keywordLaw_of_classify hclassify⟩

/-- The last part of a metric name is taken for the aggregation. -/
theorem groupingOperator_insideMetric :
    classify .builtin "job:up:sum".toList 10 = .groupingOperator "sum" ∧
      lastIdentifier (before "job:up:sum".toList 10) = "job:up:sum".toList ∧
        lastIdentifier (before "job:up:sum".toList 10) ≠ "sum".toList := by
  decide +kernel

end PromqlAssist.Context
