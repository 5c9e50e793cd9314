import PromqlAssist.Proofs.Rule.Group

/-!
# The language of time ranges

Between square brackets the rule on time ranges takes the durations of the grammar, perhaps with a
colon and a resolution, and nothing else. On a query whose brackets are nested it asks this of every
pair of square brackets outside string literals, and reports the first that holds something else.
-/

namespace PromqlAssist.Rule

open Text Context Grammar

variable {v : Vocabulary} {query t : Text} {s : Span}

/-- Whether the text between the square bracket at `i` and its partner at `j`, the blanks around it
left out, is no time range. -/
def HoldsNoRange (t : Text) (i j : Nat) : Prop :=
  ∃ front rest body behind, t = front ++ '[' :: rest ∧ Encloses '[' rest body behind ∧
    (¬ ∃ r : Range, trim body = r.text) ∧ size front = i ∧ size front + 1 + size body = j

/-- Whether the rule passes the queries that have a time range in all square brackets, and otherwise
reports the first brackets that have none. -/
structure DecidesRanges (v : Vocabulary) (query : Text) : Prop where
  passes_iff : timeRange v query = none ↔ ∀ front rest, query.mask = front ++ '[' :: rest →
    ∃ body behind, Encloses '[' rest body behind ∧ ∃ r : Range, trim body = r.text
  defect : timeRange v query ≠ none → ∃ i j, timeRange v query = some ⟨i, j + 1⟩ ∧
    HoldsNoRange query.mask i j ∧ ∀ i' j', HoldsNoRange query.mask i' j' → i ≤ i'

theorem badRange_iff : BadRange t s ↔ ∃ i j, HoldsNoRange t i j ∧ s = ⟨i, j + 1⟩ := by
  constructor
  · rintro ⟨front, rest, body, behind, hcut, hencloses, hrange, rfl⟩
    refine ⟨_, _, ⟨front, rest, body, behind, hcut, hencloses, ?_, rfl, rfl⟩, ?_⟩
    · rw [← Range.isRangeSelector_iff, hrange]
      exact Bool.false_ne_true
    · simp only [Span.ofLength, Span.mk.injEq, true_and]
      omega
  · rintro ⟨_, _, ⟨front, rest, body, behind, hcut, hencloses, hrange, rfl, rfl⟩, rfl⟩
    rw [← Range.isRangeSelector_iff, Bool.not_eq_true] at hrange
    refine ⟨front, rest, body, behind, hcut, hencloses, hrange, ?_⟩
    simp only [Span.ofLength, Span.mk.injEq, true_and]
    omega

theorem decidesRanges (h : balancedBrackets v query = none) : DecidesRanges v query := by
  have ht : Grouped query.mask := (nested_iff.mpr (balancedBrackets_eq_none_iff.mp h)).grouped
  have hfinds : FindsFirst 0 (timeRange v query) (BadRange query.mask) :=
    findsFirst_badRangeFrom? ht fun s _ => Nat.zero_le _
  constructor
  · rw [hfinds.none_iff]
    constructor
    · intro hno front rest hcut
      obtain ⟨body, behind, hencloses⟩ := ht front '[' rest hcut rfl
      refine ⟨body, behind, hencloses, ?_⟩
      by_contra hrange
      exact hno _ (badRange_iff.mpr ⟨_, _, ⟨front, rest, body, behind, hcut, hencloses, hrange, rfl,
        rfl⟩, rfl⟩)
    · intro hall s hs
      obtain ⟨_, _, ⟨front, rest, body, behind, hcut, hencloses, hrange, -⟩, -⟩ := badRange_iff.mp hs
      obtain ⟨body', behind', hencloses', hrange'⟩ := hall front rest hcut
      rw [(hencloses.unique hencloses').1] at hrange
      exact hrange hrange'
  · intro hdefect
    obtain ⟨s, hs⟩ := Option.ne_none_iff_exists'.mp hdefect
    obtain ⟨d, hd, rfl⟩ := hfinds.found s hs
    obtain ⟨i, j, hbad, rfl⟩ := badRange_iff.mp hd
    refine ⟨i, j, hs, hbad, fun i' j' hbad' => ?_⟩
    simpa [Span.shift] using hfinds.first _ hs _ (badRange_iff.mpr ⟨i', j', hbad', rfl⟩)

/-- What the rule takes for a duration and for a time range is what the grammar has, and on a query
whose brackets are nested all square brackets have to hold such a range. -/
theorem timeRange_accepts :
    (∀ t, isDuration t ↔ ∃ d : Duration, t = d.text) ∧
      (∀ t, isRangeSelector t ↔ ∃ r : Range, t = r.text) ∧
      ∀ v query, balancedBrackets v query = none → DecidesRanges v query :=
  ⟨fun _ => Duration.isDuration_iff, fun _ => Range.isRangeSelector_iff,
    fun _ _ => decidesRanges⟩

/-- Units of one letter and of two, a resolution, blanks, and a bracket in a string that is none. The
last range starts with its unit. -/
theorem timeRange_accepts_manyRanges :
    let query : Text := "sum(up\x7ba=\"[\"\x7d[1h30m:]) + up[ 5ms1m:2s ] - up[m5]".toList
    balancedBrackets .empty query = none ∧ timeRange .empty query = some ⟨44, 48⟩ ∧
      DecidesRanges .empty query ∧ ∃ d : Duration, ['5', 'm', 's', '1', 'm'] = d.text := by
  obtain ⟨hduration, -, hdecides⟩ := timeRange_accepts
  have hbalanced : balancedBrackets .empty
      "sum(up\x7ba=\"[\"\x7d[1h30m:]) + up[ 5ms1m:2s ] - up[m5]".toList = none := by
    decide +kernel
  exact ⟨hbalanced, by decide +kernel, hdecides _ _ hbalanced, (hduration _).mp (by decide +kernel)⟩

end PromqlAssist.Rule
