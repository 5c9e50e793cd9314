import Mathlib.Data.List.Forall2
import Mathlib.Order.Bounds.Defs
import PromqlAssist.Proofs.Text.Boundary
import PromqlAssist.Validation

/-!
# Findings of a list of rules

Whatever span a rule names, the finding cuts out a part of the query, and a span that fits the query
is reported as it is. There is one finding for every rule that fails, in the order of the rules, up
to the first that finds the query empty.
-/

namespace PromqlAssist

variable {r : Rule} {v : Vocabulary} {query : Text} {f : Finding}

namespace Rule

/-- Whether the gate of a rule, if it has one, lets a query through. -/
def admits (r : Rule) (query : Text) : Bool :=
  (r.gate?.map fun gate => gate query).getD true

theorem fits_of_finding? (h : r.finding? v query = some f) : f.span.Fits query := by
  unfold finding? at h
  split at h
  · obtain ⟨span, -, rfl⟩ := Option.map_eq_some_iff.mp h
    exact Span.fits_clamp query span.start span.stop
  · cases h

/-- Moving a span into the query does nothing to one that fits. -/
theorem finding?_of_fits (h : ∀ span, r.check v query = some span → span.Fits query) :
    r.finding? v query =
      if r.admits query then (r.check v query).map fun span => ⟨r.id, r.message, span⟩ else none := by
  unfold finding? admits
  congr 1
  cases hcheck : r.check v query with
  | none => rfl
  | some span =>
    obtain ⟨hle, hstart, hstop⟩ := h span hcheck
    simp only [Option.map_some, Text.clamp_eq_self hstart, Text.clamp_eq_self hstop,
      Nat.max_eq_left hle]

end Rule

theorem exists_of_mem_findings {rules : List Rule} (h : f ∈ findings v query rules) :
    ∃ r ∈ rules, r.finding? v query = some f := by
  induction rules with
  | nil => cases h
  | cons r rules ih =>
    have later : f ∈ findings v query rules →
        ∃ r' ∈ r :: rules, r'.finding? v query = some f := by
      intro h
      obtain ⟨r', hr', hf⟩ := ih h
      exact ⟨r', List.mem_cons_of_mem r hr', hf⟩
    unfold findings at h
    split at h
    · exact later h
    · rename_i g hg
      rcases List.mem_cons.mp h with rfl | h
      · exact ⟨r, List.mem_cons_self .., hg⟩
      · split at h
        · cases h
        · exact later h

/-- Where no rule finds the query empty, all rules are heard. -/
theorem findings_eq_filterMap {rules : List Rule}
    (hgoes : ∀ r ∈ rules, r.id = .emptyQuery → r.finding? v query = none) :
    findings v query rules = rules.filterMap fun r => r.finding? v query := by
  induction rules with
  | nil => rfl
  | cons r rules ih =>
    obtain ⟨hr, hrules⟩ := List.forall_mem_cons.mp hgoes
    rw [findings]
    cases hf : r.finding? v query with
    | none =>
      rw [List.filterMap_cons, hf]
      exact ih hrules
    | some f =>
      have hid : r.id ≠ .emptyQuery := by
        intro hid
        rw [hr hid] at hf
        cases hf
      rw [List.filterMap_cons, hf, ← ih hrules]
      exact congrArg _ (if_neg hid)

theorem fits_of_mem_findings {rules : List Rule} (h : f ∈ findings v query rules) :
    f.span.Fits query := by
  obtain ⟨r, -, hf⟩ := exists_of_mem_findings h
  exact Rule.fits_of_finding? hf

namespace Rule

/-- A rule that its gate, if it has one, lets through and that finds a defect. -/
structure Fails (r : Rule) (v : Vocabulary) (query : Text) : Prop where
  gate : ∀ gate ∈ r.gate?, gate query
  defect : ∃ span, r.check v query = some span

/-- What a finding tells of the rule that fails: its name and message, and its span, which starts at
the last boundary that is not past the start of the defect, and ends at the last one that is not
past the end of the defect unless that is further left. -/
structure Reports (r : Rule) (v : Vocabulary) (query : Text) (f : Finding) : Prop where
  rule : f.rule = r.id
  message : f.message = r.message
  span : ∃ defect stop, r.check v query = some defect ∧
    IsGreatest {n | query.IsBoundary n ∧ n ≤ defect.start} f.span.start ∧
    IsGreatest {n | query.IsBoundary n ∧ n ≤ defect.stop} stop ∧ f.span.stop = max f.span.start stop
  fits : f.span.Fits query
  stop_le : f.span.stop ≤ query.size

theorem fails_iff : r.Fails v query ↔ r.admits query ∧ (r.check v query).isSome := by
  rw [Option.isSome_iff_exists]
  constructor
  · rintro ⟨hgate, hdefect⟩
    refine ⟨?_, hdefect⟩
    cases h : r.gate? with
    | none => simp [admits, h]
    | some gate => simpa [admits, h] using hgate gate h
  · rintro ⟨hadmits, hdefect⟩
    refine ⟨fun gate hgate => ?_, hdefect⟩
    rw [Option.mem_def] at hgate
    simpa [admits, hgate] using hadmits

instance (r : Rule) (v : Vocabulary) (query : Text) : Decidable (r.Fails v query) :=
  decidable_of_iff _ fails_iff.symm

theorem isGreatest_clamp (t : Text) (n : Nat) :
    IsGreatest {m | t.IsBoundary m ∧ m ≤ n} (t.clamp n) :=
  ⟨⟨Text.isBoundary_clamp t n, Text.clamp_le t n⟩, fun _ h => Text.le_clamp h.1 h.2⟩

theorem not_fails_of_finding? (h : r.finding? v query = none) : ¬ r.Fails v query := by
  rw [fails_iff]
  rintro ⟨hadmits, hdefect⟩
  obtain ⟨defect, hdefect⟩ := Option.isSome_iff_exists.mp hdefect
  unfold admits at hadmits
  rw [finding?, if_pos hadmits, hdefect] at h
  cases h

theorem reports_of_finding? (h : r.finding? v query = some f) :
    r.Fails v query ∧ r.Reports v query f := by
  have hfits := fits_of_finding? h
  unfold finding? at h
  split at h
  · rename_i hadmits
    obtain ⟨defect, hdefect, rfl⟩ := Option.map_eq_some_iff.mp h
    refine ⟨fails_iff.mpr ⟨hadmits, hdefect ▸ rfl⟩, rfl, rfl, ?_, hfits, hfits.stop_le_size⟩
    exact ⟨defect, query.clamp defect.stop, hdefect, isGreatest_clamp query defect.start,
      isGreatest_clamp query defect.stop, Nat.max_comm _ _⟩
  · cases h

end Rule

/-- The findings report the rules that fail, one each and in order, up to and including the first
that finds the query empty. -/
theorem forall₂_reports_findings (v : Vocabulary) (query : Text) (rules : List Rule) :
    ∃ heard unheard, rules.filter (fun r => r.Fails v query) = heard ++ unheard ∧
      (∀ r ∈ heard.dropLast, r.id ≠ .emptyQuery) ∧
      (unheard ≠ [] → ∃ r ∈ heard.getLast?, r.id = .emptyQuery) ∧
      List.Forall₂ (fun r f => r.Reports v query f) heard (findings v query rules) := by
  induction rules with
  | nil => exact ⟨[], [], rfl, by simp, by simp, .nil⟩
  | cons r rules ih =>
    rw [findings]
    split
    · rename_i hnone
      rw [List.filter_cons_of_neg (by simpa using Rule.not_fails_of_finding? hnone)]
      exact ih
    · rename_i f hf
      obtain ⟨hfails, hreports⟩ := Rule.reports_of_finding? hf
      rw [List.filter_cons_of_pos (by simpa using hfails)]
      split
      · rename_i hempty
        exact ⟨[r], _, rfl, by simp, fun _ => ⟨r, rfl, hempty⟩, .cons hreports .nil⟩
      · rename_i hgoes
        obtain ⟨heard, unheard, hfilter, hfirst, hlast, hall⟩ := ih
        refine ⟨r :: heard, unheard, by rw [hfilter]; rfl, ?_, ?_, .cons hreports hall⟩
        · cases heard with
          | nil => simp
          | cons s heard => exact List.forall_mem_cons.mpr ⟨hgoes, hfirst⟩
        · intro hmore
          obtain ⟨last, hmem, hempty⟩ := hlast hmore
          refine ⟨last, ?_, hempty⟩
          rw [List.getLast?_cons, Option.mem_def.mp hmem]
          rfl

-- Both ends of the span lie inside a character, and the second one in front of the first.
example :
    findings .builtin ['a', 'é', 'é'] [⟨.timeRange, "backwards", none, fun _ _ => some ⟨4, 2⟩⟩] =
      [⟨.timeRange, "backwards", ⟨3, 3⟩⟩] := by
  decide

end PromqlAssist
