import PromqlAssist.Proofs.Grammar.Lexeme
import PromqlAssist.Proofs.Rule.TimeRange
import PromqlAssist.Proofs.Text.CharClass

/-!
# Durations are read

A duration is read amount by amount: the digits run up to the unit, and the unit is the longest that
fits, since digits or nothing follow it. So no reading is lost, and what is read is a duration.
-/

namespace PromqlAssist.Grammar

open Text

/-- Whether nothing or a digit comes first. -/
def StartsAmount (t : Text) : Prop :=
  ∀ c ∈ t.head?, c.isDigit

theorem Digits.head (d : Digits) (t : Text) : StartsAmount (d.text ++ t) := by
  intro c hc
  obtain ⟨text, nonempty, digits⟩ := d
  cases text with
  | nil => exact absurd rfl nonempty
  | cons e text =>
    obtain rfl : e = c := by simpa using hc
    exact digits e (by simp)

namespace Amount

variable (a : Amount)

/-- The unit of an amount is read off in front of digits or the end. -/
theorem ofStart?_append {rest : Text} (h : StartsAmount rest) :
    ∃ unit, TimeUnit.ofStart? (a.unit.symbol.toList ++ rest) = some (unit, rest) := by
  have hknown := a.known
  simp only [TimeUnit.all, List.mem_cons, List.not_mem_nil, or_false] at hknown
  -- Only for `m` the characters behind the unit count: with an `s` it would be another unit.
  cases rest with
  | nil =>
    rcases hknown with hu | hu | hu | hu | hu | hu | hu
    all_goals
      rw [hu]
      exact ⟨_, rfl⟩
  | cons c rest =>
    have hc : 's' ≠ c := by
      rintro rfl
      exact absurd (h 's' rfl) (by decide)
    rcases hknown with hu | hu | hu | hu | hu | hu | hu
    all_goals
      rw [hu]
      exact ⟨_, by simp [TimeUnit.ofStart?, TimeUnit.all, dropPart?, hc]; rfl⟩

theorem symbol_cons : ∃ c t, a.unit.symbol.toList = c :: t ∧ c.isDigit = false := by
  have hknown := a.known
  simp only [TimeUnit.all, List.mem_cons, List.not_mem_nil, or_false] at hknown
  rcases hknown with hu | hu | hu | hu | hu | hu | hu
  all_goals exact ⟨_, _, by rw [hu]; rfl, by decide⟩

theorem isDurationList_append {rest : Text} (h : StartsAmount rest) :
    Rule.isDurationList (a.text ++ rest) = Rule.isDurationList rest := by
  obtain ⟨unit, hunit⟩ := a.ofStart?_append h
  obtain ⟨u, us, hsymbol, hu⟩ := a.symbol_cons
  obtain ⟨⟨digits, nonempty, hdigits⟩, u', known⟩ := a
  cases digits with
  | nil => exact absurd rfl nonempty
  | cons c digits =>
    have hdrop : (digits ++ (u'.symbol.toList ++ rest)).dropWhile Char.isDigit =
        u'.symbol.toList ++ rest := by
      rw [List.dropWhile_append_of_pos fun d hd => hdigits d (by simp [hd])]
      simp only at hsymbol
      rw [hsymbol, List.cons_append, List.dropWhile_cons_of_neg (by simp [hu])]
    rw [text, List.cons_append, List.cons_append, List.append_assoc]
    exact Rule.isDurationList_of_unit (hdigits c (by simp)) (hdrop ▸ hunit)

end Amount

namespace Duration

variable (d : Duration)

theorem startsAmount (amounts : List Amount) : StartsAmount (amounts.flatMap Amount.text) := by
  cases amounts with
  | nil => simp [StartsAmount]
  | cons a amounts =>
    rw [List.flatMap_cons, Amount.text, List.append_assoc]
    exact a.count.head _

theorem isDuration_text : Rule.isDuration d.text := by
  obtain ⟨amounts, nonempty⟩ := d
  have hlist : Rule.isDurationList (amounts.flatMap Amount.text) := by
    clear nonempty
    induction amounts with
    | nil => simp [Rule.isDurationList]
    | cons a amounts ih => rw [List.flatMap_cons, a.isDurationList_append (startsAmount _), ih]
  have hempty : amounts.flatMap Amount.text ≠ [] := by
    cases amounts with
    | nil => exact absurd rfl nonempty
    | cons a amounts => simp [Amount.text, a.count.nonempty]
  simp only [Rule.isDuration, text, hlist, Bool.and_true, Bool.not_eq_true',
    List.isEmpty_eq_false_iff]
  exact hempty

/-- Durations are made of letters and digits. -/
theorem isAlphanum_of_mem {c : Char} (h : c ∈ d.text) : c.isAlphanum := by
  obtain ⟨a, -, hc⟩ := List.mem_flatMap.mp h
  rcases List.mem_append.mp hc with hc | hc
  · exact isAlphanum_of_isDigit (a.count.digits c hc)
  · have units : ∀ u ∈ TimeUnit.all, ∀ e ∈ u.symbol.toList, e.isAlphanum := by decide
    exact units a.unit a.known c hc

theorem colon_not_mem : ':' ∉ d.text :=
  fun h => absurd (d.isAlphanum_of_mem h) (by decide)

/-- What is read is cut into amounts. -/
theorem exists_amounts {t : Text} (h : Rule.isDurationList t) :
    ∃ amounts : List Amount, t = amounts.flatMap Amount.text := by
  induction t using Rule.isDurationList.induct with
  | case1 => exact ⟨[], rfl⟩
  | case2 c t hc unit rest hunit _ ih =>
    rw [Rule.isDurationList_of_unit hc hunit] at h
    obtain ⟨amounts, hrest⟩ := ih h
    obtain ⟨hknown, hsymbol⟩ := TimeUnit.ofStart?_eq_some hunit
    have hdigits : ∀ d ∈ c :: t.takeWhile Char.isDigit, d.isDigit :=
      List.forall_mem_cons.mpr ⟨hc, List.all_eq_true.mp List.all_takeWhile⟩
    refine ⟨⟨⟨_, List.cons_ne_nil _ _, hdigits⟩, unit, hknown⟩ :: amounts, ?_⟩
    rw [List.flatMap_cons, Amount.text, ← hrest, List.append_assoc, ← hsymbol, List.cons_append,
      List.takeWhile_append_dropWhile]
  | case3 c t hc hunit =>
    rw [Rule.isDurationList_of_no_unit hc hunit] at h
    cases h
  | case4 c t hc =>
    rw [Rule.isDurationList_of_not_digit hc] at h
    cases h

theorem isDuration_iff {t : Text} : Rule.isDuration t ↔ ∃ d : Duration, t = d.text := by
  constructor
  · intro h
    rw [Rule.isDuration, Bool.and_eq_true, Bool.not_eq_true', List.isEmpty_eq_false_iff] at h
    obtain ⟨amounts, rfl⟩ := exists_amounts h.2
    refine ⟨⟨amounts, ?_⟩, rfl⟩
    rintro rfl
    exact h.1 rfl
  · rintro ⟨d, rfl⟩
    exact d.isDuration_text

end Duration

namespace Range

variable (r : Range)

theorem isIdent_of_mem {c : Char} (h : c ∈ r.text) : isIdent c := by
  have alphanum : c.isAlphanum → isIdent c := fun hc => by simp [isIdent, hc]
  cases r with
  | plain range => exact alphanum (range.isAlphanum_of_mem h)
  | stepped range resolution? =>
    rcases List.mem_append.mp h with h | h
    · exact alphanum (range.isAlphanum_of_mem h)
    · rcases List.mem_cons.mp h with rfl | h
      · decide
      · cases resolution? with
        | none => cases h
        | some resolution => exact alphanum (resolution.isAlphanum_of_mem h)

theorem isRangeSelector_text : Rule.isRangeSelector r.text := by
  cases r with
  | plain range =>
    rw [Rule.isRangeSelector, text, splitAt?_eq_none range.colon_not_mem]
    exact range.isDuration_text
  | stepped range resolution? =>
    rw [Rule.isRangeSelector, text, splitAt?_append range.colon_not_mem]
    cases resolution? with
    | none => simp [range.isDuration_text]
    | some resolution => simp [range.isDuration_text, resolution.isDuration_text]

/-- The first colon ends the range, since there is none in a duration. -/
theorem isRangeSelector_iff {t : Text} : Rule.isRangeSelector t ↔ ∃ r : Range, t = r.text := by
  refine ⟨fun h => ?_, fun ⟨r, hr⟩ => hr ▸ r.isRangeSelector_text⟩
  rw [Rule.isRangeSelector] at h
  by_cases hcolon : ':' ∈ t
  · obtain ⟨range, resolution, rfl, hfirst⟩ := List.eq_append_cons_of_mem hcolon
    rw [splitAt?_append hfirst] at h
    obtain ⟨hrange, hresolution⟩ := Bool.and_eq_true_iff.mp h
    obtain ⟨d, rfl⟩ := Duration.isDuration_iff.mp hrange
    rcases Bool.or_eq_true_iff.mp hresolution with hempty | hresolution
    · obtain rfl := List.isEmpty_iff.mp hempty
      exact ⟨.stepped d none, rfl⟩
    · obtain ⟨step, rfl⟩ := Duration.isDuration_iff.mp hresolution
      exact ⟨.stepped d (some step), rfl⟩
  · rw [splitAt?_eq_none hcolon] at h
    obtain ⟨d, rfl⟩ := Duration.isDuration_iff.mp h
    exact ⟨.plain d, rfl⟩

theorem bracket_not_mem : '[' ∉ r.text :=
  fun h => absurd (r.isIdent_of_mem h) (by decide)

/-- A range in square brackets is one of the good ones. -/
theorem ranged : Ranged ('[' :: (r.text ++ [']'])) := by
  refine Ranged.range ?_ ?_
  · intro c hc
    exact isBracket_of_isIdent (r.isIdent_of_mem hc)
  · rw [trim_eq_self fun c hc => isBlank_of_isIdent (r.isIdent_of_mem hc)]
    exact r.isRangeSelector_text

end Range

end PromqlAssist.Grammar
