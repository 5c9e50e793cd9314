import PromqlAssist.Proofs.Text.Bracket
import PromqlAssist.Rule.TimeRange

/-!
# Time ranges piece by piece

A piece whose square brackets hold time ranges is read to its end.
-/

namespace PromqlAssist

namespace Text

/-- Whether the search for bad time ranges passes over a piece. -/
def Ranged (t : Text) : Prop :=
  ∀ n resume rest, resume ≤ n → ∃ resume', resume' ≤ n + size t ∧
    Rule.badRangeFrom? n resume (t ++ rest) = Rule.badRangeFrom? (n + size t) resume' rest

namespace Ranged

variable {s t : Text} {c : Char}

theorem nil : Ranged [] :=
  fun _ resume _ h => ⟨resume, h, rfl⟩

theorem append (hs : Ranged s) (ht : Ranged t) : Ranged (s ++ t) := by
  intro n resume rest h
  obtain ⟨resume₁, h₁, heq₁⟩ := hs n resume (t ++ rest) h
  obtain ⟨resume₂, h₂, heq₂⟩ := ht (n + size s) resume₁ rest h₁
  refine ⟨resume₂, by rw [size_append]; omega, ?_⟩
  rw [List.append_assoc, heq₁, heq₂, size_append, Nat.add_assoc]

theorem singleton (hc : c ≠ '[') : Ranged [c] := by
  intro n resume rest h
  refine ⟨resume, by simp; omega, ?_⟩
  rw [List.singleton_append, Rule.badRangeFrom?, if_pos (.inr hc)]
  rfl

theorem flat (h : ∀ c ∈ t, c ≠ '[') : Ranged t := by
  induction t with
  | nil => exact nil
  | cons c t ih => exact (singleton (h c (by simp))).append (ih fun d hd => h d (by simp [hd]))

/-- A piece between two characters that are no opening square brackets. -/
theorem around {opener closer : Char} (hopener : opener ≠ '[') (hcloser : closer ≠ '[')
    (hs : Ranged s) : Ranged (opener :: (s ++ [closer])) :=
  (singleton hopener).append (hs.append (singleton hcloser))

/-- Characters in front of the place to resume at are passed over. -/
theorem skip (n resume : Nat) (h : n + size t ≤ resume) (rest : Text) :
    Rule.badRangeFrom? n resume (t ++ rest) = Rule.badRangeFrom? (n + size t) resume rest := by
  induction t generalizing n with
  | nil => rfl
  | cons c t ih =>
    rw [size_cons] at h
    have hpos := c.utf8Size_pos
    rw [List.cons_append, Rule.badRangeFrom?, if_pos (.inl (by omega)), ih _ (by omega), size_cons,
      Nat.add_assoc]

theorem closeDistance?_append (h : ∀ c ∈ t, isBracket c = false) (rest : Text) :
    closeDistance? '[' ']' 1 (t ++ ']' :: rest) = some (size t) := by
  induction t with
  | nil => exact if_pos ⟨rfl, Nat.le_refl 1⟩
  | cons c t ih =>
    have hopener : c ≠ '[' := ne_of_isBracket (h c (by simp)) rfl
    have hcloser : c ≠ ']' := ne_of_isBracket (h c (by simp)) rfl
    rw [List.cons_append, closeDistance?, if_neg (fun hc => hcloser hc.1), if_neg hopener,
      if_neg hcloser]
    simp only [ih fun d hd => h d (by simp [hd])]
    rfl

/-- A time range in square brackets is none of the bad ones. -/
theorem range (h : ∀ c ∈ t, isBracket c = false) (hrange : Rule.isRangeSelector (trim t)) :
    Ranged ('[' :: (t ++ [']'])) := by
  intro n resume rest hn
  have hsize : size ('[' :: (t ++ [']'])) = size t + 2 := by
    simp only [size_cons, size_append, size_nil, utf8Size_bracket]
    omega
  refine ⟨n + size t + 2, by rw [hsize]; omega, ?_⟩
  have hskip := skip (t := t ++ [']']) (n + 1) (n + size t + 2)
    (by simp only [size_append, size_cons, size_nil, utf8Size_bracket]; omega) rest
  rw [List.append_assoc, List.singleton_append] at hskip
  have hstop : n + 1 + size t + 1 = n + size t + 2 := by omega
  rw [List.cons_append, List.append_assoc, List.singleton_append, Rule.badRangeFrom?,
    if_neg (by simp; omega), closeDistance?_append h]
  simp only [before_size_append, hrange, if_true, utf8Size_bracket, hstop]
  rw [hskip, hsize]
  congr 1
  simp only [size_append, size_cons, size_nil, utf8Size_bracket]
  omega

theorem timeRange_eq_none (h : Ranged (mask t)) (v : Vocabulary) : Rule.timeRange v t = none := by
  obtain ⟨resume, -, hscan⟩ := h 0 0 [] (Nat.le_refl 0)
  rw [List.append_nil] at hscan
  exact hscan

end Ranged

end Text

/-- A unit that is read is one of those there are. -/
theorem TimeUnit.ofStart?_eq_some {t rest : Text} {unit : TimeUnit}
    (h : ofStart? t = some (unit, rest)) : unit ∈ all ∧ t = unit.symbol.toList ++ rest := by
  obtain ⟨u, hu, hfound⟩ := List.exists_of_findSome?_eq_some h
  obtain ⟨rest', hdrop, heq⟩ := Option.map_eq_some_iff.mp hfound
  obtain ⟨rfl, rfl⟩ := Prod.mk.inj heq
  exact ⟨hu, Text.dropPart?_eq_some_iff.mp hdrop⟩

namespace Rule

variable {t rest : Text} {c : Char} {unit : TimeUnit}

/-! ## Lists of amounts -/

theorem isDurationList_of_unit (hc : c.isDigit)
    (h : TimeUnit.ofStart? (t.dropWhile Char.isDigit) = some (unit, rest)) :
    isDurationList (c :: t) = isDurationList rest := by
  rw [isDurationList, if_pos hc]
  split
  · rename_i hunit
    cases hunit.symm.trans h
    rfl
  · rename_i hunit
    cases hunit.symm.trans h

theorem isDurationList_of_no_unit (hc : c.isDigit)
    (h : TimeUnit.ofStart? (t.dropWhile Char.isDigit) = none) :
    isDurationList (c :: t) = false := by
  rw [isDurationList, if_pos hc]
  split
  · rename_i hunit
    cases hunit.symm.trans h
  · rfl

theorem isDurationList_of_not_digit (hc : ¬ c.isDigit) : isDurationList (c :: t) = false := by
  rw [isDurationList, if_neg hc]

end Rule

end PromqlAssist
