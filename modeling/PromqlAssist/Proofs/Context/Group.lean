import PromqlAssist.Proofs.Context.Dyck

/-!
# Bracket groups

Whoever looks for the closer of a bracket by counting brackets of its kind takes no notice of the
other kinds. Between a bracket and its partner all kinds are nested, so as many of the kind are
opened there as are closed, and the closer that is found is the partner, the same that the scan with
a stack takes the bracket off at.
-/

namespace PromqlAssist

namespace Text

variable {s t rest body behind : Text} {c opener closer : Char}

/-! ## Counting brackets of a kind -/

theorem ne_of_closerOf? (h : closerOf? opener = some closer) : opener ≠ closer := by
  rintro rfl
  rw [closerOf?_closer h] at h
  cases h

/-- All kinds of brackets are closed in a nested text, so each kind is. -/
theorem Nested.levelIn (h : Nested t) (hopens : closerOf? opener = some closer) :
    LevelIn opener closer t := by
  obtain ⟨hopener, hcloser⟩ := isBracket_of_closerOf? hopens
  induction h with
  | nil => exact .nil
  | other hc => exact .singleton (ne_of_isBracket hc hopener) (ne_of_isBracket hc hcloser)
  | append _ _ ihs iht => exact ihs.append iht
  | @wrap o d t hwraps _ ih =>
    by_cases ho : o = opener
    · subst ho
      obtain rfl := Option.some.inj (hwraps.symm.trans hopens)
      exact ih.wrap (ne_of_closerOf? hopens)
    · refine ih.around ⟨ho, ?_⟩ ⟨?_, ?_⟩
      · rintro rfl
        rw [closerOf?_closer hopens] at hwraps
        cases hwraps
      · rintro rfl
        rw [closerOf?_closer hwraps] at hopens
        cases hopens
      · rintro rfl
        rw [← openerOf?_eq_some_iff] at hopens hwraps
        exact ho (Option.some.inj (hwraps.symm.trans hopens))

theorem utf8Size_of_closerOf? (h : closerOf? opener = some closer) :
    opener.utf8Size = 1 ∧ closer.utf8Size = 1 := by
  obtain ⟨rfl, rfl⟩ | ⟨rfl, rfl⟩ | ⟨rfl, rfl⟩ := closerOf?_eq_some_iff.mp h <;> decide

theorem Encloses.closeDistance?_eq (h : Encloses opener rest body behind)
    (hopens : closerOf? opener = some closer) :
    closeDistance? opener closer 1 rest = some (size body) := by
  obtain ⟨closer', hcloses, rfl, hbody⟩ := h
  obtain rfl := Option.some.inj (hcloses.symm.trans hopens)
  exact ((nested_iff.mpr hbody).levelIn hopens).closeDistance?_eq behind

/-- A bracket has one partner. -/
theorem Encloses.unique {body' behind' : Text} (h : Encloses opener rest body behind)
    (h' : Encloses opener rest body' behind') : body = body' ∧ behind = behind' := by
  obtain ⟨closer, hopens, rfl, -⟩ := id h
  have hsize := Option.some.inj
    ((h.closeDistance?_eq hopens).symm.trans (h'.closeDistance?_eq hopens))
  obtain ⟨closer', -, hrest, -⟩ := h'
  have hbody : body = body' := by
    rw [← before_size_append body (closer :: behind), hsize, hrest, before_size_append]
  subst hbody
  exact ⟨rfl, (List.cons.inj (List.append_cancel_left hrest)).2⟩

theorem Encloses.matchingClose?_eq (h : Encloses opener rest body behind) (front : Text) :
    matchingClose? (front ++ opener :: rest) (size front) = some (size front + 1 + size body) := by
  obtain ⟨closer, hopens, -⟩ := id h
  rw [matchingClose?, after_size_append]
  simp only [hopens, Option.bind_some, h.closeDistance?_eq hopens, Option.map_some,
    (utf8Size_of_closerOf? hopens).1]

/-! ## Texts of groups -/

/-- Whether every opener of a text has its partner. -/
def Grouped (t : Text) : Prop :=
  ∀ front opener rest, t = front ++ opener :: rest → (closerOf? opener).isSome →
    ∃ body behind, Encloses opener rest body behind

theorem Nested.grouped (h : Nested t) : Grouped t := by
  rintro front opener rest rfl hopens
  exact h.exists_encloses hopens

theorem Grouped.of_append (h : Grouped (s ++ t)) : Grouped t := by
  rintro front opener rest rfl hopens
  exact h (s ++ front) opener rest (List.append_assoc ..).symm hopens

theorem Grouped.of_cons (h : Grouped (c :: t)) : Grouped t :=
  of_append (s := [c]) h

theorem Grouped.trimStart (h : Grouped t) : Grouped (trimStart t) := by
  rw [← List.takeWhile_append_dropWhile (p := isBlank) (l := t)] at h
  exact h.of_append

/-- The closer of a bracket at the start is found. -/
theorem Grouped.exists_encloses (h : Grouped (opener :: rest))
    (hopens : closerOf? opener = some closer) :
    ∃ body behind, Encloses opener rest body behind ∧ rest = body ++ closer :: behind ∧
      closeDistance? opener closer 1 rest = some (size body) := by
  obtain ⟨body, behind, hencloses⟩ := h [] opener rest rfl (by rw [hopens]; rfl)
  have hclose := hencloses.closeDistance?_eq hopens
  obtain ⟨closer', hcloses, hrest, -⟩ := id hencloses
  obtain rfl := Option.some.inj (hcloses.symm.trans hopens)
  exact ⟨body, behind, hencloses, hrest, hclose⟩

end Text

namespace Context

open Text

/-- Whether the scan that keeps a stack takes the opener at `i` off it at the closer at `j`. -/
def ScanPairs (t : Text) (i j : Nat) : Prop :=
  ∃ read closer rest o stack, t = read ++ closer :: rest ∧ openers? read = some (o :: stack) ∧
    closerOf? o.bracket = some closer ∧ size o.front = i ∧ size read = j

variable {t front rest body behind : Text} {opener : Char}

theorem scanPairs_of_encloses (ht : (openers? front).isSome)
    (h : Encloses opener rest body behind) :
    ScanPairs (front ++ opener :: rest) (size front) (size front + 1 + size body) := by
  obtain ⟨closer, hopens, rfl, hbody⟩ := h
  obtain ⟨stack, hstack⟩ := Option.isSome_iff_exists.mp ht
  have hscan := (Leaves.opens (leaves_of_openers? hstack) hopens (nested_iff.mpr hbody)).openers?_eq
  refine ⟨front ++ opener :: body, closer, behind, ⟨opener, front⟩, stack, by simp, hscan, hopens,
    rfl, ?_⟩
  rw [size_append, size_cons, (utf8Size_of_closerOf? hopens).1, Nat.add_assoc]

theorem encloses_of_scanPairs {j : Nat}
    (h : ScanPairs (front ++ opener :: rest) (size front) j) :
    ∃ body behind, Encloses opener rest body behind ∧ j = size front + 1 + size body := by
  obtain ⟨read, closer, behind, ⟨bracket, first⟩, stack, hread, hstack, hcloses, hsize, rfl⟩ := h
  cases leaves_of_openers? hstack with
  | @opens _ body _ _ closer' _ hopens hbody =>
    rw [List.append_assoc, List.cons_append] at hread
    have hfront : front = first := by
      rw [← before_size_append front (opener :: rest), ← hsize, hread, before_size_append]
    subst hfront
    obtain ⟨rfl, rfl⟩ := List.cons.inj (List.append_cancel_left hread)
    refine ⟨body, behind, ⟨closer, hcloses, rfl, hbody.dyck⟩, ?_⟩
    rw [size_append, size_cons, (utf8Size_of_closerOf? hopens).1, Nat.add_assoc]

end Context

end PromqlAssist
