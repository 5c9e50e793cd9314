import Mathlib.Order.Bounds.Defs
import PromqlAssist.Proofs.Context.Dyck

/-!
# What the rule about brackets reports

A query passes if its brackets outside string literals form a word of nested brackets. Otherwise the
report is the first closer up to which the brackets start no such word, and if there is none, the
outermost opener that has no partner.
-/

namespace PromqlAssist.Rule

open Text Context

variable {t front : Text} {stack stack' : List Opener} {n : Nat}

/-! ## The scan for a defect -/

theorem firstUnbalanced?_cons (front : Text) (stack : List Opener) (c : Char) (t : Text) :
    firstUnbalanced? (size front) (stack.map fun o => (o.bracket, size o.front)) (c :: t) =
      match openersFrom? front stack [c] with
      | some stack' => firstUnbalanced? (size (front ++ [c]))
          (stack'.map fun o => (o.bracket, size o.front)) t
      | none => some (size front) := by
  have hsize : size front + c.utf8Size = size (front ++ [c]) := by simp
  rw [firstUnbalanced?, openersFrom?, hsize]
  cases closerOf? c with
  | some closer => rfl
  | none =>
    cases openerOf? c with
    | none => rfl
    | some opener =>
      cases stack with
      | nil => rfl
      | cons innermost rest =>
        simp only [List.map_cons]
        split <;> rfl

/-- A defect is a bracket that stops the scan, or the bottom of the stack that it ends with. -/
theorem firstUnbalanced?_eq_some
    (h : firstUnbalanced? (size front) (stack.map fun o => (o.bracket, size o.front)) t = some n) :
    (∃ a c b stack', t = a ++ c :: b ∧ size (front ++ a) = n ∧
      openersFrom? front stack a = some stack' ∧ openersFrom? (front ++ a) stack' [c] = none) ∨
      ∃ stack' o, openersFrom? front stack t = some stack' ∧ stack'.getLast? = some o ∧
        size o.front = n := by
  induction t generalizing front stack with
  | nil =>
    right
    rw [firstUnbalanced?, List.getLast?_map, Option.map_map] at h
    obtain ⟨o, hlast, rfl⟩ := Option.map_eq_some_iff.mp h
    exact ⟨stack, o, rfl, hlast, rfl⟩
  | cons c t ih =>
    have hscan := @openersFrom?_append front stack [c]
    rw [firstUnbalanced?_cons] at h
    cases hstep : openersFrom? front stack [c] with
    | none =>
      rw [hstep] at h
      obtain rfl := Option.some.inj h
      exact .inl ⟨[], c, t, stack, rfl, by simp, rfl, by simpa using hstep⟩
    | some stack' =>
      simp only [hstep, Option.bind_some] at hscan
      rw [hstep] at h
      obtain ⟨a, d, b, stack'', rfl, hn, ha, hd⟩ | ⟨stack'', o, ht, hlast, hn⟩ := ih h
      · refine .inl ⟨c :: a, d, b, stack'', rfl, by simpa using hn, ?_, by simpa using hd⟩
        exact (hscan a).trans ha
      · exact .inr ⟨stack'', o, (hscan t).trans ht, hlast, hn⟩

/-! ## Defects by the grammar -/

/-- Whether a closer stands at an offset up to which the brackets start no nested word. -/
def BreaksAt (t : Text) (n : Nat) : Prop :=
  ∃ front closer rest, t = front ++ closer :: rest ∧ (openerOf? closer).isSome ∧ size front = n ∧
    ¬ ∃ w, Dyck (brackets (front ++ [closer]) ++ w)

/-- Whether an opener without a partner stands at an offset. -/
def UnclosedAt (t : Text) (n : Nat) : Prop :=
  ∃ front opener rest, t = front ++ opener :: rest ∧ (closerOf? opener).isSome ∧ size front = n ∧
    ¬ ∃ body behind, Encloses opener rest body behind

/-- Only closers stop the scan. -/
theorem isSome_openerOf?_of_stops {c : Char} (h : openersFrom? front stack [c] = none) :
    (openerOf? c).isSome := by
  rw [openersFrom?] at h
  cases hopens : closerOf? c with
  | some closer => simp [hopens, openersFrom?] at h
  | none =>
    cases hcloses : openerOf? c with
    | none => simp [hopens, hcloses, openersFrom?] at h
    | some opener => rfl

theorem breaksAt_of_stops {a b : Text} {c : Char} (ha : openers? a = some stack)
    (hc : openersFrom? a stack [c] = none) : BreaksAt (a ++ c :: b) (size a) := by
  refine ⟨a, c, b, rfl, isSome_openerOf?_of_stops hc, rfl, ?_⟩
  rw [exists_dyck_iff, openers?_concat, ha, Option.bind_some, hc]
  decide

/-- Nothing breaks in a text that the scan gets through. -/
theorem not_breaksAt (h : (openers? t).isSome) (n : Nat) : ¬ BreaksAt t n := by
  rintro ⟨front, closer, rest, rfl, -, -, hno⟩
  rw [List.append_cons] at h
  exact hno (exists_dyck_iff.mpr (isSome_openers?_of_append h))

/-- The first break is where the scan stops. -/
theorem isLeast_breaksAt {a b : Text} {c : Char} (ha : openers? a = some stack)
    (hc : openersFrom? a stack [c] = none) : IsLeast {k | BreaksAt (a ++ c :: b) k} (size a) := by
  refine ⟨breaksAt_of_stops ha hc, ?_⟩
  rintro k ⟨front, closer, rest, heq, -, rfl, hno⟩
  obtain ⟨behind, hfront, -⟩ | ⟨gap, rfl, -⟩ := cut_of_append heq.symm
  · have hprefix : (openers? ((front ++ [closer]) ++ behind)).isSome := by
      rw [← List.append_cons, ← hfront, ha]
      rfl
    exact absurd (exists_dyck_iff.mpr (isSome_openers?_of_append hprefix)) hno
  · rw [size_append]
    exact Nat.le_add_right _ _

/-- The outermost of the openers without a partner is the bottom of the stack. -/
theorem isLeast_unclosedAt {o : Opener} (h : openers? t = some stack)
    (hlast : stack.getLast? = some o) : IsLeast {k | UnclosedAt t k} (size o.front) := by
  have hleaves := leaves_of_openers? h
  constructor
  · have ho := List.mem_of_getLast? hlast
    obtain ⟨rest, hcut, hopens⟩ := hleaves.cut_of_mem ho
    refine ⟨o.front, o.bracket, rest, hcut, hopens, rfl, ?_⟩
    exact ((hcut ▸ hleaves).mem_iff hopens).mp ho
  · rintro k ⟨front, opener, rest, rfl, hopens, rfl, hno⟩
    exact hleaves.size_getLast_le hlast _ ((hleaves.mem_iff hopens).mpr hno)

/-- The rule decides whether the brackets of a query are nested, and finds what they break at. -/
structure DecidesNesting (v : Vocabulary) (query : Text) : Prop where
  passes_iff : balancedBrackets v query = none ↔ Dyck (brackets query.mask)
  defect : ¬ Dyck (brackets query.mask) → ∃ i,
    balancedBrackets v query = some (Span.ofLength i 1) ∧
      ((∃ k, BreaksAt query.mask k) → IsLeast {k | BreaksAt query.mask k} i) ∧
      ((¬ ∃ k, BreaksAt query.mask k) → IsLeast {k | UnclosedAt query.mask k} i)

theorem balancedBrackets_eq_none_iff {v : Vocabulary} {query : Text} :
    balancedBrackets v query = none ↔ Dyck (brackets query.mask) := by
  have hscan := @firstUnbalanced?_eq_none_iff query.mask [] []
  rw [balancedBrackets, Option.map_eq_none_iff, ← openers?_eq_nil_iff]
  exact hscan

theorem decidesNesting (v : Vocabulary) (query : Text) : DecidesNesting v query where
  passes_iff := balancedBrackets_eq_none_iff
  defect h := by
    rw [← balancedBrackets_eq_none_iff (v := v), balancedBrackets, Option.map_eq_none_iff] at h
    obtain ⟨i, hi⟩ := Option.ne_none_iff_exists'.mp h
    refine ⟨i, by rw [balancedBrackets, hi]; rfl, ?_⟩
    obtain ⟨a, c, b, stack, hcut, rfl, ha, hc⟩ | ⟨stack, o, hstack, hlast, rfl⟩ :=
      @firstUnbalanced?_eq_some query.mask [] [] _ hi
    · have hbreaks := isLeast_breaksAt (b := b) ha hc
      rw [← hcut] at hbreaks
      exact ⟨fun _ => hbreaks, fun hno => absurd ⟨_, hbreaks.1⟩ hno⟩
    · have hno : ¬ ∃ k, BreaksAt query.mask k := by
        rintro ⟨k, hk⟩
        exact not_breaksAt (Option.isSome_iff_exists.mpr ⟨stack, hstack⟩) k hk
      exact ⟨fun hbreaks => absurd hbreaks hno, fun _ => isLeast_unclosedAt hstack hlast⟩

/-- A closer of another kind comes before an opener that stays open. -/
example : balancedBrackets ⟨[], []⟩ ['(', '[', ')'] = some ⟨2, 3⟩ := by decide

example : balancedBrackets ⟨[], []⟩ ['(', '[', '(', ')'] = some ⟨0, 1⟩ := by decide

end PromqlAssist.Rule
