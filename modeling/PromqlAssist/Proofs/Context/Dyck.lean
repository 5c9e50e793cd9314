import Mathlib.Data.List.Induction
import PromqlAssist.Proofs.Context.Opener

/-!
# Nested brackets as a grammar

The scan that keeps a stack of open brackets accepts the texts whose brackets form a word of the
grammar of nested brackets. It gets through just the first parts of such texts: what it has on the
stack then are the openers between nested pieces, and their closers complete the word.
-/

namespace PromqlAssist

namespace Text

/-- The words of nested brackets. -/
inductive Dyck : Text → Prop where
  | nil : Dyck []
  | append {v w : Text} : Dyck v → Dyck w → Dyck (v ++ w)
  | paren {w : Text} : Dyck w → Dyck ('(' :: (w ++ [')']))
  | square {w : Text} : Dyck w → Dyck ('[' :: (w ++ [']']))
  | brace {w : Text} : Dyck w → Dyck ('{' :: (w ++ ['}']))

/-- The brackets of a text. -/
def brackets (t : Text) : Text :=
  t.filter (· ∈ ['(', ')', '[', ']', '{', '}'])

/-- A text in which brackets are nested, whatever other characters there are. -/
inductive Nested : Text → Prop where
  | nil : Nested []
  | other {c : Char} : isBracket c = false → Nested [c]
  | append {s t : Text} : Nested s → Nested t → Nested (s ++ t)
  | wrap {opener closer : Char} {t : Text} :
    closerOf? opener = some closer → Nested t → Nested (opener :: (t ++ [closer]))

variable {s t w : Text} {c opener closer : Char}

theorem closerOf?_eq_some_iff : closerOf? opener = some closer ↔
    opener = '(' ∧ closer = ')' ∨ opener = '[' ∧ closer = ']' ∨ opener = '{' ∧ closer = '}' := by
  unfold closerOf?
  split <;> simp_all [eq_comm]

theorem openerOf?_eq_some_iff :
    openerOf? closer = some opener ↔ closerOf? opener = some closer := by
  rw [closerOf?_eq_some_iff]
  unfold openerOf?
  split <;> simp_all [eq_comm]

theorem isBracket_eq (c : Char) : isBracket c = decide (c ∈ ['(', ')', '[', ']', '{', '}']) := by
  unfold isBracket closerOf? openerOf?
  split <;> split <;> simp_all

/-! ## Brackets of a text -/

@[simp] theorem brackets_append (s t : Text) : brackets (s ++ t) = brackets s ++ brackets t :=
  List.filter_append ..

theorem brackets_cons_of_isBracket (h : isBracket c) (t : Text) :
    brackets (c :: t) = c :: brackets t :=
  List.filter_cons_of_pos (isBracket_eq c ▸ h)

theorem brackets_cons_of_not_isBracket (h : isBracket c = false) (t : Text) :
    brackets (c :: t) = brackets t :=
  List.filter_cons_of_neg (by rw [← isBracket_eq, h]; decide)

theorem isBracket_of_closerOf? (h : closerOf? opener = some closer) :
    isBracket opener ∧ isBracket closer := by
  rw [isBracket, isBracket, h, openerOf?_eq_some_iff.mpr h]
  simp

theorem brackets_wrap (h : closerOf? opener = some closer) (t : Text) :
    brackets (opener :: (t ++ [closer])) = opener :: (brackets t ++ [closer]) := by
  obtain ⟨hopener, hcloser⟩ := isBracket_of_closerOf? h
  rw [brackets_cons_of_isBracket hopener, brackets_append, brackets_cons_of_isBracket hcloser]
  rfl

theorem Dyck.wrap (h : closerOf? opener = some closer) (hw : Dyck w) :
    Dyck (opener :: (w ++ [closer])) := by
  obtain ⟨rfl, rfl⟩ | ⟨rfl, rfl⟩ | ⟨rfl, rfl⟩ := closerOf?_eq_some_iff.mp h
  · exact .paren hw
  · exact .square hw
  · exact .brace hw

theorem Dyck.brackets_eq (h : Dyck w) : brackets w = w := by
  induction h with
  | nil => rfl
  | append _ _ ihv ihw => rw [brackets_append, ihv, ihw]
  | paren _ ih => rw [brackets_wrap rfl, ih]
  | square _ ih => rw [brackets_wrap rfl, ih]
  | brace _ ih => rw [brackets_wrap rfl, ih]

/-! ## Nested texts -/

namespace Nested

theorem flat (h : ∀ c ∈ t, isBracket c = false) : Nested t := by
  induction t with
  | nil => exact nil
  | cons c t ih => exact (other (h c (by simp))).append (ih fun d hd => h d (by simp [hd]))

theorem dyck (h : Nested t) : Dyck (brackets t) := by
  induction h with
  | nil => exact .nil
  | other hc => exact brackets_cons_of_not_isBracket hc [] ▸ .nil
  | append _ _ ihs iht => exact brackets_append _ _ ▸ ihs.append iht
  | wrap hopens _ ih => exact brackets_wrap hopens _ ▸ ih.wrap hopens

/-- A text without brackets. -/
theorem of_brackets_eq_nil (h : brackets t = []) : Nested t := by
  refine flat fun c hc => ?_
  rw [isBracket_eq]
  simpa using List.filter_eq_nil_iff.mp h c hc

theorem of_brackets_wrap (hopens : closerOf? opener = some closer)
    (hw : ∀ {t}, brackets t = w → Nested t) (h : brackets t = opener :: (w ++ [closer])) :
    Nested t := by
  obtain ⟨front, rest, rfl, hfront, -, hrest⟩ := List.filter_eq_cons_iff.mp h
  obtain ⟨body, behind, rfl, hbody, hbehind⟩ := List.filter_eq_append_iff.mp hrest
  obtain ⟨gap, behind, rfl, hgap, -, hbehind⟩ := List.filter_eq_cons_iff.mp hbehind
  have hpieces : Nested (front ++ ((opener :: ((body ++ gap) ++ [closer])) ++ behind)) := by
    refine append ?_ (append (wrap hopens (append (hw hbody) ?_)) ?_)
    · exact flat fun c hc => by rw [isBracket_eq]; simpa using hfront c hc
    · exact flat fun c hc => by rw [isBracket_eq]; simpa using hgap c hc
    · exact of_brackets_eq_nil hbehind
  simpa using hpieces

theorem of_dyck (h : Dyck w) : ∀ {t}, brackets t = w → Nested t := by
  induction h with
  | nil => exact of_brackets_eq_nil
  | append _ _ ihv ihw =>
    intro t h
    obtain ⟨s, t, rfl, hs, ht⟩ := List.filter_eq_append_iff.mp h
    exact (ihv hs).append (ihw ht)
  | paren _ ih => exact of_brackets_wrap rfl ih
  | square _ ih => exact of_brackets_wrap rfl ih
  | brace _ ih => exact of_brackets_wrap rfl ih

end Nested

theorem nested_iff : Nested t ↔ Dyck (brackets t) :=
  ⟨Nested.dyck, fun h => Nested.of_dyck h rfl⟩

/-- A character of an append stands in one of the two parts. -/
theorem cut_of_append {front rest : Text} (h : front ++ c :: rest = s ++ t) :
    (∃ behind, s = front ++ c :: behind ∧ rest = behind ++ t) ∨
      ∃ gap, front = s ++ gap ∧ t = gap ++ c :: rest := by
  obtain ⟨gap, hs, hrest⟩ | ⟨gap, hfront, ht⟩ := List.append_eq_append_iff.mp h
  · cases gap with
    | nil => exact .inr ⟨[], by simpa using hs.symm, by simpa using hrest.symm⟩
    | cons d behind =>
      obtain ⟨rfl, rfl⟩ := List.cons.inj hrest
      exact .inl ⟨behind, hs, rfl⟩
  · exact .inr ⟨gap, hfront, ht⟩

theorem closerOf?_closer (h : closerOf? opener = some closer) : closerOf? closer = none := by
  obtain ⟨rfl, rfl⟩ | ⟨rfl, rfl⟩ | ⟨rfl, rfl⟩ := closerOf?_eq_some_iff.mp h <;> rfl

/-- Whether what follows an opener is `body`, whose brackets are nested, then its closer and
`behind`. -/
def Encloses (opener : Char) (rest body behind : Text) : Prop :=
  ∃ closer, closerOf? opener = some closer ∧ rest = body ++ closer :: behind ∧
    Dyck (brackets body)

theorem Encloses.append {rest body behind : Text} (h : Encloses opener rest body behind)
    (s : Text) : Encloses opener (rest ++ s) body (behind ++ s) := by
  obtain ⟨closer, hopens, rfl, hbody⟩ := h
  exact ⟨closer, hopens, by simp, hbody⟩

/-- An opener in a nested text has its closer, with a nested text between them. -/
theorem Nested.exists_encloses {front rest : Text} (h : Nested (front ++ opener :: rest))
    (hopens : (closerOf? opener).isSome) : ∃ body behind, Encloses opener rest body behind := by
  generalize ht : front ++ opener :: rest = t at h
  induction h generalizing front rest with
  | nil => simp at ht
  | @other c hc =>
    have hmem : opener ∈ [c] := ht ▸ List.mem_append_right front List.mem_cons_self
    obtain rfl := List.mem_singleton.mp hmem
    rw [isBracket, hopens] at hc
    cases hc
  | @append s t _ _ ihs iht =>
    obtain ⟨behind, hs, rfl⟩ | ⟨gap, -, ht⟩ := cut_of_append ht
    · obtain ⟨body, behind, hencloses⟩ := ihs hs.symm
      exact ⟨body, behind ++ t, hencloses.append t⟩
    · exact iht ht.symm
  | @wrap o d t hwraps hbody ih =>
    cases front with
    | nil =>
      obtain ⟨rfl, rfl⟩ := List.cons.inj ht
      exact ⟨t, [], d, hwraps, rfl, hbody.dyck⟩
    | cons e front =>
      obtain ⟨behind, hbehind, rfl⟩ | ⟨gap, -, hlast⟩ := cut_of_append (List.cons.inj ht).2
      · obtain ⟨body, behind, hencloses⟩ := ih hbehind.symm
        exact ⟨body, behind ++ [d], hencloses.append [d]⟩
      · -- The last character is a closer.
        have hmem : opener ∈ [d] := hlast ▸ List.mem_append_right gap List.mem_cons_self
        obtain rfl := List.mem_singleton.mp hmem
        rw [closerOf?_closer hwraps] at hopens
        cases hopens

end Text

namespace Context

open Text

variable {t s front rest : Text} {stack stack' lower : List Opener} {o : Opener}
variable {c opener closer : Char}

/-- Texts that are nested but for the brackets of a stack, which are open. -/
inductive Leaves : Text → List Opener → Prop where
  | nested {t : Text} : Nested t → Leaves t []
  | opens {front body : Text} {stack : List Opener} {opener closer : Char} :
    Leaves front stack → closerOf? opener = some closer → Nested body →
      Leaves (front ++ opener :: body) (⟨opener, front⟩ :: stack)

/-! ## The scan of nested pieces -/

/-- The closer of the innermost bracket takes it off the stack. -/
theorem openersFrom?_closer (hcloses : closerOf? o.bracket = some closer) (front : Text)
    (stack : List Opener) (t : Text) :
    openersFrom? front (o :: stack) (closer :: t) = openersFrom? (front ++ [closer]) stack t := by
  rw [openersFrom?, closerOf?_closer hcloses, openerOf?_eq_some_iff.mpr hcloses]
  simp

theorem openersFrom?_other (hc : isBracket c = false) (front : Text) (stack : List Opener)
    (t : Text) : openersFrom? front stack (c :: t) = openersFrom? (front ++ [c]) stack t := by
  simp only [isBracket, Bool.or_eq_false_iff, Option.isSome_eq_false_iff, Option.isNone_iff_eq_none]
    at hc
  rw [openersFrom?, hc.1, hc.2]

/-- A nested piece leaves the stack as it is. -/
theorem openersFrom?_nested (h : Nested t) (front : Text) (stack : List Opener) (rest : Text) :
    openersFrom? front stack (t ++ rest) = openersFrom? (front ++ t) stack rest := by
  induction h generalizing front stack rest with
  | nil => simp
  | other hc => exact openersFrom?_other hc front stack rest
  | append _ _ ihs iht => rw [List.append_assoc, ihs, iht, List.append_assoc]
  | @wrap opener closer t hopens _ ih =>
    rw [List.cons_append, List.append_assoc, openersFrom?, hopens]
    simp only
    rw [ih, List.singleton_append, openersFrom?_closer hopens]
    simp

theorem Leaves.openers?_eq (h : Leaves t stack) : openers? t = some stack := by
  induction h with
  | nested hn => simpa [openers?, openersFrom?] using openersFrom?_nested hn [] [] []
  | @opens front body stack opener closer _ hopens hbody ih =>
    rw [openers?] at ih
    rw [openers?, openersFrom?_append, ih, Option.bind_some, openersFrom?, hopens]
    simpa [openersFrom?] using
      openersFrom?_nested hbody (front ++ [opener]) (⟨opener, front⟩ :: stack) []

theorem Leaves.append (h : Leaves t stack) (hs : Nested s) : Leaves (t ++ s) stack := by
  cases h with
  | nested ht => exact .nested (ht.append hs)
  | opens hfront hopens hbody =>
    rw [List.append_assoc, List.cons_append]
    exact .opens hfront hopens (hbody.append hs)

theorem openers?_concat (t : Text) (c : Char) :
    openers? (t ++ [c]) = (openers? t).bind fun stack => openersFrom? t stack [c] := by
  rw [openers?, openersFrom?_append]
  rfl

/-- One more character opens a bracket, closes the innermost one, or makes a piece longer. -/
theorem leaves_of_openers? (h : openers? t = some stack) : Leaves t stack := by
  induction t using List.reverseRecOn generalizing stack with
  | nil =>
    obtain rfl := Option.some.inj h
    exact .nested .nil
  | append_singleton t c ih =>
    rw [openers?_concat] at h
    obtain ⟨inner, hinner, h⟩ := Option.bind_eq_some_iff.mp h
    have hleaves := ih hinner
    obtain ⟨hopens, h⟩ | ⟨hc, h⟩ | ⟨innermost, rest, rfl, hcloses, h⟩ :=
      openersFrom?_cons_eq_some h
    · obtain rfl := Option.some.inj h
      obtain ⟨closer, hopens⟩ := Option.isSome_iff_exists.mp hopens
      exact .opens hleaves hopens .nil
    · obtain rfl := Option.some.inj h
      exact hleaves.append (.other hc)
    · obtain rfl := Option.some.inj h
      cases hleaves with
      | @opens front body _ opener _ hfront _ hbody =>
        have hgroup := hfront.append (hbody.wrap hcloses)
        simpa using hgroup

/-- The scan ends with nothing open just on the texts whose brackets are a word of the grammar. -/
theorem openers?_eq_nil_iff : openers? t = some [] ↔ Dyck (brackets t) := by
  rw [← nested_iff]
  constructor
  · intro h
    cases leaves_of_openers? h with
    | nested ht => exact ht
  · intro h
    exact (Leaves.nested h).openers?_eq

/-! ## First parts of words -/

/-- A part of the text that the scan gets through, it gets through as well. -/
theorem isSome_openers?_of_append (h : (openers? (s ++ t)).isSome) : (openers? s).isSome := by
  rw [openers?, openersFrom?_append] at h
  exact Option.isSome_of_isSome_bind h

namespace Leaves

theorem cut_of_mem (h : Leaves t stack) (ho : o ∈ stack) :
    ∃ rest, t = o.front ++ o.bracket :: rest ∧ (closerOf? o.bracket).isSome := by
  induction h with
  | nested => cases ho
  | @opens front body stack opener closer _ hopens _ ih =>
    rcases List.mem_cons.mp ho with rfl | ho
    · exact ⟨body, rfl, by rw [hopens]; rfl⟩
    · obtain ⟨rest, rfl, hopener⟩ := ih ho
      exact ⟨rest ++ opener :: body, by simp, hopener⟩

/-- The last bracket of a stack is the one that was opened first. -/
theorem size_getLast_le (h : Leaves t stack) (hlast : stack.getLast? = some o) :
    ∀ o' ∈ stack, size o.front ≤ size o'.front := by
  induction h with
  | nested => cases hlast
  | @opens front body stack opener closer hfront _ _ ih =>
    intro o' ho'
    cases stack with
    | nil =>
      obtain rfl := Option.some.inj hlast
      obtain rfl := List.mem_singleton.mp ho'
      exact Nat.le_refl _
    | cons p stack =>
      rw [List.getLast?_cons_cons] at hlast
      rcases List.mem_cons.mp ho' with rfl | ho'
      · obtain ⟨rest, heq, -⟩ := hfront.cut_of_mem (List.mem_of_getLast? hlast)
        have hsize := congrArg size heq
        rw [size_append] at hsize
        exact hsize ▸ Nat.le_add_right _ _
      · exact ih hlast o' ho'

end Leaves

/-- The brackets of a stack can be closed. -/
theorem exists_closers (h : ∀ o ∈ stack, (closerOf? o.bracket).isSome) (front : Text) :
    ∃ w, openersFrom? front stack w = some [] := by
  induction stack generalizing front with
  | nil => exact ⟨[], rfl⟩
  | cons o stack ih =>
    obtain ⟨closer, hcloser⟩ := Option.isSome_iff_exists.mp (h o List.mem_cons_self)
    obtain ⟨w, hw⟩ := ih (fun o' ho' => h o' (List.mem_cons_of_mem o ho')) (front ++ [closer])
    exact ⟨closer :: w, by rw [openersFrom?_closer hcloser, hw]⟩

/-- The scan gets through just the texts whose brackets can be completed to a word. -/
theorem exists_dyck_iff : (∃ w, Dyck (brackets t ++ w)) ↔ (openers? t).isSome := by
  constructor
  · rintro ⟨w, hw⟩
    have hbrackets : brackets w = w := by
      have heq := hw.brackets_eq
      rw [brackets_append, brackets, brackets, List.filter_filter] at heq
      simpa using heq
    rw [← hbrackets, ← brackets_append] at hw
    exact isSome_openers?_of_append (by rw [openers?_eq_nil_iff.mpr hw]; rfl)
  · intro h
    obtain ⟨stack, hstack⟩ := Option.isSome_iff_exists.mp h
    have hopeners : ∀ o ∈ stack, (closerOf? o.bracket).isSome := by
      intro o ho
      obtain ⟨rest, -, hopens⟩ := (leaves_of_openers? hstack).cut_of_mem ho
      exact hopens
    obtain ⟨w, hw⟩ := exists_closers hopeners t
    refine ⟨brackets w, ?_⟩
    rw [← brackets_append, ← openers?_eq_nil_iff, openers?, openersFrom?_append]
    rw [openers?] at hstack
    rw [hstack]
    exact hw

/-! ## Groups -/

/-- A bracket on the stack was there before or is of the text that was scanned since. -/
theorem mem_or_le_of_mem (h : openersFrom? front stack t = some stack') (ho : o ∈ stack') :
    o ∈ stack ∨ size front ≤ size o.front := by
  induction t generalizing front stack with
  | nil =>
    obtain rfl := Option.some.inj h
    exact .inl ho
  | cons c t ih =>
    have hsize : size front ≤ size (front ++ [c]) := by simp
    obtain ⟨-, h⟩ | ⟨-, h⟩ | ⟨innermost, rest, rfl, -, h⟩ := openersFrom?_cons_eq_some h
    · rcases ih h with hmem | hle
      · rcases List.mem_cons.mp hmem with rfl | hmem
        · exact .inr (Nat.le_refl _)
        · exact .inl hmem
      · exact .inr (Nat.le_trans hsize hle)
    · exact (ih h).imp id (Nat.le_trans hsize)
    · exact (ih h).imp (List.mem_cons_of_mem innermost) (Nat.le_trans hsize)

namespace Leaves

/-- An opener is on the stack, or a nested text and its closer follow. -/
theorem mem_or_encloses (h : Leaves (front ++ c :: rest) stack) (hopens : (closerOf? c).isSome) :
    ⟨c, front⟩ ∈ stack ∨ ∃ body behind, Encloses c rest body behind := by
  generalize ht : front ++ c :: rest = t at h
  induction h generalizing rest with
  | nested hn => exact .inr (Nested.exists_encloses (ht ▸ hn) hopens)
  | @opens front' body stack opener _ _ _ hbody ih =>
    obtain ⟨behind, hfront, rfl⟩ | ⟨gap, rfl, hgap⟩ := cut_of_append ht
    · refine (ih hfront.symm).imp (List.mem_cons_of_mem _) ?_
      rintro ⟨body', behind', hencloses⟩
      exact ⟨body', behind' ++ opener :: body, hencloses.append (opener :: body)⟩
    · cases gap with
      | nil =>
        obtain ⟨rfl, rfl⟩ := List.cons.inj hgap
        exact .inl (by simp)
      | cons d gap =>
        obtain ⟨rfl, rfl⟩ := List.cons.inj hgap
        exact .inr (hbody.exists_encloses hopens)

/-- The brackets on the stack are those that have no partner. -/
theorem mem_iff (h : Leaves (front ++ c :: rest) stack) (hopens : (closerOf? c).isSome) :
    ⟨c, front⟩ ∈ stack ↔ ¬ ∃ body behind, Encloses c rest body behind := by
  constructor
  · rintro hmem ⟨body, behind, closer, hcloses, rfl, hbody⟩
    have hgroup := (nested_iff.mpr hbody).wrap hcloses
    have hscan := h.openers?_eq
    rw [openers?, openersFrom?_append] at hscan
    obtain ⟨lower, hlower, hscan⟩ := Option.bind_eq_some_iff.mp hscan
    rw [List.append_cons, ← List.cons_append, openersFrom?_nested hgroup] at hscan
    -- It would stand in front of itself or behind its partner.
    rcases mem_or_le_of_mem hscan hmem with hmem | hle
    · obtain ⟨_, heq, -⟩ := (leaves_of_openers? hlower).cut_of_mem hmem
      simp at heq
    · have hpos := c.utf8Size_pos
      simp at hle
      omega
  · intro hno
    exact (h.mem_or_encloses hopens).resolve_right hno

end Leaves

end Context

end PromqlAssist
