import PromqlAssist.Proofs.Text.Basic
import PromqlAssist.Rule.Brackets

/-!
# Brackets piece by piece

A piece in which every bracket is closed changes neither the stack of open brackets nor the depth
of parentheses.
-/

namespace PromqlAssist.Text

def isBracket (c : Char) : Bool :=
  (closerOf? c).isSome || (openerOf? c).isSome

theorem ne_of_isBracket {c d : Char} (hc : isBracket c = false) (hd : isBracket d) : c ≠ d := by
  rintro rfl
  rw [hc] at hd
  cases hd

/-- Whether the stack of open brackets is the same behind a piece as in front of it. -/
def Balanced (t : Text) : Prop :=
  ∀ n stack rest, Rule.firstUnbalanced? n stack (t ++ rest) =
    Rule.firstUnbalanced? (n + size t) stack rest

/-- Whether as many brackets of a kind are open behind a piece as in front of it. -/
def LevelIn (opener closer : Char) (t : Text) : Prop :=
  ∀ depth rest, closeDistance? opener closer (depth + 1) (t ++ rest) =
    (closeDistance? opener closer (depth + 1) rest).map (size t + ·)

/-- Whether as many parentheses are open behind a piece as in front of it. -/
def Level (t : Text) : Prop :=
  ∀ depth rest, closeDistance? '(' ')' (depth + 1) (t ++ rest) =
    (closeDistance? '(' ')' (depth + 1) rest).map (size t + ·)

variable {s t : Text} {c : Char}

/-- What lies in front of a closer that was found. -/
theorem closeDistance?_eq_some {opener closer : Char} {depth n : Nat}
    (h : closeDistance? opener closer depth t = some n) :
    ∃ body rest, t = body ++ closer :: rest ∧ size body = n := by
  induction t generalizing depth n with
  | nil => cases h
  | cons c t ih =>
    rw [closeDistance?] at h
    split at h
    · rename_i hc
      obtain rfl := Option.some.inj h
      exact ⟨[], t, by rw [hc.1]; rfl, rfl⟩
    · obtain ⟨m, hm, rfl⟩ := Option.map_eq_some_iff.mp h
      obtain ⟨body, rest, rfl, rfl⟩ := ih hm
      exact ⟨c :: body, rest, rfl, rfl⟩

namespace Balanced

theorem nil : Balanced [] :=
  fun _ _ _ => rfl

theorem append (hs : Balanced s) (ht : Balanced t) : Balanced (s ++ t) := by
  intro n stack rest
  rw [List.append_assoc, hs, ht, size_append, Nat.add_assoc]

theorem singleton (hc : isBracket c = false) : Balanced [c] := by
  intro n stack rest
  simp only [isBracket, Bool.or_eq_false_iff, Option.isSome_eq_false_iff, Option.isNone_iff_eq_none]
    at hc
  rw [List.singleton_append, Rule.firstUnbalanced?, hc.1, hc.2]
  rfl

theorem flat (h : ∀ c ∈ t, isBracket c = false) : Balanced t := by
  induction t with
  | nil => exact nil
  | cons c t ih => exact (singleton (h c (by simp))).append (ih fun d hd => h d (by simp [hd]))

/-- Brackets of a kind around a piece close each other. -/
theorem wrap {opener closer : Char} (hs : Balanced s) (hopens : closerOf? opener = some closer)
    (hcloser : closerOf? closer = none) (hcloses : openerOf? closer = some opener) :
    Balanced (opener :: (s ++ [closer])) := by
  intro n stack rest
  rw [List.cons_append, List.append_assoc, Rule.firstUnbalanced?]
  simp only [hopens]
  rw [hs, List.singleton_append, Rule.firstUnbalanced?]
  simp only [hcloser, hcloses, if_true]
  congr 1
  simp
  omega

theorem balancedBrackets_eq_none (h : Balanced t.mask) (v : Vocabulary) :
    Rule.balancedBrackets v t = none := by
  have hscan := h 0 [] []
  rw [List.append_nil] at hscan
  rw [Rule.balancedBrackets, hscan]
  rfl

end Balanced

namespace LevelIn

variable {opener closer : Char}

theorem nil : LevelIn opener closer [] := by
  intro depth rest
  cases h : closeDistance? opener closer (depth + 1) rest <;> simp [h]

theorem append (hs : LevelIn opener closer s) (ht : LevelIn opener closer t) :
    LevelIn opener closer (s ++ t) := by
  intro depth rest
  rw [List.append_assoc, hs, ht, Option.map_map, size_append]
  congr 1
  funext n
  simp [Nat.add_assoc]

theorem singleton (hopener : c ≠ opener) (hcloser : c ≠ closer) : LevelIn opener closer [c] := by
  intro depth rest
  rw [List.singleton_append, closeDistance?, if_neg (fun h => hcloser h.1)]
  simp [hopener, hcloser]

theorem wrap (hs : LevelIn opener closer s) (hne : opener ≠ closer) :
    LevelIn opener closer (opener :: (s ++ [closer])) := by
  intro depth rest
  rw [List.cons_append, List.append_assoc, closeDistance?, if_neg (fun h => hne h.1)]
  simp only [if_true]
  rw [hs, List.singleton_append, closeDistance?, if_neg (by simp)]
  simp only [Option.map_map, if_neg hne.symm, if_true]
  congr 1
  funext n
  simp
  omega

/-- A piece between two characters that are no brackets of the kind. -/
theorem around {first last : Char} (hfirst : first ≠ opener ∧ first ≠ closer)
    (hlast : last ≠ opener ∧ last ≠ closer) (hs : LevelIn opener closer s) :
    LevelIn opener closer (first :: (s ++ [last])) :=
  (singleton hfirst.1 hfirst.2).append (hs.append (singleton hlast.1 hlast.2))

/-- The bracket in front of a level piece is closed behind it. -/
theorem closeDistance?_eq (h : LevelIn opener closer t) (rest : Text) :
    closeDistance? opener closer 1 (t ++ closer :: rest) = some (size t) := by
  rw [h 0, closeDistance?, if_pos ⟨rfl, Nat.le_refl 1⟩]
  rfl

end LevelIn

namespace Level

theorem nil : Level [] :=
  LevelIn.nil

theorem append (hs : Level s) (ht : Level t) : Level (s ++ t) :=
  LevelIn.append hs ht

theorem singleton (hopener : c ≠ '(') (hcloser : c ≠ ')') : Level [c] :=
  LevelIn.singleton hopener hcloser

theorem flat (h : ∀ c ∈ t, c ≠ '(' ∧ c ≠ ')') : Level t := by
  induction t with
  | nil => exact nil
  | cons c t ih =>
    obtain ⟨hopener, hcloser⟩ := h c (by simp)
    exact (singleton hopener hcloser).append (ih fun d hd => h d (by simp [hd]))

theorem wrap (hs : Level s) : Level ('(' :: (s ++ [')'])) :=
  LevelIn.wrap hs (by decide)

/-- A piece between two characters that are no parentheses. -/
theorem around {opener closer : Char} (hopener : opener ≠ '(' ∧ opener ≠ ')')
    (hcloser : closer ≠ '(' ∧ closer ≠ ')') (hs : Level s) : Level (opener :: (s ++ [closer])) :=
  LevelIn.around hopener hcloser hs

/-- The parenthesis in front of a level piece is closed behind it. -/
theorem closeDistance?_eq (h : Level t) (rest : Text) :
    closeDistance? '(' ')' 1 (t ++ ')' :: rest) = some (size t) :=
  LevelIn.closeDistance?_eq h rest

end Level

end PromqlAssist.Text
