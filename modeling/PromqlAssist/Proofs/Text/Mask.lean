import PromqlAssist.Proofs.Text.Basic
import PromqlAssist.Rule.Brackets

/-!
# Masking piece by piece

A piece of a text that starts and ends outside string literals is masked by itself, and holds no
defect of a string if every quote outside its strings is a double quote that is closed.
-/

namespace PromqlAssist.Text

/-- Whether a piece masks to another and all its strings are well formed. -/
structure Masks (raw masked : Text) : Prop where
  mask : ∀ rest, maskFrom .outside (raw ++ rest) = masked ++ maskFrom .outside rest
  literals : ∀ n opened rest, ∃ opened', Rule.literalDefectFrom? n .outside opened (raw ++ rest) =
    Rule.literalDefectFrom? (n + size raw) .outside opened' rest
  size : size raw = size masked

/-- Whether a character opens or spoils a string. -/
def isQuote (c : Char) : Bool :=
  c = '"' || c = '\x27' || c = '\x60'

namespace Masks

variable {raw raw' masked masked' : Text} {c : Char}

theorem nil : Masks [] [] where
  mask := fun _ => rfl
  literals := fun _ opened _ => ⟨opened, rfl⟩
  size := rfl

theorem append (h : Masks raw masked) (h' : Masks raw' masked') :
    Masks (raw ++ raw') (masked ++ masked') where
  mask rest := by
    rw [List.append_assoc, h.mask, h'.mask, List.append_assoc]
  literals n opened rest := by
    obtain ⟨opened₁, h₁⟩ := h.literals n opened (raw' ++ rest)
    obtain ⟨opened₂, h₂⟩ := h'.literals (n + Text.size raw) opened₁ rest
    refine ⟨opened₂, ?_⟩
    rw [List.append_assoc, h₁, h₂, size_append, Nat.add_assoc]
  size := by
    rw [size_append, size_append, h.size, h'.size]

theorem singleton (hc : isQuote c = false) : Masks [c] [c] where
  mask rest := by
    have hquote : c ≠ '"' := by
      rintro rfl
      exact absurd hc (by decide)
    simp [maskFrom, LiteralState.next, hquote]
  literals n opened rest := by
    simp only [isQuote, Bool.or_eq_false_iff, decide_eq_false_iff_not] at hc
    refine ⟨opened, ?_⟩
    simp [Rule.literalDefectFrom?, LiteralState.next, hc]
  size := rfl

theorem cons (hc : isQuote c = false) (h : Masks raw masked) : Masks (c :: raw) (c :: masked) :=
  (singleton hc).append h

/-- A piece between two characters, such as brackets. -/
theorem wrap {opener closer : Char} (hopener : isQuote opener = false)
    (hcloser : isQuote closer = false) (h : Masks raw masked) :
    Masks (opener :: (raw ++ [closer])) (opener :: (masked ++ [closer])) :=
  cons hopener (h.append (singleton hcloser))

theorem self {t : Text} (h : ∀ c ∈ t, isQuote c = false) : Masks t t := by
  induction t with
  | nil => exact nil
  | cons c t ih => exact (ih fun d hd => h d (by simp [hd])).cons (h c (by simp))

theorem mask_eq (h : Masks raw masked) : Text.mask raw = masked := by
  simpa [Text.mask, maskFrom] using h.mask []

theorem stringLiterals_eq_none (h : Masks raw masked) (v : Vocabulary) :
    Rule.stringLiterals v raw = none := by
  obtain ⟨opened, hdefect⟩ := h.literals 0 0 []
  rw [List.append_nil] at hdefect
  rw [Rule.stringLiterals, hdefect]
  rfl

end Masks

end PromqlAssist.Text
