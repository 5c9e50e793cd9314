import PromqlAssist.Format.Decimal

/-!
# Skeletons

A skeleton is text with numbered markers such as `${1:metric}`. A marker that is not well formed is
literal text.
-/

namespace PromqlAssist

/-- A piece of a skeleton. -/
inductive Segment where
  | literal (text : Text)
  | placeholder (index : Nat) (name : Text)
deriving DecidableEq, Repr

namespace Skeleton

/-- Indices are below this bound; a marker with a larger one is literal text. -/
def indexLimit : Nat :=
  Nat.pow 2 32

/-- Reads a marker behind its opening `${`. The index reaches to the first colon, the name from
there to the first brace, and the rest of the text is returned. A brace in front of the colon, an
index that is no number and an empty name are refused. -/
def marker? (body : Text) : Option (Nat × Text × Text) :=
  match body.dropWhile (fun c => c ≠ ':' && c ≠ '}') with
  | ':' :: named =>
    match named.dropWhile (· ≠ '}') with
    | '}' :: rest =>
      let name := named.takeWhile (· ≠ '}')
      if name.isEmpty then none
      else
        (Decimal.parse? indexLimit (body.takeWhile fun c => c ≠ ':' && c ≠ '}')).map
          fun index => (index, name, rest)
    | _ => none
  | _ => none

theorem marker?_rest_lt {body name rest : Text} {index : Nat}
    (h : marker? body = some (index, name, rest)) : rest.length < body.length := by
  unfold marker? at h
  split at h
  · rename_i named hnamed
    split at h
    · rename_i tail htail
      have h₁ := (List.dropWhile_sublist (l := body) fun c => c ≠ ':' && c ≠ '}').length_le
      have h₂ := (List.dropWhile_sublist (l := named) (· ≠ '}')).length_le
      rw [hnamed] at h₁
      rw [htail] at h₂
      simp only [List.length_cons] at h₁ h₂
      dsimp only at h
      split at h
      · simp at h
      · obtain ⟨_, _, heq⟩ := Option.map_eq_some_iff.1 h
        obtain ⟨-, -, rfl⟩ : _ ∧ _ ∧ tail = rest := by simpa using heq
        omega
    · simp at h
  · simp at h

/-- A literal segment for pending characters, the last first. -/
def flush (pending : Text) : List Segment :=
  if pending.isEmpty then [] else [.literal pending.reverse]

/-- Segments of a text behind pending literal characters. -/
def segmentsFrom (pending : Text) : Text → List Segment
  | [] => flush pending
  | '$' :: '{' :: body =>
    match h : marker? body with
    | some (index, name, rest) =>
      have : rest.length < body.length := marker?_rest_lt h
      flush pending ++ .placeholder index name :: segmentsFrom [] rest
    | none => segmentsFrom ('{' :: '$' :: pending) body
  | c :: t => segmentsFrom (c :: pending) t
termination_by t => t.length
decreasing_by all_goals simp only [List.length_cons]; omega

/-- The segments of a skeleton, in order. Literals are not empty, and no two of them are
neighbours. -/
def segments (t : Text) : List Segment :=
  segmentsFrom [] t

end Skeleton

end PromqlAssist
