import PromqlAssist.Proofs.Format.Decimal
import PromqlAssist.Template.Skeleton

/-!
# Reading skeletons

A marker is read off a text exactly when the text spells one out, so what a reader sees can be
exchanged for what was written. Literal characters in front of a skeleton only grow its first
segment: `Skeleton.segmentsFrom` is `Skeleton.segments` behind a leading literal, and the proofs
about skeletons go by induction over the text without an account of pending characters.
-/

namespace PromqlAssist

namespace Skeleton

/-- The index of a marker is separated from its name by the first colon, and ends in front of it. -/
def isIndexChar (c : Char) : Bool :=
  c ≠ ':' && c ≠ '}'

theorem isIndexChar_of_parse? {index : Nat} {digits : Text} {c : Char}
    (h : Decimal.parse? indexLimit digits = some index) (hc : c ∈ digits) : isIndexChar c := by
  rcases Decimal.mem_of_parse? h hc with hd | rfl
  · simp only [isIndexChar, Bool.and_eq_true, decide_eq_true_eq]
    exact ⟨by rintro rfl; exact absurd hd (by decide), by rintro rfl; exact absurd hd (by decide)⟩
  · decide

/-- A marker is read exactly where an index, a colon, a name without a closing brace, and the brace
follow each other. -/
theorem marker?_eq_some_iff {body name rest : Text} {index : Nat} :
    marker? body = some (index, name, rest) ↔
      ∃ digits, body = digits ++ ':' :: (name ++ '}' :: rest) ∧
        Decimal.parse? indexLimit digits = some index ∧ name ≠ [] ∧ '}' ∉ name := by
  constructor
  · intro h
    unfold marker? at h
    split at h
    · rename_i named hnamed
      split at h
      · rename_i tail htail
        dsimp only at h
        split at h
        · simp at h
        · rename_i hname
          obtain ⟨i, hi, heq⟩ := Option.map_eq_some_iff.mp h
          obtain ⟨rfl, rfl, rfl⟩ : i = index ∧ named.takeWhile (· ≠ '}') = name ∧ tail = rest := by
            simpa using heq
          refine ⟨_, ?_, hi, by simpa using hname, ?_⟩
          · rw [← htail, List.takeWhile_append_dropWhile, ← hnamed, List.takeWhile_append_dropWhile]
          · intro hmem
            simpa using List.all_eq_true.mp List.all_takeWhile _ hmem
      · simp at h
    · simp at h
  · rintro ⟨digits, rfl, hdigits, hname, hclose⟩
    have index : ∀ c ∈ digits, (decide (c ≠ ':') && decide (c ≠ '}')) = true :=
      fun c hc => isIndexChar_of_parse? hdigits hc
    have close : ∀ c ∈ name, (!decide (c = '}')) = true := by
      intro c hc
      simpa using fun h : c = '}' => hclose (h ▸ hc)
    unfold marker?
    rw [List.dropWhile_append_of_pos index, List.takeWhile_append_of_pos index]
    simp [List.dropWhile_append_of_pos close, List.takeWhile_append_of_pos close, hname, hdigits]

theorem marker?_unnamed {digits : Text} {index : Nat}
    (h : Decimal.parse? indexLimit digits = some index) (rest : Text) :
    marker? (digits ++ ':' :: '}' :: rest) = none := by
  have index : ∀ c ∈ digits, (decide (c ≠ ':') && decide (c ≠ '}')) = true :=
    fun c hc => isIndexChar_of_parse? h hc
  unfold marker?
  rw [List.dropWhile_append_of_pos index]
  simp

/-- Segments with literal text in front, which a literal that stands first takes up. -/
def lead (text : Text) : List Segment → List Segment
  | .literal t :: rest => .literal (text ++ t) :: rest
  | segs => if text.isEmpty then segs else .literal text :: segs

@[simp] theorem lead_nil (segs : List Segment) : lead [] segs = segs := by
  unfold lead
  split <;> simp

@[simp] theorem lead_literal (text t : Text) (segs : List Segment) :
    lead text (.literal t :: segs) = .literal (text ++ t) :: segs := rfl

theorem lead_placeholder (text : Text) (index : Nat) (name : Text) (segs : List Segment) :
    lead text (.placeholder index name :: segs) =
      flush text.reverse ++ .placeholder index name :: segs := by
  cases text <;> simp [lead, flush]

theorem lead_empty (text : Text) : lead text [] = flush text.reverse := by
  cases text <;> simp [lead, flush]

@[simp] theorem lead_lead (s t : Text) (segs : List Segment) :
    lead s (lead t segs) = lead (s ++ t) segs := by
  rcases segs with _ | ⟨_ | _, segs⟩ <;> cases s <;> cases t <;> simp [lead]

theorem flatMap_flush {f : Segment → Text} (empty : f (.literal []) = []) (text : Text) :
    (flush text.reverse).flatMap f = f (.literal text) := by
  cases text <;> simp [flush, empty]

/-- What is made of segments piece by piece comes apart behind leading text if it does so inside
a literal. -/
theorem flatMap_lead {f : Segment → Text} {text : Text} (empty : f (.literal []) = [])
    (append : ∀ t, f (.literal (text ++ t)) = f (.literal text) ++ f (.literal t))
    (segs : List Segment) : (lead text segs).flatMap f = f (.literal text) ++ segs.flatMap f := by
  rcases segs with _ | ⟨t | ⟨index, name⟩, segs⟩
  · simp [lead_empty, flatMap_flush empty]
  · simp [append]
  · simp [lead_placeholder, flatMap_flush empty]

theorem segmentsFrom_nil (pending : Text) : segmentsFrom pending [] = flush pending := by
  rw [segmentsFrom]

theorem segmentsFrom_marker {pending body name rest : Text} {index : Nat}
    (h : marker? body = some (index, name, rest)) :
    segmentsFrom pending ('$' :: '{' :: body) =
      flush pending ++ .placeholder index name :: segmentsFrom [] rest := by
  rw [segmentsFrom]
  split
  · simp_all
  · simp_all

theorem segmentsFrom_unmarked {pending body : Text} (h : marker? body = none) :
    segmentsFrom pending ('$' :: '{' :: body) = segmentsFrom ('{' :: '$' :: pending) body := by
  rw [segmentsFrom]
  split
  · simp_all
  · rfl

/-- Whether a text starts as a marker does. -/
def opensMarker (t : Text) : Prop :=
  ∃ body, t = '$' :: '{' :: body

theorem segmentsFrom_cons {pending t : Text} {c : Char} (h : ¬ opensMarker (c :: t)) :
    segmentsFrom pending (c :: t) = segmentsFrom (c :: pending) t := by
  rw [segmentsFrom]
  rintro body rfl rfl
  exact h ⟨body, rfl⟩

/-- Induction along the reading of a skeleton: a marker is passed at once, and of a bracket that
opens none both characters are passed. -/
theorem reading {P : Text → Prop} (nil : P [])
    (marker : ∀ body index name rest, marker? body = some (index, name, rest) → P rest →
      P ('$' :: '{' :: body))
    (unmarked : ∀ body, marker? body = none → P body → P ('$' :: '{' :: body))
    (cons : ∀ c t, ¬ opensMarker (c :: t) → P t → P (c :: t)) (t : Text) : P t := by
  refine segmentsFrom.induct (motive := fun _ t => P t) (fun _ => nil) ?_ ?_ ?_ [] t
  · intro _ body index name rest h _ ih
    exact marker body index name rest h ih
  · intro _ body h ih
    exact unmarked body h ih
  · intro _ c t h ih
    refine cons c t ?_ ih
    rintro ⟨body, heq⟩
    obtain ⟨rfl, rfl⟩ := List.cons.inj heq
    exact h body rfl rfl

/-- Pending characters are a literal in front of the segments. -/
theorem segmentsFrom_eq_lead (pending t : Text) :
    segmentsFrom pending t = lead pending.reverse (segments t) := by
  induction t using reading generalizing pending with
  | nil =>
    rw [segments, segmentsFrom_nil, segmentsFrom_nil]
    simp [flush, lead_empty]
  | marker body index name rest h ih =>
    rw [segments, segmentsFrom_marker h, segmentsFrom_marker h]
    simp [flush, lead_placeholder]
  | unmarked body h ih =>
    rw [segments, segmentsFrom_unmarked h, segmentsFrom_unmarked h, ih, ih ['{', '$']]
    simp
  | cons c t h ih =>
    rw [segments, segmentsFrom_cons h, segmentsFrom_cons h, ih, ih [c]]
    simp

@[simp] theorem segments_nil : segments [] = [] := by
  rw [segments, segmentsFrom_nil]; rfl

theorem segments_marker {body name rest : Text} {index : Nat}
    (h : marker? body = some (index, name, rest)) :
    segments ('$' :: '{' :: body) = .placeholder index name :: segments rest :=
  segmentsFrom_marker h

theorem segments_unmarked {body : Text} (h : marker? body = none) :
    segments ('$' :: '{' :: body) = lead ['$', '{'] (segments body) := by
  rw [segments, segmentsFrom_unmarked h, segmentsFrom_eq_lead]; rfl

theorem segments_cons {t : Text} {c : Char} (h : ¬ opensMarker (c :: t)) :
    segments (c :: t) = lead [c] (segments t) := by
  rw [segments, segmentsFrom_cons h, segmentsFrom_eq_lead]; rfl

/-- A skeleton is literal text up to its end or up to its first marker. -/
theorem segments_split (t : Text) :
    ∃ text, (t = text ∧ segments t = lead text []) ∨
      ∃ body index name rest, t = text ++ '$' :: '{' :: body ∧
        marker? body = some (index, name, rest) ∧
        segments t = lead text (.placeholder index name :: segments rest) := by
  induction t using reading with
  | nil => exact ⟨[], .inl ⟨rfl, by simp⟩⟩
  | marker body index name rest h ih =>
    exact ⟨[], .inr ⟨body, index, name, rest, rfl, h, by simp [segments_marker h]⟩⟩
  | unmarked body h ih =>
    obtain ⟨text, ⟨rfl, hsegs⟩ | ⟨body', index, name, rest, rfl, hm, hsegs⟩⟩ := ih
    · exact ⟨'$' :: '{' :: body, .inl ⟨rfl, by simp [segments_unmarked h, hsegs]⟩⟩
    · exact ⟨'$' :: '{' :: text, .inr ⟨body', index, name, rest, rfl, hm,
        by simp [segments_unmarked h, hsegs]⟩⟩
  | cons c t h ih =>
    obtain ⟨text, ⟨rfl, hsegs⟩ | ⟨body, index, name, rest, rfl, hm, hsegs⟩⟩ := ih
    · exact ⟨c :: t, .inl ⟨rfl, by simp [segments_cons h, hsegs]⟩⟩
    · exact ⟨c :: text, .inr ⟨body, index, name, rest, rfl, hm,
        by simp [segments_cons h, hsegs]⟩⟩

end Skeleton

end PromqlAssist
