import PromqlAssist.Proofs.Template.Segments
import PromqlAssist.Proofs.Text.CharClass
import PromqlAssist.Proofs.Text.Word
import PromqlAssist.Template.Builtin
import PromqlAssist.Template.Pattern

/-!
# Where the values of a filled-in template stand

Every captured value is a part of the text that was searched. In a pattern whose slots come behind
characters that end an identifier, no identifier reaches up to a value either.
-/

namespace PromqlAssist

namespace PatternPart

/-- Whether every slot of a pattern comes right behind a character that is no identifier character,
up to blanks. It is known of the text in front of the pattern if `apart` says so. -/
def slotsApart : Bool → List PatternPart → Bool
  | _, [] => true
  | _, .char c :: parts => slotsApart (!Text.isIdent c) parts
  | apart, .blanks :: parts => slotsApart apart parts
  | apart, .slot _ :: parts => apart && slotsApart false parts

/-- Whether a capture is a part of the text behind `front`, with no identifier up to it. -/
def Capture.Within (front t : Text) (c : Capture) : Prop :=
  ∃ a b d, front ++ t = a ++ (b ++ d) ∧ c.span = ⟨Text.size a, Text.size a + Text.size b⟩ ∧
    Text.ClosesWord a

open Text

variable {front t run rest : Text} {parts : List PatternPart} {captures : List Capture}
variable {apart : Bool}

theorem longestRun?_eq_some {β : Type} {p : Char → Bool} {k : Text → Option β} {b : β}
    (h : longestRun? p k t = some (run, b)) :
    ∃ rest, t = run ++ rest ∧ (∀ c ∈ run, p c) ∧ k rest = some b := by
  induction t generalizing run with
  | nil =>
    obtain ⟨b', hk, heq⟩ := Option.map_eq_some_iff.mp h
    obtain ⟨rfl, rfl⟩ := Prod.mk.inj heq
    exact ⟨[], rfl, by simp, hk⟩
  | cons c t ih =>
    have stop : (k (c :: t)).map (fun b => (([] : Text), b)) = some (run, b) →
        ∃ rest, c :: t = run ++ rest ∧ (∀ c ∈ run, p c) ∧ k rest = some b := by
      intro hstop
      obtain ⟨b', hk, heq⟩ := Option.map_eq_some_iff.mp hstop
      obtain ⟨rfl, rfl⟩ := Prod.mk.inj heq
      exact ⟨c :: t, rfl, by simp, hk⟩
    rw [longestRun?] at h
    split at h
    · rename_i hc
      split at h
      · rename_i run' b' hrun
        obtain ⟨rfl, rfl⟩ := Prod.mk.inj (Option.some.inj h)
        obtain ⟨rest, rfl, hrun', hk⟩ := ih hrun
        exact ⟨rest, rfl, by simpa [hc] using hrun', hk⟩
      · exact stop h
    · exact stop h

/-- What a run leaves tells its size. -/
theorem matched_size (front run rest : Text) :
    size front + (size (run ++ rest) - size rest) = size (front ++ run) := by
  simp

theorem Capture.Within.of_append {c : Capture} (h : c.Within (front ++ run) t) :
    c.Within front (run ++ t) := by
  obtain ⟨a, b, d, heq, hspan, ha⟩ := h
  exact ⟨a, b, d, by rw [← List.append_assoc, heq], hspan, ha⟩

theorem closesWord_append_blanks (h : ClosesWord front) (hrun : ∀ c ∈ run, isBlank c) :
    ClosesWord (front ++ run) := by
  intro c hc
  cases hlast : run.getLast? with
  | none =>
    obtain rfl := List.getLast?_eq_none_iff.mp hlast
    exact h c (by simpa using hc)
  | some d =>
    obtain rfl : d = c := by simpa [hlast] using hc
    cases hident : isIdent d with
    | false => rfl
    | true => rw [← isBlank_of_isIdent hident, hrun d (List.mem_of_getLast? hlast)]

/-- A match captures parts of its text. -/
theorem within_of_mem_matchAt? (hslots : slotsApart apart parts)
    (hfront : apart = true → ClosesWord front)
    (h : matchAt? parts (size front) t = some (captures, rest)) :
    ∀ c ∈ captures, c.Within front t := by
  induction parts generalizing front apart t captures with
  | nil =>
    obtain ⟨rfl, rfl⟩ := Prod.mk.inj (Option.some.inj h)
    simp
  | cons part parts ih =>
    cases part with
    | char d =>
      cases t with
      | nil => cases h
      | cons c t =>
        rw [matchAt?] at h
        split at h
        · rename_i hd
          subst hd
          have hnext : (!isIdent d) = true → ClosesWord (front ++ [d]) := by
            intro hident c hc
            obtain rfl : d = c := by simpa using hc
            simpa using hident
          have hsize : size front + d.utf8Size = size (front ++ [d]) := by simp
          rw [hsize] at h
          intro c hc
          exact (ih hslots hnext h c hc).of_append
        · cases h
    | blanks =>
      obtain ⟨⟨run, result⟩, hrun, rfl⟩ := Option.map_eq_some_iff.mp h
      obtain ⟨rest, rfl, hblank, hmatch⟩ := longestRun?_eq_some hrun
      rw [matched_size] at hmatch
      intro c hc
      exact (ih hslots (fun ha => closesWord_append_blanks (hfront ha) hblank) hmatch c hc).of_append
    | slot name =>
      obtain ⟨hapart, hslots⟩ := Bool.and_eq_true_iff.mp hslots
      obtain ⟨⟨run, later, left⟩, hrun, heq⟩ := Option.map_eq_some_iff.mp h
      obtain ⟨rfl, rfl⟩ := Prod.mk.inj heq
      obtain ⟨rest, rfl, -, hmatch⟩ := longestRun?_eq_some hrun
      rw [matched_size] at hmatch
      intro c hc
      rcases List.mem_cons.mp hc with rfl | hc
      · exact ⟨front, run, rest, rfl, rfl, hfront hapart⟩
      · exact (ih hslots (by simp) hmatch c hc).of_append

/-- Every match in a text is a match at some place of it. -/
theorem exists_of_mem_matchesFrom {n skip : Nat} (h : captures ∈ matchesFrom parts n skip t) :
    ∃ a b rest, t = a ++ b ∧ matchAt? parts (n + size a) b = some (captures, rest) := by
  induction t generalizing n skip with
  | nil =>
    rw [matchesFrom] at h
    split at h
    · obtain ⟨⟨_, rest⟩, hmatch, rfl⟩ := Option.map_eq_some_iff.mp (Option.mem_toList.mp h)
      exact ⟨[], [], rest, rfl, hmatch⟩
    · cases h
  | cons c t ih =>
    have later : ∀ {skip : Nat}, captures ∈ matchesFrom parts (n + c.utf8Size) skip t →
        ∃ a b rest, c :: t = a ++ b ∧ matchAt? parts (n + size a) b = some (captures, rest) := by
      intro skip hmem
      obtain ⟨a, b, rest, rfl, hmatch⟩ := ih hmem
      refine ⟨c :: a, b, rest, rfl, ?_⟩
      rwa [size_cons, ← Nat.add_assoc]
    cases skip with
    | succ skip => exact later h
    | zero =>
      rw [matchesFrom] at h
      split at h
      · rename_i first rest hmatch
        rcases List.mem_cons.mp h with rfl | h
        · exact ⟨[], c :: t, rest, rfl, hmatch⟩
        · exact later h
      · exact later h

/-- So all matches of a pattern in a text capture parts of it. -/
theorem within_of_mem_matchesFrom {skip : Nat} (hslots : slotsApart false parts)
    (h : captures ∈ matchesFrom parts (size front) skip t) :
    ∀ c ∈ captures, c.Within front t := by
  obtain ⟨a, b, rest, rfl, hmatch⟩ := exists_of_mem_matchesFrom h
  rw [← size_append] at hmatch
  intro c hc
  exact (within_of_mem_matchAt? hslots (by simp) hmatch c hc).of_append

/-- Whether a capture is a run of value characters of a text at offset `n`. -/
def Capture.IsRun (n : Nat) (t : Text) (c : Capture) : Prop :=
  ∃ a b d, t = a ++ (b ++ d) ∧ c.span = ⟨n + size a, n + size a + size b⟩ ∧
    ∀ x ∈ b, Template.isValueChar x

theorem Capture.IsRun.of_append {n : Nat} {c : Capture} (h : c.IsRun (n + size run) t) :
    c.IsRun n (run ++ t) := by
  obtain ⟨a, b, d, rfl, hspan, hb⟩ := h
  refine ⟨run ++ a, b, d, (List.append_assoc ..).symm, ?_, hb⟩
  rw [hspan, size_append]
  simp only [Nat.add_assoc]

end PatternPart

namespace Template

open Text PatternPart

variable {text t : Text} {c : Char} {apart : Bool} {parts : List PatternPart}

/-- Whether text that is apart from an identifier, or is not, is so behind one more character. -/
def staysApart (apart : Bool) (c : Char) : Bool :=
  if isBlank c then apart else !isIdent c

/-- The pattern of the segments of a skeleton. -/
def partsOf (segs : List Segment) : List PatternPart :=
  segs.flatMap fun
    | .literal text => literalParts text
    | .placeholder _ name => [.slot name]

theorem slotsApart_literalParts_cons (apart : Bool) (c : Char) (text : Text)
    (parts : List PatternPart) : slotsApart apart (literalParts (c :: text) ++ parts) =
      slotsApart (staysApart apart c) (literalParts text ++ parts) := by
  cases text with
  | nil => by_cases hc : isBlank c <;> simp [literalParts, staysApart, slotsApart, hc]
  | cons d text =>
    by_cases hc : isBlank c
    · by_cases hd : isBlank d <;> simp [literalParts, staysApart, slotsApart, hc, hd]
    · simp [literalParts, staysApart, slotsApart, hc]

theorem slotsApart_literalParts (apart : Bool) (text : Text) (parts : List PatternPart) :
    slotsApart apart (literalParts text ++ parts) = slotsApart (text.foldl staysApart apart) parts := by
  induction text generalizing apart with
  | nil => rfl
  | cons c text ih => rw [slotsApart_literalParts_cons, ih, List.foldl_cons]

theorem slotsApart_literal (apart : Bool) (text : Text) (segs : List Segment) :
    slotsApart apart (partsOf (.literal text :: segs)) =
      slotsApart (text.foldl staysApart apart) (partsOf segs) := by
  rw [partsOf, List.flatMap_cons]
  exact slotsApart_literalParts apart text (partsOf segs)

theorem slotsApart_lead (apart : Bool) (text : Text) (segs : List Segment) :
    slotsApart apart (partsOf (Skeleton.lead text segs)) =
      slotsApart (text.foldl staysApart apart) (partsOf segs) := by
  rcases segs with _ | ⟨t | ⟨index, name⟩, segs⟩
  · cases text with
    | nil => rfl
    | cons c text => exact slotsApart_literal apart (c :: text) []
  · rw [Skeleton.lead_literal, slotsApart_literal, slotsApart_literal, List.foldl_append]
  · cases text with
    | nil => rfl
    | cons c text => exact slotsApart_literal apart (c :: text) (.placeholder index name :: segs)

theorem slotsApart_mono (h : slotsApart false parts) : slotsApart apart parts := by
  cases apart with
  | false => exact h
  | true =>
    induction parts with
    | nil => rfl
    | cons part parts ih =>
      cases part with
      | char c => exact h
      | blanks => exact ih h
      | slot name => cases h

/-- The same of a skeleton's text. A closing brace may end a marker, so it does not count. -/
def braceApart (apart : Bool) (c : Char) : Bool :=
  c ≠ '}' && staysApart apart c

/-- Whether every dollar sign of a skeleton is apart from what is in front of it. -/
def dollarsApart : Bool → Text → Bool
  | _, [] => true
  | apart, c :: t => (c ≠ '$' || apart) && dollarsApart (braceApart apart c) t

theorem dollarsApart_of_append {s : Text} (h : dollarsApart apart (s ++ t)) :
    dollarsApart (s.foldl braceApart apart) t := by
  induction s generalizing apart with
  | nil => exact h
  | cons c s ih => exact ih (Bool.and_eq_true_iff.mp h).2

/-- A slot of the pattern is apart if the dollar sign of its marker is. -/
theorem slotsApart_segments (h : dollarsApart apart t) :
    slotsApart apart (partsOf (Skeleton.segments t)) := by
  induction t using Skeleton.reading generalizing apart with
  | nil => rw [Skeleton.segments_nil]; rfl
  | marker body index name rest hmarker ih =>
    obtain ⟨digits, rfl, -⟩ := Skeleton.marker?_eq_some_iff.mp hmarker
    have hapart : apart = true := by simpa using (Bool.and_eq_true_iff.mp h).1
    have hrest : dollarsApart false rest := by
      have hbehind : dollarsApart apart
          (('$' :: '{' :: (digits ++ ':' :: (name ++ ['}']))) ++ rest) := by simpa using h
      simpa [braceApart] using dollarsApart_of_append hbehind
    rw [Skeleton.segments_marker hmarker, hapart]
    exact ih hrest
  | unmarked body hmarker ih =>
    have hbody : dollarsApart true body :=
      dollarsApart_of_append (s := ['$', '{']) h
    rw [Skeleton.segments_unmarked hmarker, slotsApart_lead]
    exact ih hbody
  | cons c t hopens ih =>
    have ht : dollarsApart (braceApart apart c) t := (Bool.and_eq_true_iff.mp h).2
    rw [Skeleton.segments_cons hopens, slotsApart_lead]
    by_cases hc : c = '}'
    · subst hc
      exact slotsApart_mono (ih ht)
    · simpa [braceApart, hc] using ih ht

/-- Every placeholder of the templates on offer stands behind a bracket, a quote, a comma, a sign or
a slash. -/
theorem slotsApart_pattern {t : Template} (h : t ∈ builtin) : slotsApart false t.pattern := by
  have hall : ∀ t ∈ builtin, dollarsApart false t.skeleton.toList := by
    simp only [builtin, List.forall_mem_cons]
    -- The characters of a literal are known without decoding it.
    refine ⟨?_, ?_, ?_, ?_, ?_, ?_, ?_, by simp⟩ <;> rw [String.toList_ofList] <;> decide
  exact slotsApart_segments (hall t h)

end Template

end PromqlAssist
