import PromqlAssist.Proofs.Completion.Placement
import PromqlAssist.Proofs.Template.Spelling

/-!
# What completion sees of a text

The context of a cursor, and all that is made of it, depend on the text in front of the cursor only.
The values of a filled-in template are looked for on the whole line, but behind each of them the
line goes on, so that none is found at the end of a line. Text behind the cursor therefore matters
only through a placeholder that is recognised.
-/

namespace PromqlAssist

namespace PatternPart

open Text

/-- Whether a part is a character. -/
def isChar : PatternPart → Bool
  | .char _ => true
  | _ => false

/-- Whether a character comes behind every slot of a pattern, be it right behind or later. -/
def slotsFollowed : List PatternPart → Bool
  | [] => true
  | .slot _ :: parts => parts.any isChar && slotsFollowed parts
  | _ :: parts => slotsFollowed parts

variable {parts : List PatternPart} {captures : List Capture} {t u rest : Text} {n : Nat}

theorem Spells.ne_nil (h : Spells parts u) (hchar : parts.any isChar) : u ≠ [] := by
  induction h with
  | nil => cases hchar
  | char c ht ih => exact List.cons_ne_nil _ _
  | @run part p parts run t hpart hrun ht ih =>
    have hpart' : isChar part = false := by
      cases part with
      | char c => cases hpart
      | blanks => rfl
      | slot name => rfl
    rw [List.any_cons, hpart', Bool.false_or] at hchar
    exact List.append_ne_nil_of_right_ne_nil _ (ih hchar)

/-- A value ends in front of the end of the text. -/
theorem stop_lt_of_mem_matchAt? (hslots : slotsFollowed parts)
    (h : matchAt? parts n t = some (captures, rest)) :
    ∀ c ∈ captures, c.span.stop < n + size t := by
  induction parts generalizing n t captures with
  | nil =>
    obtain ⟨rfl, rfl⟩ := Prod.mk.inj (Option.some.inj h)
    simp
  | cons part parts ih =>
    cases part with
    | char d =>
      cases t with
      | nil => cases h
      | cons c t =>
        rw [matchAt?] at h
        split at h
        · rename_i hd
          subst hd
          rw [size_cons, ← Nat.add_assoc]
          exact ih hslots h
        · cases h
    | blanks =>
      obtain ⟨⟨run, later, left⟩, hrun, heq⟩ := Option.map_eq_some_iff.mp h
      obtain ⟨rfl, rfl⟩ := Prod.mk.inj heq
      obtain ⟨behind, rfl, -, hmatch⟩ := longestRun?_eq_some hrun
      intro c hc
      have hlt := ih hslots hmatch c hc
      rw [size_append] at hlt ⊢
      omega
    | slot name =>
      obtain ⟨hfollowed, hslots⟩ := Bool.and_eq_true_iff.mp hslots
      obtain ⟨⟨run, later, left⟩, hrun, heq⟩ := Option.map_eq_some_iff.mp h
      obtain ⟨rfl, rfl⟩ := Prod.mk.inj heq
      obtain ⟨behind, rfl, -, hmatch⟩ := longestRun?_eq_some hrun
      intro c hc
      rcases List.mem_cons.mp hc with rfl | hc
      · obtain ⟨u, rfl, hu⟩ := spells_of_matchAt? hmatch
        have hpos : 0 < size u :=
          Nat.pos_of_ne_zero fun hzero => hu.ne_nil hfollowed (size_eq_zero_iff.mp hzero)
        simp only [size_append]
        omega
      · have hlt := ih hslots hmatch c hc
        rw [size_append] at hlt ⊢
        omega

theorem stop_lt_of_mem_matchesFrom {skip : Nat} (hslots : slotsFollowed parts)
    (h : captures ∈ matchesFrom parts n skip t) : ∀ c ∈ captures, c.span.stop < n + size t := by
  obtain ⟨a, b, rest, rfl, hmatch⟩ := exists_of_mem_matchesFrom h
  intro c hc
  have hlt := stop_lt_of_mem_matchAt? hslots hmatch c hc
  rw [size_append]
  omega

end PatternPart

open Text

variable {vocabulary : Vocabulary} {t t' : Text} {cursor cursor' : Nat}

/-- No template on offer ends with a placeholder. -/
theorem Template.slotsFollowed_pattern {t : Template} (h : t ∈ builtin) :
    PatternPart.slotsFollowed t.pattern := by
  have hall : ∀ t ∈ builtin, PatternPart.slotsFollowed t.pattern := by
    simp only [builtin, List.forall_mem_cons, pattern, segments]
    -- The characters of a literal are known without decoding it.
    repeat rw [String.toList_ofList]
    decide +kernel
  exact hall t h

theorem stop_lineBounds_le (h : ∀ c ∈ (t.after cursor).head?, c = '\n') :
    (t.lineBounds cursor).stop ≤ cursor := by
  have hrest : (t.after cursor).takeWhile (· ≠ '\n') = [] := by
    cases hafter : t.after cursor with
    | nil => rfl
    | cons c rest => exact List.takeWhile_cons_of_neg (by simp [h c (by rw [hafter]; rfl)])
  rw [lineBounds, hrest]
  exact clamp_le t cursor

/-- No placeholder is found where only the end of the text or of the line follows. -/
theorem Placeholder.find?_eq_none (h : ∀ c ∈ (t.after cursor).head?, c = '\n') :
    find? t cursor = none := by
  cases hfind : find? t cursor with
  | none => rfl
  | some found =>
    obtain ⟨htouches, template, htemplate, front, line, rest, -, hbounds, captures, hcaptures,
      c, hc, hspan⟩ := exists_of_find? hfind
    have hstop := PatternPart.stop_lt_of_mem_matchesFrom
      (Template.slotsFollowed_pattern htemplate) hcaptures c hc
    have hline := stop_lineBounds_le h
    have htouched : cursor ≤ found.span.stop :=
      of_decide_eq_true (Bool.and_eq_true_iff.mp htouches).2
    rw [hbounds] at hline
    rw [hspan] at hstop
    exact absurd hstop (Nat.not_lt.mpr (Nat.le_trans hline htouched))

/-- What is made of the context is the same for texts that are the same in front of the cursor. -/
theorem Completion.ofContext_congr (h : t.before cursor = t'.before cursor') :
    ofContext vocabulary t cursor = ofContext vocabulary t' cursor' := by
  have hclamp : t.clamp cursor = t'.clamp cursor' := congrArg size h
  have htarget : ∀ context, target context t cursor = target context t' cursor' := by
    intro context
    unfold target wordBefore wordStart
    rw [h, hclamp]
  unfold ofContext Context.classify
  simp only [h, htarget]

@[simp] theorem Text.before_before (t : Text) (n : Nat) :
    (t.before n).before (t.clamp n) = t.before n := by
  have h := before_size_append (t.before n) []
  rwa [List.append_nil] at h

theorem Text.after_before (t : Text) (n : Nat) : (t.before n).after (t.clamp n) = [] := by
  have h := after_size_append (t.before n) []
  rwa [List.append_nil] at h

/-- If no placeholder with proposals is touched, the text behind the cursor can be cut off: the
proposals are the same. At the end of a line no placeholder is touched at all. -/
theorem complete_before (vocabulary : Vocabulary) (limit : Nat) (t : Text) (cursor : Nat) :
    (Placeholder.complete? vocabulary t (t.clamp cursor) = none →
      complete vocabulary limit t cursor =
        complete vocabulary limit (t.before cursor) (t.clamp cursor)) ∧
    ((∀ c ∈ (t.after cursor).head?, c = '\n') → Placeholder.find? t cursor = none) := by
  refine ⟨fun hnone => ?_, Placeholder.find?_eq_none⟩
  have hclamp : (t.before cursor).clamp (t.clamp cursor) = t.clamp cursor :=
    congrArg size (t.before_before cursor)
  have hcut : Placeholder.find? (t.before cursor) (t.clamp cursor) = none := by
    apply Placeholder.find?_eq_none
    rw [t.after_before cursor]
    simp
  have hcontext : Completion.ofContext vocabulary t cursor =
      Completion.ofContext vocabulary (t.before cursor) (t.clamp cursor) :=
    Completion.ofContext_congr (t.before_before cursor).symm
  rw [complete, complete, hclamp, hnone, hcontext, Placeholder.complete?, hcut]
  rfl

/-- A line filled in from a template, and the start of another one. -/
def instanceLine : Text :=
  "up\x7bjob=\"ab\"\x7d == 0\nf".toList

def scrapedJob : Placeholder :=
  ⟨Template.builtin[6], ⟨"job", .labelValue, "api", false⟩, ⟨8, 10⟩⟩

/-- A query in which the name of a function is being typed. -/
def typedFunction : Text :=
  "sum(ra + 1)".toList

/-- The label value of a template is a placeholder without proposals: what completion makes of a
cursor in it does not depend on the rest of the line. At the end of the line there is none. Behind
a word that is typed the context gives the proposals, and what follows the word does not change
them. -/
theorem complete_before_valueAndWord :
    (Placeholder.find? instanceLine 9 = some scrapedJob ∧
      Placeholder.complete? .builtin instanceLine 9 = none ∧
      complete .builtin 3 instanceLine 9 = complete .builtin 3 "up\x7bjob=\"a".toList 9) ∧
    Placeholder.find? instanceLine 17 = none ∧
    (Placeholder.complete? .builtin typedFunction 6 = none ∧
      (complete .builtin 3 typedFunction 6).map (fun p => (p.label, p.span)) =
        [("rate", ⟨4, 6⟩), ("irate", ⟨4, 6⟩), ("histogram_quantile", ⟨4, 6⟩)] ∧
      complete .builtin 3 typedFunction 6 = complete .builtin 3 "sum(ra".toList 6) := by
  have hfound : Placeholder.find? instanceLine 9 = some scrapedJob ∧
      Placeholder.find? typedFunction 6 = none := by
    decide +kernel
  obtain ⟨hfind, huntouched⟩ := hfound
  have hnone : Placeholder.complete? .builtin instanceLine 9 = none := by
    rw [Placeholder.complete?, hfind]
    decide +kernel
  have hafter : instanceLine.after 17 = ['\n', 'f'] := by decide +kernel
  have hcontext : Placeholder.complete? .builtin typedFunction 6 = none := by
    rw [Placeholder.complete?, huntouched]
    rfl
  have hsuggested : (complete .builtin 3 typedFunction 6).map (fun p => (p.label, p.span)) =
      [("rate", ⟨4, 6⟩), ("irate", ⟨4, 6⟩), ("histogram_quantile", ⟨4, 6⟩)] := by
    rw [complete, show typedFunction.clamp 6 = 6 by decide +kernel, hcontext]
    decide +kernel
  obtain ⟨hvalue, -⟩ := complete_before .builtin 3 instanceLine 9
  obtain ⟨-, hend⟩ := complete_before .builtin 3 instanceLine 17
  obtain ⟨hword, -⟩ := complete_before .builtin 3 typedFunction 6
  exact ⟨⟨hfind, hnone, hvalue hnone⟩, hend (by simp [hafter]),
    hcontext, hsuggested, hword hcontext⟩

end PromqlAssist
