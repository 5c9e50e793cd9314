import PromqlAssist.Proofs.Template.Pattern

/-!
# What a pattern spells

A pattern spells the texts that it matches as a whole, and what a match reads is spelled by its
pattern. So a pattern has no match in what another one spells if no text of the one occurs in a text
of the other. This can be decided part by part: while the parts of the first are read, it is tracked
what can be left of the second. The templates on offer are told apart in this way.
-/

namespace PromqlAssist

namespace PatternPart

open Text

/-- The characters that a part of any length takes. -/
def runClass? : PatternPart → Option (Char → Bool)
  | .char _ => none
  | .blanks => some isBlank
  | .slot _ => some Template.isValueChar

/-- The texts that a pattern matches as a whole. -/
inductive Spells : List PatternPart → Text → Prop
  | nil : Spells [] []
  | char (c : Char) {parts : List PatternPart} {t : Text} (ht : Spells parts t) :
      Spells (.char c :: parts) (c :: t)
  | run {part : PatternPart} {p : Char → Bool} {parts : List PatternPart} {run t : Text}
      (hpart : part.runClass? = some p) (hrun : ∀ c ∈ run, p c) (ht : Spells parts t) :
      Spells (part :: parts) (run ++ t)

variable {parts others state : List PatternPart} {states : List (List PatternPart)}
variable {t u run rest : Text} {c : Char} {p : Char → Bool} {n : Nat} {captures : List Capture}

/-- A match reads what its pattern spells. -/
theorem spells_of_matchAt? (h : matchAt? parts n t = some (captures, rest)) :
    ∃ u, t = u ++ rest ∧ Spells parts u := by
  induction parts generalizing n t captures with
  | nil =>
    obtain ⟨rfl, rfl⟩ := Prod.mk.inj (Option.some.inj h)
    exact ⟨[], rfl, .nil⟩
  | cons part parts ih =>
    cases part with
    | char d =>
      cases t with
      | nil => cases h
      | cons c t =>
        rw [matchAt?] at h
        split at h
        · rename_i hd
          obtain ⟨u, rfl, hu⟩ := ih h
          exact ⟨c :: u, rfl, hd ▸ .char d hu⟩
        · cases h
    | blanks =>
      obtain ⟨⟨run, later, left⟩, hrun, heq⟩ := Option.map_eq_some_iff.mp h
      obtain ⟨rfl, rfl⟩ := Prod.mk.inj heq
      obtain ⟨behind, rfl, hblank, hmatch⟩ := longestRun?_eq_some hrun
      obtain ⟨u, rfl, hu⟩ := ih hmatch
      exact ⟨run ++ u, by rw [List.append_assoc], .run rfl hblank hu⟩
    | slot name =>
      obtain ⟨⟨run, later, left⟩, hrun, heq⟩ := Option.map_eq_some_iff.mp h
      obtain ⟨rfl, rfl⟩ := Prod.mk.inj heq
      obtain ⟨behind, rfl, hvalue, hmatch⟩ := longestRun?_eq_some hrun
      obtain ⟨u, rfl, hu⟩ := ih hmatch
      exact ⟨run ++ u, by rw [List.append_assoc], .run rfl hvalue hu⟩

/-! ## Reading one pattern with another -/

/-- What can be left of a pattern behind a character that it reads. -/
def afterChar (c : Char) : List PatternPart → List (List PatternPart)
  | [] => []
  | part :: parts =>
    match part.runClass? with
    | some p => (if p c then [part :: parts] else []) ++ afterChar c parts
    | none => if part = .char c then [parts] else []

/-- What can be left of a pattern behind characters of a class that it reads. -/
def afterRun (p : Char → Bool) : List PatternPart → List (List PatternPart)
  | [] => [[]]
  | .char c :: parts => (.char c :: parts) :: if p c then afterRun p parts else []
  | part :: parts => (part :: parts) :: afterRun p parts

/-- What can be left of a pattern behind what a part reads. -/
def afterPart : PatternPart → List PatternPart → List (List PatternPart)
  | .char c => afterChar c
  | .blanks => afterRun isBlank
  | .slot _ => afterRun Template.isValueChar

/-- What can be left, of one of several patterns, behind what a pattern reads. -/
def leftBehind (parts : List PatternPart) (states : List (List PatternPart)) :
    List (List PatternPart) :=
  parts.foldl (fun states part => states.flatMap part.afterPart) states

/-- Whether no text of the first pattern occurs in one of the second. -/
def Apart (parts others : List PatternPart) : Prop :=
  leftBehind parts (afterRun (fun _ => true) others) = []

instance (parts others : List PatternPart) : Decidable (Apart parts others) :=
  inferInstanceAs (Decidable (_ = _))

theorem Spells.afterChar (h : Spells parts (c :: t)) :
    ∃ state ∈ afterChar c parts, Spells state t := by
  generalize hu : c :: t = u at h
  induction h with
  | nil => cases hu
  | char d ht =>
    obtain ⟨rfl, rfl⟩ := List.cons.inj hu
    exact ⟨_, by simp [PatternPart.afterChar, runClass?], ht⟩
  | @run part p parts run behind hpart hrun ht ih =>
    rw [PatternPart.afterChar, hpart]
    cases run with
    | nil =>
      obtain ⟨state, hmem, hstate⟩ := ih hu
      exact ⟨state, List.mem_append_right _ hmem, hstate⟩
    | cons d run =>
      obtain ⟨rfl, rfl⟩ := List.cons.inj hu
      have hc : p c := hrun c List.mem_cons_self
      refine ⟨part :: parts, List.mem_append_left _ (by simp [hc]), .run hpart ?_ ht⟩
      intro d hd
      exact hrun d (List.mem_cons_of_mem c hd)

theorem mem_afterRun_self (p : Char → Bool) (parts : List PatternPart) :
    parts ∈ afterRun p parts := by
  rcases parts with _ | ⟨_ | _ | _, parts⟩ <;> exact List.mem_cons_self

theorem afterRun_of_runClass? {part : PatternPart} {q : Char → Bool}
    (hpart : part.runClass? = some q) :
    afterRun p (part :: parts) = (part :: parts) :: afterRun p parts := by
  cases part with
  | char c => cases hpart
  | blanks => rfl
  | slot name => rfl

theorem afterPart_of_runClass? {part : PatternPart} (hpart : part.runClass? = some p) :
    part.afterPart = afterRun p := by
  cases part with
  | char c => cases hpart
  | blanks =>
    obtain rfl := Option.some.inj hpart
    rfl
  | slot name =>
    obtain rfl := Option.some.inj hpart
    rfl

theorem Spells.afterRun (hrun : ∀ c ∈ run, p c) (h : Spells parts (run ++ t)) :
    ∃ state ∈ afterRun p parts, Spells state t := by
  generalize hu : run ++ t = u at h
  induction h generalizing run with
  | nil =>
    obtain ⟨rfl, rfl⟩ := List.append_eq_nil_iff.mp hu
    exact ⟨[], List.mem_cons_self, .nil⟩
  | @char d parts u ht ih =>
    cases run with
    | nil =>
      obtain rfl : t = d :: u := hu
      exact ⟨_, mem_afterRun_self p _, .char d ht⟩
    | cons c run =>
      obtain ⟨rfl, rfl⟩ := List.cons.inj hu
      obtain ⟨state, hmem, hstate⟩ := ih (fun e he => hrun e (List.mem_cons_of_mem c he)) rfl
      refine ⟨state, ?_, hstate⟩
      rw [PatternPart.afterRun, if_pos (hrun c List.mem_cons_self)]
      exact List.mem_cons_of_mem _ hmem
  | @run part q parts lead behind hpart hlead ht ih =>
    rw [afterRun_of_runClass? hpart]
    obtain ⟨m, rfl, rfl⟩ | ⟨m, rfl, rfl⟩ := List.append_eq_append_iff.mp hu
    · refine ⟨_, List.mem_cons_self, .run hpart ?_ ht⟩
      intro c hc
      exact hlead c (List.mem_append_right run hc)
    · obtain ⟨state, hmem, hstate⟩ := ih (fun c hc => hrun c (List.mem_append_right lead hc)) rfl
      exact ⟨state, List.mem_cons_of_mem _ hmem, hstate⟩

/-- What is left of a pattern spells what is left of its text. -/
theorem leftBehind_ne_nil (hu : Spells parts u) (hmem : state ∈ states)
    (hstate : Spells state (u ++ t)) : leftBehind parts states ≠ [] := by
  induction hu generalizing state states with
  | nil => exact List.ne_nil_of_mem hmem
  | char c ht ih =>
    obtain ⟨next, hnext, hleft⟩ := hstate.afterChar
    exact ih (List.mem_flatMap.mpr ⟨state, hmem, hnext⟩) hleft
  | @run part p parts run behind hpart hrun ht ih =>
    rw [List.append_assoc] at hstate
    obtain ⟨next, hnext, hleft⟩ := hstate.afterRun hrun
    rw [← afterPart_of_runClass? hpart] at hnext
    exact ih (List.mem_flatMap.mpr ⟨state, hmem, hnext⟩) hleft

/-- No text of a pattern occurs in a text of another one that is apart. -/
theorem Apart.not_spells (h : Apart parts others) (hu : Spells parts u) (front t : Text) :
    ¬ Spells others (front ++ (u ++ t)) := by
  intro hothers
  obtain ⟨state, hmem, hstate⟩ := hothers.afterRun (p := fun _ => true) fun _ _ => rfl
  exact leftBehind_ne_nil hu hmem hstate h

/-- A pattern has no match in a text of another one that is apart. -/
theorem Apart.matchesFrom_eq_nil (h : Apart parts others) (ht : Spells others t) (n skip : Nat) :
    matchesFrom parts n skip t = [] := by
  apply List.eq_nil_iff_forall_not_mem.mpr
  intro captures hmem
  obtain ⟨front, s, rest, rfl, hmatch⟩ := exists_of_mem_matchesFrom hmem
  obtain ⟨u, rfl, hu⟩ := spells_of_matchAt? hmatch
  exact h.not_spells hu front rest ht

end PatternPart

namespace Template

/-- No text of a template occurs in a text of a template behind it. -/
theorem apart_builtin : (builtin.map pattern).Pairwise PatternPart.Apart := by
  simp only [builtin, List.map_cons, List.map_nil, pattern, segments]
  -- The characters of a literal are known without decoding it.
  repeat rw [String.toList_ofList]
  decide +kernel

end Template

end PromqlAssist
