import PromqlAssist.Proofs.Template.Snippet
import PromqlAssist.Proofs.Template.Spelling

/-!
# A template recognises what it is filled with

Where every run of a pattern ends at a character outside its class, the longest runs are the only
ones to try: the pattern matches its text as a whole, and each slot captures one run. The segments
of the templates on offer are of this kind for all values that are not empty and hold nothing but
value characters, since a character that no value holds comes behind every placeholder.
-/

namespace PromqlAssist

open Text

namespace PatternPart

/-- How a pattern reads a text at offset `n` with runs that cannot be longer, and what it captures
on the way. -/
inductive Reads : List PatternPart → Nat → Text → List Capture → Prop
  | nil (n : Nat) : Reads [] n [] []
  | char (c : Char) {parts : List PatternPart} {n : Nat} {t : Text} {captures : List Capture}
      (ht : Reads parts (n + c.utf8Size) t captures) :
      Reads (.char c :: parts) n (c :: t) captures
  | blanks {parts : List PatternPart} {n : Nat} {run t : Text} {captures : List Capture}
      (hrun : ∀ c ∈ run, isBlank c) (hend : ∀ c ∈ t.head?, isBlank c = false)
      (ht : Reads parts (n + size run) t captures) :
      Reads (.blanks :: parts) n (run ++ t) captures
  | slot (name : Text) {parts : List PatternPart} {n : Nat} {run t : Text}
      {captures : List Capture} (hrun : ∀ c ∈ run, Template.isValueChar c)
      (hend : ∀ c ∈ t.head?, Template.isValueChar c = false)
      (ht : Reads parts (n + size run) t captures) :
      Reads (.slot name :: parts) n (run ++ t) (⟨name, ⟨n, n + size run⟩⟩ :: captures)

variable {parts : List PatternPart} {captures : List Capture} {t run rest : Text} {c : Char}
variable {n : Nat}

/-- The longest run is taken if what follows succeeds behind it. -/
theorem longestRun?_append {β : Type} {p : Char → Bool} {k : Text → Option β} {b : β}
    (hrun : ∀ c ∈ run, p c) (hend : ∀ c ∈ t.head?, p c = false) (hk : k t = some b) :
    longestRun? p k (run ++ t) = some (run, b) := by
  induction run with
  | nil =>
    cases t with
    | nil => simp [longestRun?, hk]
    | cons c t => simp [longestRun?, hend c rfl, hk]
  | cons c run ih =>
    rw [List.cons_append, longestRun?, if_pos (hrun c List.mem_cons_self),
      ih fun d hd => hrun d (List.mem_cons_of_mem c hd)]

theorem Reads.matchAt? (h : Reads parts n t captures) :
    matchAt? parts n t = some (captures, []) := by
  induction h with
  | nil n => rfl
  | char c ht ih => rw [PatternPart.matchAt?, if_pos rfl, ih]
  | @blanks parts n run t captures hrun hend ht ih =>
    have hsize : n + (size (run ++ t) - size t) = n + size run := by simp
    rw [PatternPart.matchAt?, longestRun?_append hrun hend (hsize ▸ ih)]
    rfl
  | @slot name parts n run t captures hrun hend ht ih =>
    have hsize : n + (size (run ++ t) - size t) = n + size run := by simp
    rw [PatternPart.matchAt?, longestRun?_append hrun hend (hsize ▸ ih)]
    rfl

theorem Reads.spells (h : Reads parts n t captures) : Spells parts t := by
  induction h with
  | nil n => exact .nil
  | char c ht ih => exact .char c ih
  | blanks hrun hend ht ih => exact .run rfl hrun ih
  | slot name hrun hend ht ih => exact .run rfl hrun ih

/-- A match at the start of a text is the first one. -/
theorem matchesFrom_of_matchAt? (h : PatternPart.matchAt? parts n t = some (captures, rest)) :
    ∃ later, matchesFrom parts n 0 t = captures :: later := by
  cases t with
  | nil => exact ⟨[], by simp [matchesFrom, h]⟩
  | cons c t =>
    rw [matchesFrom, h]
    exact ⟨_, rfl⟩

/-- No blanks are read where none is. -/
theorem Reads.skip_blanks (hend : ∀ c ∈ t.head?, isBlank c = false)
    (ht : Reads parts n t captures) : Reads (.blanks :: parts) n t captures :=
  .blanks (List.forall_mem_nil _) hend ht

theorem Reads.cons_blank (hc : isBlank c)
    (h : Reads (.blanks :: parts) (n + c.utf8Size) t captures) :
    Reads (.blanks :: parts) n (c :: t) captures := by
  cases h with
  | @blanks _ _ run t _ hrun hend ht =>
    have hblank : ∀ d ∈ c :: run, isBlank d := by
      intro d hd
      rcases List.mem_cons.mp hd with rfl | hd
      · exact hc
      · exact hrun d hd
    rw [Nat.add_assoc, ← size_cons] at ht
    exact .blanks hblank hend ht

end PatternPart

namespace Template

open PatternPart Snippet

/-- What a placeholder is filled with. -/
structure IsValue (v : Text) : Prop where
  ne_nil : v ≠ []
  isValueChar_of_mem : ∀ c ∈ v, isValueChar c

variable {value : Text → Text} {segs front behind : List Segment} {parts : List PatternPart}
variable {captures : List Capture} {text t name : Text} {c : Char} {n index : Nat}

instance (v : Text) : Decidable (IsValue v) :=
  decidable_of_iff (v ≠ [] ∧ ∀ c ∈ v, isValueChar c) <| by
    constructor
    · rintro ⟨hne, hchars⟩
      exact ⟨hne, hchars⟩
    · rintro ⟨hne, hchars⟩
      exact ⟨hne, hchars⟩

/-- Values with another one for a name. -/
def withValue (value : Text → Text) (name new : Text) : Text → Text :=
  fun name' => if name' = name then new else value name'

theorem isBlank_of_isValueChar (h : isValueChar c) : isBlank c = false := by
  cases hc : isBlank c with
  | false => rfl
  | true => simp [isValueChar, hc] at h

theorem isValueChar_of_isIdent (h : isIdent c) : isValueChar c := by
  cases hc : isValueChar c with
  | true => rfl
  | false =>
    simp only [isValueChar, isBlank_of_isIdent h, Bool.not_eq_false', Bool.or_eq_true,
      Bool.false_eq_true, false_or, decide_eq_true_eq] at hc
    rcases hc with ((((((rfl | rfl) | rfl) | rfl) | rfl) | rfl) | rfl) | rfl
    all_goals exact absurd h (by decide)

theorem literalParts_of_isBlank (hc : isBlank c) (text : Text) :
    ∃ parts, literalParts (c :: text) = .blanks :: parts := by
  induction text generalizing c with
  | nil => exact ⟨[], by simp [literalParts, hc]⟩
  | cons d text ih =>
    by_cases hd : isBlank d
    · obtain ⟨parts, hparts⟩ := ih hd
      exact ⟨parts, by simp [literalParts, hc, hd, hparts]⟩
    · exact ⟨_, by simp [literalParts, hc, hd]; rfl⟩

/-- Literal text is read by its parts, if what comes behind it does not start with a blank. -/
theorem reads_literalParts (hend : ∀ c ∈ t.head?, isBlank c = false)
    (ht : Reads parts (n + size text) t captures) :
    Reads (literalParts text ++ parts) n (text ++ t) captures := by
  induction text generalizing n with
  | nil => exact ht
  | cons c text ih =>
    rw [size_cons, ← Nat.add_assoc] at ht
    have hrest := ih ht
    by_cases hc : isBlank c
    · cases text with
      | nil =>
        have hparts : literalParts [c] = [.blanks] := by simp [literalParts, hc]
        rw [hparts]
        exact (hrest.skip_blanks hend).cons_blank hc
      | cons d text =>
        by_cases hd : isBlank d
        · -- Both characters belong to one run.
          obtain ⟨later, hlater⟩ := literalParts_of_isBlank hd text
          have hparts : literalParts (c :: d :: text) = literalParts (d :: text) := by
            simp [literalParts, hc, hd]
          rw [hparts, hlater]
          rw [hlater] at hrest
          exact hrest.cons_blank hc
        · have hparts : literalParts (c :: d :: text) = .blanks :: literalParts (d :: text) := by
            simp [literalParts, hc, hd]
          have hnext : ∀ e ∈ (d :: text ++ t).head?, isBlank e = false := by
            intro e he
            obtain rfl := Option.some.inj he
            simpa using hd
          rw [hparts]
          exact (hrest.skip_blanks hnext).cons_blank hc
    · have hparts : literalParts (c :: text) = .char c :: literalParts text := by
        cases text <;> simp [literalParts, hc]
      rw [hparts]
      exact .char c hrest

/-! ## The segments of a template -/

/-- Whether segments end the value in front of them: they start with a character that no value
holds, or there are none. -/
def endsValue : List Segment → Bool
  | [] => true
  | .literal (c :: _) :: _ => !isValueChar c
  | _ => false

/-- Whether segments end the blanks in front of them: they start with a placeholder, or there are
none. -/
def endsBlanks : List Segment → Bool
  | .literal _ :: _ => false
  | _ => true

/-- Whether all values and all blanks are ended by what comes behind them. -/
def separated : List Segment → Bool
  | [] => true
  | .literal _ :: segs => endsBlanks segs && separated segs
  | .placeholder _ _ :: segs => endsValue segs && separated segs

/-- The values of filled-in segments at offset `n` with their spans. -/
def capturesFrom (value : Text → Text) : Nat → List Segment → List Capture
  | _, [] => []
  | n, .literal text :: segs => capturesFrom value (n + size text) segs
  | n, .placeholder _ name :: segs =>
    ⟨name, ⟨n, n + size (value name)⟩⟩ :: capturesFrom value (n + size (value name)) segs

/-- The names of placeholders. -/
def names : List Segment → List Text
  | [] => []
  | .literal _ :: segs => names segs
  | .placeholder _ name :: segs => name :: names segs

theorem names_append (front behind : List Segment) :
    names (front ++ behind) = names front ++ names behind := by
  induction front with
  | nil => rfl
  | cons s front ih =>
    cases s with
    | literal text => exact ih
    | placeholder index name => exact congrArg (name :: ·) ih

/-- Another value for a name changes nothing where the name does not occur. -/
theorem filled_withValue (h : name ∉ names segs) (value : Text → Text) (new : Text) :
    segs.flatMap (filled (withValue value name new)) = segs.flatMap (filled value) := by
  induction segs with
  | nil => rfl
  | cons s segs ih =>
    cases s with
    | literal text => rw [List.flatMap_cons, List.flatMap_cons, ih h]; rfl
    | placeholder index name' =>
      have hmem : name ∉ name' :: names segs := h
      rw [List.mem_cons, not_or] at hmem
      obtain ⟨hne, hrest⟩ := hmem
      rw [List.flatMap_cons, List.flatMap_cons, ih hrest, filled, filled, withValue,
        if_neg (Ne.symm hne)]

theorem exists_append_of_mem_names (h : name ∈ names segs) :
    ∃ front index behind, segs = front ++ .placeholder index name :: behind := by
  induction segs with
  | nil => cases h
  | cons s segs ih =>
    cases s with
    | literal text =>
      obtain ⟨front, index, behind, rfl⟩ := ih h
      exact ⟨.literal text :: front, index, behind, rfl⟩
    | placeholder index name' =>
      rcases List.mem_cons.mp h with rfl | h
      · exact ⟨[], index, segs, rfl⟩
      · obtain ⟨front, index', behind, rfl⟩ := ih h
        exact ⟨.placeholder index name' :: front, index', behind, rfl⟩

theorem head_of_endsValue (h : endsValue segs) (value : Text → Text) :
    ∀ c ∈ (segs.flatMap (filled value)).head?, isValueChar c = false := by
  rcases segs with _ | ⟨⟨_ | ⟨d, text⟩⟩ | ⟨index, name⟩, segs⟩
  · intro c hc
    cases hc
  · cases h
  · intro c hc
    obtain rfl : d = c := Option.some.inj hc
    simpa [endsValue] using h
  · cases h

theorem head_of_endsBlanks (h : endsBlanks segs)
    (hvalue : ∀ name ∈ names segs, IsValue (value name)) :
    ∀ c ∈ (segs.flatMap (filled value)).head?, isBlank c = false := by
  rcases segs with _ | ⟨text | ⟨index, name⟩, segs⟩
  · intro c hc
    cases hc
  · cases h
  · intro c hc
    have hv := hvalue name List.mem_cons_self
    apply isBlank_of_isValueChar
    apply hv.isValueChar_of_mem
    rw [List.flatMap_cons, filled, List.head?_append_of_ne_nil _ hv.ne_nil] at hc
    exact List.mem_of_mem_head? hc

/-- Filled with values, segments are read by their pattern. -/
theorem reads_filled (hsegs : separated segs) (hvalue : ∀ name ∈ names segs, IsValue (value name)) :
    Reads (partsOf segs) n (segs.flatMap (filled value)) (capturesFrom value n segs) := by
  induction segs generalizing n with
  | nil => exact .nil n
  | cons s segs ih =>
    cases s with
    | literal text =>
      obtain ⟨hend, hsegs⟩ := Bool.and_eq_true_iff.mp hsegs
      exact reads_literalParts (head_of_endsBlanks hend hvalue) (ih hsegs hvalue)
    | placeholder index name =>
      obtain ⟨hend, hsegs⟩ := Bool.and_eq_true_iff.mp hsegs
      have hv := hvalue name List.mem_cons_self
      have hlater := fun name' hname => hvalue name' (List.mem_cons_of_mem name hname)
      exact .slot name hv.isValueChar_of_mem (head_of_endsValue hend value) (ih hsegs hlater)

theorem capturesFrom_append (value : Text → Text) (n : Nat) (front behind : List Segment) :
    capturesFrom value n (front ++ behind) = capturesFrom value n front ++
      capturesFrom value (n + size (front.flatMap (filled value))) behind := by
  induction front generalizing n with
  | nil => rfl
  | cons s front ih =>
    cases s with
    | literal text => simp [capturesFrom, filled, ih, Nat.add_assoc]
    | placeholder index name => simp [capturesFrom, filled, ih, Nat.add_assoc]

theorem map_name_capturesFrom (value : Text → Text) (n : Nat) (segs : List Segment) :
    (capturesFrom value n segs).map (·.name) = names segs := by
  induction segs generalizing n with
  | nil => rfl
  | cons s segs ih =>
    cases s with
    | literal text => exact ih _
    | placeholder index name => exact congrArg (name :: ·) (ih _)

theorem le_start_of_mem_capturesFrom {capture : Capture} (h : capture ∈ capturesFrom value n segs) :
    n ≤ capture.span.start := by
  induction segs generalizing n with
  | nil => cases h
  | cons s segs ih =>
    cases s with
    | literal text => exact Nat.le_trans (Nat.le_add_right n _) (ih h)
    | placeholder index name =>
      rcases List.mem_cons.mp h with rfl | h
      · exact Nat.le_refl n
      · exact Nat.le_trans (Nat.le_add_right n _) (ih h)

/-- Something stands between two values. -/
theorem pairwise_capturesFrom (hsegs : separated segs) (value : Text → Text) (n : Nat) :
    (capturesFrom value n segs).Pairwise fun a b => a.span.stop < b.span.start := by
  induction segs generalizing n with
  | nil => exact .nil
  | cons s segs ih =>
    cases s with
    | literal text => exact ih (Bool.and_eq_true_iff.mp hsegs).2 _
    | placeholder index name =>
      obtain ⟨hend, hsegs⟩ := Bool.and_eq_true_iff.mp hsegs
      refine List.pairwise_cons.mpr ⟨?_, ih hsegs _⟩
      intro capture hcapture
      rcases segs with _ | ⟨⟨_ | ⟨c, text⟩⟩ | ⟨index, name'⟩, segs⟩
      · cases hcapture
      · cases hend
      · have hmem : capture ∈
            capturesFrom value (n + size (value name) + size (c :: text)) segs := hcapture
        have hle := le_start_of_mem_capturesFrom hmem
        have hpos := c.utf8Size_pos
        rw [size_cons] at hle
        show n + size (value name) < capture.span.start
        omega
      · cases hend

theorem mem_filled {d : Char} (h : d ∈ segs.flatMap (filled value)) :
    d ∈ segs.flatMap (filled fun _ => []) ∨ ∃ name ∈ names segs, d ∈ value name := by
  induction segs with
  | nil => cases h
  | cons s segs ih =>
    rw [List.flatMap_cons, List.mem_append] at h
    cases s with
    | literal text =>
      rcases h with h | h
      · exact .inl (List.mem_append_left _ h)
      · exact (ih h).imp_left (List.mem_append_right text)
    | placeholder index name =>
      rcases h with h | h
      · exact .inr ⟨name, List.mem_cons_self, h⟩
      · refine (ih h).imp_right ?_
        rintro ⟨name', hname, hd⟩
        exact ⟨name', List.mem_cons_of_mem name hname, hd⟩

/-! ## The templates on offer -/

/-- What makes segments recognise the text that values of the parameters make of them. -/
structure Recognisable (segs : List Segment) (parameters : List Text) : Prop where
  separated : separated segs
  names_eq : names segs = parameters
  nodup : (names segs).Nodup
  oneLine : '\n' ∉ segs.flatMap (filled fun _ => [])

instance (segs : List Segment) (parameters : List Text) :
    Decidable (Recognisable segs parameters) :=
  decidable_of_iff (Template.separated segs ∧ names segs = parameters ∧ (names segs).Nodup ∧
      '\n' ∉ segs.flatMap (filled fun _ => [])) <| by
    constructor
    · rintro ⟨hseparated, hnames, hnodup, hline⟩
      exact ⟨hseparated, hnames, hnodup, hline⟩
    · rintro ⟨hseparated, hnames, hnodup, hline⟩
      exact ⟨hseparated, hnames, hnodup, hline⟩

theorem recognisable_of_mem {t : Template} (h : t ∈ builtin) :
    Recognisable t.segments (t.parameters.map fun p => p.name.toList) := by
  have hall : ∀ t ∈ builtin,
      Recognisable t.segments (t.parameters.map fun p => p.name.toList) := by
    simp only [builtin, List.forall_mem_cons, segments]
    -- The characters of a literal are known without decoding it.
    repeat rw [String.toList_ofList]
    decide +kernel
  exact hall t h

theorem fill_eq (t : Template) (value : Text → Text) :
    t.fill value = t.segments.flatMap (filled value) := by
  unfold fill
  apply List.flatMap_congr
  intro s _
  cases s <;> rfl

end Template

end PromqlAssist
