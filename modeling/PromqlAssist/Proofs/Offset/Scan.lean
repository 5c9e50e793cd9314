import PromqlAssist.Proofs.Offset.Cut
import PromqlAssist.Proofs.Rule.LabelBlock
import PromqlAssist.Proofs.Text.Bracket
import PromqlAssist.Proofs.Text.Word

/-!
# Scanning by offsets

Brackets, brace blocks, comma lists, words and blanks, found and cut out by offsets. No scan goes
wrong, and each finds what the function on texts finds.
-/

namespace PromqlAssist.Offset

open Text Checked

variable {t front rest : Text} {start n : Nat}

/-! ## Single characters -/

/-- The offset of the first character of a class. -/
def first? (p : Char → Bool) : Text → Option Nat
  | [] => none
  | c :: t => if p c then some 0 else (first? p t).map (c.utf8Size + ·)

theorem first?_eq (p : Char → Bool) (t : Text) : first? p t =
    match t.dropWhile fun c => !p c with
    | [] => none
    | _ :: _ => some (size (t.takeWhile fun c => !p c)) := by
  induction t with
  | nil => rfl
  | cons c t ih =>
    rw [first?, ih]
    cases hc : p c with
    | true => simp [hc]
    | false =>
      cases hrest : t.dropWhile fun c => !p c with
      | nil => simp [hc, hrest]
      | cons d rest => simp [hc, hrest]

theorem first?_append {p : Char → Bool} {c : Char} {front : Text} (hfront : ∀ d ∈ front, p d = false)
    (hc : p c) (rest : Text) : first? p (front ++ c :: rest) = some (size front) := by
  have hall : ∀ d ∈ front, (!p d) = true := by
    intro d hd
    rw [hfront d hd]
    rfl
  rw [first?_eq, List.dropWhile_append_of_pos hall, List.takeWhile_append_of_pos hall,
    List.dropWhile_cons_of_neg (by simp [hc]), List.takeWhile_cons_of_neg (by simp [hc]),
    List.append_nil]

theorem first?_char {c : Char} {front : Text} (h : c ∉ front) (rest : Text) :
    first? (· = c) (front ++ c :: rest) = some (size front) :=
  first?_append (fun d hd => by simpa using fun heq : d = c => h (heq ▸ hd)) (by simp) rest

theorem first?_not_mem {c : Char} (h : c ∉ t) : first? (· = c) t = none := by
  have hnil := dropWhile_ne_eq_nil h
  simp only [ne_eq, decide_not] at hnil
  rw [first?_eq, hnil]

/-! ## Closing brackets -/

/-- Reads on to the bracket that closes the outermost of `depth` open ones. -/
def closeFrom (opener closer : Char) (n depth : Nat) : Text → Checked (Option Nat)
  | [] => return none
  | c :: t => do
    if c = opener then closeFrom opener closer (n + c.utf8Size) (depth + 1) t
    else if c = closer then
      let depth ← sub depth 1
      if depth = 0 then return some n
      else closeFrom opener closer (n + c.utf8Size) depth t
    else closeFrom opener closer (n + c.utf8Size) depth t

/-- The offset of the bracket that closes the one at `start`. -/
def matchingClose (t : Text) (start : Nat) : Checked (Option Nat) := do
  match ← t.cutFrom start with
  | [] => return none
  | opener :: _ =>
    match closerOf? opener with
    | none => return none
    | some closer => closeFrom opener closer start 0 (← t.cutFrom start)

/-- The depth never falls below zero, since the search ends with the bracket that makes it zero. -/
theorem closeFrom_eq {opener closer : Char} (hne : opener ≠ closer) (n depth : Nat) (t : Text) :
    closeFrom opener closer n (depth + 1) t =
      .ok ((closeDistance? opener closer (depth + 1) t).map (n + ·)) := by
  induction t generalizing n depth with
  | nil => rfl
  | cons c t ih =>
    have shift : ∀ x? : Option Nat, x?.map (n + c.utf8Size + ·) =
        (x?.map (c.utf8Size + ·)).map (n + ·) := by
      intro x?
      simp [Function.comp_def, Nat.add_assoc]
    rw [closeFrom, closeDistance?]
    by_cases hopener : c = opener
    · have hcloser : c ≠ closer := fun heq => hne (hopener ▸ heq)
      simp only [if_pos hopener, if_neg fun h : c = closer ∧ depth + 1 ≤ 1 => hcloser h.1]
      rw [ih, shift]
    · by_cases hcloser : c = closer
      · rw [if_neg hopener, if_pos hcloser, sub_add, ok_bind]
        cases depth with
        | zero => simp [hcloser]
        | succ depth =>
          rw [if_neg (by omega), if_neg (by omega), if_neg hopener, if_pos hcloser, ih, shift]
          rfl
      · simp only [if_neg hopener, if_neg hcloser,
          if_neg fun h : c = closer ∧ depth + 1 ≤ 1 => hcloser h.1]
        rw [ih, shift]

theorem ne_of_closerOf? {opener closer : Char} (h : closerOf? opener = some closer) :
    opener ≠ closer := by
  rintro rfl
  unfold closerOf? at h
  split at h <;> simp at h

theorem matchingClose_append (front : Text) {opener closer : Char}
    (hcloser : closerOf? opener = some closer) (rest : Text) :
    matchingClose (front ++ opener :: rest) (size front) =
      .ok ((closeDistance? opener closer 1 rest).map (size front + opener.utf8Size + ·)) := by
  have hne := ne_of_closerOf? hcloser
  rw [matchingClose, cutFrom_append, ok_bind]
  simp only [hcloser]
  rw [ok_bind, closeFrom, if_pos rfl]
  exact closeFrom_eq hne _ 0 rest

/-- A parenthesis that is closed, and the body up to the one that closes it. -/
theorem matchingClose_closed (front : Text) {body behind : Text}
    (hbody : closeDistance? '(' ')' 1 (body ++ ')' :: behind) = some (size body)) :
    matchingClose (front ++ '(' :: (body ++ ')' :: behind)) (size front) =
        .ok (some (size front + 1 + size body)) ∧
      (front ++ '(' :: (body ++ ')' :: behind)).cut (size front + 1) (size front + 1 + size body) =
        .ok body := by
  have hfront : size (front ++ ['(']) = size front + 1 := by simp
  have hmatch := matchingClose_append front (rfl : closerOf? '(' = some ')') (body ++ ')' :: behind)
  have hcut := cut_append (front ++ ['(']) body (')' :: behind)
  rw [hfront, ← List.append_cons] at hcut
  rw [hbody] at hmatch
  exact ⟨hmatch, hcut⟩

/-- A parenthesis that is not closed. -/
theorem matchingClose_open (front : Text) {inner : Text}
    (hinner : closeDistance? '(' ')' 1 inner = none) :
    matchingClose (front ++ '(' :: inner) (size front) = .ok none ∧
      (front ++ '(' :: inner).cutFrom (size front + 1) = .ok inner := by
  have hfront : size (front ++ ['(']) = size front + 1 := by simp
  have hmatch := matchingClose_append front (rfl : closerOf? '(' = some ')') inner
  have hcut := cutFrom_append (front ++ ['(']) inner
  rw [hfront, ← List.append_cons] at hcut
  rw [hinner] at hmatch
  exact ⟨hmatch, hcut⟩

/-! ## Brace blocks -/

/-- The first brace block from an offset on. -/
def nextBlock (t : Text) (cursor : Nat) : Checked (Option Span) := do
  match first? (· = '{') (← t.cutFrom cursor) with
  | none => return none
  | some found =>
    let start := cursor + found
    match first? (· = '}') (← t.cutFrom start) with
    | none => return some ⟨start, t.size⟩
    | some length => return some ⟨start, start + length + 1⟩

theorem nextBlock_none (front : Text) (h : '{' ∉ rest) :
    nextBlock (front ++ rest) (size front) = .ok none := by
  rw [nextBlock, cutFrom_append, ok_bind, first?_not_mem h]
  rfl

variable {outer inner behind : Text}

theorem nextBlock_open (houter : '{' ∉ outer) (hinner : '}' ∉ inner) :
    nextBlock (front ++ (outer ++ '{' :: inner)) (size front) =
      .ok (some ⟨size front + size outer, size (front ++ (outer ++ '{' :: inner))⟩) := by
  have hrest := cutFrom_append (front ++ outer) ('{' :: inner)
  rw [size_append, List.append_assoc] at hrest
  rw [nextBlock, cutFrom_append, ok_bind, first?_char houter]
  dsimp only
  rw [hrest, ok_bind, first?_not_mem (by simpa using hinner)]
  rfl

theorem nextBlock_closed (houter : '{' ∉ outer) (hinner : '}' ∉ inner) :
    nextBlock (front ++ (outer ++ '{' :: (inner ++ '}' :: behind))) (size front) =
      .ok (some ⟨size front + size outer, size front + size outer + size ('{' :: inner) + 1⟩) := by
  have hrest := cutFrom_append (front ++ outer) ('{' :: (inner ++ '}' :: behind))
  rw [size_append, List.append_assoc] at hrest
  have hcloses : first? (· = '}') ('{' :: (inner ++ '}' :: behind)) = some (size ('{' :: inner)) :=
    first?_char (by simpa using hinner : '}' ∉ '{' :: inner) behind
  rw [nextBlock, cutFrom_append, ok_bind, first?_char houter]
  dsimp only
  rw [hrest, ok_bind, hcloses]
  rfl

/-- The search goes on behind the block that was found. -/
theorem nextBlock_lt {cursor : Nat} {block : Span} (h : nextBlock t cursor = .ok (some block)) :
    cursor < block.stop ∧ cursor < size t := by
  obtain ⟨rest, hcut, -⟩ := exists_of_bind h
  obtain ⟨front, rest, rfl, rfl⟩ := (isBoundary_of_cutFrom hcut).exists_append
  rcases Rule.brace_cases rest with hnone | ⟨outer, inner, rfl, houter, hinner⟩ |
    ⟨outer, inner, behind, rfl, houter, hinner⟩
  · rw [nextBlock_none front hnone] at h
    cases h
  · rw [nextBlock_open houter hinner] at h
    cases h
    simp only [size_append, size_cons, utf8Size_bracket]
    omega
  · rw [nextBlock_closed houter hinner] at h
    cases h
    simp only [size_append, size_cons, utf8Size_bracket]
    omega

/-- One turn of the search for blocks, at an offset and with the blocks found so far. -/
def blockStep (t : Text) : Nat × List Span → Checked (List Span ⊕ Nat × List Span)
  | (cursor, blocks) => do
    match ← nextBlock t cursor with
    | none => return .inl blocks
    | some block => return .inr (block.stop, blocks ++ [block])

theorem blockStep_none {cursor : Nat} (h : nextBlock t cursor = .ok none) (blocks : List Span) :
    blockStep t (cursor, blocks) = .ok (.inl blocks) := by
  rw [blockStep, h]
  rfl

theorem blockStep_some {cursor : Nat} {block : Span} (h : nextBlock t cursor = .ok (some block))
    (blocks : List Span) :
    blockStep t (cursor, blocks) = .ok (.inr (block.stop, blocks ++ [block])) := by
  rw [blockStep, h]
  rfl

theorem blockStep_lt (t : Text) (s s' : Nat × List Span) (h : blockStep t s = .ok (.inr s')) :
    size t - s'.1 < size t - s.1 := by
  obtain ⟨block?, hnext, h⟩ := exists_of_bind h
  cases block? with
  | none => cases h
  | some block =>
    cases h
    have hlt := nextBlock_lt hnext
    dsimp only
    omega

/-- The spans from a `{` to the next `}`, or to the end. -/
def braceBlocks (t : Text) : Checked (List Span) :=
  loop (fun s => size t - s.1) (blockStep t) (blockStep_lt t) (0, [])

theorem braceBlocksFrom_outside (h : '{' ∉ outer) (n : Nat) (rest : Text) :
    braceBlocksFrom n none (outer ++ rest) =
      braceBlocksFrom (n + size outer) none rest := by
  induction outer generalizing n with
  | nil => rfl
  | cons c outer ih =>
    rw [List.mem_cons, not_or] at h
    rw [List.cons_append, braceBlocksFrom, size_cons, ← Nat.add_assoc, ← ih h.2]
    simp only [if_neg (Ne.symm h.1)]

theorem braceBlocksFrom_inside (h : '}' ∉ inner) (n start : Nat) (rest : Text) :
    braceBlocksFrom n (some start) (inner ++ rest) =
      braceBlocksFrom (n + size inner) (some start) rest := by
  induction inner generalizing n with
  | nil => rfl
  | cons c inner ih =>
    rw [List.mem_cons, not_or] at h
    rw [List.cons_append, braceBlocksFrom, size_cons, ← Nat.add_assoc, ← ih h.2]
    simp only [if_neg (Ne.symm h.1)]

/-- The loop finds the blocks of the part that is not yet read. -/
theorem loop_blockStep (front rest : Text) (blocks : List Span) :
    loop (fun s => size (front ++ rest) - s.1) (blockStep (front ++ rest))
        (blockStep_lt (front ++ rest)) (size front, blocks) =
      .ok (blocks ++ braceBlocksFrom (size front) none rest) := by
  induction hlength : rest.length using Nat.strongRecOn generalizing front rest blocks with
  | ind length ih =>
    subst hlength
    rcases Rule.brace_cases rest with hnone | ⟨outer, inner, rfl, houter, hinner⟩ |
      ⟨outer, inner, behind, rfl, houter, hinner⟩
    · have hblocks := braceBlocksFrom_outside hnone (size front) []
      rw [List.append_nil] at hblocks
      rw [loop_done (blockStep_none (nextBlock_none front hnone) blocks), hblocks]
      simp [braceBlocksFrom]
    · -- The search goes on at the end of the text.
      have hend := nextBlock_none (front ++ (outer ++ '{' :: inner)) (List.not_mem_nil : '{' ∉ [])
      rw [List.append_nil] at hend
      have hblocks := braceBlocksFrom_inside hinner (size front + size outer + 1)
        (size front + size outer) []
      rw [List.append_nil] at hblocks
      rw [loop_next (blockStep_some (nextBlock_open houter hinner) blocks),
        loop_done (blockStep_none hend _), braceBlocksFrom_outside houter, braceBlocksFrom]
      simp only [if_pos, utf8Size_bracket, hblocks]
      simp [braceBlocksFrom, Nat.add_assoc]
    · have hread : front ++ (outer ++ '{' :: (inner ++ '}' :: behind)) =
          (front ++ (outer ++ '{' :: (inner ++ ['}']))) ++ behind := by simp
      have hsize : size front + size outer + size ('{' :: inner) + 1 =
          size (front ++ (outer ++ '{' :: (inner ++ ['}']))) := by
        simp only [size_append, size_cons, size_nil, utf8Size_bracket]
        omega
      have hinside : braceBlocksFrom (size front) none
            (outer ++ '{' :: (inner ++ '}' :: behind)) =
          ⟨size front + size outer, size front + size outer + size ('{' :: inner) + 1⟩ ::
            braceBlocksFrom (size front + size outer + size ('{' :: inner) + 1) none behind := by
        rw [braceBlocksFrom_outside houter, braceBlocksFrom]
        simp only [if_pos]
        rw [braceBlocksFrom_inside hinner, braceBlocksFrom]
        simp only [if_pos, size_cons, utf8Size_bracket, Nat.add_assoc]
      have hlater := ih behind.length (by simp; omega)
        (front ++ (outer ++ '{' :: (inner ++ ['}']))) behind
        (blocks ++ [⟨size front + size outer, size front + size outer + size ('{' :: inner) + 1⟩])
        rfl
      rw [← hread, ← hsize] at hlater
      rw [loop_next (blockStep_some (nextBlock_closed houter hinner) blocks), hlater, hinside,
        List.append_assoc, List.singleton_append]

theorem braceBlocks_eq (t : Text) : braceBlocks t = .ok (Text.braceBlocks t) :=
  loop_blockStep [] t []

/-! ## Comma lists -/

/-- The entries of `t` from the one that starts at `start`. The masked list is read from `n` on. -/
def commaEntries (t : Text) (start n : Nat) : Text → Checked (List (Nat × Text))
  | [] => do return [(start, ← t.cutFrom start)]
  | c :: masked => do
    if c = ',' then
      let entry ← t.cut start n
      return (start, entry) :: (← commaEntries t (n + 1) (n + c.utf8Size) masked)
    else commaEntries t start (n + c.utf8Size) masked

/-- The entries of a comma list with their offsets. The commas are those of `masked`. -/
def splitCommas (t masked : Text) : Checked (List (Nat × Text)) :=
  if size t = size masked then commaEntries t 0 0 masked else .error .unlikeSizes

theorem commaEntries_eq (front : Text) (h : Blanked t (front ++ rest)) (hstart : t.IsBoundary start)
    (hle : start ≤ size front) :
    commaEntries t start (size front) rest =
      .ok ((commaSpansFrom start (size front) rest).map fun s => (s.start, s.slice t)) := by
  induction rest generalizing front start with
  | nil =>
    rw [List.append_nil] at h
    have hfits : (⟨start, size front⟩ : Span).Fits t := ⟨hle, hstart, h.isBoundary_size⟩
    rw [commaEntries, cutFrom, h.size_eq, cut_of_fits hfits]
    rfl
  | cons c rest ih =>
    have hnext : Blanked t ((front ++ [c]) ++ rest) := by rwa [← List.append_cons]
    have hsize : size front + c.utf8Size = size (front ++ [c]) := by simp
    rw [commaEntries, commaSpansFrom]
    by_cases hc : c = ','
    · subst hc
      have hcomma : (',' : Char).utf8Size = 1 := by decide
      have hfits : (⟨start, size front⟩ : Span).Fits t :=
        ⟨hle, hstart, h.isBoundary_before (by decide)⟩
      have hlater := ih _ hnext (hsize ▸ h.isBoundary_behind (by decide)) (Nat.le_refl _)
      rw [← hsize, hcomma] at hlater
      simp only [if_pos, hcomma]
      rw [cut_of_fits hfits, ok_bind, hlater]
      rfl
    · simp only [if_neg hc, hsize]
      exact ih _ hnext hstart (by rw [← hsize]; omega)

/-- Commas of the masked list are commas of the list itself, which can be cut there. -/
theorem splitCommas_eq {masked : Text} (h : Blanked t masked) :
    splitCommas t masked = .ok (Text.splitCommas t masked) := by
  rw [splitCommas, if_pos h.size_eq]
  exact commaEntries_eq [] h (isBoundary_zero t) (Nat.le_refl 0)

/-! ## Words -/

/-- The words of `t` from `n` on, where an open word started at `start?`. -/
def wordsFrom (t : Text) (n : Nat) (start? : Option Nat) : Text → Checked (List (Nat × Text))
  | [] =>
    match start? with
    | none => return []
    | some start => do return [(start, ← t.cutFrom start)]
  | c :: rest =>
    match isIdent c, start? with
    | true, none => wordsFrom t (n + c.utf8Size) (some n) rest
    | false, some start => do
      let word ← t.cut start n
      return (start, word) :: (← wordsFrom t (n + c.utf8Size) none rest)
    | _, _ => wordsFrom t (n + c.utf8Size) start? rest

/-- Every word with the offset of its start. -/
def words (t : Text) : Checked (List (Nat × Text)) :=
  wordsFrom t 0 none t

/-- Where an open word started, if it has a character yet. -/
def openStart? (start : Nat) (word : Text) : Option Nat :=
  (openWord? start word).map (·.1)

/-- A character that goes on with a word, or starts one. -/
theorem wordsFrom_ident {c : Char} (hc : isIdent c) (t front word rest : Text) :
    wordsFrom t (size front + size word) (openStart? (size front) word) (c :: rest) =
      wordsFrom t (size front + size (word ++ [c])) (openStart? (size front) (word ++ [c])) rest := by
  cases word with
  | nil => simp [wordsFrom, openStart?, openWord?, hc]
  | cons d word => simp [wordsFrom, openStart?, openWord?, hc, Nat.add_assoc]

theorem wordsFrom_eq (front word rest : Text) :
    wordsFrom (front ++ (word ++ rest)) (size front + size word) (openStart? (size front) word)
        rest =
      .ok (Text.wordsFrom (size front + size word) (openWord? (size front) word) rest) := by
  induction rest generalizing front word with
  | nil =>
    cases word with
    | nil => rfl
    | cons d word =>
      simp only [openStart?, openWord?, wordsFrom, Text.wordsFrom]
      simp [cutFrom_append]
  | cons c rest ih =>
    have hsize : size front + size word + c.utf8Size = size front + size (word ++ [c]) := by
      simp [Nat.add_assoc]
    by_cases hc : isIdent c
    · have hread : front ++ (word ++ c :: rest) = front ++ ((word ++ [c]) ++ rest) := by simp
      rw [wordsFrom_ident hc, hread, ih, Text.wordsFrom, if_pos hc]
      simp only [openWord?_cons, hsize]
    · rw [Bool.not_eq_true] at hc
      have hread : front ++ (word ++ c :: rest) = (front ++ (word ++ [c])) ++ ([] ++ rest) := by
        simp
      have hnext : size front + size word + c.utf8Size =
          size (front ++ (word ++ [c])) + size [] := by
        simp [Nat.add_assoc]
      have hlater := ih (front ++ (word ++ [c])) []
      rw [← hread, ← hnext] at hlater
      have hnone : openStart? (size (front ++ (word ++ [c]))) [] = none := rfl
      have hclosed : openWord? (size (front ++ (word ++ [c]))) [] = none := rfl
      rw [hnone, hclosed] at hlater
      by_cases hempty : word = []
      · subst hempty
        simpa [wordsFrom, openStart?, openWord?, Text.wordsFrom, hc] using hlater
      · have hopen : openWord? (size front) word = some (size front, word.reverse) := if_neg hempty
        rw [openStart?, hopen, Option.map_some, wordsFrom, Text.wordsFrom]
        · simp only [hc]
          rw [cut_append, ok_bind, hlater]
          simp
        · exact hc

theorem words_eq (t : Text) : words t = .ok (Text.words t) :=
  wordsFrom_eq [] [] t

/-! ## Blanks -/

/-- The offset of the first character from `start` on that is not blank, or the end. -/
def skipBlank (t : Text) (start : Nat) : Checked Nat := do
  match first? (fun c => !isBlank c) (← t.cutFrom start) with
  | some found => return start + found
  | none => return t.size

/-- Skipping blanks leads to what is left of the text without them. -/
theorem skipBlank_append (front rest : Text) :
    ∃ blanks, rest = blanks ++ trimStart rest ∧
      skipBlank (front ++ rest) (size front) = .ok (size (front ++ blanks)) := by
  have hsplit := List.takeWhile_append_dropWhile (p := isBlank) (l := rest)
  refine ⟨rest.takeWhile isBlank, hsplit.symm, ?_⟩
  rw [skipBlank, cutFrom_append, ok_bind, first?_eq]
  simp only [Bool.not_not]
  cases hbehind : rest.dropWhile isBlank with
  | nil =>
    rw [hbehind, List.append_nil] at hsplit
    rw [hsplit]
    rfl
  | cons c behind => simp only [size_append, pure_eq]

end PromqlAssist.Offset
