import Mathlib.Algebra.Group.Nat.Defs
import Mathlib.Order.Bounds.Defs
import PromqlAssist.Proofs.Text.Position

/-!
# Offsets and positions tell the same

A text is cut into lines by its line feeds, and a line into columns by its code units. A position
names the first boundary of its line that has at least its column, so that offsets and positions
lead to each other and grow together.
-/

namespace PromqlAssist

/-- Positions are ordered strictly by their lines, and inside a line by their columns. -/
instance : LT Position where
  lt p q := p.line < q.line ∨ (p.line = q.line ∧ p.column < q.column)

theorem Position.lt_of_le_of_ne {p q : Position} (h : p ≤ q) (hne : p ≠ q) : p < q := by
  rcases h with hline | ⟨hline, hcolumn⟩
  · exact .inl hline
  · refine .inr ⟨hline, Nat.lt_of_le_of_ne hcolumn fun heq => hne ?_⟩
    cases p
    cases q
    simp_all

namespace Text

variable {t a b : Text} {n : Nat} {p q : Position}

/-! ## Columns -/

/-- The shortest first part of a line that is `column` code units long or longer, or else the whole
line. -/
def uptoColumn : Text → Nat → Text
  | [], _ => []
  | c :: t, column => if column = 0 then [] else c :: uptoColumn t (column - units c)

theorem exists_uptoColumn (t : Text) (column : Nat) :
    ∃ rest, t = uptoColumn t column ++ rest ∧
      (column ≤ unitCount (uptoColumn t column) ∨ rest = []) := by
  induction t generalizing column with
  | nil => exact ⟨[], rfl, .inr rfl⟩
  | cons c t ih =>
    rw [uptoColumn]
    split
    · rename_i hzero
      exact ⟨c :: t, rfl, .inl (hzero ▸ Nat.zero_le _)⟩
    · obtain ⟨rest, ht, hreach⟩ := ih (column - units c)
      refine ⟨rest, by rw [List.cons_append, ← ht], hreach.imp (fun hle => ?_) id⟩
      rw [unitCount]
      omega

/-- No shorter part of the line reaches the column. -/
theorem size_uptoColumn_le {column : Nat} (h : column ≤ unitCount a) (b : Text) :
    size (uptoColumn (a ++ b) column) ≤ size a := by
  induction a generalizing column with
  | nil =>
    obtain rfl := Nat.le_zero.mp h
    cases b <;> simp [uptoColumn]
  | cons c a ih =>
    rw [unitCount] at h
    rw [List.cons_append, uptoColumn]
    split
    · exact Nat.zero_le _
    · exact Nat.add_le_add_left (ih (by omega)) _

theorem uptoColumn_zero (t : Text) : uptoColumn t 0 = [] := by
  cases t <;> rfl

theorem uptoColumn_of_le {column : Nat} (h : unitCount t ≤ column) : uptoColumn t column = t := by
  induction t generalizing column with
  | nil => rfl
  | cons c t ih =>
    have hpos := units_pos c
    rw [unitCount] at h
    rw [uptoColumn, if_neg (by omega), ih (by omega)]

/-! ## Lines -/

/-- A line of a text, with what is in front of it and behind it. -/
structure Line where
  front : Text
  body : Text
  rest : Text
  front_ends : ∀ c ∈ front.getLast?, c = '\n'
  plain : '\n' ∉ body
  rest_starts : ∀ c ∈ rest.head?, c = '\n'

namespace Line

def text (l : Line) : Text :=
  l.front ++ (l.body ++ l.rest)

/-- How many lines stand in front. -/
def number (l : Line) : Nat :=
  l.front.count '\n'

end Line

theorem exists_line (t : Text) (h : n ≤ t.count '\n') : ∃ l : Line, l.text = t ∧ l.number = n := by
  induction t generalizing n with
  | nil =>
    obtain rfl := Nat.le_zero.mp h
    exact ⟨⟨[], [], [], by simp, by simp, by simp⟩, rfl, rfl⟩
  | cons c t ih =>
    by_cases hc : c = '\n'
    · subst hc
      cases n with
      | zero => exact ⟨⟨[], [], '\n' :: t, by simp, by simp, by simp⟩, rfl, rfl⟩
      | succ n =>
        rw [List.count_cons_self] at h
        obtain ⟨⟨front, body, rest, hfront, hbody, hrest⟩, rfl, rfl⟩ :=
          ih (Nat.le_of_succ_le_succ h)
        refine ⟨⟨'\n' :: front, body, rest, ?_, hbody, hrest⟩, rfl, List.count_cons_self⟩
        intro d hd
        cases front with
        | nil => simpa using hd.symm
        | cons e front => exact hfront d (by simpa using hd)
    · rw [List.count_cons_of_ne hc] at h
      obtain ⟨⟨front, body, rest, hfront, hbody, hrest⟩, rfl, rfl⟩ := ih h
      cases front with
      | nil =>
        refine ⟨⟨[], c :: body, rest, by simp, ?_, hrest⟩, rfl, rfl⟩
        simpa [Ne.symm hc] using hbody
      | cons e front =>
        refine ⟨⟨c :: e :: front, body, rest, ?_, hbody, hrest⟩, rfl, List.count_cons_of_ne hc⟩
        intro d hd
        exact hfront d (by simpa using hd)

theorem line_positionOf_le_count (t : Text) (n : Nat) :
    (t.positionOf n).line ≤ t.count '\n' := by
  have hsplit := congrArg (List.count '\n') (before_append_after t n)
  rw [List.count_append] at hsplit
  exact hsplit ▸ Nat.le_add_right _ _

namespace Line

/-- In a line the column counts the code units in front. -/
theorem positionOf_eq (l : Line) (h : l.body = a ++ b) :
    l.text.positionOf (size l.front + size a) = ⟨l.number, unitCount a⟩ := by
  have hplain : ∀ c ∈ a, decide (c ≠ '\n') = true :=
    forall_ne_of_not_mem fun hmem => l.plain (h ▸ List.mem_append_left b hmem)
  have hfront : trailing (· ≠ '\n') l.front = [] := by
    apply trailing_eq_nil
    intro c hc
    simp [l.front_ends c hc]
  have hcount : a.count '\n' = 0 :=
    List.count_eq_zero.mpr fun hmem => by simpa using hplain _ hmem
  have htext : l.text = (l.front ++ a) ++ (b ++ l.rest) := by
    rw [text, h, List.append_assoc, List.append_assoc]
  rw [htext, ← size_append, positionOf_size_append, trailing_append_of_forall hplain, hfront,
    List.nil_append, List.count_append, hcount]
  rfl

/-- A boundary whose position is on a line lies in that line. -/
theorem exists_of_positionOf (l : Line) (hn : IsBoundary l.text n)
    (h : (l.text.positionOf n).line = l.number) :
    ∃ a b, l.body = a ++ b ∧ n = size l.front + size a := by
  obtain ⟨x, y, htext, rfl⟩ := hn.exists_append
  have hcount : x.count '\n' = l.front.count '\n' := by
    rw [htext, positionOf_size_append] at h
    exact h
  have hcut : l.front ++ (l.body ++ l.rest) = x ++ y := htext
  rcases Nat.le_total (size l.front) (size x) with hle | hle
  · obtain ⟨a, rfl, hrest⟩ := exists_append_of_size_le hcut hle
    have hplain : '\n' ∉ a := by
      rw [List.count_append] at hcount
      exact List.count_eq_zero.mp (by omega)
    rcases Nat.le_total (size a) (size l.body) with hle | hle
    · obtain ⟨b, hbody, -⟩ := exists_append_of_size_le hrest.symm hle
      exact ⟨a, b, hbody, size_append _ _⟩
    · -- What would lie behind the line starts with a line feed.
      obtain ⟨c, rfl, hc⟩ := exists_append_of_size_le hrest hle
      have hnil : c = [] := by
        cases c with
        | nil => rfl
        | cons d c =>
          obtain rfl := l.rest_starts d (by rw [hc]; rfl)
          exact absurd (by simp) hplain
      subst hnil
      exact ⟨l.body, [], (List.append_nil _).symm, by simp⟩
  · -- What would lie in front of the line lacks the line feed at the end of the front.
    obtain ⟨c, hc, -⟩ := exists_append_of_size_le hcut.symm hle
    have hnil : c = [] := by
      cases hlast : c.getLast? with
      | none => exact List.getLast?_eq_none_iff.mp hlast
      | some d =>
        obtain rfl := l.front_ends d (by rw [hc]; simp [hlast])
        have hmem : 0 < c.count '\n' := List.count_pos_iff.mpr (List.mem_of_getLast? hlast)
        rw [hc, List.count_append] at hcount
        omega
    subst hnil
    exact ⟨[], l.body, rfl, by simp [hc]⟩

theorem offsetOf_body (h : '\n' ∉ a) (hb : ∀ c ∈ b.head?, c = '\n') (column : Nat) :
    offsetOf (a ++ b) ⟨0, column⟩ = size (uptoColumn a column) := by
  induction a generalizing column with
  | nil =>
    cases b with
    | nil => rfl
    | cons c b => simp [offsetOf, uptoColumn, hb c rfl]
  | cons c a ih =>
    rw [List.mem_cons, not_or] at h
    rw [List.cons_append, offsetOf, uptoColumn]
    by_cases hzero : column = 0
    · rw [if_pos (.inl hzero), if_pos hzero]
      rfl
    · rw [if_neg (by simp [hzero, Ne.symm h.1]), if_neg hzero, ih h.2, size_cons]

theorem offsetOf_front (h : ∀ c ∈ a.getLast?, c = '\n') (column : Nat) :
    offsetOf (a ++ b) ⟨a.count '\n', column⟩ = size a + offsetOf b ⟨0, column⟩ := by
  induction a with
  | nil => simp
  | cons c a ih =>
    cases a with
    | nil =>
      obtain rfl := h c rfl
      rw [List.count_cons_self, List.cons_append, offsetOf, if_pos rfl]
      rfl
    | cons d a =>
      have hrest := ih fun e he => h e (by simpa using he)
      -- The rest ends with a line feed as well, so the line is not the first one.
      obtain ⟨k, hk⟩ : ∃ k, (d :: a).count '\n' = k + 1 := by
        refine Nat.exists_eq_succ_of_ne_zero (Nat.ne_of_gt (List.count_pos_iff.mpr ?_))
        have hlast : (d :: a).getLast? = some ((d :: a).getLast (by simp)) :=
          List.getLast?_eq_some_getLast (by simp)
        rw [← h _ (by simpa using hlast)]
        exact List.getLast_mem (by simp)
      rw [hk] at hrest
      rw [size_cons, Nat.add_assoc, ← hrest]
      by_cases hc : c = '\n'
      · subst hc
        rw [List.count_cons_self, hk, List.cons_append, offsetOf, if_pos rfl]
      · rw [List.count_cons_of_ne hc, hk, List.cons_append, offsetOf, if_neg hc]

theorem offsetOf_eq (l : Line) (column : Nat) :
    l.text.offsetOf ⟨l.number, column⟩ = size l.front + size (uptoColumn l.body column) := by
  rw [text, number, offsetOf_front l.front_ends, offsetOf_body l.plain l.rest_starts]

end Line

/-! ## Offsets of positions -/

theorem positionOf_clamp (t : Text) (n : Nat) : t.positionOf (t.clamp n) = t.positionOf n := by
  simp only [positionOf, lineBefore, before_clamp]

theorem lineBounds_clamp (t : Text) (n : Nat) : t.lineBounds (t.clamp n) = t.lineBounds n := by
  simp only [lineBounds, lineBefore, before_clamp, after_clamp,
    clamp_eq_self (isBoundary_clamp t n)]

/-- Every offset lies in the line of its position. -/
theorem exists_line_of_offset (t : Text) (n : Nat) : ∃ l : Line, l.text = t ∧
    l.number = (t.positionOf n).line ∧
      ∃ a b, l.body = a ++ b ∧ t.clamp n = size l.front + size a := by
  obtain ⟨l, rfl, hnumber⟩ := exists_line t (line_positionOf_le_count t n)
  refine ⟨l, rfl, hnumber, l.exists_of_positionOf (isBoundary_clamp _ n) ?_⟩
  rw [positionOf_clamp, hnumber]

/-- The boundaries on a line, its end included. -/
def boundariesOn (t : Text) (line : Nat) : Set Nat :=
  {n | t.IsBoundary n ∧ (t.positionOf n).line = line}

/-- The boundaries on a line that have at least a column. -/
def boundariesFrom (t : Text) (p : Position) : Set Nat :=
  {n | n ∈ t.boundariesOn p.line ∧ p.column ≤ (t.positionOf n).column}

namespace Line

theorem mem_boundariesOn_iff (l : Line) :
    n ∈ l.text.boundariesOn l.number ↔ ∃ a b, l.body = a ++ b ∧ n = size l.front + size a := by
  constructor
  · rintro ⟨hn, hline⟩
    exact l.exists_of_positionOf hn hline
  · rintro ⟨a, b, hbody, rfl⟩
    refine ⟨?_, by rw [l.positionOf_eq hbody]⟩
    rw [text, hbody, ← size_append, List.append_assoc, ← List.append_assoc]
    exact isBoundary_size_append _ _

theorem offsetOf_mem (l : Line) (column : Nat) :
    l.text.offsetOf ⟨l.number, column⟩ ∈ l.text.boundariesOn l.number := by
  obtain ⟨rest, hbody, -⟩ := exists_uptoColumn l.body column
  exact l.mem_boundariesOn_iff.mpr ⟨_, rest, hbody, l.offsetOf_eq column⟩

/-- A column that the line has is found at its first boundary. -/
theorem isLeast_offsetOf (l : Line) {column : Nat}
    (h : (l.text.boundariesFrom ⟨l.number, column⟩).Nonempty) :
    IsLeast (l.text.boundariesFrom ⟨l.number, column⟩) (l.text.offsetOf ⟨l.number, column⟩) := by
  have least : ∀ n ∈ l.text.boundariesFrom ⟨l.number, column⟩, ∃ a b, l.body = a ++ b ∧
      n = size l.front + size a ∧ column ≤ unitCount a := by
    rintro n ⟨hn, hcolumn⟩
    obtain ⟨a, b, hbody, rfl⟩ := l.mem_boundariesOn_iff.mp hn
    rw [l.positionOf_eq hbody] at hcolumn
    exact ⟨a, b, hbody, rfl, hcolumn⟩
  refine ⟨⟨l.offsetOf_mem column, ?_⟩, ?_⟩
  · obtain ⟨rest, hbody, hreach⟩ := exists_uptoColumn l.body column
    rw [l.offsetOf_eq, l.positionOf_eq hbody]
    rcases hreach with hreach | rfl
    · exact hreach
    · -- The part is the whole line, and some part of it reaches the column.
      obtain ⟨n, hn⟩ := h
      obtain ⟨a, b, hwhole, -, hcolumn⟩ := least n hn
      rw [List.append_nil] at hbody
      rw [← hbody, hwhole, unitCount_append]
      exact Nat.le_add_right_of_le hcolumn
  · intro n hn
    obtain ⟨a, b, hbody, rfl, hcolumn⟩ := least n hn
    rw [l.offsetOf_eq, hbody]
    exact Nat.add_le_add_left (size_uptoColumn_le hcolumn b) _

/-- A column that the line does not have is its end. -/
theorem isGreatest_offsetOf (l : Line) {column : Nat}
    (h : ¬ (l.text.boundariesFrom ⟨l.number, column⟩).Nonempty) :
    IsGreatest (l.text.boundariesOn l.number) (l.text.offsetOf ⟨l.number, column⟩) := by
  refine ⟨l.offsetOf_mem column, ?_⟩
  intro n hn
  obtain ⟨a, b, hbody, rfl⟩ := l.mem_boundariesOn_iff.mp hn
  obtain ⟨rest, hwhole, hreach⟩ := exists_uptoColumn l.body column
  rcases hreach with hreach | rfl
  · refine absurd ⟨_, l.offsetOf_mem column, ?_⟩ h
    rw [l.offsetOf_eq, l.positionOf_eq hwhole]
    exact hreach
  · rw [List.append_nil] at hwhole
    rw [l.offsetOf_eq, ← hwhole, hbody, size_append]
    omega

theorem lineBounds_eq (l : Line) {column : Nat} (h : l.body = a ++ b)
    (hn : l.text.clamp n = size l.front + size a) (hcolumn : unitCount l.body ≤ column) :
    l.text.lineBounds n =
      ⟨l.text.offsetOf ⟨l.number, 0⟩, l.text.offsetOf ⟨l.number, column⟩⟩ := by
  have hbounds : l.text.lineBounds (size l.front + size a) =
      ⟨size l.front, size l.front + size l.body⟩ := by
    apply lineBounds_append l.front_ends l.plain l.rest_starts (Nat.le_add_right _ _)
    rw [h, size_append]
    omega
  rw [← lineBounds_clamp, hn, hbounds, l.offsetOf_eq, l.offsetOf_eq, uptoColumn_zero,
    uptoColumn_of_le hcolumn]
  rfl

theorem unitCount_body_le (l : Line) : unitCount l.body ≤ size l.text := by
  rw [text, size_append, size_append]
  have hbody := unitCount_le_size l.body
  omega

end Line

/-- A line that the text does not have is the end of the text. -/
theorem offsetOf_of_count_lt (h : t.count '\n' < p.line) : t.offsetOf p = size t := by
  obtain ⟨line, column⟩ := p
  induction t generalizing line with
  | nil => rfl
  | cons c t ih =>
    cases line with
    | zero => cases h
    | succ line =>
      rw [offsetOf, size_cons]
      by_cases hc : c = '\n'
      · subst hc
        rw [List.count_cons_self] at h
        rw [if_pos rfl, ih line (by simpa using h)]
      · rw [List.count_cons_of_ne hc] at h
        rw [if_neg hc, ih (line + 1) h]

theorem offsetOf_mono (t : Text) (h : p ≤ q) : t.offsetOf p ≤ t.offsetOf q := by
  obtain ⟨line, column⟩ := p
  obtain ⟨line', column'⟩ := q
  induction t generalizing line column line' column' with
  | nil => exact Nat.le_refl 0
  | cons c t ih =>
    have step : ∀ {line column line' column'}, (Position.mk line column) ≤ ⟨line', column'⟩ →
        c.utf8Size + offsetOf t ⟨line, column⟩ ≤ c.utf8Size + offsetOf t ⟨line', column'⟩ :=
      fun hle => Nat.add_le_add_left (ih _ _ _ _ hle) _
    rcases h with hlines | ⟨hlines, hcolumns⟩
    · change line < line' at hlines
      obtain ⟨k, rfl⟩ := Nat.exists_eq_add_of_lt hlines
      rw [offsetOf.eq_3]
      cases line with
      | zero =>
        rw [offsetOf]
        split
        · exact Nat.zero_le _
        · rename_i hgoes
          rw [if_neg fun hc => hgoes (.inr hc)]
          exact step (.inl (by simp))
      | succ line =>
        rw [offsetOf]
        refine step (.inl ?_)
        dsimp only
        split <;> omega
    · obtain rfl : line = line' := hlines
      change column ≤ column' at hcolumns
      cases line with
      | zero =>
        rw [offsetOf]
        split
        · exact Nat.zero_le _
        · rename_i hgoes
          rw [not_or] at hgoes
          rw [offsetOf, if_neg (by simp [hgoes.2]; omega)]
          exact step (.inr ⟨rfl, Nat.sub_le_sub_right hcolumns _⟩)
      | succ line =>
        rw [offsetOf, offsetOf]
        exact step (.inr ⟨rfl, hcolumns⟩)

/-- The position of a boundary grows with it. -/
theorem positionOf_strictMono {m n : Nat} (hm : IsBoundary t m) (hn : IsBoundary t n)
    (h : m < n) : t.positionOf m < t.positionOf n := by
  refine Position.lt_of_le_of_ne (positionOf_mono hm hn (Nat.le_of_lt h)) fun heq => ?_
  have hoffset := congrArg t.offsetOf heq
  rw [offsetOf_positionOf hm, offsetOf_positionOf hn] at hoffset
  omega

/-- Offsets and positions of a text convert exactly, and lines are what lies between the first and
the last column of 32 bits. -/
structure ConvertsExactly (t : Text) : Prop where
  narrow : ∀ n, (t.positionOf n).line < 2 ^ 32 ∧ (t.positionOf n).column < 2 ^ 32
  returns : ∀ n, t.offsetOf (t.positionOf n) = t.clamp n
  grows : ∀ m n, t.IsBoundary m → t.IsBoundary n → m < n → t.positionOf m < t.positionOf n
  boundary : ∀ p, t.IsBoundary (t.offsetOf p)
  column : ∀ p, (t.boundariesFrom p).Nonempty → IsLeast (t.boundariesFrom p) (t.offsetOf p)
  lineEnd : ∀ p, p.line ≤ t.count '\n' → ¬ (t.boundariesFrom p).Nonempty →
    IsGreatest (t.boundariesOn p.line) (t.offsetOf p)
  textEnd : ∀ p, t.count '\n' < p.line → t.offsetOf p = t.size
  mono : ∀ p q, p ≤ q → t.offsetOf p ≤ t.offsetOf q
  line : ∀ n, t.lineBounds n = ⟨t.offsetOf ⟨(t.positionOf n).line, 0⟩,
    t.offsetOf ⟨(t.positionOf n).line, 2 ^ 32 - 1⟩⟩

theorem isBoundary_offsetOf (t : Text) (p : Position) : t.IsBoundary (t.offsetOf p) := by
  obtain ⟨line, column⟩ := p
  rcases Nat.lt_or_ge (t.count '\n') line with hpast | hline
  · rw [offsetOf_of_count_lt hpast]
    exact isBoundary_size t
  · obtain ⟨l, rfl, rfl⟩ := exists_line t hline
    exact (l.offsetOf_mem column).1

/-- Texts of less than 2³² bytes, so that no line and no column is too large, convert exactly. -/
theorem convertsExactly (h : t.size < 2 ^ 32) : t.ConvertsExactly where
  narrow n := ⟨Nat.lt_of_le_of_lt (line_positionOf_le t n) h,
    Nat.lt_of_le_of_lt (column_positionOf_le t n) h⟩
  returns n := by
    rw [← positionOf_clamp]
    exact offsetOf_positionOf (isBoundary_clamp t n)
  grows _ _ := positionOf_strictMono
  boundary := isBoundary_offsetOf t
  column p hcolumn := by
    obtain ⟨line, column⟩ := p
    have hline : line ≤ t.count '\n' := by
      obtain ⟨n, ⟨-, hn⟩, -⟩ := hcolumn
      exact Nat.le_trans (Nat.le_of_eq hn.symm) (line_positionOf_le_count t n)
    obtain ⟨l, rfl, rfl⟩ := exists_line t hline
    exact l.isLeast_offsetOf hcolumn
  lineEnd p hline hcolumn := by
    obtain ⟨line, column⟩ := p
    obtain ⟨l, rfl, rfl⟩ := exists_line t hline
    exact l.isGreatest_offsetOf hcolumn
  textEnd _ := offsetOf_of_count_lt
  mono _ _ := offsetOf_mono t
  line n := by
    obtain ⟨l, rfl, hnumber, a, b, hbody, hn⟩ := exists_line_of_offset t n
    have hcount := l.unitCount_body_le
    rw [← hnumber]
    exact l.lineBounds_eq hbody hn (by omega)

/-- A column inside a pair of code units means the end of the character, and the second line runs
up to the line feed at the end of the text. -/
theorem convertsExactly_astral :
    let t : Text := "up\n😀é\n".toList
    t.size < 2 ^ 32 ∧ t.ConvertsExactly ∧ t.offsetOf ⟨1, 1⟩ = 7 ∧ t.positionOf 8 = ⟨1, 2⟩ ∧
      t.lineBounds 8 = ⟨3, 9⟩ := by
  dsimp only
  rw [String.toList_ofList]
  exact ⟨by decide, convertsExactly (by decide), by decide, by decide, by decide⟩

end Text

end PromqlAssist
