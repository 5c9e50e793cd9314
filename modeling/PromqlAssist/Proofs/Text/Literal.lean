import PromqlAssist.Proofs.Text.Blanked

/-!
# What a mask keeps

A reader of a masked text stands outside string literals exactly where a reader of the text does,
since of a literal the mask keeps the quotes. So masking twice is masking once, and a character that
is seen through the mask, quotes and blanks apart, cuts the text and its mask into parts that are
masked alike.
-/

namespace PromqlAssist.Text

namespace LiteralState

/-- The state behind a piece of text. -/
def after (state : LiteralState) (t : Text) : LiteralState :=
  t.foldl LiteralState.next state

@[simp] theorem after_nil (state : LiteralState) : state.after [] = state := rfl

@[simp] theorem after_cons (state : LiteralState) (c : Char) (t : Text) :
    state.after (c :: t) = (state.next c).after t := rfl

theorem after_append (state : LiteralState) (a b : Text) :
    state.after (a ++ b) = (state.after a).after b :=
  List.foldl_append

theorem next_outside_plain {c : Char} (hquote : c ≠ '"') :
    LiteralState.outside.next c = .outside :=
  if_neg hquote

theorem next_inside_plain {c : Char} (hquote : c ≠ '"') (hslash : c ≠ '\\') :
    LiteralState.inside.next c = .inside :=
  (if_neg hquote).trans (if_neg hslash)

/-- Only a quote leads out of a literal. -/
theorem next_inside_ne {c : Char} (hquote : c ≠ '"') : LiteralState.inside.next c ≠ .outside := by
  by_cases hslash : c = '\\'
  · subst hslash
    exact nofun
  · rw [next_inside_plain hquote hslash]
    exact nofun

/-- The state of a reader of the mask, in which nothing is escaped. -/
def masked : LiteralState → LiteralState
  | .outside => .outside
  | _ => .inside

theorem next_outside_masked (c : Char) :
    (LiteralState.outside.next c).masked = LiteralState.outside.next c := by
  show (if c = '"' then inside else outside).masked = if c = '"' then inside else outside
  split <;> rfl

theorem next_inside_masked {c : Char} (h : c ≠ '"') :
    (LiteralState.inside.next c).masked = .inside := by
  show (if c = '"' then outside else if c = '\\' then escaped else inside).masked = .inside
  rw [if_neg h]
  split <;> rfl

end LiteralState

open LiteralState

variable {t a b am bm w s : Text} {c d : Char} {state : LiteralState}

@[simp] theorem maskFrom_nil (state : LiteralState) : maskFrom state [] = [] := by
  cases state <;> rfl

theorem maskFrom_outside_cons (c : Char) (t : Text) :
    maskFrom .outside (c :: t) = c :: maskFrom (LiteralState.outside.next c) t := rfl

theorem maskFrom_append (state : LiteralState) (a b : Text) :
    maskFrom state (a ++ b) = maskFrom state a ++ maskFrom (state.after a) b := by
  induction a generalizing state with
  | nil => simp
  | cons c a ih =>
    cases state with
    | outside => simp only [List.cons_append, maskFrom, ih, after_cons]
    | inside => simp only [List.cons_append, maskFrom, ih, after_cons, List.append_assoc]
    | escaped => simp only [List.cons_append, maskFrom, ih, after_cons, List.append_assoc, next]

theorem size_maskFrom (state : LiteralState) (t : Text) : size (maskFrom state t) = size t :=
  (Blanked.maskFrom state t).size_eq.symm

@[simp] theorem size_mask (t : Text) : size t.mask = size t :=
  size_maskFrom .outside t

/-! ## Masking twice -/

/-- Blanks inside a literal are masked by themselves. -/
theorem maskFrom_inside_blanks (n : Nat) (t : Text) :
    maskFrom .inside (List.replicate n ' ' ++ t) = List.replicate n ' ' ++ maskFrom .inside t := by
  have hblank : blankFor ' ' = [' '] := by decide
  induction n with
  | zero => rfl
  | succ n ih =>
    rw [List.replicate_succ, List.cons_append, List.cons_append, maskFrom, if_neg (by decide),
      hblank, List.singleton_append]
    congr 1

theorem maskFrom_maskFrom (state : LiteralState) (t : Text) :
    maskFrom state.masked (maskFrom state t) = maskFrom state t := by
  induction t generalizing state with
  | nil => simp
  | cons c t ih =>
    cases state with
    | outside =>
      have hrest := ih (LiteralState.outside.next c)
      rw [next_outside_masked] at hrest
      show maskFrom .outside (c :: maskFrom (LiteralState.outside.next c) t) = _
      rw [maskFrom_outside_cons, hrest, maskFrom_outside_cons]
    | inside =>
      have hrest := ih (LiteralState.inside.next c)
      show maskFrom .inside (maskFrom .inside (c :: t)) = _
      rw [maskFrom]
      by_cases hc : c = '"'
      · subst hc
        rw [if_pos rfl, List.singleton_append, maskFrom, if_pos rfl, List.singleton_append]
        exact congrArg _ hrest
      · rw [next_inside_masked hc] at hrest
        rw [if_neg hc, blankFor, maskFrom_inside_blanks, hrest]
    | escaped =>
      have hrest := ih .inside
      show maskFrom .inside (blankFor c ++ maskFrom .inside t) = _
      rw [blankFor, maskFrom_inside_blanks]
      exact congrArg _ hrest

@[simp] theorem mask_mask (t : Text) : t.mask.mask = t.mask :=
  maskFrom_maskFrom .outside t

/-! ## Cutting a text at what its mask shows -/

/-- Whether a character that the mask shows stands outside literals. -/
def IsShown (c : Char) : Prop :=
  c ≠ ' ' ∧ c ≠ '"'

instance (c : Char) : Decidable (IsShown c) :=
  inferInstanceAs (Decidable (_ ∧ _))

/-- Parts of equal size are the same. -/
theorem append_inj_of_size (h : a ++ b = am ++ bm) (hsize : size a = size am) :
    a = am ∧ b = bm := by
  obtain ⟨r, ham, hb⟩ := exists_append_of_size_le h (Nat.le_of_eq hsize)
  have hr : r = [] := by
    apply size_eq_zero_iff.mp
    rw [ham, size_append] at hsize
    omega
  subst hr
  exact ⟨by simpa using ham.symm, hb⟩

theorem eq_outside_of_shown (h : maskFrom state (c :: t) = c :: s) (hc : IsShown c) :
    state = .outside := by
  have hhead : c ∉ blankFor c := fun hmem => hc.1 (eq_blank_of_mem_blankFor hmem)
  have hblank : ∀ rest, blankFor c ++ rest ≠ c :: s := by
    intro rest heq
    cases hfor : blankFor c with
    | nil =>
      have hsize := size_blankFor c
      have hpos := c.utf8Size_pos
      rw [hfor, size_nil] at hsize
      omega
    | cons d blanks =>
      rw [hfor] at heq hhead
      obtain ⟨rfl, -⟩ := List.cons.inj heq
      exact hhead (by simp)
  cases state with
  | outside => rfl
  | inside =>
    rw [maskFrom, if_neg hc.2] at h
    exact absurd h (hblank _)
  | escaped => exact absurd h (hblank _)

theorem next_of_shown (hc : IsShown c) : LiteralState.outside.next c = .outside :=
  next_outside_plain hc.2

/-- A character that the mask shows cuts the text into parts that are masked by themselves. -/
theorem exists_of_mask_append_cons (h : t.mask = am ++ c :: bm) (hc : IsShown c) :
    ∃ a b : Text, t = a ++ c :: b ∧ a.mask = am ∧ b.mask = bm ∧
      LiteralState.outside.after a = .outside := by
  have hblanked : Blanked t (am ++ c :: bm) := h ▸ .mask t
  obtain ⟨a, b, rfl, ha, -⟩ := hblanked.exists_of_append_cons hc.1
  rw [mask, maskFrom_append] at h
  obtain ⟨hfront, hrest⟩ := append_inj_of_size h ((size_mask a).trans ha.size_eq)
  have hstate := eq_outside_of_shown hrest hc
  rw [hstate, maskFrom_outside_cons, next_of_shown hc] at hrest
  exact ⟨a, b, rfl, hfront, (List.cons.inj hrest).2, hstate⟩

/-- So does a word of such characters, here at the start. -/
theorem exists_of_mask_word (h : t.mask = w ++ bm) (hw : ∀ c ∈ w, IsShown c) :
    ∃ b : Text, t = w ++ b ∧ b.mask = bm := by
  induction w generalizing t with
  | nil => exact ⟨t, rfl, h⟩
  | cons c w ih =>
    have hcut : t.mask = [] ++ c :: (w ++ bm) := h
    obtain ⟨a, r, rfl, ha, hr, -⟩ := exists_of_mask_append_cons hcut (hw c (by simp))
    have hnil : a = [] := by
      apply size_eq_zero_iff.mp
      rw [← size_mask, ha, size_nil]
    subst hnil
    obtain ⟨b, rfl, hb⟩ := ih hr fun d hd => hw d (by simp [hd])
    exact ⟨b, rfl, hb⟩

theorem exists_of_mask_append_word (h : t.mask = am ++ (w ++ bm)) (hw : ∀ c ∈ w, IsShown c)
    (hne : w ≠ []) : ∃ a b : Text, t = a ++ (w ++ b) ∧ a.mask = am ∧ b.mask = bm ∧
      LiteralState.outside.after a = .outside := by
  cases w with
  | nil => exact absurd rfl hne
  | cons c w =>
    obtain ⟨a, r, rfl, ha, hr, hstate⟩ := exists_of_mask_append_cons h (hw c (by simp))
    obtain ⟨b, rfl, hb⟩ := exists_of_mask_word hr fun d hd => hw d (by simp [hd])
    exact ⟨a, b, rfl, ha, hb, hstate⟩

theorem mem_of_mem_mask (h : c ∈ t.mask) (hc : IsShown c) : c ∈ t := by
  obtain ⟨am, bm, hmask⟩ := List.append_of_mem h
  obtain ⟨a, b, rfl, -⟩ := exists_of_mask_append_cons hmask hc
  simp

theorem infix_of_infix_mask (h : w <:+: t.mask) (hw : ∀ c ∈ w, IsShown c) (hne : w ≠ []) :
    w <:+: t := by
  obtain ⟨am, bm, hmask⟩ := h
  rw [List.append_assoc] at hmask
  obtain ⟨a, b, rfl, -⟩ := exists_of_mask_append_word hmask.symm hw hne
  exact List.infix_append' a w b

/-! ## Closed texts -/

/-- Whether every string literal of a text is closed, so that what follows stands outside. -/
def Closed (t : Text) : Prop :=
  LiteralState.outside.after t = .outside

instance (t : Text) : Decidable (Closed t) :=
  inferInstanceAs (Decidable (_ = _))

/-- Whether a character stands outside string literals somewhere in a text. -/
def OccursOutside (c : Char) (t : Text) : Prop :=
  ∃ a b, t = a ++ c :: b ∧ Closed a

theorem Closed.mask_append (h : Closed a) (b : Text) : mask (a ++ b) = a.mask ++ b.mask := by
  rw [mask, maskFrom_append, show LiteralState.outside.after a = .outside from h]
  rfl

theorem mask_cons_of_shown (hc : IsShown c) (t : Text) : mask (c :: t) = c :: t.mask := by
  rw [mask, maskFrom_outside_cons, next_of_shown hc]
  rfl

theorem mask_append_of_shown (hw : ∀ c ∈ w, IsShown c) (t : Text) : mask (w ++ t) = w ++ t.mask := by
  induction w with
  | nil => rfl
  | cons c w ih =>
    rw [List.cons_append, mask_cons_of_shown (hw c (by simp)), ih fun d hd => hw d (by simp [hd])]
    rfl

theorem Closed.mask_append_cons (h : Closed a) (hc : IsShown c) (b : Text) :
    mask (a ++ c :: b) = a.mask ++ c :: b.mask := by
  rw [h.mask_append, mask_cons_of_shown hc]

theorem mem_mask_iff (hc : IsShown c) : c ∈ t.mask ↔ OccursOutside c t := by
  constructor
  · intro h
    obtain ⟨am, bm, hmask⟩ := List.append_of_mem h
    obtain ⟨a, b, hcut, -, -, hclosed⟩ := exists_of_mask_append_cons hmask hc
    exact ⟨a, b, hcut, hclosed⟩
  · rintro ⟨a, b, rfl, hclosed⟩
    rw [Closed.mask_append_cons hclosed hc]
    simp

theorem not_occursOutside_iff (hc : IsShown c) : ¬ OccursOutside c t ↔ c ∉ t.mask :=
  not_congr (mem_mask_iff hc).symm

theorem mem_maskFrom_cons (h : d ∈ maskFrom (state.next c) t) : d ∈ maskFrom state (c :: t) := by
  cases state with
  | outside => exact List.mem_cons_of_mem _ h
  | inside => exact List.mem_append_right _ h
  | escaped => exact List.mem_append_right _ h

/-- Where the reader does not end outside, some quote was the last to open a literal, if that was not
open before, and all behind it is blanked. -/
theorem exists_open_of_after (h : state.after t ≠ .outside) :
    (state ≠ .outside ∧ maskFrom state t = List.replicate (size t) ' ') ∨
      ∃ front rest, t = front ++ '"' :: rest ∧ state.after front = .outside ∧
        maskFrom .inside rest = List.replicate (size rest) ' ' := by
  induction t generalizing state with
  | nil => exact .inl ⟨h, maskFrom_nil state⟩
  | cons c t ih =>
    rw [after_cons] at h
    obtain ⟨hnext, hblank⟩ | ⟨front, rest, rfl, hfront, hrest⟩ := ih h
    · cases state with
      | outside =>
        have hc : c = '"' := Decidable.of_not_not fun hc => hnext (next_outside_plain hc)
        subst hc
        exact .inr ⟨[], t, rfl, rfl, hblank⟩
      | inside =>
        have hc : c ≠ '"' := fun hc => hnext (if_pos hc)
        refine .inl ⟨by decide, ?_⟩
        rw [maskFrom, if_neg hc, hblank, blankFor, List.replicate_append_replicate, size_cons]
      | escaped =>
        refine .inl ⟨by decide, ?_⟩
        rw [maskFrom, show maskFrom .inside t = _ from hblank, blankFor,
          List.replicate_append_replicate, size_cons]
    · exact .inr ⟨c :: front, rest, rfl, hfront, hrest⟩

/-- A text with an open literal, cut at the quote that opened it. -/
theorem exists_open_of_not_closed (h : ¬ Closed t) : ∃ front rest, t = front ++ '"' :: rest ∧
    Closed front ∧ maskFrom .inside rest = List.replicate (size rest) ' ' := by
  obtain ⟨hstate, -⟩ | hopen := exists_open_of_after h
  · exact absurd rfl hstate
  · exact hopen

/-! ## Blanks around -/

/-- A mask is blank where the text is, since the first quote is kept. -/
@[simp] theorem isAllBlank_mask (t : Text) : isAllBlank t.mask = isAllBlank t := by
  show (maskFrom .outside t).all isBlank = t.all isBlank
  induction t with
  | nil => rfl
  | cons c t ih =>
    rw [maskFrom_outside_cons, List.all_cons, List.all_cons]
    by_cases hc : c = '"'
    · subst hc
      rfl
    · rw [next_outside_plain hc, ih]

theorem trimStart_mask (t : Text) : trimStart t.mask = (trimStart t).mask := by
  induction t with
  | nil => rfl
  | cons c t ih =>
    cases hc : isBlank c with
    | false =>
      rw [trimStart_of_head hc]
      exact trimStart_of_head hc _
    | true =>
      have hquote : c ≠ '"' := by
        rintro rfl
        exact absurd hc (by decide)
      rw [trimStart_blank hc, mask, maskFrom_outside_cons, next_outside_plain hquote,
        trimStart_blank hc]
      exact ih

end PromqlAssist.Text
