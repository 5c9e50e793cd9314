import Mathlib.Data.List.Induction
import PromqlAssist.Format.Utf8
import PromqlAssist.Proofs.Text.Literal

/-!
# What a mask blanks

String literals are told here by what may stand between two quotes, without a reader that goes from
character to character. `standsInside_iff` says that the reader of the mask is inside a literal where
this is so. So of every text the mask keeps the bytes that stand outside literals and the quotes around
them, and blanks the others, each where it was.
-/

namespace PromqlAssist.Text

/-- What may stand between the quotes of a literal: characters that are neither quotes nor
backslashes, and backslashes with any character behind each. -/
inductive IsContent : Text → Prop where
  | nil : IsContent []
  | plain {c : Char} {t : Text} (hquote : c ≠ '"') (hslash : c ≠ '\\') (h : IsContent t) :
      IsContent (c :: t)
  | escaped (c : Char) {t : Text} (h : IsContent t) : IsContent ('\\' :: c :: t)

/-- Texts of literals that are closed, with any characters but quotes between them. -/
inductive ClosesLiterals : Text → Prop where
  | nil : ClosesLiterals []
  | plain {c : Char} {t : Text} (hquote : c ≠ '"') (h : ClosesLiterals t) : ClosesLiterals (c :: t)
  | literal {body t : Text} (hbody : IsContent body) (h : ClosesLiterals t) :
      ClosesLiterals ('"' :: (body ++ '"' :: t))

/-- Whether a character behind a text stands strictly inside a literal: what stands behind the quote
that opened the literal, the character with it, is the start of a content. -/
def StandsInside (front : Text) (c : Char) : Prop :=
  ∃ closed body later, front = closed ++ '"' :: body ∧ ClosesLiterals closed ∧
    IsContent (body ++ c :: later)

/-- Whether the byte at an offset is one of a character strictly inside a literal. -/
def InsideLiteral (t : Text) (i : Nat) : Prop :=
  ∃ front c rest, t = front ++ c :: rest ∧ size front ≤ i ∧ i < size front + c.utf8Size ∧
    StandsInside front c

/-- How a mask goes with its text. Every byte strictly inside a literal is a space, and every other
byte is that of the text. Of a literal the bytes strictly inside are those between its quotes, and
if it is never closed all bytes to the end of the text. -/
structure MaskLaw (t : Text) : Prop where
  size_eq : t.mask.size = t.size
  boundary : ∀ n, t.IsBoundary n → t.mask.IsBoundary n
  blanked : ∀ i, t.InsideLiteral i → (Utf8.encode t.mask)[i]? = some 32
  kept : ∀ i, ¬ t.InsideLiteral i → (Utf8.encode t.mask)[i]? = (Utf8.encode t)[i]?
  literal : ∀ closed body rest, ClosesLiterals closed → IsContent body →
    t = closed ++ '"' :: (body ++ '"' :: rest) →
      ∀ i, size closed ≤ i → i ≤ size closed + 1 + size body →
        (t.InsideLiteral i ↔ size closed < i ∧ i < size closed + 1 + size body)
  unterminated : ∀ closed rest, ClosesLiterals closed → t = closed ++ '"' :: rest →
    (∀ body later, rest = body ++ '"' :: later → ¬ IsContent body) →
      ∀ i, size closed < i → i < size t → t.InsideLiteral i
  again : t.mask.mask = t.mask

open LiteralState

/-- Where a reader of a text stands: behind closed literals, or in a literal behind them, of which it
has read a content or a content and a backslash. -/
inductive Reading : LiteralState → Text → Prop where
  | outside {t : Text} (h : ClosesLiterals t) : Reading .outside t
  | inside {closed body : Text} (h : ClosesLiterals closed) (hbody : IsContent body) :
      Reading .inside (closed ++ '"' :: body)
  | escaped {closed body : Text} (h : ClosesLiterals closed) (hbody : IsContent body) :
      Reading .escaped (closed ++ '"' :: (body ++ ['\\']))

variable {t a b front rest body closed : Text} {c : Char} {state : LiteralState} {i : Nat}

/-! ## The reader and the contents -/

/-- No content is left by any first part of it. -/
theorem IsContent.after_ne (h : IsContent (a ++ b)) : LiteralState.inside.after a ≠ .outside := by
  generalize ht : a ++ b = t at h
  induction h generalizing a with
  | nil =>
    obtain ⟨rfl, -⟩ := List.append_eq_nil_iff.mp ht
    exact nofun
  | plain hquote hslash _ ih =>
    cases a with
    | nil => exact nofun
    | cons d a =>
      obtain ⟨rfl, hrest⟩ := List.cons.inj ht
      rw [after_cons, next_inside_plain hquote hslash]
      exact ih hrest
  | escaped c _ ih =>
    match a with
    | [] => exact nofun
    | [d] =>
      obtain ⟨rfl, -⟩ := List.cons.inj ht
      exact nofun
    | d :: e :: a =>
      obtain ⟨rfl, hrest⟩ := List.cons.inj ht
      obtain ⟨rfl, hlater⟩ := List.cons.inj hrest
      show LiteralState.inside.after a ≠ .outside
      exact ih hlater

theorem IsContent.after_eq (h : IsContent t) : LiteralState.inside.after t = .inside := by
  induction h with
  | nil => rfl
  | plain hquote hslash _ ih => rw [after_cons, next_inside_plain hquote hslash, ih]
  | escaped c _ ih => exact ih

theorem IsContent.append (ha : IsContent a) (hb : IsContent b) : IsContent (a ++ b) := by
  induction ha with
  | nil => exact hb
  | plain hquote hslash _ ih => exact .plain hquote hslash ih
  | escaped c _ ih => exact .escaped c ih

theorem ClosesLiterals.after_eq (h : ClosesLiterals t) : LiteralState.outside.after t = .outside := by
  induction h with
  | nil => rfl
  | plain hquote _ ih => rw [after_cons, next_outside_plain hquote, ih]
  | literal hbody _ ih =>
    rw [after_cons, show LiteralState.outside.next '"' = .inside from rfl,
      LiteralState.after_append, hbody.after_eq]
    exact ih

theorem ClosesLiterals.append (ha : ClosesLiterals a) (hb : ClosesLiterals b) :
    ClosesLiterals (a ++ b) := by
  induction ha with
  | nil => exact hb
  | plain hquote _ ih => exact .plain hquote ih
  | literal hbody _ ih =>
    rw [List.cons_append, List.append_assoc]
    exact .literal hbody ih

theorem Reading.concat (h : Reading state t) (c : Char) : Reading (state.next c) (t ++ [c]) := by
  cases h with
  | outside h =>
    by_cases hc : c = '"'
    · subst hc
      exact .inside h .nil
    · rw [next_outside_plain hc]
      exact .outside (h.append (.plain hc .nil))
  | inside h hbody =>
    rw [List.append_assoc, List.cons_append]
    by_cases hquote : c = '"'
    · subst hquote
      exact .outside (h.append (.literal hbody .nil))
    · by_cases hslash : c = '\\'
      · subst hslash
        exact .escaped h hbody
      · rw [next_inside_plain hquote hslash]
        exact .inside h (hbody.append (.plain hquote hslash .nil))
  | escaped h hbody =>
    rw [List.append_assoc, List.cons_append, List.append_assoc]
    exact .inside h (hbody.append (.escaped c .nil))

theorem reading (t : Text) : Reading (LiteralState.outside.after t) t := by
  induction t using List.reverseRecOn with
  | nil => exact .outside .nil
  | append_singleton t c ih =>
    rw [LiteralState.after_append]
    exact ih.concat c

theorem after_open (hclosed : ClosesLiterals closed) (body : Text) :
    LiteralState.outside.after (closed ++ '"' :: body) = LiteralState.inside.after body := by
  rw [LiteralState.after_append, hclosed.after_eq]
  rfl

/-- A character stands strictly inside a literal exactly if the reader is inside before it and behind
it. -/
theorem standsInside_iff : StandsInside front c ↔
    LiteralState.outside.after front ≠ .outside ∧
      (LiteralState.outside.after front).next c ≠ .outside := by
  constructor
  · rintro ⟨closed, body, later, rfl, hclosed, hcontent⟩
    rw [after_open hclosed]
    refine ⟨hcontent.after_ne, ?_⟩
    rw [List.append_cons] at hcontent
    have hbehind := hcontent.after_ne
    rwa [LiteralState.after_append] at hbehind
  · rintro ⟨hbefore, hbehind⟩
    have hreading := reading front
    generalize LiteralState.outside.after front = state at hreading hbefore hbehind
    cases hreading with
    | outside => exact absurd rfl hbefore
    | @inside closed body h hbody =>
      have hquote : c ≠ '"' := by
        rintro rfl
        exact hbehind rfl
      by_cases hslash : c = '\\'
      · subst hslash
        exact ⟨closed, body, [' '], rfl, h, hbody.append (.escaped ' ' .nil)⟩
      · exact ⟨closed, body, [], rfl, h, hbody.append (.plain hquote hslash .nil)⟩
    | @escaped closed body h hbody =>
      refine ⟨closed, body ++ ['\\'], [], rfl, h, ?_⟩
      rw [List.append_assoc]
      exact hbody.append (.escaped c .nil)

/-- The quote that opens a literal does not stand inside it. -/
theorem not_standsInside_opening (hclosed : ClosesLiterals closed) : ¬ StandsInside closed '"' := by
  rw [standsInside_iff, hclosed.after_eq]
  exact fun h => h.1 rfl

/-- The quote that closes a literal does not stand inside it. -/
theorem not_standsInside_closing (hclosed : ClosesLiterals closed) (hbody : IsContent body) :
    ¬ StandsInside (closed ++ '"' :: body) '"' := by
  rw [standsInside_iff, after_open hclosed, hbody.after_eq]
  exact fun h => h.2 rfl

/-- A reader that leaves a literal has read a content and a quote. -/
theorem exists_content_of_after (h : LiteralState.inside.after t = .outside) :
    ∃ body later, t = body ++ '"' :: later ∧ IsContent body := by
  have hread : ∀ t : Text,
      (LiteralState.inside.after t = .outside → ∃ body later, t = body ++ '"' :: later ∧
        IsContent body) ∧
      (LiteralState.escaped.after t = .outside → ∃ body later, t = body ++ '"' :: later ∧
        IsContent ('\\' :: body)) := by
    intro t
    induction t with
    | nil => exact ⟨nofun, nofun⟩
    | cons c t ih =>
      constructor
      · intro h
        by_cases hquote : c = '"'
        · exact ⟨[], t, hquote ▸ rfl, .nil⟩
        · by_cases hslash : c = '\\'
          · subst hslash
            obtain ⟨body, later, rfl, hbody⟩ := ih.2 h
            exact ⟨'\\' :: body, later, rfl, hbody⟩
          · rw [after_cons, next_inside_plain hquote hslash] at h
            obtain ⟨body, later, rfl, hbody⟩ := ih.1 h
            exact ⟨c :: body, later, rfl, .plain hquote hslash hbody⟩
      · intro h
        obtain ⟨body, later, rfl, hbody⟩ := ih.1 h
        exact ⟨c :: body, later, rfl, .escaped c hbody⟩
  exact (hread t).1 h

/-! ## Bytes -/

theorem utf8Size_quote : ('"' : Char).utf8Size = 1 := by decide

theorem size_open (closed body : Text) :
    size (closed ++ '"' :: body) = size closed + 1 + size body := by
  rw [size_append, size_cons, utf8Size_quote, Nat.add_assoc]

/-- Every byte of a text is one of some character. -/
theorem exists_char (h : i < size t) :
    ∃ front c rest, t = front ++ c :: rest ∧ size front ≤ i ∧ i < size front + c.utf8Size := by
  induction t generalizing i with
  | nil => exact absurd h (Nat.not_lt_zero i)
  | cons c t ih =>
    rcases Nat.lt_or_ge i c.utf8Size with hhead | hhead
    · exact ⟨[], c, t, rfl, Nat.zero_le i, by simpa using hhead⟩
    · rw [size_cons] at h
      obtain ⟨front, d, rest, rfl, hle, hlt⟩ := ih (i := i - c.utf8Size) (by omega)
      refine ⟨c :: front, d, rest, rfl, ?_, ?_⟩ <;> rw [size_cons] <;> omega

theorem front_eq_of_byte {d : Char} {front' rest' : Text}
    (h : front ++ c :: rest = front' ++ d :: rest') (hle : size front ≤ i)
    (hlt : i < size front + c.utf8Size) (hle' : size front' ≤ i)
    (hlt' : i < size front' + d.utf8Size) : front = front' ∧ c = d := by
  wlog horder : size front ≤ size front'
  · obtain ⟨hfront, hchar⟩ := this h.symm hle' hlt' hle hlt (Nat.le_of_not_le horder)
    exact ⟨hfront.symm, hchar.symm⟩
  obtain ⟨between, rfl, hbetween⟩ := exists_append_of_size_le h horder
  cases between with
  | nil => exact ⟨(List.append_nil front).symm, (List.cons.inj hbetween).1⟩
  | cons e between =>
    -- The second character would start behind the first.
    obtain ⟨rfl, -⟩ := List.cons.inj hbetween
    rw [size_append, size_cons] at hle'
    omega

/-- One way to cut the text at a byte decides where it stands. -/
theorem insideLiteral_iff (hle : size front ≤ i) (hlt : i < size front + c.utf8Size) (rest : Text) :
    InsideLiteral (front ++ c :: rest) i ↔ StandsInside front c := by
  constructor
  · rintro ⟨front', d, rest', h, hle', hlt', hinside⟩
    obtain ⟨rfl, rfl⟩ := front_eq_of_byte h hle hlt hle' hlt'
    exact hinside
  · exact fun hinside => ⟨front, c, rest, rfl, hle, hlt, hinside⟩

theorem getElem?_encode_middle (a b s : Text) (hle : size a ≤ i) (hlt : i < size a + size b) :
    (Utf8.encode (a ++ (b ++ s)))[i]? = (Utf8.encode b)[i - size a]? := by
  rw [Utf8.encode_append, List.getElem?_append_right (by rwa [Utf8.length_encode]),
    Utf8.length_encode, Utf8.encode_append,
    List.getElem?_append_left (by rw [Utf8.length_encode]; omega)]

theorem encode_blankFor (c : Char) :
    Utf8.encode (blankFor c) = List.replicate c.utf8Size (32 : UInt8) := by
  have hspace : String.utf8EncodeChar ' ' = [32] := by decide
  rw [Utf8.encode, blankFor, List.flatMap_replicate, hspace, List.flatten_replicate_singleton]

theorem maskFrom_singleton (state : LiteralState) (c : Char) : maskFrom state [c] =
    if state ≠ .outside ∧ state.next c ≠ .outside then blankFor c else [c] := by
  cases state with
  | outside => rfl
  | inside =>
    by_cases hquote : c = '"'
    · subst hquote
      rfl
    · rw [if_pos ⟨by decide, next_inside_ne hquote⟩, maskFrom, if_neg hquote, maskFrom_nil,
        List.append_nil]
  | escaped =>
    have hnext : LiteralState.escaped.next c ≠ .outside := by
      show LiteralState.inside ≠ .outside
      decide
    rw [if_pos ⟨by decide, hnext⟩, maskFrom, maskFrom_nil, List.append_nil]

/-- The byte of a mask where the text has one of a character. -/
theorem getElem?_encode_mask (hle : size front ≤ i) (hlt : i < size front + c.utf8Size)
    (rest : Text) : (Utf8.encode (mask (front ++ c :: rest)))[i]? =
      (Utf8.encode (maskFrom (LiteralState.outside.after front) [c]))[i - size front]? := by
  have hmiddle : size (maskFrom (LiteralState.outside.after front) [c]) = c.utf8Size := by
    rw [size_maskFrom, size_cons, size_nil, Nat.add_zero]
  have hfront : size (maskFrom .outside front) = size front := size_maskFrom _ _
  rw [← List.singleton_append, mask, maskFrom_append, maskFrom_append, getElem?_encode_middle]
  · rw [hfront]
  · rwa [hfront]
  · rwa [hfront, hmiddle]

/-! ## The law -/

theorem getElem?_of_insideLiteral (h : t.InsideLiteral i) : (Utf8.encode t.mask)[i]? = some 32 := by
  obtain ⟨front, c, rest, rfl, hle, hlt, hinside⟩ := h
  rw [getElem?_encode_mask hle hlt, maskFrom_singleton, if_pos (standsInside_iff.mp hinside),
    encode_blankFor, List.getElem?_replicate_of_lt (by omega)]

theorem getElem?_of_not_insideLiteral (h : ¬ t.InsideLiteral i) :
    (Utf8.encode t.mask)[i]? = (Utf8.encode t)[i]? := by
  rcases Nat.lt_or_ge i (size t) with hlt | hge
  · obtain ⟨front, c, rest, rfl, hle, hlt⟩ := exists_char hlt
    rw [insideLiteral_iff hle hlt, standsInside_iff] at h
    have htext : (Utf8.encode (front ++ ([c] ++ rest)))[i]? = (Utf8.encode [c])[i - size front]? :=
      getElem?_encode_middle front [c] rest hle (by simpa using hlt)
    rw [getElem?_encode_mask hle hlt, maskFrom_singleton, if_neg h]
    exact htext.symm
  · rw [List.getElem?_eq_none (by rwa [Utf8.length_encode, size_mask]),
      List.getElem?_eq_none (by rwa [Utf8.length_encode])]

theorem isBoundary_mask {n : Nat} (h : t.IsBoundary n) : t.mask.IsBoundary n := by
  obtain ⟨a, b, rfl, rfl⟩ := h.exists_append
  rw [mask, maskFrom_append]
  conv => arg 2; rw [← size_maskFrom .outside a]
  exact isBoundary_size_append _ _

/-- Inside a literal that is closed stands what is between its quotes. -/
theorem insideLiteral_literal_iff (hclosed : ClosesLiterals closed) (hbody : IsContent body)
    (hle : size closed ≤ i) (hlt : i ≤ size closed + 1 + size body) :
    InsideLiteral (closed ++ '"' :: (body ++ '"' :: rest)) i ↔
      size closed < i ∧ i < size closed + 1 + size body := by
  rcases Nat.eq_or_lt_of_le hle with rfl | hlow
  · rw [insideLiteral_iff (Nat.le_refl _) (by rw [utf8Size_quote]; omega)]
    simp [not_standsInside_opening hclosed]
  · rcases Nat.eq_or_lt_of_le hlt with rfl | hhigh
    · have hfront := size_open closed body
      have hcut : closed ++ '"' :: (body ++ '"' :: rest) =
          (closed ++ '"' :: body) ++ '"' :: rest := by simp
      rw [hcut, insideLiteral_iff (Nat.le_of_eq hfront) (by rw [hfront, utf8Size_quote]; omega)]
      simp [not_standsInside_closing hclosed hbody]
    · refine iff_of_true ?_ ⟨hlow, hhigh⟩
      obtain ⟨a, c, b, rfl, hle', hlt'⟩ :=
        exists_char (t := body) (i := i - (size closed + 1)) (by omega)
      have hfront := size_open closed a
      refine ⟨closed ++ '"' :: a, c, b ++ '"' :: rest, by simp, ?_, ?_,
        closed, a, b, rfl, hclosed, hbody⟩ <;> omega

/-- Inside a literal that is never closed stands all that is behind its quote. -/
theorem insideLiteral_unterminated (hclosed : ClosesLiterals closed)
    (hopen : ∀ body later, rest = body ++ '"' :: later → ¬ IsContent body)
    (hlow : size closed < i) (hhigh : i < size (closed ++ '"' :: rest)) :
    InsideLiteral (closed ++ '"' :: rest) i := by
  have hinside : ∀ a b, rest = a ++ b → LiteralState.inside.after a ≠ .outside := by
    rintro a b rfl hafter
    obtain ⟨body, later, rfl, hbody⟩ := exists_content_of_after hafter
    exact hopen body (later ++ b) (by simp) hbody
  rw [size_open] at hhigh
  obtain ⟨a, c, b, rfl, hle, hlt⟩ := exists_char (t := rest) (i := i - (size closed + 1)) (by omega)
  have hfront := size_open closed a
  have hnext : (LiteralState.inside.after a).next c ≠ .outside := by
    have hlonger := hinside (a ++ [c]) b (by simp)
    rwa [LiteralState.after_append] at hlonger
  refine ⟨closed ++ '"' :: a, c, b, by simp, by omega, by omega, ?_⟩
  rw [standsInside_iff, after_open hclosed]
  exact ⟨hinside a (c :: b) rfl, hnext⟩

/-- What the reader of the mask does is told by the contents of literals alone. -/
theorem maskLaw_mask (t : Text) : MaskLaw t where
  size_eq := size_mask t
  boundary _ := isBoundary_mask
  blanked _ := getElem?_of_insideLiteral
  kept _ := getElem?_of_not_insideLiteral
  literal closed body rest hclosed hbody h i hle hlt :=
    h ▸ insideLiteral_literal_iff hclosed hbody hle hlt
  unterminated closed rest hclosed h hopen i hlow hhigh := by
    subst h
    exact insideLiteral_unterminated hclosed hopen hlow hhigh
  again := mask_mask t

end PromqlAssist.Text
