import PromqlAssist.Proofs.Text.Basic
import PromqlAssist.Proofs.Text.CharClass
import PromqlAssist.Vocabulary.Function

/-!
# The words of well-formed queries

Names, numbers, durations, strings and label matchers. Each carries the proof that it is spelled as
the language asks. Whatever holds a string is written with a given spelling of strings, so that a
query and its mask are two spellings of one thing.
-/

namespace PromqlAssist.Grammar

open Text

/-- The name of a metric. Aggregation keywords are not available as names. -/
structure MetricName where
  text : Text
  isName : isMetricName text
  notKeyword : Operator.isAggregation text = false

/-- The name of a label, which may be an aggregation keyword. -/
structure LabelName where
  text : Text
  isName : isLabelName text

namespace MetricName

variable (m : MetricName)

theorem isIdent_of_mem {c : Char} (h : c ∈ m.text) : isIdent c := by
  obtain ⟨text, isName, notKeyword⟩ := m
  cases text with
  | nil => cases h
  | cons d text =>
    rw [isMetricName, Bool.and_eq_true] at isName
    rcases List.mem_cons.mp h with rfl | h
    · have hfirst := isName.1
      simp only [isIdent, Char.isAlphanum, Bool.or_eq_true] at hfirst ⊢
      exact hfirst.imp id .inl
    · exact List.all_eq_true.mp isName.2 c h

theorem text_ne_nil : m.text ≠ [] := by
  obtain ⟨text, isName, notKeyword⟩ := m
  rintro rfl
  cases isName

end MetricName

namespace LabelName

variable (l : LabelName)

theorem isLabelChar_of_mem {c : Char} (h : c ∈ l.text) : isLabelChar c := by
  obtain ⟨text, isName⟩ := l
  cases text with
  | nil => cases h
  | cons d text =>
    rw [isLabelName, Bool.and_eq_true] at isName
    rcases List.mem_cons.mp h with rfl | h
    · have hfirst := isName.1
      simp only [isLabelChar, Char.isAlphanum, Bool.or_eq_true] at hfirst ⊢
      exact hfirst.imp id .inl
    · exact List.all_eq_true.mp isName.2 c h

theorem isIdent_of_mem {c : Char} (h : c ∈ l.text) : isIdent c :=
  isIdent_of_isLabelChar (l.isLabelChar_of_mem h)

theorem text_ne_nil : l.text ≠ [] := by
  obtain ⟨text, isName⟩ := l
  rintro rfl
  cases isName

end LabelName

structure Digits where
  text : Text
  nonempty : text ≠ []
  digits : ∀ c ∈ text, c.isDigit

inductive Number where
  | integer (whole : Digits)
  | decimal (whole fraction : Digits)

namespace Number

def text : Number → Text
  | .integer whole => whole.text
  | .decimal whole fraction => whole.text ++ '.' :: fraction.text

theorem mem_text (v : Number) {c : Char} (h : c ∈ v.text) : isIdent c ∨ c = '.' := by
  cases v with
  | integer whole => exact .inl (isIdent_of_isDigit (whole.digits c h))
  | decimal whole fraction =>
    rcases List.mem_append.mp h with h | h
    · exact .inl (isIdent_of_isDigit (whole.digits c h))
    · rcases List.mem_cons.mp h with h | h
      · exact .inr h
      · exact .inl (isIdent_of_isDigit (fraction.digits c h))

end Number

/-- An amount of a unit of time. -/
structure Amount where
  count : Digits
  unit : TimeUnit
  known : unit ∈ TimeUnit.all

def Amount.text (a : Amount) : Text :=
  a.count.text ++ a.unit.symbol.toList

structure Duration where
  amounts : List Amount
  nonempty : amounts ≠ []

def Duration.text (d : Duration) : Text :=
  d.amounts.flatMap Amount.text

/-- What stands between square brackets: a duration, perhaps with a colon and a resolution. -/
inductive Range where
  | plain (range : Duration)
  | stepped (range : Duration) (resolution? : Option Duration)

namespace Range

def text : Range → Text
  | .plain range => range.text
  | .stepped range resolution? =>
    range.text ++ ':' :: (resolution?.map Duration.text).getD []

end Range

/-- A character of a string, or a backslash with the character that it escapes. -/
inductive StringPart where
  | plain (c : Char) (notQuote : c ≠ '"') (notBackslash : c ≠ '\\')
  | escaped (c : Char)

namespace StringPart

def text : StringPart → Text
  | .plain c _ _ => [c]
  | .escaped c => ['\\', c]

/-- As many blanks as the part has bytes. -/
def blanks : StringPart → Text
  | .plain c _ _ => blankFor c
  | .escaped c => ' ' :: blankFor c

end StringPart

/-- The contents of a string in double quotes. -/
abbrev StringLiteral := List StringPart

namespace StringLiteral

def text (s : StringLiteral) : Text :=
  '"' :: (s.flatMap StringPart.text ++ ['"'])

/-- The string with its contents blanked. -/
def masked (s : StringLiteral) : Text :=
  '"' :: (s.flatMap StringPart.blanks ++ ['"'])

end StringLiteral

/-- A comparison of a label with a string. -/
structure Matcher where
  label : LabelName
  op : Operator
  known : op ∈ Operator.matchers
  value : StringLiteral

/-- Texts with commas between them. -/
def commaList (first : Text) (more : List Text) : Text :=
  first ++ more.flatMap fun t => ',' :: ' ' :: t

/-- The label matchers of a selector. -/
structure Block where
  first : Matcher
  more : List Matcher

structure Selector where
  metric : MetricName
  block? : Option Block

/-- The labels of a grouping clause. -/
structure Labels where
  first : LabelName
  more : List LabelName

def Labels.text (l : Labels) : Text :=
  commaList l.first.text (l.more.map (·.text))

theorem Labels.mem_text (l : Labels) {c : Char} (h : c ∈ l.text) :
    isIdent c ∨ c = ',' ∨ c = ' ' := by
  rcases List.mem_append.mp h with h | h
  · exact .inl (l.first.isIdent_of_mem h)
  · obtain ⟨t, ht, hc⟩ := List.mem_flatMap.mp h
    obtain ⟨label, -, rfl⟩ := List.mem_map.mp ht
    rcases List.mem_cons.mp hc with hc | hc
    · exact .inr (.inl hc)
    · rcases List.mem_cons.mp hc with hc | hc
      · exact .inr (.inr hc)
      · exact .inl (label.isIdent_of_mem hc)

/-- A grouping clause such as `by (job, instance)`. -/
structure Clause where
  keyword : Operator
  known : keyword ∈ Operator.groupings
  labels : Labels

def Clause.text (c : Clause) : Text :=
  c.keyword.token.toList ++ ' ' :: '(' :: (c.labels.text ++ [')'])

section Render

-- `spell` is the spelling of strings.
variable (spell : StringLiteral → Text)

def Matcher.render (m : Matcher) : Text :=
  m.label.text ++ (m.op.token.toList ++ spell m.value)

def Block.render (b : Block) : Text :=
  commaList (b.first.render spell) (b.more.map (Matcher.render spell))

def Selector.render (s : Selector) : Text :=
  s.metric.text ++ (s.block?.map fun b => '{' :: (b.render spell ++ ['}'])).getD []

end Render

end PromqlAssist.Grammar
