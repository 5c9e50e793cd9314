import PromqlAssist.Text.Property.Alphabetic
import PromqlAssist.Text.Property.Invisible
import PromqlAssist.Text.Property.Mark
import PromqlAssist.Text.Property.Number
import PromqlAssist.Text.Property.Punctuation

/-!
# Character classes

Classes that are not confined to ASCII: the characters that hold a word together, letters and
numbers, and the characters that can be shown as they are.
-/

namespace PromqlAssist.Text

open Property

/-- Letters, marks, decimal digits, connector punctuation and join controls. A keyword only counts
as one when no such character stands in front of it. -/
def isWordChar (c : Char) : Bool :=
  if c.toNat < 0x80 then c = '_' || c.isAlphanum
  else alphabetic.holds c || otherMark.holds c || decimalDigit.holds c || connector.holds c
    || joinControl.holds c

/-- Alphabetic characters and numbers of every kind. -/
def isAlphanumeric (c : Char) : Bool :=
  if c.toNat < 0x80 then c.isAlphanum
  else alphabetic.holds c || decimalDigit.holds c || otherNumber.holds c

/-- Whether a character is visible by itself: the plain space and whatever is neither a control, a
separator, unassigned, nor an extension of the character before. -/
def isPlain (c : Char) : Bool :=
  if c.toNat < 0x80 then 0x20 ≤ c.toNat && c.toNat < 0x7f
  else !invisible.holds c && !graphemeExtend.holds c

end PromqlAssist.Text
