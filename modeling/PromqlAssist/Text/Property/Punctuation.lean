import PromqlAssist.Text.Property.Basic

/-!
# Joining characters

Punctuation and controls that hold a word together.
-/

namespace PromqlAssist.Text.Property

/-- The general category Connector_Punctuation. -/
def connector : Ranges :=
  [(0x5f, 0x5f), (0x203f, 0x2040), (0x2054, 0x2054), (0xfe33, 0xfe34), (0xfe4d, 0xfe4f),
   (0xff3f, 0xff3f)]

/-- The property Join_Control. -/
def joinControl : Ranges :=
  [(0x200c, 0x200d)]

end PromqlAssist.Text.Property
