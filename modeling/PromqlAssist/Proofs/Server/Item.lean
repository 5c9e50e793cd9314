import PromqlAssist.Proofs.Completion.Placement
import PromqlAssist.Proofs.Server.Diagnostic
import PromqlAssist.Proofs.Text.Line
import PromqlAssist.Server.Backend

/-!
# Where completion items edit

A client is sent the ends of an edit as positions. The edit contains the position that was asked
about and ends on its line. It starts there as well: words and values have no line feed in them.
Only a time range may have been opened further up, for all that follows its bracket is replaced.
-/

namespace PromqlAssist

open Text

variable {vocabulary : Vocabulary} {t : Text} {n limit : Nat} {p : Proposal}

namespace Completion

end Completion

namespace Placeholder

variable {found : Placeholder}

end Placeholder

/-! ## Spans of proposals -/

namespace RangeAbove

variable {front behind : Text}

end RangeAbove

/-! ## Ranges of items -/

namespace Backend

theorem document?_openDocument (vocabulary : Vocabulary) (options : SessionOptions) (now : Nat)
    (uri : String) (version : Int) (text : Text) :
    ((start vocabulary options).openDocument now uri version text).documents.document? uri =
      some ⟨version, text⟩ := by
  simp [openDocument, scheduleValidation, start, DocumentStore.update, DocumentStore.document?,
    Keyed.get?, Keyed.put]

end Backend

end PromqlAssist
