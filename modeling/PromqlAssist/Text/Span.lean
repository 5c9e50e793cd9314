import PromqlAssist.Text.Basic

/-!
# Spans

A span is a half-open range of offsets.
-/

namespace PromqlAssist

/-- The offsets from `start` up to, not including, `stop`. -/
structure Span where
  start : Nat
  stop : Nat
deriving DecidableEq, Repr, Inhabited

namespace Span

/-- The empty span at an offset. -/
def point (offset : Nat) : Span :=
  ⟨offset, offset⟩

/-- The span of `length` bytes from `start` on. -/
def ofLength (start length : Nat) : Span :=
  ⟨start, start + length⟩

/-- The number of bytes, unless the span runs backwards. -/
def length? (s : Span) : Option Nat :=
  if s.start ≤ s.stop then some (s.stop - s.start) else none

def isEmpty (s : Span) : Bool :=
  s.start = s.stop

/-- Both ends count, so a cursor right after a word touches the word. -/
def touches (s : Span) (offset : Nat) : Bool :=
  s.start ≤ offset && offset ≤ s.stop

/-- Whether the span cuts out a part of `t`. -/
def Fits (s : Span) (t : Text) : Prop :=
  s.start ≤ s.stop ∧ t.IsBoundary s.start ∧ t.IsBoundary s.stop

instance (s : Span) (t : Text) : Decidable (s.Fits t) :=
  inferInstanceAs (Decidable (_ ∧ _ ∧ _))

/-- The part of `t` that the span cuts out. -/
def slice (s : Span) (t : Text) : Text :=
  t.slice s.start s.stop

/-- `t` with the part in the span replaced. -/
def replace (s : Span) (t new : Text) : Text :=
  t.before s.start ++ new ++ t.after s.stop

def shift (s : Span) (n : Nat) : Span :=
  ⟨s.start + n, s.stop + n⟩

end Span

end PromqlAssist
