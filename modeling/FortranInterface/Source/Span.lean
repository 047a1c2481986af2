/-!
Where a piece of a source text stands: a half-open range of byte offsets.
-/

namespace FortranInterface

structure Span where
  start : Nat
  stop : Nat
  deriving DecidableEq, Inhabited

namespace Span

def Within (span : Span) (size : Nat) : Prop :=
  span.start ≤ span.stop ∧ span.stop ≤ size

def through (first last : Span) : Span :=
  ⟨first.start, last.stop⟩

end Span

end FortranInterface
