/-!
# Spans

A `ElfLoader.Span` is a run of bytes, given by its first byte and its size, both of
them words. It stands for bytes of a file or for bytes of memory. The end of a span
that reaches past the top of the 32-bit space wraps around.
-/

namespace ElfLoader

/-- A run of bytes. -/
structure Span where
  /-- The first byte. -/
  start : UInt32
  /-- The number of bytes. -/
  size : UInt32
  deriving DecidableEq, Repr, Inhabited

namespace Span

/-- The byte behind the last one, in 32 bits. -/
def stop (s : Span) : UInt32 := s.start + s.size

/-- Whether a byte belongs to the span. -/
def contains (s : Span) (point : UInt32) : Bool := s.start ≤ point && point < s.stop

end Span

end ElfLoader
