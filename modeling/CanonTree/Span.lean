/-!
# Source spans

Where a node stands in its source: a range of bytes, and the line and column of
the first byte.  A span is four machine words that are never checked against
each other, so a range may also be reversed; the operations that need an ordered
range say so.

`Span.cover` is the smallest range around two spans.  The dummy span, carried by
synthesized nodes, is its neutral element.
-/

namespace CanonTree

/-- A byte range with the line and column of its first byte, counted from 1. -/
structure Span where
  start : UInt32
  stop : UInt32
  line : UInt32
  column : UInt32
deriving DecidableEq, Ord, Inhabited

namespace Span

/-- Span of synthesized nodes that have no source of their own. -/
def dummy : Span := ⟨0, 0, 0, 0⟩

/-- The span with the given parts, unless its range is reversed. -/
def ofRange? (start stop line column : UInt32) : Option Span :=
  if start ≤ stop then some ⟨start, stop, line, column⟩ else none

/-- Number of bytes in the range, unless it is reversed. -/
def length? (span : Span) : Option Nat :=
  if span.start ≤ span.stop then some (span.stop.toNat - span.start.toNat) else none

def isEmpty (span : Span) : Bool :=
  span.start == span.stop

def isDummy (span : Span) : Bool :=
  span == dummy

/-- The smallest span around both.  Line and column are those of the span that starts first,
the left one on a tie; a dummy span counts for nothing. -/
def cover (left right : Span) : Span :=
  if left.isDummy then right
  else if right.isDummy then left
  else
    let first := if right.start < left.start then right else left
    ⟨first.start, max left.stop right.stop, first.line, first.column⟩

def coverAll (spans : List Span) : Span :=
  spans.foldl cover dummy

/-- A position for people, as in `2:5`. -/
def position (span : Span) : String :=
  toString span.line ++ ":" ++ toString span.column

def describe (span : Span) : String :=
  "Span \x7b start: " ++ toString span.start ++ ", end: " ++ toString span.stop ++
    ", line: " ++ toString span.line ++ ", column: " ++ toString span.column ++ " \x7d"

end Span

end CanonTree
