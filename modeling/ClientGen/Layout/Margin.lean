/-!
# Room on a line

How wide a line may be, and how much of it nested text has already lost to indentation.
-/

namespace ClientGen

/-- The width of a line and the levels of indentation in front of it. -/
structure Margin where
  maxWidth : Int := 80
  indentLevel : Int := 0
deriving Repr, Inhabited, DecidableEq

namespace Margin

/-- The columns that are left on a line; there is always one. -/
def available (m : Margin) : Int := max (m.maxWidth - m.indentLevel * 2) 1

/-- The margin of text that is nested `levels` deeper. -/
def indented (m : Margin) (levels : Int) : Margin :=
  { m with indentLevel := m.indentLevel + levels }

end Margin

end ClientGen
