/-!
# Coordinates in the input

A coordinate names the character that will be taken next, by line and column. Both count from
one, and columns count characters. Before the first line has been fetched the line is zero.
-/

namespace ArithLexer

/-- A line and a column. -/
@[ext]
structure Coordinate where
  line : Nat
  column : Nat
deriving DecidableEq, Repr

namespace Coordinate

/-- The coordinate before any line has been fetched. -/
def beforeInput : Coordinate := ⟨0, 1⟩

instance : Inhabited Coordinate := ⟨beforeInput⟩

/-- The coordinate after one more character of the line. -/
def nextColumn (p : Coordinate) : Coordinate := { p with column := p.column + 1 }

/-- The coordinate at the head of the following line. -/
def nextLine (p : Coordinate) : Coordinate := ⟨p.line + 1, 1⟩

/-- Line and column with a colon between them. -/
def display (p : Coordinate) : String := p.line.repr ++ ":" ++ p.column.repr

end Coordinate
end ArithLexer
