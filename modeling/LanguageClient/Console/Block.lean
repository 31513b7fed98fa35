import LanguageClient.Text.CodePoint

/-!
# Blocks of output

What the program shows is a list of blocks: lines of markup, panels with a border,
tables, and plain lines.  How a block is laid out on a terminal is not said here.
-/

namespace LanguageClient

/-- The side of a column to which its cells are moved. -/
inductive Alignment where
  | left
  | right
deriving DecidableEq

namespace Alignment

def name : Alignment → Text
  | left => "left"
  | right => "right"

end Alignment

/-- A body with a border around it.  Title and subtitle stand in the border. -/
structure Panel where
  body : Text
  title : Option Text
  subtitle : Option Text
  border : Text
  /-- Blank rows above and below the body, and blank columns beside it. -/
  padding : Nat × Nat
  /-- The panel takes the whole width. -/
  expand : Bool
  /-- Long lines are left to the terminal. -/
  softWrap : Bool
deriving DecidableEq

/-- Rows of cells below the headers of the columns. -/
structure Table where
  title : Text
  expand : Bool
  columns : List (Text × Alignment)
  rows : List (List Text)
deriving DecidableEq

inductive Block where
  | markup (text : Text)
  | panel (panel : Panel)
  | table (table : Table)
  /-- Text without markup. -/
  | plain (text : Text)
deriving DecidableEq

end LanguageClient
