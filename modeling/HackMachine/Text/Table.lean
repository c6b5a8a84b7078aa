import HackMachine.Text.Utf8

/-! # Text tables

A table has a title across its full width, a header and rows, framed by `+`, `-` and `|`.  A column is
as wide as its widest cell; a title wider than the table goes on in further lines.
-/

namespace HackMachine

structure Column where
  header : Bytes
  right : Bool := false
  cells : List Bytes
  deriving DecidableEq, Repr, Inhabited

structure Table where
  title : Bytes
  columns : List Column
  deriving DecidableEq, Repr, Inhabited

namespace Column

def width (c : Column) : Nat := (c.header :: c.cells).foldl (fun w cell => max w cell.length) 0

def place (c : Column) (cell : Bytes) : Bytes :=
  if c.right then Bytes.padLeft c.width (byte ' ') cell else Bytes.padRight c.width cell

end Column

/-- A text cut into pieces of at most `width` bytes, at most `count` of them. -/
def pieces (width : Nat) : Nat → Bytes → List Bytes
  | 0, _ => []
  | count + 1, text =>
    if text.length ≤ width then [text] else text.take width :: pieces width count (text.drop width)

namespace Table

/-- A line of the frame with a joint between columns. -/
def ruler (t : Table) : Bytes :=
  ascii "+" ++ t.columns.flatMap fun c => Bytes.fill (c.width + 2) (byte '-') ++ ascii "+"

def inner (t : Table) : Nat := t.ruler.length - 4

def lid (t : Table) : Bytes := ascii "+" ++ Bytes.fill (t.inner + 2) (byte '-') ++ ascii "+"

def row (t : Table) (cell : Column → Bytes) : Bytes :=
  ascii "|" ++ t.columns.flatMap fun c => ascii " " ++ c.place (cell c) ++ ascii " |"

def height (t : Table) : Nat := t.columns.foldl (fun h c => max h c.cells.length) 0

def titleLines (t : Table) : List Bytes :=
  (pieces t.inner t.title.length t.title).map fun piece =>
    ascii "| " ++ Bytes.padRight t.inner piece ++ ascii " |"

def lines (t : Table) : List Bytes :=
  [t.lid] ++ t.titleLines ++ [t.ruler, t.row (·.header), t.ruler] ++
    (List.range t.height).map (fun i => t.row fun c => c.cells.getD i []) ++ [t.ruler]

end Table

end HackMachine
