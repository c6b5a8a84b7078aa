import HackMachine.Text.Bytes

/-! # Positions in source text

A position is a line number and a span of columns; both count from one, columns count bytes, and the
end of a span is the column after its last byte.  `caret` shows a line with a marker under a span.
-/

namespace HackMachine

/-- A span of columns in one line. -/
structure Pos where
  line : Int
  start : Int
  stop : Int
  deriving DecidableEq, Repr, Inhabited

namespace Pos

def through (pos other : Pos) : Pos := { pos with stop := other.stop }

/-- The number of columns to mark for a span: at least one, and just one for a span from before the
first column that is wider than the largest 64-bit number. -/
def markWidth (pos : Pos) : Int :=
  if pos.start < 1 && 0x8000000000000000 ≤ pos.stop - pos.start then 1
  else max (pos.stop - pos.start) 1

def caret (line : Bytes) (pos : Pos) : Bytes :=
  line ++ [Bytes.newline] ++ Bytes.fill (pos.start - 1).toNat (byte ' ') ++
    Bytes.fill pos.markWidth.toNat (byte '^')

def slice (line : Bytes) (pos : Pos) : Bytes :=
  (line.drop (pos.start - 1).toNat).take (pos.stop - pos.start).toNat

end Pos

end HackMachine
