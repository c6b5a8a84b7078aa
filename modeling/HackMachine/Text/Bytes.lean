/-! # Texts as byte sequences

A source file may hold any bytes, and its columns count bytes, so every text of the library is a
list of bytes.  The module holds the spelling of literals (`ascii`, `byte`), the byte classes of
the assembly language, and the cut of a text into lines:

* `lines` — the lines of a text, each without its line feed;
* `dropReturn` — a line without the one carriage return that may end it.
-/

namespace HackMachine

abbrev Bytes := List UInt8

def byte (c : Char) : UInt8 := c.toUInt8

def ascii (text : String) : Bytes := text.toList.map byte

namespace Bytes

/-! ## Byte classes -/

/-- Space, tab and carriage return separate the words of a line. -/
def isBlank (b : UInt8) : Bool := b == byte ' ' || b == byte '\t' || b == byte '\r'

def isDigit (b : UInt8) : Bool := byte '0' ≤ b && b ≤ byte '9'

/-- A letter or the underscore: what a name starts with. -/
def isLetter (b : UInt8) : Bool :=
  b == byte '_' || (byte 'a' ≤ b && b ≤ byte 'z') || (byte 'A' ≤ b && b ≤ byte 'Z')

def isWord (b : UInt8) : Bool := isLetter b || isDigit b

def toLower (b : UInt8) : UInt8 :=
  if byte 'A' ≤ b && b ≤ byte 'Z' then b + 32 else b

/-! ## Lines -/

def newline : UInt8 := byte '\n'

/-- The lines of a text.  A line feed ends a line; a last line without one counts too. -/
def lines (text : Bytes) : List Bytes :=
  text.foldr (fun b rest =>
    if b == newline then [] :: rest
    else match rest with
      | [] => [[b]]
      | line :: more => (b :: line) :: more) []

def dropReturn (line : Bytes) : Bytes :=
  if line.getLast? == some (byte '\r') then line.dropLast else line

def join (separator : Bytes) (texts : List Bytes) : Bytes := (texts.intersperse separator).flatten

def unlines (texts : List Bytes) : Bytes := texts.flatMap (· ++ [newline])

/-! ## Padding -/

def fill (count : Nat) (b : UInt8) : Bytes := List.replicate count b

/-- A text brought to at least `width` bytes by copies of `b` in front. -/
def padLeft (width : Nat) (b : UInt8) (text : Bytes) : Bytes := fill (width - text.length) b ++ text

end Bytes

end HackMachine
