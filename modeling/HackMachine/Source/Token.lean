import HackMachine.Source.Cause

/-! # Words of a source line

`lexLine` cuts a line into its lexemes, each with the columns it stands in.  Blanks separate lexemes
and `//` starts a comment.  A lexeme is a name, a number, a mark, or a constant expression `$( … )`,
which ends where its parentheses balance.  `scan` decides on the first lexeme alone; `lexFrom` walks
the line with it.
-/

namespace HackMachine

inductive Mark where
  | colon
  | equals
  | assign
  | comma
  | semicolon
  | plus
  | minus
  | ampersand
  | bar
  | bang
  | at
  | star
  deriving DecidableEq, Repr, Inhabited

def Mark.ofByte? (b : UInt8) : Option Mark :=
  if b == byte ':' then some .colon
  else if b == byte '=' then some .equals
  else if b == byte ',' then some .comma
  else if b == byte ';' then some .semicolon
  else if b == byte '+' then some .plus
  else if b == byte '-' then some .minus
  else if b == byte '&' then some .ampersand
  else if b == byte '|' then some .bar
  else if b == byte '!' then some .bang
  else if b == byte '@' then some .at
  else if b == byte '*' then some .star
  else none

inductive Lexeme where
  /-- A letter or underscore, then letters, digits and underscores. -/
  | name (text : Bytes)
  /-- A digit, then letters, digits and underscores. -/
  | number (text : Bytes)
  /-- The text between `$(` and its closing parenthesis. -/
  | constant (text : Bytes)
  | mark (mark : Mark)
  deriving DecidableEq, Repr, Inhabited

structure Token where
  lexeme : Lexeme
  pos : Pos
  deriving DecidableEq, Repr, Inhabited

inductive Scan where
  | blank
  | comment
  /-- A lexeme that takes `more` bytes behind the first. -/
  | lexeme (lexeme : Lexeme) (more : Nat)
  /-- No lexeme; the fault spans `more` bytes behind the first. -/
  | fault (cause : Cause) (more : Nat)
  deriving DecidableEq, Repr, Inhabited

/-- How many bytes stand before the parenthesis that closes the first of `depth + 1` open ones. -/
def closing (depth count : Nat) : Bytes → Option Nat
  | [] => none
  | b :: rest =>
    if b == byte '(' then closing (depth + 1) (count + 1) rest
    else if b == byte ')' then
      match depth with
      | 0 => some count
      | outer + 1 => closing outer (count + 1) rest
    else closing depth (count + 1) rest

def scan (b : UInt8) (rest : Bytes) : Scan :=
  if Bytes.isBlank b then .blank
  else if b == byte '/' && rest.head? == some (byte '/') then .comment
  else if Bytes.isLetter b then
    let tail := rest.takeWhile Bytes.isWord
    .lexeme (.name (b :: tail)) tail.length
  else if Bytes.isDigit b then
    let tail := rest.takeWhile Bytes.isWord
    .lexeme (.number (b :: tail)) tail.length
  else if b == byte '$' && rest.head? == some (byte '(') then
    match closing 0 0 (rest.drop 1) with
    | some count => .lexeme (.constant ((rest.drop 1).take count)) (count + 2)
    | none => .fault .unclosedConstant rest.length
  else if b == byte ':' && rest.head? == some (byte '=') then .lexeme (.mark .assign) 1
  else
    match Mark.ofByte? b with
    | some mark => .lexeme (.mark mark) 0
    | none => .fault .invalidCharacter 0

/-- The tokens of the part of a line that starts at `column`, behind those in `found`, which are in
reverse. -/
def lexFrom (line column : Nat) (found : List Token) : Bytes → Except (Pos × Cause) (List Token)
  | [] => .ok found.reverse
  | b :: rest =>
    match scan b rest with
    | .blank => lexFrom line (column + 1) found rest
    | .comment => .ok found.reverse
    | .lexeme lexeme more =>
      let next := column + 1 + more
      lexFrom line next (⟨lexeme, ⟨line, column, next⟩⟩ :: found) (rest.drop more)
    | .fault cause more => .error (⟨line, column, (column + 1 + more : Nat)⟩, cause)
termination_by text => text.length
decreasing_by all_goals simp; try omega

def lexLine (line : Nat) (text : Bytes) : Except (Pos × Cause) (List Token) := lexFrom line 1 [] text

end HackMachine
