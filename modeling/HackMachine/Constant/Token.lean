import HackMachine.Constant.Failure
import HackMachine.Text.Letter
import HackMachine.Text.Numeral
import HackMachine.Text.Utf8

/-! # Tokens of constant expressions

`scan` cuts the text of a constant expression into tokens.  A line feed ends a statement unless a
bracket is open; a line that starts a statement may not be indented; `#` starts a comment; a zero byte
ends the text.  `unifyLines` makes line feeds of all line ends before the scan.
-/

namespace HackMachine

namespace Constant

open Numeral (isDigitOf valueOf)

inductive Token where
  | name (text : Bytes)
  | keyword (spelling : String)
  | int (value : Nat)
  | float (value : Float)
  | text (value : Bytes)
  | mark (spelling : String)
  | newline
  deriving Repr, Inhabited, BEq

/-! ## Line ends -/

/-- The text behind the bytes of `unified`, which are in reverse, with line feeds for its line ends. -/
def unifyLinesFrom (unified : Bytes) : Bytes → Bytes
  | [] => unified.reverse
  | b :: rest =>
    if b == byte '\r' then
      match rest with
      | c :: more =>
        if c == Bytes.newline then unifyLinesFrom (Bytes.newline :: unified) more
        else unifyLinesFrom (Bytes.newline :: unified) (c :: more)
      | [] => (Bytes.newline :: unified).reverse
    else unifyLinesFrom (b :: unified) rest

/-- A text with a line feed for each carriage return, and for the line feed right behind it. -/
def unifyLines (text : Bytes) : Bytes := unifyLinesFrom [] text

/-! ## Words -/

def keywords : List String :=
  ["and", "break", "continue", "def", "elif", "else", "for", "if", "in", "lambda", "load", "not",
    "or", "pass", "return", "while"]

def reserved : List String :=
  ["as", "async", "await", "class", "del", "except", "finally", "from", "global", "import", "is",
    "nonlocal", "raise", "try", "with", "yield"]

/-- How many bytes follow `b` in the code point it starts beyond ASCII, if that is a letter. -/
def foreignLetter? (b : UInt8) (rest : Bytes) : Option Nat :=
  if b < 128 then none
  else
    match Utf8.following b rest with
    | some n => if Letter.contains (Utf8.point b (rest.take n)) then some n else none
    | none => none

/-- The length of the word that goes on behind `size` bytes, of whose last code point `skip` more
bytes follow. -/
def wordLengthFrom (skip size : Nat) : Bytes → Nat
  | [] => size
  | b :: rest =>
    match skip with
    | n + 1 => wordLengthFrom n (size + 1) rest
    | 0 =>
      if Bytes.isWord b then wordLengthFrom 0 (size + 1) rest
      else
        match foreignLetter? b rest with
        | some n => wordLengthFrom n (size + 1) rest
        | none => size

def wordAt (rest : Bytes) : Bytes := rest.take (wordLengthFrom 0 0 rest)

def wordToken (word : Bytes) : Except Failure Token :=
  match keywords.find? (ascii · == word) with
  | some spelling => .ok (.keyword spelling)
  | none => if reserved.any (ascii · == word) then .error .malformed else .ok (.name word)

/-! ## Numbers -/

/-- The nearest number to `digits * 10 ^ exponent`; `none` where it is beyond the largest. -/
def floatOf? (digits : Bytes) (exponent : Int) : Option Float :=
  let mantissa := valueOf 10 digits
  let magnitude := (digits.dropWhile (· == byte '0')).length + exponent
  if mantissa == 0 || magnitude < -400 then some 0.0
  else if magnitude > 400 then none
  else
    let value := Float.ofScientific mantissa (exponent < 0) exponent.natAbs
    if value.isFinite then some value else none

/-- The number that the digits of an exponent stand for, as far as it matters: behind the fifth digit
that counts, no digit adds to it. -/
def exponentValue (digits : Bytes) : Nat :=
  digits.foldl (fun value b => if value < 10000 then value * 10 + (b - byte '0').toNat else value) 0

/-- The exponent part at the head of a text: its value and its length.  A sign needs a digit behind
it, and so does the letter. -/
def exponentPart (rest : Bytes) : Except Failure (Int × Nat) :=
  match rest with
  | b :: more =>
    if b == byte 'e' || b == byte 'E' then
      let signed := more.head? == some (byte '+') || more.head? == some (byte '-')
      let digits := (if signed then more.drop 1 else more).takeWhile Bytes.isDigit
      let size := 1 + (if signed then 1 else 0) + digits.length
      let value : Int := exponentValue digits
      if digits.isEmpty then .error .malformed
      else .ok (if more.head? == some (byte '-') then -value else value, size)
    else .ok (0, 0)
  | [] => .ok (0, 0)

/-- A number with a base letter after its zero: the token and its length.  Octal and binary
literals stay below 2^63. -/
def basedNumber (base : Nat) (rest : Bytes) : Except Failure (Token × Nat) :=
  let digits := (rest.drop 2).takeWhile (isDigitOf base)
  let value := valueOf base digits
  if digits.isEmpty || (base != 16 && value ≥ 0x8000000000000000) then .error .malformed
  else .ok (.int value, 2 + digits.length)

/-- The number at the head of a text that starts with a digit or with a point and a digit: the
token and its length. -/
def scanNumber (rest : Bytes) : Except Failure (Token × Nat) :=
  let second := (rest.drop 1).head?.map Bytes.toLower
  let based : Option Nat :=
    if rest.head? == some (byte '0') then
      if second == some (byte 'x') then some 16
      else if second == some (byte 'o') then some 8
      else if second == some (byte 'b') then some 2
      else none
    else none
  match based with
  | some base => basedNumber base rest
  | none =>
    let whole := rest.takeWhile Bytes.isDigit
    let after := rest.drop whole.length
    let pointed := after.head? == some (byte '.')
    let fraction := if pointed then (after.drop 1).takeWhile Bytes.isDigit else []
    let size := whole.length + (if pointed then 1 + fraction.length else 0)
    match exponentPart (rest.drop size) with
    | .error failure => .error failure
    | .ok (exponent, exponentSize) =>
      if pointed || exponentSize != 0 then
        match floatOf? (whole ++ fraction) (exponent - fraction.length) with
        | some value => .ok (.float value, size + exponentSize)
        | none => .error .malformed
      else if whole.head? == some (byte '0') && whole.any (· != byte '0') then .error .malformed
      else .ok (.int (valueOf 10 whole), size)

/-! ## Strings -/

/-- The UTF-8 bytes of a code point; `none` for surrogates and beyond 10FFFF. -/
def encodePoint? (point : Nat) : Option Bytes :=
  if point.isValidChar then some (String.singleton (Char.ofNat point)).toUTF8.toList else none

/-- The bytes of a numeric escape with exactly `count` hexadecimal digits, and its length. -/
def hexEscape (count : Nat) (rest : Bytes) : Except Failure (Bytes × Nat) :=
  let digits := rest.take count
  let value := valueOf 16 digits
  if digits.length != count || !digits.all (isDigitOf 16) then .error .malformed
  else if count == 2 then
    if value < 128 then .ok ([value.toUInt8], count) else .error .malformed
  else
    match encodePoint? value with
    | some bytes => .ok (bytes, count)
    | none => .error .malformed

/-- What a backslash and the bytes behind it stand for, and how many bytes behind it are meant. -/
def escape (rest : Bytes) : Except Failure (Bytes × Nat) :=
  match rest with
  | [] => .error .malformed
  | b :: more =>
    if b == byte 'a' then .ok ([7], 1)
    else if b == byte 'b' then .ok ([8], 1)
    else if b == byte 'f' then .ok ([12], 1)
    else if b == byte 'n' then .ok ([10], 1)
    else if b == byte 'r' then .ok ([13], 1)
    else if b == byte 't' then .ok ([9], 1)
    else if b == byte 'v' then .ok ([11], 1)
    else if b == byte '\\' || b == 34 || b == 39 then .ok ([b], 1)
    else if isDigitOf 8 b then
      let digits := (rest.take 3).takeWhile (isDigitOf 8)
      if valueOf 8 digits < 128 then .ok ([(valueOf 8 digits).toUInt8], digits.length)
      else .error .malformed
    else if b == byte 'x' then (hexEscape 2 more).map fun (bytes, n) => (bytes, n + 1)
    else if b == byte 'u' then (hexEscape 4 more).map fun (bytes, n) => (bytes, n + 1)
    else if b == byte 'U' then (hexEscape 8 more).map fun (bytes, n) => (bytes, n + 1)
    else .error .malformed

structure Quotation where
  quote : UInt8
  /-- Three quotes stand at either end, and line ends may stand between them. -/
  triple : Bool
  /-- A backslash stands for itself, and so does the byte behind it. -/
  raw : Bool
  deriving DecidableEq, Repr, Inhabited

def Quotation.size (quotation : Quotation) : Nat := if quotation.triple then 3 else 1

def Quotation.closes (quotation : Quotation) (text : Bytes) : Bool :=
  (Bytes.fill quotation.size quotation.quote).isPrefixOf text

def quotationAt? (rest : Bytes) : Option Quotation :=
  let raw := rest.head? == some (byte 'r')
  match if raw then rest.drop 1 else rest with
  | [] => none
  | b :: more =>
    if b == 34 || b == 39 then some ⟨b, [b, b].isPrefixOf more, raw⟩ else none

/-- The string behind its opening quotes: its value and its length with the closing quotes.  `size`
counts the bytes read before, and `value` holds theirs in reverse. -/
def scanString (quotation : Quotation) (size : Nat) (value : Bytes) :
    Bytes → Except Failure (Bytes × Nat)
  | [] => .error .malformed
  | b :: rest =>
    if quotation.closes (b :: rest) then .ok (value.reverse, size + quotation.size)
    else if b == Bytes.newline && !quotation.triple then .error .malformed
    else if b == byte '\\' then
      match rest with
      | [] => .error .malformed
      | c :: more =>
        if quotation.raw then scanString quotation (size + 2) (c :: b :: value) more
        else if c == Bytes.newline then scanString quotation (size + 2) value more
        else
          match escape (c :: more) with
          | .error failure => .error failure
          | .ok (bytes, n) =>
            scanString quotation (size + 1 + n) (bytes.reverse ++ value) ((c :: more).drop n)
    else scanString quotation (size + 1) (b :: value) rest
termination_by text => text.length
decreasing_by all_goals simp; try omega

/-! ## Marks -/

/-- Operators and separators, longer ones before those they start with. -/
def marks : List String :=
  ["//=", "<<=", ">>=", "==", "!=", "<=", ">=", "<<", ">>", "//", "**", "+=", "-=", "*=", "/=", "%=",
    "&=", "|=", "^=", "=", "<", ">", "+", "-", "*", "/", "%", "&", "|", "^", "~", ",", ";", ":", ".",
    "(", ")", "[", "]", "\x7b", "\x7d"]

def markAt? (rest : Bytes) : Option String := marks.find? fun spelling => (ascii spelling).isPrefixOf rest

/-- The number of brackets open behind a mark; `none` when it closes one that is not open. -/
def depthAfter (depth : Nat) (spelling : String) : Option Nat :=
  if ["(", "[", "\x7b"].contains spelling then some (depth + 1)
  else if [")", "]", "\x7d"].contains spelling then (if depth == 0 then none else some (depth - 1))
  else some depth

/-! ## The scanner -/

inductive Margin where
  | fresh
  | indented
  | inside
  deriving DecidableEq, Repr, Inhabited

def tokenAt (rest : Bytes) : Except Failure (Token × Nat) :=
  match rest with
  | [] => .error .malformed
  | b :: more =>
    match quotationAt? rest with
    | some quotation =>
      let start := quotation.size + (if quotation.raw then 1 else 0)
      (scanString quotation start [] (rest.drop start)).map fun (value, size) => (.text value, size)
    | none =>
      if Bytes.isLetter b || (foreignLetter? b more).isSome then
        let word := wordAt rest
        (wordToken word).map fun token => (token, word.length)
      else if Bytes.isDigit b || (b == byte '.' && more.head?.any Bytes.isDigit) then scanNumber rest
      else
        match markAt? rest with
        | some spelling => .ok (.mark spelling, spelling.length)
        | none => .error .malformed

/-- The tokens of a text behind those in `found`, with `depth` brackets open. -/
def scanFrom (depth : Nat) (margin : Margin) (found : List Token) :
    Bytes → Except Failure (List Token)
  | [] => .ok found.reverse
  | b :: rest =>
    if b == 0 then .ok found.reverse
    else if b == byte ' ' || b == byte '\t' then
      scanFrom depth (if margin = .fresh then .indented else margin) found rest
    else if b == byte '#' then
      scanFrom depth margin found (rest.dropWhile fun c => c != Bytes.newline && c != 0)
    else if b == Bytes.newline then
      if depth > 0 || margin ≠ .inside then scanFrom depth .fresh found rest
      else scanFrom depth .fresh (.newline :: found) rest
    else if b == byte '\\' then
      if rest.head? == some Bytes.newline then scanFrom depth margin found (rest.drop 1)
      else .error .malformed
    else if depth == 0 && margin = .indented then .error .unexpected
    else
      match tokenAt (b :: rest) with
      | .error failure => .error failure
      | .ok (token, size) =>
        match token with
        | .mark spelling =>
          match depthAfter depth spelling with
          | some after => scanFrom after .inside (token :: found) (rest.drop (size - 1))
          | none => .error .unexpected
        | _ => scanFrom depth .inside (token :: found) (rest.drop (size - 1))
termination_by text => text.length
decreasing_by
  all_goals simp only [List.length_cons, List.length_drop]
  all_goals try omega
  exact Nat.lt_succ_of_le (List.dropWhile_sublist _).length_le

def scan (text : Bytes) : Except Failure (List Token) := scanFrom 0 .fresh [] text

end Constant

end HackMachine
