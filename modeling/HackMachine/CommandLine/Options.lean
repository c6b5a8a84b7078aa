import HackMachine.Text.Quoted

/-! # Options of the command

Options come before the source file.  `-name value`, `-name=value` and the same with two dashes are
accepted; a switch takes a value only behind `=`; `--` ends the options, and so does the first argument
that is none.
-/

namespace HackMachine

namespace CommandLine

structure Options where
  /-- The file to write, empty for the default. -/
  output : Bytes := []
  listing : Bool := false
  verbose : Bool := false
  /-- The most ticks to run the program for; none when it is not positive. -/
  run : Int := 0
  deriving DecidableEq, Repr, Inhabited

inductive OptionError where
  | help
  | form (argument : Bytes)
  | undefined (name : Bytes)
  | noValue (name : Bytes)
  | value (word name : Bytes)
  | valueRange (word name : Bytes)
  | switch (word name : Bytes)
  deriving DecidableEq, Repr, Inhabited

def OptionError.message : OptionError → Bytes
  | .help => []
  | .form argument => ascii "bad flag syntax: " ++ argument
  | .undefined name => ascii "flag provided but not defined: -" ++ name
  | .noValue name => ascii "flag needs an argument: -" ++ name
  | .value word name =>
    ascii "invalid value " ++ word.quoted ++ ascii " for flag -" ++ name ++ ascii ": parse error"
  | .valueRange word name =>
    ascii "invalid value " ++ word.quoted ++ ascii " for flag -" ++ name ++
      ascii ": value out of range"
  | .switch word name =>
    ascii "invalid boolean value " ++ word.quoted ++ ascii " for -" ++ name ++
      ascii ": parse error"

def usage : List Bytes :=
  [ascii "Usage of hackasm:",
    ascii "  -l\tPrint an annotated listing",
    ascii "  -o string",
    ascii "    \t.hack file to write, '-' for stdout (default: source with .hack suffix)",
    ascii "  -run int",
    ascii "    \tRun the program in the emulator for at most N ticks",
    ascii "  -v\tVerbose mode"]

/-! ## Values -/

def parseSwitch? (word : Bytes) : Option Bool :=
  if ["1", "t", "T", "TRUE", "true", "True"].any (ascii · == word) then some true
  else if ["0", "f", "F", "FALSE", "false", "False"].any (ascii · == word) then some false
  else none

inductive Reading where
  | value (value : Int)
  | malformed
  | outOfRange
  deriving DecidableEq, Repr, Inhabited

/-- Digits of a base behind those that gave `value`; underscores are passed over, and 64 bits are the
limit. -/
def magnitudeFrom (base value : Nat) : Bytes → Reading
  | [] => .value value
  | b :: rest =>
    if b == byte '_' then magnitudeFrom base value rest
    else
      match Numeral.digitValue? b with
      | none => .malformed
      | some digit =>
        if digit ≥ base then .malformed
        else if value * base + digit ≥ 0x10000000000000000 then .outOfRange
        else magnitudeFrom base (value * base + digit) rest

/-- Whether each underscore stands between two digits; `before` says that a digit, or the mark of the
base, stands right before. -/
def underscoresFit (before : Bool) : Bytes → Bool
  | [] => true
  | [b] => b != byte '_'
  | b :: next :: rest =>
    if b == byte '_' then before && next != byte '_' && underscoresFit false (next :: rest)
    else underscoresFit true (next :: rest)

/-- The base that a numeral's first bytes mark, and the digits behind them. -/
def splitBase (digits : Bytes) : Nat × Bytes :=
  match digits with
  | zero :: letter :: more =>
    if zero == byte '0' then
      let lower := Bytes.toLower letter
      if !more.isEmpty && lower == byte 'x' then (16, more)
      else if !more.isEmpty && lower == byte 'o' then (8, more)
      else if !more.isEmpty && lower == byte 'b' then (2, more)
      else (8, letter :: more)
    else (10, digits)
  | _ => (10, digits)

/-- The integer that a word spells: a sign, a mark of the base, and digits, in 64 bits. -/
def parseInteger (word : Bytes) : Reading :=
  let negative := word.head? == some (byte '-')
  let body := if negative || word.head? == some (byte '+') then word.drop 1 else word
  let (base, digits) := splitBase body
  if body.isEmpty then .malformed
  else
    match magnitudeFrom base 0 digits with
    | .value magnitude =>
      if !underscoresFit (base != 10) digits then .malformed
      else
        let value := if negative then -magnitude else magnitude
        if -0x8000000000000000 ≤ value && value < 0x8000000000000000 then .value value else .outOfRange
    | other => other

/-! ## Arguments -/

inductive Argument where
  | operand
  | finish
  /-- A dash without a name behind it. -/
  | malformed
  | option (name : Bytes) (value : Option Bytes)
  deriving DecidableEq, Repr, Inhabited

def Argument.of (argument : Bytes) : Argument :=
  let dash := byte '-'
  let equals := byte '='
  match argument with
  | first :: second :: rest =>
    if first != dash then .operand
    else if second == dash && rest.isEmpty then .finish
    else
      let name := if second == dash then rest else second :: rest
      if name.head? == some dash || name.head? == some equals then .malformed
      else
        let word := name.takeWhile (· != equals)
        .option word (if word.length < name.length then some (name.drop (word.length + 1)) else none)
  | _ => .operand

/-- Sets a switch from the value behind `=`, which is true by default. -/
def setSwitch (name : Bytes) (value : Option Bytes) (set : Bool → Options) :
    Except OptionError Options :=
  match value with
  | none => .ok (set true)
  | some word =>
    match parseSwitch? word with
    | some on => .ok (set on)
    | none => .error (.switch word name)

def setValue (options : Options) (name value : Bytes) : Except OptionError Options :=
  if name == ascii "o" then .ok { options with output := value }
  else
    match parseInteger value with
    | .value n => .ok { options with run := n }
    | .malformed => .error (.value value name)
    | .outOfRange => .error (.valueRange value name)

/-- The options at the head of an argument list, and the arguments behind them. -/
def parseArguments (options : Options) :
    List Bytes → Except OptionError (Options × List Bytes)
  | [] => .ok (options, [])
  | argument :: rest =>
    match Argument.of argument with
    | .operand => .ok (options, argument :: rest)
    | .finish => .ok (options, rest)
    | .malformed => .error (.form argument)
    | .option name value =>
      if name == ascii "l" || name == ascii "v" then
        match setSwitch name value fun on =>
          if name == ascii "l" then { options with listing := on }
          else { options with verbose := on } with
        | .ok options => parseArguments options rest
        | .error error => .error error
      else if name == ascii "o" || name == ascii "run" then
        match value with
        | some word =>
          match setValue options name word with
          | .ok options => parseArguments options rest
          | .error error => .error error
        | none =>
          match rest with
          | [] => .error (.noValue name)
          | word :: more =>
            match setValue options name word with
            | .ok options => parseArguments options more
            | .error error => .error error
      else if name == ascii "h" || name == ascii "help" then .error .help
      else .error (.undefined name)

end CommandLine

end HackMachine
