import HackMachine.Constant.Term
import HackMachine.Constant.Token

/-! # Reading constant expressions

A recursive-descent reader from tokens to terms.  Every reader takes the tokens before it and gives
the tokens behind it; the number it descends on bounds the depth of nesting, and `readCommands`
starts it high enough for any token list.
-/

namespace HackMachine

namespace Constant

def expectMark (spelling : String) : List Token → Except Failure (List Token)
  | .mark s :: rest => if s == spelling then .ok rest else .error .unexpected
  | _ => .error .unexpected

def startsMark (spelling : String) : List Token → Bool
  | .mark s :: _ => s == spelling
  | _ => false

def markOps : List (String × BinaryOp) :=
  [("==", .compare .eq), ("!=", .compare .ne), ("<", .compare .lt), ("<=", .compare .le),
    (">", .compare .gt), (">=", .compare .ge), ("|", .bitOr), ("^", .bitXor), ("&", .bitAnd),
    ("<<", .shiftLeft), (">>", .shiftRight), ("+", .add), ("-", .sub), ("*", .mul), ("/", .div),
    ("//", .floorDiv), ("%", .mod)]

/-- The binary operator at the head of the tokens, and the tokens behind it.  `not` must go on as
`not in`. -/
def operatorAt : List Token → Except Failure (Option (BinaryOp × List Token))
  | .keyword "or" :: rest => .ok (some (.or, rest))
  | .keyword "and" :: rest => .ok (some (.and, rest))
  | .keyword "in" :: rest => .ok (some (.isIn, rest))
  | .keyword "not" :: .keyword "in" :: rest => .ok (some (.notIn, rest))
  | .keyword "not" :: _ => .error .unexpected
  | .mark s :: rest => .ok ((markOps.lookup s).map (·, rest))
  | _ => .ok none

def signAt? : List Token → Option (UnaryOp × List Token)
  | .mark "+" :: rest => some (.plus, rest)
  | .mark "-" :: rest => some (.minus, rest)
  | .mark "~" :: rest => some (.complement, rest)
  | _ => none

def endsList : List Token → Bool
  | [] | .newline :: _ => true
  | .mark s :: _ => [")", "]", "\x7d", "=", ";"].contains s
  | _ => false

mutual

def readTest : Nat → List Token → Except Failure (Term × List Token)
  | 0, _ => .error .unexpected
  | n + 1, tokens => do
    let (x, tokens) ← readLevel n 0 tokens
    match tokens with
    | .keyword "if" :: tokens =>
      let (condition, tokens) ← readLevel n 0 tokens
      match tokens with
      | .keyword "else" :: tokens =>
        let (other, tokens) ← readTest n tokens
        .ok (.conditional condition x other, tokens)
      | _ => .error .unexpected
    | _ => .ok (x, tokens)

/-- An expression of operators that bind at least as tightly as `level`. -/
def readLevel : Nat → Nat → List Token → Except Failure (Term × List Token)
  | 0, _, _ => .error .unexpected
  | n + 1, level, tokens =>
    if level > 9 then readSuffixed n tokens
    else
      match level, tokens with
      | 2, .keyword "not" :: tokens => do
        let (x, tokens) ← readLevel n 2 tokens
        .ok (.unary .not x, tokens)
      | _, _ => do
        let (x, tokens) ← readLevel n (level + 1) tokens
        readChain n level true x tokens

/-- The operators of a level that follow `x`, from left to right.  A comparison follows no other. -/
def readChain : Nat → Nat → Bool → Term → List Token → Except Failure (Term × List Token)
  | 0, _, _, _, _ => .error .unexpected
  | n + 1, level, first, x, tokens => do
    match ← operatorAt tokens with
    | none => .ok (x, tokens)
    | some (op, rest) =>
      if op.level < level then .ok (x, tokens)
      else if !first && op.level == 3 then .error .unexpected
      else
        let (y, rest) ← readLevel n (op.level + 1) rest
        readChain n level false (.binary op x y) rest

def readSuffixed : Nat → List Token → Except Failure (Term × List Token)
  | 0, _ => .error .unexpected
  | n + 1, tokens => do
    let (x, tokens) ← readOperand n tokens
    readSuffixes n x tokens

def readSuffixes : Nat → Term → List Token → Except Failure (Term × List Token)
  | 0, _, _ => .error .unexpected
  | n + 1, x, tokens =>
    match tokens with
    | .mark "[" :: tokens => do
      let (position, tokens) ← readTuple n false tokens
      readSuffixes n (.index x position) (← expectMark "]" tokens)
    | .mark "(" :: tokens => do
      let (arguments, tokens) ← readItems n ")" tokens
      readSuffixes n (.call x arguments) tokens
    | .mark "." :: .name name :: tokens => readSuffixes n (.attribute x name) tokens
    | .mark "." :: _ => .error .unexpected
    | _ => .ok (x, tokens)

/-- A name, a literal, a bracketed expression, or a sign with its operand. -/
def readOperand : Nat → List Token → Except Failure (Term × List Token)
  | 0, _ => .error .unexpected
  | n + 1, tokens =>
    match signAt? tokens with
    | some (op, tokens) => do
      let (x, tokens) ← readSuffixed n tokens
      .ok (.unary op x, tokens)
    | none =>
      match tokens with
      | .name name :: tokens => .ok (.name name, tokens)
      | .int value :: tokens => .ok (.int value, tokens)
      | .float value :: tokens => .ok (.float value, tokens)
      | .text value :: tokens => .ok (.text value, tokens)
      | .mark "[" :: tokens => do
        let (items, tokens) ← readItems n "]" tokens
        .ok (.list items, tokens)
      | .mark "(" :: .mark ")" :: tokens => .ok (.tuple [], tokens)
      | .mark "(" :: tokens => do
        let (x, tokens) ← readTuple n true tokens
        .ok (x, ← expectMark ")" tokens)
      | _ => .error .unexpected

/-- One expression, or several with commas between them, which make a tuple.  A comma at the end is
allowed only inside parentheses. -/
def readTuple : Nat → Bool → List Token → Except Failure (Term × List Token)
  | 0, _, _ => .error .unexpected
  | n + 1, enclosed, tokens => do
    let (x, tokens) ← readTest n tokens
    if startsMark "," tokens then
      let (items, tokens) ← readMore n enclosed [x] tokens
      .ok (.tuple items, tokens)
    else .ok (x, tokens)

def readMore : Nat → Bool → List Term → List Token → Except Failure (List Term × List Token)
  | 0, _, _, _ => .error .unexpected
  | n + 1, trailing, found, tokens =>
    match tokens with
    | .mark "," :: tokens =>
      if endsList tokens then
        if trailing then .ok (found.reverse, tokens) else .error .unexpected
      else do
        let (x, tokens) ← readTest n tokens
        readMore n trailing (x :: found) tokens
    | _ => .ok (found.reverse, tokens)

/-- Expressions with commas between them up to a closing mark, which is dropped. -/
def readItems : Nat → String → List Token → Except Failure (List Term × List Token)
  | 0, _, _ => .error .unexpected
  | n + 1, close, tokens =>
    if startsMark close tokens then .ok ([], tokens.drop 1)
    else do
      let (x, tokens) ← readTest n tokens
      let (items, tokens) ← readMore n true [x] tokens
      .ok (items, ← expectMark close tokens)

end

def readCommand (n : Nat) (tokens : List Token) : Except Failure (Command × List Token) :=
  match tokens with
  | .keyword "pass" :: tokens => .ok (.pass, tokens)
  | _ => do
    let (x, tokens) ← readTuple n false tokens
    match tokens with
    | .mark "=" :: tokens =>
      let (value, tokens) ← readTuple n false tokens
      match x.pattern? with
      | some target => .ok (.assign target value, tokens)
      | none => .error .unexpected
    | _ => .ok (.evaluate x, tokens)

/-- The statements behind those in `found`.  A semicolon or a line end stands between two of them,
and a semicolon may stand before a line end. -/
def readStatements (n : Nat) : Nat → List Command → List Token → Except Failure (List Command)
  | 0, _, _ => .error .unexpected
  | bound + 1, found, tokens =>
    match tokens with
    | [] => .ok found.reverse
    | _ => do
      let (command, tokens) ← readCommand n tokens
      match tokens with
      | [] => .ok (command :: found).reverse
      | .newline :: tokens => readStatements n bound (command :: found) tokens
      | .mark ";" :: .newline :: tokens => readStatements n bound (command :: found) tokens
      | .mark ";" :: tokens => readStatements n bound (command :: found) tokens
      | _ => .error .unexpected

/-- All statements of a token list.  No expression nests deeper than sixteen readers a token. -/
def readCommands (tokens : List Token) : Except Failure (List Command) :=
  readStatements (16 * (tokens.length + 2)) (tokens.length + 1) [] tokens

end Constant

end HackMachine
