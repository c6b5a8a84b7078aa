import HackMachine.Constant.Evaluator
import HackMachine.Source.Number
import HackMachine.Source.Statement
import HackMachine.Source.Token

/-! # From source text to statements

A line holds one of

* `name :`
* `A := value`, the value being a number, a minus sign and a number, `@ name`, or `$( … )`
* `[register {, register} =] expression [; jump]`

`parseTokens` reads one line's tokens and names the place of the first fault; `parse` reads a whole
source and stops at its first bad line.
-/

namespace HackMachine

abbrev Faulty (α : Type) := Except (Pos × Cause) α

def spanFrom (first : Token) (rest : List Token) : Pos :=
  first.pos.through ((rest.getLast?.getD first).pos)

def endOfLine : List Token → Faulty Unit
  | [] => .ok ()
  | token :: rest => .error (spanFrom token rest, .extraTokens)

/-! ## Address instructions -/

def numberAt (text : Bytes) (pos : Pos) : Faulty Nat :=
  match parseNumber? text with
  | some value => .ok value
  | none => .error (pos, .invalidNumber text)

/-- The operand behind `A :=`, its place, and the tokens behind it.  `assign` is the place of the
`:=` itself. -/
def parseTarget [Constant.Evaluator] (assign : Pos) : List Token → Faulty (Target × Pos × List Token)
  | [] => .error (assign, .missingValue)
  | ⟨.number text, pos⟩ :: rest => do .ok (.value (← numberAt text pos), pos, rest)
  | ⟨.mark .minus, pos⟩ :: ⟨.number text, numberPos⟩ :: rest => do
    .ok (.value (-(← numberAt text numberPos)), pos.through numberPos, rest)
  | ⟨.mark .at, pos⟩ :: ⟨.name name, namePos⟩ :: rest => .ok (.label name, pos.through namePos, rest)
  | ⟨.mark .at, pos⟩ :: _ => .error (pos, .labelForm)
  | ⟨.constant text, pos⟩ :: rest =>
    match Constant.evaluate text with
    | .ok value => .ok (.value value, pos, rest)
    | .error failure => .error (pos, .constant text failure)
  | ⟨_, pos⟩ :: _ => .error (pos, .missingValue)

/-- `A := value`, given the places of the whole line and of `:=` and the tokens behind that. -/
def parseAddress [Constant.Evaluator] (whole assign : Pos) (tokens : List Token) : Faulty Statement := do
  let (target, targetPos, rest) ← parseTarget assign tokens
  endOfLine rest
  .ok (.address target targetPos whole)

/-! ## Compute instructions -/

/-- The register that the tokens start with, its place, and the tokens behind it. -/
def registerAt? : List Token → Option (Register × Pos × List Token)
  | ⟨.name name, pos⟩ :: rest =>
    if name == ascii "A" then some (.a, pos, rest)
    else if name == ascii "D" then some (.d, pos, rest)
    else if name == ascii "M" then some (.m, pos, rest)
    else none
  | ⟨.mark .star, pos⟩ :: ⟨.name name, namePos⟩ :: rest =>
    if name == ascii "A" then some (.m, pos.through namePos, rest) else none
  | _ => none

theorem registerAt?_length {tokens rest : List Token} {register : Register} {pos : Pos}
    (h : registerAt? tokens = some (register, pos, rest)) : rest.length < tokens.length := by
  unfold registerAt? at h
  split at h
  · simp only [List.length_cons]
    repeat' split at h
    all_goals simp_all
  · simp only [List.length_cons]
    split at h
    · simp only [Option.some.injEq, Prod.mk.injEq] at h
      obtain ⟨-, -, rfl⟩ := h
      omega
    · simp at h
  · simp at h

/-- The register list before `=`, behind the destinations in `found`, which are in reverse. -/
def destinationsFrom (found : List Destination) (first : Token) (rest : List Token) :
    Faulty (List Destination) :=
  match _h : registerAt? (first :: rest) with
  | none => .error (first.pos, .invalidTarget)
  | some (register, pos, behind) =>
    let found := ⟨register, pos⟩ :: found
    match behind with
    | [] => .ok found.reverse
    | [separator] => .error (separator.pos, .invalidTarget)
    | separator :: next :: more =>
      if separator.lexeme = .mark .comma then destinationsFrom found next more
      else .error (separator.pos, .invalidTarget)
termination_by rest.length
decreasing_by
  have := registerAt?_length _h
  simp only [List.length_cons] at this
  omega

def parseDestinations (equals : Pos) : List Token → Faulty (List Destination)
  | [] => .error (equals, .missingTarget)
  | first :: rest => destinationsFrom [] first rest

def parseJump (semicolon : Pos) : List Token → Faulty Jump
  | [] => .error (semicolon, .invalidJump)
  | [⟨.name word, pos⟩] =>
    match Jump.ofWord? word with
    | some jump => .ok jump
    | none => .error (pos, .invalidJump)
  | [⟨_, pos⟩] => .error (pos, .invalidJump)
  | _ :: extra :: rest => .error (spanFrom extra rest, .extraTokens)

def operatorOf? : Mark → Option Operator
  | .plus => some .add
  | .minus => some .sub
  | .ampersand => some .and
  | .bar => some .or
  | _ => none

def expr? (tokens : List Token) : Option Expr :=
  match tokens with
  | [⟨.number digits, _⟩] =>
    if digits == ascii "0" then some .zero
    else if digits == ascii "1" then some .one
    else none
  | [⟨.mark .minus, _⟩, ⟨.number digits, _⟩] =>
    if digits == ascii "1" then some .negOne else none
  | ⟨.mark .bang, _⟩ :: operand =>
    match registerAt? operand with
    | some (x, _, []) => some (.not x)
    | _ => none
  | ⟨.mark .minus, _⟩ :: operand =>
    match registerAt? operand with
    | some (x, _, []) => some (.neg x)
    | _ => none
  | _ =>
    match registerAt? tokens with
    | none => none
    | some (x, _, []) => some (.reg x)
    | some (x, _, ⟨.mark mark, _⟩ :: right) =>
      match operatorOf? mark with
      | none => none
      | some op =>
        match right with
        | [⟨.number digits, _⟩] =>
          if digits == ascii "1" then
            match op with
            | .add => some (.inc x)
            | .sub => some (.dec x)
            | _ => none
          else none
        | _ =>
          match registerAt? right with
          | some (y, _, []) => some (.binary x op y)
          | _ => none
    | some _ => none

/-- The expression that is all of the tokens, and its place.  `anchor` is the place reported when
there are none. -/
def parseExpr (anchor : Pos) : List Token → Faulty (Expr × Pos)
  | [] => .error (anchor, .missingExpression)
  | first :: rest =>
    match expr? (first :: rest) with
    | some e => .ok (e, spanFrom first rest)
    | none => .error (spanFrom first rest, .invalidExpression)

def Token.isMark (mark : Mark) (token : Token) : Bool := token.lexeme == .mark mark

def cutAt (p : Token → Bool) (tokens : List Token) : List Token × List Token :=
  (tokens.takeWhile (!p ·), tokens.dropWhile (!p ·))

/-- `[destinations =] expression [; jump]`, given the place of the whole line.  Faults are looked for
in the destinations, in the jump, then in the expression. -/
def parseCompute (whole : Pos) (tokens : List Token) : Faulty Statement := do
  let (destinations, anchor, rest) ←
    match cutAt (Token.isMark .equals) tokens with
    | (left, equals :: right) => do
      .ok (← parseDestinations equals.pos left, some equals.pos, right)
    | (left, []) => .ok ([], none, left)
  let (jump, anchor, body) ←
    match cutAt (Token.isMark .semicolon) rest with
    | (body, semicolon :: right) => do
      .ok (← parseJump semicolon.pos right, anchor.getD semicolon.pos, body)
    | (body, []) => .ok (.never, anchor.getD whole, body)
  let (expr, exprPos) ← parseExpr anchor body
  .ok (.compute ⟨destinations, expr, exprPos, jump⟩ whole)

/-! ## Lines and sources -/

def parseTokens [Constant.Evaluator] (tokens : List Token) : Faulty (Option Statement) :=
  match tokens with
  | [] => .ok none
  | ⟨.name name, pos⟩ :: ⟨.mark .colon, colon⟩ :: rest => do
    endOfLine rest
    .ok (some (.label name (pos.through colon)))
  | ⟨.name name, pos⟩ :: ⟨.mark .assign, assign⟩ :: rest =>
    let whole := pos.through ((rest.getLast?.map (·.pos)).getD assign)
    if name == ascii "A" then some <$> parseAddress whole assign rest
    else some <$> parseCompute whole tokens
  | first :: rest => some <$> parseCompute (spanFrom first rest) tokens

def parseLine [Constant.Evaluator] (line : Bytes) (lineNo : Nat) : Except Diagnostic (Option Item) :=
  match lexLine lineNo line >>= parseTokens with
  | .ok statement => .ok (statement.map (⟨lineNo, line, ·⟩))
  | .error (pos, cause) => .error ⟨pos, line, cause⟩

def numberedLines (source : Bytes) : List (Bytes × Nat) :=
  ((Bytes.lines source).map Bytes.dropReturn).zipIdx 1

def parse [Constant.Evaluator] (source : Bytes) : Except Diagnostic (List Item) := do
  let items ← (numberedLines source).mapM fun (line, lineNo) => parseLine line lineNo
  .ok (items.filterMap id)

end HackMachine
