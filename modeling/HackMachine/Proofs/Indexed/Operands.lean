import HackMachine.Proofs.Indexed.Lexing

/-! # Operands by position

Registers, numbers and expressions, read at positions of a token list up to a position where they
end.

A register may be looked for across the end of its list or expression.  It is never found there,
since what stands behind is a mark or nothing: `Closed`.
-/

namespace HackMachine.Indexed

abbrev Parse (α : Type) := Checked (Pos × Cause) α

def fail {α : Type} (pos : Pos) (cause : Cause) : Parse α := .error (.reported (pos, cause))

/-- The place of the tokens from one position up to another. -/
def span (tokens : List Token) (low high : Int) : Parse Pos := do
  let first ← entry tokens low
  let last ← entry tokens (high - 1)
  .ok (first.pos.through last.pos)

def parseNumber? (text : Bytes) : Parse (Option Nat) :=
  if (ascii "0x").isPrefixOf text || (ascii "0X").isPrefixOf text then do
    .ok (numberOf 16 (← part text 2 text.length))
  else .ok (numberOf 10 text)

def numberAt (text : Bytes) (pos : Pos) : Parse Nat := do
  match ← parseNumber? text with
  | some value => .ok value
  | none => fail pos (.invalidNumber text)

/-- The register at a position and the number of tokens it takes. -/
def register (tokens : List Token) (i : Int) : Parse (Option (Register × Nat)) :=
  if tokens.length ≤ i then .ok none
  else do
    let token ← entry tokens i
    match token.lexeme with
    | .name name =>
      if name == ascii "A" then .ok (some (.a, 1))
      else if name == ascii "D" then .ok (some (.d, 1))
      else if name == ascii "M" then .ok (some (.m, 1))
      else .ok none
    | .mark .star =>
      if i + 1 < tokens.length then do
        let next ← entry tokens (i + 1)
        if next.lexeme == .name (ascii "A") then .ok (some (.m, 2)) else .ok none
      else .ok none
    | _ => .ok none

theorem span_at {tokens : List Token} {low high : Int} (before : List Token) (first : Token)
    (rest after : List Token) (whole : tokens = before ++ (first :: (rest ++ after)))
    (start : low = before.length) (stop : high = before.length + rest.length + 1) :
    span tokens low high = .ok (spanFrom first rest) := by
  have last : (entry tokens (high - 1) : Parse Token) = .ok (rest.getLast?.getD first) := by
    rcases List.eq_nil_or_concat rest with rfl | ⟨inner, token, rfl⟩
    · exact entry_at before first after whole (by simp [stop])
    · rw [entry_at (before ++ first :: inner) token after (by simp [whole]) (by simp [stop])]
      simp
  rw [span, last, entry_at before first (rest ++ after) whole start]
  rfl

theorem parseNumber?_eq (text : Bytes) :
    parseNumber? text = .ok (HackMachine.parseNumber? text) := by
  rcases text with _ | ⟨zero, _ | ⟨letter, digits⟩⟩
  · rfl
  · simp [parseNumber?, HackMachine.parseNumber?, ascii, List.isPrefixOf]
  · have hex : (ascii "0x").isPrefixOf (zero :: letter :: digits) =
        (zero == byte '0' && letter == byte 'x') := isPrefixOf_pair _ _ zero (letter :: digits)
    have upperHex : (ascii "0X").isPrefixOf (zero :: letter :: digits) =
        (zero == byte '0' && letter == byte 'X') := isPrefixOf_pair _ _ zero (letter :: digits)
    have cut : (part (zero :: letter :: digits) 2 (zero :: letter :: digits).length : Parse Bytes) =
        .ok digits :=
      part_at [zero, letter] digits [] (by simp) rfl (by grind)
    rw [parseNumber?, HackMachine.parseNumber?, hex, upperHex, ← Bool.and_or_distrib_left, cut]
    split <;> rfl

theorem numberAt_eq (text : Bytes) (pos : Pos) :
    numberAt text pos = checked (HackMachine.numberAt text pos) := by
  rw [numberAt, HackMachine.numberAt, parseNumber?_eq, ok_bind]
  cases HackMachine.parseNumber? text <;> rfl

/-- No register goes on in tokens that start with a separator. -/
def Closed : List Token → Prop
  | [] => True
  | token :: _ => token.isMark .equals = true ∨ token.isMark .semicolon = true

/-- The register that tokens start with and the number of tokens it takes. -/
def registerHead : List Token → Option (Register × Nat)
  | [] => none
  | token :: rest =>
    match token.lexeme with
    | .name name =>
      if name == ascii "A" then some (.a, 1)
      else if name == ascii "D" then some (.d, 1)
      else if name == ascii "M" then some (.m, 1)
      else none
    | .mark .star =>
      if rest.head?.map (·.lexeme) = some (.name (ascii "A")) then some (.m, 2) else none
    | _ => none

theorem register_eq_head (before rest : List Token) :
    register (before ++ rest) before.length = .ok (registerHead rest) := by
  rcases rest with _ | ⟨⟨lexeme, pos⟩, rest⟩
  · simp [register, registerHead]
  · rw [register, if_neg (by grind), entry_behind, ok_bind]
    cases lexeme with
    | number text | constant text => rfl
    | name name =>
      simp only [registerHead]
      split
      · rfl
      split
      · rfl
      split <;> rfl
    | mark mark =>
      cases mark
      case star =>
        simp only [registerHead]
        rcases rest with _ | ⟨next, more⟩
        · simp
        · rw [if_pos (by grind), entry_at (before ++ [⟨.mark .star, pos⟩]) next more (by simp)
            (by simp), ok_bind]
          by_cases found : next.lexeme = .name (ascii "A") <;> simp [found]
      all_goals rfl

theorem registerHead_append (xs : List Token) {after : List Token} (closed : Closed after) :
    registerHead (xs ++ after) = registerHead xs := by
  -- A star at the end of `xs` is not completed by the token behind.
  have noName : after.head?.map (·.lexeme) ≠ some (.name (ascii "A")) := by
    rcases after with _ | ⟨⟨lexeme, pos⟩, more⟩
    · simp
    · rintro ⟨rfl⟩
      obtain marked | marked := closed <;> cases Token.isMark_iff.mp marked
  rcases xs with _ | ⟨⟨lexeme, pos⟩, rest⟩
  · rcases after with _ | ⟨⟨lexeme, pos⟩, more⟩
    · rfl
    · obtain marked | marked := closed <;> cases Token.isMark_iff.mp marked <;> rfl
  · rcases rest with _ | ⟨next, more⟩
    · cases lexeme with
      | mark mark =>
        cases mark
        case star => simp [registerHead, noName]
        all_goals rfl
      | _ => rfl
    · rfl

theorem registerHead_cases (xs : List Token) :
    (registerAt? xs = none ∧ registerHead xs = none) ∨
    ∃ x first taken behind, xs = first :: (taken ++ behind) ∧
      registerAt? xs = some (x, spanFrom first taken, behind) ∧
      registerHead xs = some (x, taken.length + 1) := by
  rcases xs with _ | ⟨⟨lexeme, pos⟩, rest⟩
  · exact .inl ⟨rfl, rfl⟩
  cases lexeme with
  | number text | constant text => exact .inl ⟨rfl, rfl⟩
  | name name =>
    by_cases isA : name = ascii "A"
    · subst isA
      exact .inr ⟨.a, _, [], rest, rfl, rfl, rfl⟩
    by_cases isD : name = ascii "D"
    · subst isD
      exact .inr ⟨.d, _, [], rest, rfl, rfl, rfl⟩
    by_cases isM : name = ascii "M"
    · subst isM
      exact .inr ⟨.m, _, [], rest, rfl, rfl, rfl⟩
    · exact .inl ⟨by simp [registerAt?, isA, isD, isM], by simp [registerHead, isA, isD, isM]⟩
  | mark mark =>
    cases mark
    case star =>
      rcases rest with _ | ⟨⟨next, place⟩, more⟩
      · exact .inl ⟨rfl, rfl⟩
      cases next with
      | number text | constant text | mark mark => exact .inl ⟨rfl, rfl⟩
      | name name =>
        by_cases isA : name = ascii "A"
        · subst isA
          exact .inr ⟨.m, _, [⟨.name (ascii "A"), place⟩], more, rfl, rfl, rfl⟩
        · exact .inl ⟨by simp [registerAt?, isA], by simp [registerHead, isA]⟩
    all_goals exact .inl ⟨rfl, rfl⟩

theorem register_of_unread {xs after : List Token} (closed : Closed after)
    (unread : registerAt? xs = none) (before : List Token) :
    register (before ++ (xs ++ after)) before.length = .ok none := by
  rw [register_eq_head, registerHead_append xs closed]
  obtain ⟨-, absent⟩ | ⟨x, first, taken, behind, -, read, -⟩ := registerHead_cases xs
  · rw [absent]
  · rw [unread] at read
    cases read

/-- A register that is read is found by position, and takes as many tokens. -/
theorem register_of_read {first : Token} {rest behind after : List Token} {x : Register} {pos : Pos}
    (closed : Closed after) (read : registerAt? (first :: rest) = some (x, pos, behind))
    (before : List Token) :
    ∃ taken, rest = taken ++ behind ∧ pos = spanFrom first taken ∧
      register (before ++ (first :: rest ++ after)) before.length =
        .ok (some (x, taken.length + 1)) := by
  rw [register_eq_head, registerHead_append _ closed]
  obtain ⟨unread, -⟩ | ⟨x, head, taken, behind, split, same, found⟩ :=
    registerHead_cases (first :: rest)
  · rw [unread] at read
    cases read
  · rw [same] at read
    cases read
    cases split
    exact ⟨taken, rfl, rfl, by rw [found]⟩

/-! ## Expressions -/

/-- Whether the number `1` stands at a position, the last one before `high`. -/
def oneAt (tokens : List Token) (i high : Int) : Parse Bool :=
  if i + 1 = high then do .ok ((← entry tokens i).lexeme == .number (ascii "1")) else .ok false

/-- The register at a position, if it ends at `high`. -/
def registerUpTo (tokens : List Token) (i high : Int) : Parse (Option Register) := do
  match ← register tokens i with
  | some (x, used) => if i + used = high then .ok (some x) else .ok none
  | none => .ok none

/-- The operator of a token. -/
def operatorOfToken? (token : Token) : Option Operator :=
  match token.lexeme with
  | .mark mark => operatorOf? mark
  | _ => none

/-- The rest of an expression that starts with the register `x`. -/
def exprBehind (tokens : List Token) (x : Register) (i high : Int) : Parse (Option Expr) := do
  if i = high then .ok (some (.reg x))
  else
    match operatorOfToken? (← entry tokens i) with
    | none => .ok none
    | some op =>
      if i + 1 = high then .ok none
      else if ← oneAt tokens (i + 1) high then
        match op with
        | .add => .ok (some (.inc x))
        | .sub => .ok (some (.dec x))
        | _ => .ok none
      else do .ok ((← registerUpTo tokens (i + 1) high).map (.binary x op))

/-- Whether a minus is followed by the number `1` alone. -/
def minusOne (first : Token) (tokens : List Token) (i high : Int) : Parse Bool :=
  if first.isMark .minus then oneAt tokens i high else .ok false

def expr? (tokens : List Token) (low high : Int) : Parse (Option Expr) := do
  let first ← entry tokens low
  if low + 1 = high && first.lexeme == .number (ascii "0") then .ok (some .zero)
  else if low + 1 = high && first.lexeme == .number (ascii "1") then .ok (some .one)
  else if ← minusOne first tokens (low + 1) high then .ok (some .negOne)
  else if first.isMark .bang then do .ok ((← registerUpTo tokens (low + 1) high).map .not)
  else if first.isMark .minus then do .ok ((← registerUpTo tokens (low + 1) high).map .neg)
  else
    match ← register tokens low with
    | some (x, used) =>
      if high < low + used then .ok none else exprBehind tokens x (low + used) high
    | none => .ok none

/-- The expression from one position up to another. -/
def expr (tokens : List Token) (low high : Int) : Parse (Expr × Pos) := do
  let pos ← span tokens low high
  match ← expr? tokens low high with
  | some e => .ok (e, pos)
  | none => fail pos .invalidExpression

/-- Whether the tokens are the number `1`. -/
def isOne : List Token → Bool
  | [⟨.number digits, _⟩] => digits == ascii "1"
  | _ => false

/-- The register that is all of the tokens. -/
def soleRegister? (xs : List Token) : Option Register :=
  match registerAt? xs with
  | some (x, _, []) => some x
  | _ => none

theorem isOne_eq_false {xs : List Token}
    (other : ∀ digits pos, xs = [⟨.number digits, pos⟩] → False) : isOne xs = false := by
  unfold isOne
  split
  · exact absurd rfl (other _ _)
  · rfl

theorem soleRegister?_map (f : Register → Expr) (xs : List Token) :
    (match registerAt? xs with
      | some (x, _, []) => some (f x)
      | _ => none) = (soleRegister? xs).map f := by
  rw [soleRegister?]
  rcases registerAt? xs with _ | ⟨x, pos, _ | ⟨next, more⟩⟩ <;> rfl

theorem exprBehind_mark (x : Register) (mark : Mark) (pos : Pos) (right : List Token) :
    HackMachine.exprBehind x (⟨.mark mark, pos⟩ :: right) =
      (operatorOf? mark).bind fun op =>
        if isOne right then
          match op with
          | .add => some (.inc x)
          | .sub => some (.dec x)
          | _ => none
        else (soleRegister? right).map (.binary x op) := by
  rw [HackMachine.exprBehind]
  cases operatorOf? mark with
  | none => rfl
  | some op =>
    dsimp only [Option.bind_some]
    split
    · next digits place => rfl
    · next other =>
      rw [isOne_eq_false other]
      exact soleRegister?_map (.binary x op) right

/-- The shapes of an expression, by its first token. -/
theorem expr?_cons (first : Token) (rest : List Token) :
    HackMachine.expr? (first :: rest) =
      if rest.isEmpty && first.lexeme == .number (ascii "0") then some .zero
      else if rest.isEmpty && first.lexeme == .number (ascii "1") then some .one
      else if first.isMark .minus && isOne rest then some .negOne
      else if first.isMark .bang then (soleRegister? rest).map .not
      else if first.isMark .minus then (soleRegister? rest).map .neg
      else
        match registerAt? (first :: rest) with
        | some (x, _, behind) => HackMachine.exprBehind x behind
        | none => none := by
  unfold HackMachine.expr?
  split
  · next digits pos same =>
    cases same
    by_cases zero : digits = ascii "0"
    · subst zero
      rfl
    by_cases one : digits = ascii "1"
    · subst one
      rfl
    · simp [zero, one, Token.isMark, registerAt?]
  · next pos digits place same =>
    cases same
    by_cases one : digits = ascii "1"
    · subst one
      rfl
    · simp [one, isOne, Token.isMark, soleRegister?, registerAt?]
  · next pos operand same =>
    cases same
    refine (soleRegister?_map .not rest).trans ?_
    simp [Token.isMark]
  · next pos operand notOne same =>
    cases same
    refine (soleRegister?_map .neg rest).trans ?_
    simp [Token.isMark, isOne_eq_false notOne]
  · next notNumber notOne notBang notMinus =>
    obtain ⟨lexeme, pos⟩ := first
    have number : ∀ digits, (rest.isEmpty && lexeme == .number digits) = false := by
      intro digits
      rw [Bool.eq_false_iff]
      intro found
      simp only [Bool.and_eq_true, List.isEmpty_iff, beq_iff_eq] at found
      exact notNumber digits pos (by rw [found.1, found.2])
    have bang : Token.isMark .bang ⟨lexeme, pos⟩ = false := by
      rw [Bool.eq_false_iff]
      intro found
      obtain rfl : lexeme = .mark .bang := Token.isMark_iff.mp found
      exact notBang pos rest rfl
    have minus : Token.isMark .minus ⟨lexeme, pos⟩ = false := by
      rw [Bool.eq_false_iff]
      intro found
      obtain rfl : lexeme = .mark .minus := Token.isMark_iff.mp found
      exact notMinus pos rest rfl
    simp only [number, bang, minus]
    rcases registerAt? (⟨lexeme, pos⟩ :: rest) with _ | ⟨x, place, _ | ⟨⟨next, nextPos⟩, more⟩⟩
    · rfl
    · rfl
    · cases next <;> rfl

section

variable {tokens : List Token} {i high : Int} (before xs after : List Token)

theorem oneAt_eq (whole : tokens = before ++ (xs ++ after)) (start : i = before.length)
    (stop : high = before.length + xs.length) : oneAt tokens i high = .ok (isOne xs) := by
  rcases xs with _ | ⟨⟨lexeme, pos⟩, _ | ⟨next, more⟩⟩
  · rw [oneAt, if_neg (by grind)]
    rfl
  · rw [oneAt, if_pos (by simp [start, stop]), entry_at before ⟨lexeme, pos⟩ after whole start, ok_bind]
    cases lexeme <;> simp [isOne, beq_eq_decide]
  · rw [oneAt, if_neg (by grind)]
    cases lexeme <;> rfl

theorem registerUpTo_eq (closed : Closed after) (whole : tokens = before ++ (xs ++ after))
    (start : i = before.length) (stop : high = before.length + xs.length) :
    registerUpTo tokens i high = .ok (soleRegister? xs) := by
  rw [registerUpTo, soleRegister?, whole, start, stop]
  cases read : registerAt? xs with
  | none => rw [register_of_unread closed read, ok_bind]
  | some result =>
    obtain ⟨x, pos, behind⟩ := result
    rcases xs with _ | ⟨first, rest⟩
    · cases read
    obtain ⟨taken, rfl, -, registered⟩ := register_of_read closed read before
    rw [registered, ok_bind]
    dsimp only
    rcases behind with _ | ⟨next, more⟩
    · rw [if_pos (by grind)]
    · rw [if_neg (by grind)]

theorem exprBehind_eq (x : Register) (closed : Closed after)
    (whole : tokens = before ++ (xs ++ after)) (start : i = before.length)
    (stop : high = before.length + xs.length) :
    exprBehind tokens x i high = .ok (HackMachine.exprBehind x xs) := by
  rcases xs with _ | ⟨⟨lexeme, pos⟩, right⟩
  · rw [exprBehind, if_pos (by simp [start, stop])]
    rfl
  have one : oneAt tokens (i + 1) high = .ok (isOne right) :=
    oneAt_eq (before ++ [⟨lexeme, pos⟩]) right after (by simp [whole]) (by simp [start])
      (by grind)
  have operand : registerUpTo tokens (i + 1) high = .ok (soleRegister? right) :=
    registerUpTo_eq (before ++ [⟨lexeme, pos⟩]) right after closed (by simp [whole]) (by simp [start])
      (by grind)
  rw [exprBehind, if_neg (by grind),
    entry_at before ⟨lexeme, pos⟩ (right ++ after) whole start, ok_bind]
  cases lexeme with
  | name text | number text | constant text => rfl
  | mark mark =>
    rw [exprBehind_mark]
    simp only [operatorOfToken?, one, operand, ok_bind]
    cases operatorOf? mark with
    | none => rfl
    | some op =>
      dsimp only [Option.bind_some]
      rcases right with _ | ⟨second, more⟩
      · rw [if_pos (by simp [start, stop])]
        rfl
      · rw [if_neg (by grind)]
        split
        · cases op <;> rfl
        · rfl

end

theorem expr?_eq {tokens : List Token} {low high : Int} (before : List Token) (first : Token)
    (rest after : List Token) (closed : Closed after)
    (whole : tokens = before ++ (first :: rest ++ after)) (start : low = before.length)
    (stop : high = before.length + rest.length + 1) :
    expr? tokens low high = .ok (HackMachine.expr? (first :: rest)) := by
  have negative : minusOne first tokens (low + 1) high =
      .ok (first.isMark .minus && isOne rest) := by
    rw [minusOne, oneAt_eq (before ++ [first]) rest after (by simp [whole]) (by simp [start])
      (by grind)]
    cases first.isMark .minus <;> rfl
  have operand : registerUpTo tokens (low + 1) high = .ok (soleRegister? rest) :=
    registerUpTo_eq (before ++ [first]) rest after closed (by simp [whole]) (by simp [start])
      (by grind)
  have alone : decide (low + 1 = high) = rest.isEmpty := by
    rw [Bool.eq_iff_iff, decide_eq_true_iff, List.isEmpty_iff_length_eq_zero]
    omega
  rw [expr?_cons, expr?, entry_at before first (rest ++ after) whole start, ok_bind]
  simp only [alone, negative, operand, ok_bind]
  split
  · rfl
  split
  · rfl
  split
  · rfl
  split
  · rfl
  split
  · rfl
  cases read : registerAt? (first :: rest) with
  | none =>
    rw [whole, start, register_of_unread closed read]
    rfl
  | some result =>
    obtain ⟨x, pos, behind⟩ := result
    obtain ⟨taken, rfl, -, registered⟩ := register_of_read closed read before
    rw [whole, start, registered, ok_bind]
    dsimp only
    rw [if_neg (by grind)]
    exact exprBehind_eq (before ++ first :: taken) behind after x closed (by simp)
      (by simp) (by grind)

theorem expr_eq {tokens : List Token} {low high : Int} (before : List Token) (first : Token)
    (rest after : List Token) (closed : Closed after)
    (whole : tokens = before ++ (first :: rest ++ after)) (start : low = before.length)
    (stop : high = before.length + rest.length + 1) (anchor : Pos) :
    expr tokens low high = checked (parseExpr anchor (first :: rest)) := by
  rw [expr, span_at before first rest after (by simp [whole]) start stop, ok_bind,
    expr?_eq before first rest after closed whole start stop, ok_bind, parseExpr]
  cases HackMachine.expr? (first :: rest) <;> rfl

end HackMachine.Indexed
