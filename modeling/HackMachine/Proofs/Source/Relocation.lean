import HackMachine.Proofs.Source.LineParsing

/-! # Statements at other places

A relocation moves the lines of a source: it gives each line another number and another text, and each
place in a line another place.  Nothing that the parser decides depends on places, so the statement of
moved tokens is the moved statement, and a fault stays the same fault at the moved place
(`Relocation.parseTokens_token`).
-/

namespace HackMachine

/-- A change of the numbers, the texts and the columns of lines.  `quote` is what becomes of a text that
is quoted from a line by its columns. -/
structure Relocation where
  number : Nat → Nat
  place : Pos → Pos
  line : Bytes → Bytes
  quote : Bytes → Bytes
  place_through : ∀ pos other, place (pos.through other) = (place pos).through (place other)
  slice_line : ∀ pos text, (place pos).slice (line text) = quote (pos.slice text)

theorem destinationsFrom_unread {first : Token} {rest : List Token}
    (unread : registerAt? (first :: rest) = none) (found : List Destination) :
    destinationsFrom found first rest = .error (first.pos, .invalidTarget) := by
  unfold destinationsFrom
  split
  · rfl
  · next read =>
    rw [unread] at read
    cases read

theorem destinationsFrom_read (found : List Destination) {first : Token} {rest behind : List Token}
    {x : Register} {pos : Pos} :
    registerAt? (first :: rest) = some (x, pos, behind) →
    destinationsFrom found first rest =
      match behind with
      | [] => .ok (⟨x, pos⟩ :: found).reverse
      | [separator] => .error (separator.pos, .invalidTarget)
      | separator :: next :: more =>
        if separator.lexeme = .mark .comma then destinationsFrom (⟨x, pos⟩ :: found) next more
        else .error (separator.pos, .invalidTarget) := by
  intro read
  rw [destinationsFrom]
  split
  · next unread =>
    rw [unread] at read
    cases read
  · next read' =>
    rw [read'] at read
    cases read
    rcases behind with _ | ⟨separator, _ | ⟨next, more⟩⟩ <;> rfl

theorem expr?_eq_some_iff {tokens : List Token} {e : Expr} :
    expr? tokens = some e ↔ ∃ alu : Grammar.Alu, alu.expr = e ∧ lexemesOf tokens = alu.lexemes := by
  constructor
  · exact expr?_sound
  · intro ⟨alu, same, derived⟩
    rw [expr?_complete derived, same]

namespace Relocation

variable (r : Relocation)

def token (t : Token) : Token := ⟨t.lexeme, r.place t.pos⟩

def destination (d : Destination) : Destination := ⟨d.register, r.place d.pos⟩

def computation (c : Computation) : Computation :=
  ⟨c.destinations.map r.destination, c.expr, r.place c.exprPos, c.jump⟩

def statement : Statement → Statement
  | .label name pos => .label name (r.place pos)
  | .address target targetPos pos => .address target (r.place targetPos) (r.place pos)
  | .compute c pos => .compute (r.computation c) (r.place pos)

def item (i : Item) : Item := ⟨r.number i.lineNo, r.line i.line, r.statement i.statement⟩

def cause : Cause → Cause
  | .immediateRange text => .immediateRange (r.quote text)
  | cause => cause

def fault (f : Pos × Cause) : Pos × Cause := (r.place f.1, r.cause f.2)

def diagnostic (d : Diagnostic) : Diagnostic := ⟨r.place d.pos, r.line d.line, r.cause d.cause⟩

/-! ## Tokens -/

theorem spanFrom_token (first : Token) (rest : List Token) :
    spanFrom (r.token first) (rest.map r.token) = r.place (spanFrom first rest) := by
  rw [spanFrom, spanFrom, List.getLast?_map, place_through]
  cases rest.getLast? <;> rfl

theorem endOfLine_token (tokens : List Token) :
    endOfLine (tokens.map r.token) = recast r.fault id (endOfLine tokens) := by
  cases tokens with
  | nil => rfl
  | cons token rest =>
    simp only [List.map_cons, endOfLine, spanFrom_token]
    rfl

theorem numberAt_place (text : Bytes) (pos : Pos) :
    numberAt text (r.place pos) = recast r.fault id (numberAt text pos) := by
  unfold numberAt
  cases parseNumber? text <;> rfl

theorem parseTarget_token [Constant.Evaluator] (assign : Pos) (tokens : List Token) :
    parseTarget (r.place assign) (tokens.map r.token) =
      recast r.fault (fun (target, pos, rest) => (target, r.place pos, rest.map r.token))
        (parseTarget assign tokens) := by
  cases tokens with
  | nil => rfl
  | cons first rest =>
    obtain ⟨lexeme, pos⟩ := first
    cases lexeme with
    | name text => rfl
    | number text => exact recast_bind (r.numberAt_place text pos) fun value _ => rfl
    | constant text =>
      simp only [List.map_cons, token, parseTarget]
      cases Constant.evaluate text <;> rfl
    | mark mark =>
      cases mark with
      | minus =>
        cases rest with
        | nil => rfl
        | cons second rest =>
          obtain ⟨lexeme, numberPos⟩ := second
          cases lexeme with
          | number text =>
            refine recast_bind (r.numberAt_place text numberPos) fun value _ => ?_
            simp only [recast_ok, place_through]
            rfl
          | name | constant | mark => rfl
      | «at» =>
        cases rest with
        | nil => rfl
        | cons second rest =>
          obtain ⟨lexeme, namePos⟩ := second
          cases lexeme with
          | name text =>
            simp only [List.map_cons, token, parseTarget, recast_ok, place_through]
          | number | constant | mark => rfl
      | colon | equals | assign | comma | semicolon | plus | ampersand | bar | bang | star => rfl

theorem parseAddress_token [Constant.Evaluator] (whole assign : Pos) (tokens : List Token) :
    parseAddress (r.place whole) (r.place assign) (tokens.map r.token) =
      recast r.fault r.statement (parseAddress whole assign tokens) := by
  refine recast_bind (r.parseTarget_token assign tokens) fun (target, pos, rest) _ => ?_
  exact recast_bind (r.endOfLine_token rest) fun _ _ => rfl

theorem registerAt?_token (tokens : List Token) :
    registerAt? (tokens.map r.token) =
      (registerAt? tokens).map fun (x, pos, rest) => (x, r.place pos, rest.map r.token) := by
  cases tokens with
  | nil => rfl
  | cons first rest =>
    obtain ⟨lexeme, pos⟩ := first
    cases lexeme with
    | name text =>
      simp only [List.map_cons, token, registerAt?]
      split
      · rfl
      · split
        · rfl
        · split <;> rfl
    | number | constant => rfl
    | mark mark =>
      cases mark with
      | star =>
        cases rest with
        | nil => rfl
        | cons second rest =>
          obtain ⟨lexeme, namePos⟩ := second
          cases lexeme with
          | name text =>
            simp only [List.map_cons, token, registerAt?]
            split
            · simp only [Option.map_some, place_through]
            · rfl
          | number | constant | mark => rfl
      | colon | equals | assign | comma | semicolon | plus | minus | ampersand | bar | bang | «at» => rfl

theorem destinationsFrom_token (found : List Destination) (first : Token) (rest : List Token) :
    destinationsFrom (found.map r.destination) (r.token first) (rest.map r.token) =
      recast r.fault (List.map r.destination) (destinationsFrom found first rest) := by
  fun_induction destinationsFrom found first rest with
  | case1 found first rest unread =>
    have unread' := r.registerAt?_token (first :: rest)
    rw [unread] at unread'
    rw [destinationsFrom_unread unread']
    rfl
  | case2 found first rest x pos found' read =>
    have read' := r.registerAt?_token (first :: rest)
    rw [read] at read'
    rw [destinationsFrom_read _ read']
    simp [found', destination]
  | case3 found first rest x pos found' separator read =>
    have read' := r.registerAt?_token (first :: rest)
    rw [read] at read'
    rw [destinationsFrom_read _ read']
    rfl
  | case4 found first rest x pos found' separator next more read comma _ ih =>
    have read' := r.registerAt?_token (first :: rest)
    rw [read] at read'
    rw [destinationsFrom_read _ read', ← ih]
    exact if_pos comma
  | case5 found first rest x pos separator next more read other =>
    have read' := r.registerAt?_token (first :: rest)
    rw [read] at read'
    rw [destinationsFrom_read _ read']
    exact if_neg other

theorem parseDestinations_token (equals : Pos) (tokens : List Token) :
    parseDestinations (r.place equals) (tokens.map r.token) =
      recast r.fault (List.map r.destination) (parseDestinations equals tokens) := by
  cases tokens with
  | nil => rfl
  | cons first rest => exact r.destinationsFrom_token [] first rest

theorem parseJump_token (semicolon : Pos) (tokens : List Token) :
    parseJump (r.place semicolon) (tokens.map r.token) =
      recast r.fault id (parseJump semicolon tokens) := by
  cases tokens with
  | nil => rfl
  | cons first rest =>
    obtain ⟨lexeme, pos⟩ := first
    cases rest with
    | nil =>
      cases lexeme with
      | name word =>
        simp only [List.map_cons, List.map_nil, token, parseJump]
        cases Jump.ofWord? word <;> rfl
      | number | constant | mark => rfl
    | cons extra rest =>
      have faulty : parseJump semicolon (⟨lexeme, pos⟩ :: extra :: rest) =
          .error (spanFrom extra rest, .extraTokens) := by
        cases lexeme <;> rfl
      have moved : parseJump (r.place semicolon)
            (r.token ⟨lexeme, pos⟩ :: r.token extra :: rest.map r.token) =
          .error (spanFrom (r.token extra) (rest.map r.token), .extraTokens) := by
        cases lexeme <;> rfl
      rw [List.map_cons, List.map_cons, moved, faulty, spanFrom_token]
      rfl

theorem expr?_token (tokens : List Token) : expr? (tokens.map r.token) = expr? tokens := by
  have same : lexemesOf (tokens.map r.token) = lexemesOf tokens := by
    simp [lexemesOf, token]
  ext e
  rw [expr?_eq_some_iff, expr?_eq_some_iff, same]

theorem parseExpr_token (anchor : Pos) (tokens : List Token) :
    parseExpr (r.place anchor) (tokens.map r.token) =
      recast r.fault (fun (e, pos) => (e, r.place pos)) (parseExpr anchor tokens) := by
  cases tokens with
  | nil => rfl
  | cons first rest =>
    have read := r.expr?_token (first :: rest)
    rw [List.map_cons] at read ⊢
    simp only [parseExpr, read, spanFrom_token]
    cases expr? (first :: rest) <;> rfl

theorem cutAt_token (mark : Mark) (tokens : List Token) :
    cutAt (Token.isMark mark) (tokens.map r.token) =
      ((cutAt (Token.isMark mark) tokens).1.map r.token,
        (cutAt (Token.isMark mark) tokens).2.map r.token) := by
  rw [cutAt, cutAt, List.takeWhile_map, List.dropWhile_map]
  rfl

theorem parseRest_token (whole : Pos) (destinations : List Destination) (jump : Jump) (anchor : Pos)
    (body : List Token) :
    parseRest (r.place whole) (destinations.map r.destination) jump (r.place anchor)
        (body.map r.token) =
      recast r.fault r.statement (parseRest whole destinations jump anchor body) :=
  recast_bind (r.parseExpr_token anchor body) fun _ _ => rfl

theorem parseBody_token (whole : Pos) (destinations : List Destination) (anchor : Option Pos)
    (tokens : List Token) :
    parseBody (r.place whole) (destinations.map r.destination) (anchor.map r.place)
        (tokens.map r.token) =
      recast r.fault r.statement (parseBody whole destinations anchor tokens) := by
  unfold parseBody
  rw [cutAt_token]
  rcases cutAt (Token.isMark .semicolon) tokens with ⟨body, _ | ⟨semicolon, right⟩⟩
  · have anchored : (anchor.map r.place).getD (r.place whole) = r.place (anchor.getD whole) := by
      cases anchor <;> rfl
    simp only [List.map_nil, anchored]
    exact r.parseRest_token whole destinations .never _ body
  · have anchored : (anchor.map r.place).getD (r.place semicolon.pos) =
        r.place (anchor.getD semicolon.pos) := by
      cases anchor <;> rfl
    refine recast_bind (r.parseJump_token semicolon.pos right) fun jump _ => ?_
    simp only [token, anchored]
    exact r.parseRest_token whole destinations jump _ body

theorem parseCompute_token (whole : Pos) (tokens : List Token) :
    parseCompute (r.place whole) (tokens.map r.token) =
      recast r.fault r.statement (parseCompute whole tokens) := by
  rw [parseCompute_eq_parseBody, parseCompute_eq_parseBody, cutAt_token]
  rcases cutAt (Token.isMark .equals) tokens with ⟨left, _ | ⟨equals, right⟩⟩
  · exact r.parseBody_token whole [] none left
  · refine recast_bind (r.parseDestinations_token equals.pos left) fun destinations _ => ?_
    exact r.parseBody_token whole destinations (some equals.pos) right

theorem some_parseCompute_token (whole : Pos) (tokens : List Token) :
    some <$> parseCompute (r.place whole) (tokens.map r.token) =
      recast r.fault (Option.map r.statement) (some <$> parseCompute whole tokens) := by
  rw [parseCompute_token]
  cases parseCompute whole tokens <;> rfl

/-- The statement or the fault is that of the lexemes, and stands where the tokens stand. -/
theorem parseTokens_token [Constant.Evaluator] (tokens : List Token) :
    parseTokens (tokens.map r.token) = recast r.fault (Option.map r.statement) (parseTokens tokens) := by
  cases tokens with
  | nil => rfl
  | cons first rest =>
    have computes := r.some_parseCompute_token (spanFrom first rest) (first :: rest)
    rw [← spanFrom_token] at computes
    obtain ⟨lexeme, pos⟩ := first
    cases lexeme with
    | number | constant | mark => exact computes
    | name name =>
      cases rest with
      | nil => exact computes
      | cons second rest =>
        obtain ⟨lexeme, place⟩ := second
        cases lexeme with
        | name | number | constant => exact computes
        | mark mark =>
          cases mark with
          | colon =>
            refine recast_bind (r.endOfLine_token rest) fun _ _ => ?_
            simp only [recast_ok, Option.map_some, statement, place_through]
          | assign =>
            -- The line ends with its last token, which is the mark itself when nothing stands behind it.
            have whole : (r.place pos).through
                  (((rest.map r.token).getLast?.map (·.pos)).getD (r.place place)) =
                r.place (pos.through ((rest.getLast?.map (·.pos)).getD place)) := by
              rw [place_through, List.getLast?_map]
              cases rest.getLast? <;> rfl
            simp only [List.map_cons, token, parseTokens]
            rw [whole]
            split
            · rw [parseAddress_token]
              cases parseAddress _ place rest <;> rfl
            · exact r.some_parseCompute_token _ (⟨.name name, pos⟩ :: ⟨.mark .assign, place⟩ :: rest)
          | equals | comma | semicolon | plus | minus | ampersand | bar | bang | «at» | star =>
            exact computes

end Relocation

end HackMachine
