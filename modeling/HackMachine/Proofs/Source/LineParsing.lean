import HackMachine.Constant.Evaluation
import Mathlib.Data.List.TakeWhile
import HackMachine.Proofs.Outcome
import HackMachine.Proofs.Source.Grammar

/-! # The line parser and its grammar

`parseTokens` succeeds exactly on the lexemes of a derivation, and then gives the node that the
derivation stands for.  Each reader of the parser has a sound half, which finds the derivation
behind a success, and a complete half, which follows a derivation to a success.
-/

namespace HackMachine

open Grammar

/-- The lexemes of tokens, without their places. -/
def lexemesOf (tokens : List Token) : List Lexeme := tokens.map (·.lexeme)

@[simp] theorem lexemesOf_nil : lexemesOf [] = [] := rfl

@[simp] theorem lexemesOf_cons (token : Token) (rest : List Token) :
    lexemesOf (token :: rest) = token.lexeme :: lexemesOf rest := rfl

@[simp] theorem lexemesOf_append (before after : List Token) :
    lexemesOf (before ++ after) = lexemesOf before ++ lexemesOf after := List.map_append

theorem lexemesOf_eq_nil {tokens : List Token} : lexemesOf tokens = [] ↔ tokens = [] :=
  List.map_eq_nil_iff

theorem lexemesOf_eq_cons {tokens : List Token} {lexeme : Lexeme} {more : List Lexeme} :
    lexemesOf tokens = lexeme :: more ↔
      ∃ pos rest, tokens = ⟨lexeme, pos⟩ :: rest ∧ lexemesOf rest = more := by
  cases tokens with
  | nil => simp
  | cons token rest =>
    obtain ⟨first, pos⟩ := token
    simp only [lexemesOf_cons, List.cons.injEq, Token.mk.injEq]
    constructor
    · rintro ⟨rfl, same⟩
      exact ⟨pos, rest, ⟨⟨rfl, rfl⟩, rfl⟩, same⟩
    · rintro ⟨_, _, ⟨⟨rfl, rfl⟩, rfl⟩, same⟩
      exact ⟨rfl, same⟩

theorem lexemesOf_eq_append {tokens : List Token} {left right : List Lexeme} :
    lexemesOf tokens = left ++ right ↔
      ∃ before after, tokens = before ++ after ∧ lexemesOf before = left ∧ lexemesOf after = right :=
  List.map_eq_append_iff

/-! ## Registers -/

theorem registerAt?_sound {tokens rest : List Token} {r : Register} {pos : Pos}
    (read : registerAt? tokens = some (r, pos, rest)) :
    ∃ x : Reg, x.register = r ∧ lexemesOf tokens = x.lexemes ++ lexemesOf rest := by
  unfold registerAt? at read
  split at read
  · next name place behind =>
    split at read
    · next isA =>
      cases read
      exact ⟨.a, rfl, by simp [Reg.lexemes, beq_iff_eq.mp isA]⟩
    · split at read
      · next isD =>
        cases read
        exact ⟨.d, rfl, by simp [Reg.lexemes, beq_iff_eq.mp isD]⟩
      · split at read
        · next isM =>
          cases read
          exact ⟨.m, rfl, by simp [Reg.lexemes, beq_iff_eq.mp isM]⟩
        · cases read
  · next place name namePlace behind =>
    split at read
    · next isA =>
      cases read
      exact ⟨.star, rfl, by simp [Reg.lexemes, beq_iff_eq.mp isA]⟩
    · cases read
  · cases read

theorem registerAt?_complete {tokens : List Token} {x : Reg} {more : List Lexeme}
    (derived : lexemesOf tokens = x.lexemes ++ more) :
    ∃ pos rest, registerAt? tokens = some (x.register, pos, rest) ∧ lexemesOf rest = more := by
  cases x with
  | a | d | m =>
    obtain ⟨pos, rest, rfl, same⟩ := lexemesOf_eq_cons.mp derived
    exact ⟨pos, rest, rfl, same⟩
  | star =>
    obtain ⟨pos, behind, rfl, named⟩ := lexemesOf_eq_cons.mp derived
    obtain ⟨namePos, rest, rfl, same⟩ := lexemesOf_eq_cons.mp named
    exact ⟨pos.through namePos, rest, rfl, same⟩

theorem registerAt?_complete_all {tokens : List Token} {x : Reg}
    (derived : lexemesOf tokens = x.lexemes) :
    ∃ pos, registerAt? tokens = some (x.register, pos, []) := by
  obtain ⟨pos, rest, read, same⟩ := registerAt?_complete (derived.trans (List.append_nil _).symm)
  exact ⟨pos, by rw [read, lexemesOf_eq_nil.mp same]⟩

/-! ## Expressions -/

theorem operatorOf?_eq_some_iff {mark : Mark} {op : Operator} :
    operatorOf? mark = some op ↔ mark = operatorMark op := by
  cases mark <;> cases op <;> simp [operatorOf?, operatorMark]

theorem expr?_sound {tokens : List Token} {e : Expr} (read : expr? tokens = some e) :
    ∃ alu : Alu, alu.expr = e ∧ lexemesOf tokens = alu.lexemes := by
  unfold expr? at read
  split at read
  · next digits pos =>
    split at read
    · next isZero =>
      cases read
      exact ⟨.zero, rfl, by simp [Alu.lexemes, beq_iff_eq.mp isZero]⟩
    · split at read
      · next isOne =>
        cases read
        exact ⟨.one, rfl, by simp [Alu.lexemes, beq_iff_eq.mp isOne]⟩
      · cases read
  · next digits pos =>
    split at read
    · next isOne =>
      cases read
      exact ⟨.negOne, rfl, by simp [Alu.lexemes, beq_iff_eq.mp isOne]⟩
    · cases read
  · next operand =>
    split at read
    · next x pos operandRead =>
      cases read
      obtain ⟨r, rfl, derived⟩ := registerAt?_sound operandRead
      exact ⟨.not r, rfl, by simp [Alu.lexemes, derived]⟩
    · cases read
  · next operand =>
    split at read
    · next x pos operandRead =>
      cases read
      obtain ⟨r, rfl, derived⟩ := registerAt?_sound operandRead
      exact ⟨.neg r, rfl, by simp [Alu.lexemes, derived]⟩
    · cases read
  · split at read
    · cases read
    · next x pos leftRead =>
      cases read
      obtain ⟨r, rfl, derived⟩ := registerAt?_sound leftRead
      exact ⟨.reg r, rfl, by simp [Alu.lexemes, derived]⟩
    · next x pos mark place right leftRead =>
      obtain ⟨r, rfl, derived⟩ := registerAt?_sound leftRead
      split at read
      · cases read
      · next op isOp =>
        have marked := operatorOf?_eq_some_iff.mp isOp
        split at read
        · next digits digitsPos =>
          split at read
          · next isOne =>
            have one := beq_iff_eq.mp isOne
            split at read
            · cases read
              exact ⟨.inc r, rfl, by simp [Alu.lexemes, derived, marked, one, operatorMark]⟩
            · cases read
              exact ⟨.dec r, rfl, by simp [Alu.lexemes, derived, marked, one, operatorMark]⟩
            · cases read
          · cases read
        · split at read
          · next y rightPos rightRead =>
            cases read
            obtain ⟨s, rfl, rightDerived⟩ := registerAt?_sound rightRead
            exact ⟨.binary r op s, rfl, by simp [Alu.lexemes, derived, marked, rightDerived]⟩
          · cases read
    · cases read

/-- The rest of an expression that starts with the register `x`. -/
def exprBehind (x : Register) : List Token → Option Expr
  | [] => some (.reg x)
  | ⟨.mark mark, _⟩ :: right =>
    match operatorOf? mark with
    | none => none
    | some op =>
      match right with
      | [⟨.number digits, _⟩] =>
        if digits == ascii "1" then
          match op with
          | .add => some (.inc x)
          | .sub => some (.dec x)
          | _ => none
        else none
      | _ =>
        match registerAt? right with
        | some (y, _, []) => some (.binary x op y)
        | _ => none
  | _ => none

theorem expr?_eq_exprBehind {tokens rest : List Token} {x : Reg} {pos : Pos} {more : List Lexeme}
    (derived : lexemesOf tokens = x.lexemes ++ more)
    (read : registerAt? tokens = some (x.register, pos, rest)) :
    expr? tokens = exprBehind x.register rest := by
  unfold expr?
  -- The four earlier shapes of an expression start with a number, a minus or a bang.
  split
  · cases x <;> simp [Reg.lexemes] at derived
  · cases x <;> simp [Reg.lexemes] at derived
  · cases x <;> simp [Reg.lexemes] at derived
  · cases x <;> simp [Reg.lexemes] at derived
  · rw [read]
    cases rest with
    | nil => rfl
    | cons token right =>
      obtain ⟨lexeme, place⟩ := token
      cases lexeme <;> rfl

theorem expr?_complete {tokens : List Token} {alu : Alu} (derived : lexemesOf tokens = alu.lexemes) :
    expr? tokens = some alu.expr := by
  cases alu with
  | zero | one =>
    obtain ⟨pos, rest, rfl, same⟩ := lexemesOf_eq_cons.mp derived
    obtain rfl := lexemesOf_eq_nil.mp same
    rfl
  | negOne =>
    obtain ⟨pos, behind, rfl, numbered⟩ := lexemesOf_eq_cons.mp derived
    obtain ⟨numberPos, rest, rfl, same⟩ := lexemesOf_eq_cons.mp numbered
    obtain rfl := lexemesOf_eq_nil.mp same
    rfl
  | not x =>
    obtain ⟨pos, operand, rfl, same⟩ := lexemesOf_eq_cons.mp derived
    obtain ⟨place, read⟩ := registerAt?_complete_all same
    simp only [expr?, read, Alu.expr]
  | neg x =>
    obtain ⟨pos, operand, rfl, same⟩ := lexemesOf_eq_cons.mp derived
    obtain ⟨place, read⟩ := registerAt?_complete_all same
    -- The shape `-1` is tried before `-x`.
    unfold expr?
    split
    · next single => cases single
    · next digits _ pair =>
      cases pair
      exact absurd same.symm (x.lexemes_ne_number digits)
    · next bang => cases bang
    · next operand' minus =>
      cases minus
      rw [read]
      rfl
    · next other => exact absurd rfl (other _ _)
  | reg x =>
    obtain ⟨pos, read⟩ := registerAt?_complete_all derived
    exact expr?_eq_exprBehind (derived.trans (List.append_nil _).symm) read
  | inc x | dec x =>
    obtain ⟨pos, rest, read, same⟩ := registerAt?_complete derived
    obtain ⟨markPos, right, rfl, numbered⟩ := lexemesOf_eq_cons.mp same
    obtain ⟨numberPos, nothing, rfl, ended⟩ := lexemesOf_eq_cons.mp numbered
    obtain rfl := lexemesOf_eq_nil.mp ended
    exact expr?_eq_exprBehind derived read
  | binary x op y =>
    obtain ⟨pos, rest, read, same⟩ := registerAt?_complete derived
    obtain ⟨markPos, right, rfl, rightDerived⟩ := lexemesOf_eq_cons.mp same
    obtain ⟨place, rightRead⟩ := registerAt?_complete_all rightDerived
    rw [expr?_eq_exprBehind derived read]
    simp only [exprBehind, operatorOf?_eq_some_iff.mpr rfl]
    split
    · next number =>
      -- An increment or a decrement would need a number for the second operand.
      exact absurd rightDerived.symm (y.lexemes_ne_number _)
    · rw [rightRead]
      rfl

/-! ## Destinations -/

theorem destinationsFrom_sound {found : List Destination} {first : Token} {rest : List Token}
    {destinations : List Destination} (read : destinationsFrom found first rest = .ok destinations) :
    ∃ (x : Reg) (xs : List Reg),
      lexemesOf (first :: rest) = x.lexemes ++ xs.flatMap (fun r => .mark .comma :: r.lexemes) ∧
        destinations.map (·.register) =
          (found.reverse.map (·.register)) ++ (x :: xs).map Reg.register := by
  fun_induction destinationsFrom found first rest with
  | case1 found first rest unread => cases read
  | case2 found first rest register pos found' h =>
    cases read
    obtain ⟨x, rfl, derived⟩ := registerAt?_sound h
    exact ⟨x, [], by simpa using derived, by simp [found']⟩
  | case3 => cases read
  | case4 found first rest register pos found' separator next more h comma _ ih =>
    obtain ⟨y, ys, derivedMore, registers⟩ := ih read
    obtain ⟨x, rfl, derived⟩ := registerAt?_sound h
    refine ⟨x, y :: ys, ?_, by simp [registers, found']⟩
    rw [derived, lexemesOf_cons, comma, derivedMore]
    simp
  | case5 => cases read

theorem destinationsFrom_complete {x : Reg} {xs : List Reg} {first : Token} {rest : List Token}
    (derived : lexemesOf (first :: rest) =
      x.lexemes ++ xs.flatMap (fun r => .mark .comma :: r.lexemes)) (found : List Destination) :
    ∃ destinations, destinationsFrom found first rest = .ok destinations ∧
      destinations.map (·.register) =
        (found.reverse.map (·.register)) ++ (x :: xs).map Reg.register := by
  induction xs generalizing x first rest found with
  | nil =>
    obtain ⟨pos, read⟩ := registerAt?_complete_all (derived.trans (List.append_nil _))
    refine ⟨(⟨x.register, pos⟩ :: found).reverse, ?_, by simp⟩
    unfold destinationsFrom
    split
    · next unread => rw [read] at unread; cases unread
    · next found => rw [read] at found; cases found; rfl
  | cons y ys ih =>
    obtain ⟨pos, behind, read, same⟩ := registerAt?_complete derived
    obtain ⟨commaPos, listed, rfl, more⟩ := lexemesOf_eq_cons.mp (by simpa using same)
    cases listed with
    | nil => cases y <;> simp [Reg.lexemes] at more
    | cons next rest' =>
      obtain ⟨destinations, readMore, registers⟩ := ih more (⟨x.register, pos⟩ :: found)
      refine ⟨destinations, ?_, by simp [registers]⟩
      unfold destinationsFrom
      split
      · next unread => rw [read] at unread; cases unread
      · next found => rw [read] at found; cases found; exact readMore

/-! ## Jumps -/

theorem Jump.ofWord?_eq_some_iff {word : Bytes} {jump : Jump} :
    Jump.ofWord? word = some jump ↔ jump ∈ Jump.named ∧ word.map Bytes.toLower = jump.text := by
  constructor
  · intro found
    have spelled := List.find?_some found
    exact ⟨List.mem_of_find?_eq_some found, (beq_iff_eq.mp spelled).symm⟩
  · rintro ⟨named, spells⟩
    have listed : (Jump.ofWord? word).isSome := by
      rw [Jump.ofWord?, List.find?_isSome]
      exact ⟨jump, named, beq_iff_eq.mpr spells.symm⟩
    obtain ⟨other, found⟩ := Option.isSome_iff_exists.mp listed
    have spelled := List.find?_some found
    rw [found, Jump.eq_of_text (List.mem_of_find?_eq_some found) named
      ((beq_iff_eq.mp spelled).trans spells)]

theorem parseJump_sound {semicolon : Pos} {tokens : List Token} {jump : Jump}
    (read : parseJump semicolon tokens = .ok jump) :
    ∃ j : JumpWord, j.jump = jump ∧ lexemesOf tokens = [.name j.word] := by
  unfold parseJump at read
  split at read
  · cases read
  · next word pos =>
    split at read
    · next found =>
      cases read
      obtain ⟨named, spells⟩ := Jump.ofWord?_eq_some_iff.mp found
      exact ⟨⟨word, jump, named, spells⟩, rfl, rfl⟩
    · cases read
  · cases read
  · cases read

theorem parseJump_complete {tokens : List Token} {j : JumpWord}
    (derived : lexemesOf tokens = [.name j.word]) (semicolon : Pos) :
    parseJump semicolon tokens = .ok j.jump := by
  obtain ⟨pos, rest, rfl, same⟩ := lexemesOf_eq_cons.mp derived
  obtain rfl := lexemesOf_eq_nil.mp same
  rw [parseJump, Jump.ofWord?_eq_some_iff.mpr ⟨j.named, j.spells⟩]

/-! ## Address instructions -/

theorem endOfLine_eq_ok_iff {tokens : List Token} : endOfLine tokens = .ok () ↔ tokens = [] := by
  cases tokens <;> simp [endOfLine]

theorem numberAt_eq_ok_iff {text : Bytes} {pos : Pos} {value : Nat} :
    numberAt text pos = .ok value ↔ parseNumber? text = some value := by
  unfold numberAt
  cases parseNumber? text <;> simp

/-- An operand is made of the tokens before the rest, and its place goes from the first of them to the
last. -/
theorem parseTarget_sound [Constant.Evaluator] {assign place : Pos} {tokens rest : List Token}
    {target : Target} (read : parseTarget assign tokens = .ok (target, place, rest)) :
    ∃ (value : Value) (first : Token) (more : List Token), value.target = target ∧
      tokens = first :: (more ++ rest) ∧ lexemesOf (first :: more) = value.lexemes ∧
      place = spanFrom first more := by
  unfold parseTarget at read
  split at read
  · cases read
  · next text pos behind =>
    obtain ⟨value, number, same⟩ := bind_eq_ok_iff.mp read
    cases same
    exact ⟨.number text value (numberAt_eq_ok_iff.mp number), _, [], rfl, rfl, rfl, rfl⟩
  · next pos text numberPos behind =>
    obtain ⟨value, number, same⟩ := bind_eq_ok_iff.mp read
    cases same
    exact ⟨.negative text value (numberAt_eq_ok_iff.mp number), _, [_], rfl, rfl, rfl, rfl⟩
  · next pos name namePos behind =>
    cases read
    exact ⟨.label name, _, [_], rfl, rfl, rfl, rfl⟩
  · cases read
  · next text pos behind =>
    split at read
    · next value evaluates =>
      cases read
      obtain ⟨n, runs, rfl⟩ := Constant.evaluate_eq_ok_iff.mp evaluates
      exact ⟨.constant text n runs, _, [], rfl, rfl, rfl, rfl⟩
    · cases read
  · cases read

theorem parseTarget_complete [Constant.Evaluator] {tokens : List Token} {value : Value}
    (derived : lexemesOf tokens = value.lexemes) (assign : Pos) :
    ∃ place, parseTarget assign tokens = .ok (value.target, place, []) := by
  cases value with
  | number text n reads =>
    obtain ⟨pos, rest, rfl, same⟩ := lexemesOf_eq_cons.mp derived
    obtain rfl := lexemesOf_eq_nil.mp same
    exact ⟨pos, by rw [parseTarget, numberAt_eq_ok_iff.mpr reads]; rfl⟩
  | negative text n reads =>
    obtain ⟨pos, behind, rfl, numbered⟩ := lexemesOf_eq_cons.mp derived
    obtain ⟨numberPos, rest, rfl, same⟩ := lexemesOf_eq_cons.mp numbered
    obtain rfl := lexemesOf_eq_nil.mp same
    exact ⟨pos.through numberPos, by rw [parseTarget, numberAt_eq_ok_iff.mpr reads]; rfl⟩
  | label name =>
    obtain ⟨pos, behind, rfl, named⟩ := lexemesOf_eq_cons.mp derived
    obtain ⟨namePos, rest, rfl, same⟩ := lexemesOf_eq_cons.mp named
    obtain rfl := lexemesOf_eq_nil.mp same
    exact ⟨pos.through namePos, rfl⟩
  | constant text n runs =>
    obtain ⟨pos, rest, rfl, same⟩ := lexemesOf_eq_cons.mp derived
    obtain rfl := lexemesOf_eq_nil.mp same
    have evaluates := Constant.evaluate_eq_ok_iff.mpr ⟨n, runs, rfl⟩
    exact ⟨pos, by rw [parseTarget, evaluates]; rfl⟩

theorem parseAddress_sound [Constant.Evaluator] {whole assign : Pos} {tokens : List Token}
    {statement : Statement} (read : parseAddress whole assign tokens = .ok statement) :
    ∃ value : Value, lexemesOf tokens = value.lexemes ∧ statement.node = .address value.target := by
  obtain ⟨⟨target, place, rest⟩, targetRead, ended⟩ := bind_eq_ok_iff.mp read
  obtain ⟨⟨⟩, empty, same⟩ := bind_eq_ok_iff.mp ended
  obtain rfl := endOfLine_eq_ok_iff.mp empty
  cases same
  obtain ⟨value, first, more, rfl, rfl, derived, -⟩ := parseTarget_sound targetRead
  exact ⟨value, by simpa using derived, rfl⟩

theorem parseAddress_complete [Constant.Evaluator] {tokens : List Token} {value : Value}
    (derived : lexemesOf tokens = value.lexemes) (whole assign : Pos) :
    ∃ statement, parseAddress whole assign tokens = .ok statement ∧
      statement.node = .address value.target := by
  obtain ⟨place, read⟩ := parseTarget_complete derived assign
  exact ⟨.address value.target place whole, by rw [parseAddress, read]; rfl, rfl⟩

/-! ## Compute instructions -/

theorem Token.isMark_iff {mark : Mark} {token : Token} :
    token.isMark mark = true ↔ token.lexeme = .mark mark := by
  simp [Token.isMark]

theorem isMark_eq_false_of_not_mem {mark : Mark} {tokens : List Token}
    (absent : .mark mark ∉ lexemesOf tokens) : ∀ token ∈ tokens, token.isMark mark = false := by
  intro token member
  rw [Bool.eq_false_iff]
  intro marked
  exact absent (Token.isMark_iff.mp marked ▸ List.mem_map_of_mem member)

theorem cutAt_eq_self {p : Token → Bool} {tokens : List Token}
    (absent : ∀ token ∈ tokens, p token = false) : cutAt p tokens = (tokens, []) := by
  have all : ∀ token ∈ tokens, (!p token) = true := fun token member => by simp [absent token member]
  rw [cutAt, List.takeWhile_eq_self_iff.mpr all, List.dropWhile_eq_nil_iff.mpr all]

theorem cutAt_append {p : Token → Bool} {left right : List Token} {token : Token}
    (absent : ∀ token ∈ left, p token = false) (found : p token = true) :
    cutAt p (left ++ token :: right) = (left, token :: right) := by
  have all : ∀ token ∈ left, (!p token) = true := fun token member => by simp [absent token member]
  simp [cutAt, List.takeWhile_append_of_pos all, List.dropWhile_append_of_pos all, found]

theorem append_of_cutAt {p : Token → Bool} {tokens left right : List Token}
    (cut : cutAt p tokens = (left, right)) : tokens = left ++ right := by
  cases cut
  exact List.takeWhile_append_dropWhile.symm

theorem found_of_cutAt {p : Token → Bool} {tokens left right : List Token} {token : Token}
    (cut : cutAt p tokens = (left, token :: right)) : p token = true := by
  have head : (tokens.dropWhile (!p ·)).head? = some token := by
    rw [(Prod.mk.inj cut).2]
    rfl
  simpa [head] using List.head?_dropWhile_not (!p ·) tokens

/-- The computation whose destinations and jump are read, from the tokens of its expression. -/
def parseRest (whole : Pos) (destinations : List Destination) (jump : Jump) (anchor : Pos)
    (body : List Token) : Faulty Statement := do
  let (expr, exprPos) ← parseExpr anchor body
  .ok (.compute ⟨destinations, expr, exprPos, jump⟩ whole)

/-- The computation whose destinations are read; `anchor` is the place of their `=`. -/
def parseBody (whole : Pos) (destinations : List Destination) (anchor : Option Pos)
    (tokens : List Token) : Faulty Statement :=
  match cutAt (Token.isMark .semicolon) tokens with
  | (body, semicolon :: right) => do
    parseRest whole destinations (← parseJump semicolon.pos right) (anchor.getD semicolon.pos) body
  | (body, []) => parseRest whole destinations .never (anchor.getD whole) body

theorem parseCompute_eq_parseBody (whole : Pos) (tokens : List Token) :
    parseCompute whole tokens =
      match cutAt (Token.isMark .equals) tokens with
      | (left, equals :: right) => do
        parseBody whole (← parseDestinations equals.pos left) (some equals.pos) right
      | (left, []) => parseBody whole [] none left := by
  unfold parseCompute parseBody
  rcases cutAt (Token.isMark .equals) tokens with ⟨left, _ | ⟨equals, right⟩⟩
  · simp only [ok_bind]
    rcases cutAt (Token.isMark .semicolon) left with ⟨body, _ | ⟨semicolon, word⟩⟩ <;> rfl
  · simp only
    cases parseDestinations equals.pos left with
    | error fault => rfl
    | ok destinations =>
      simp only [ok_bind]
      rcases cutAt (Token.isMark .semicolon) right with ⟨body, _ | ⟨semicolon, word⟩⟩ <;> rfl

theorem parseExpr_sound {anchor pos : Pos} {tokens : List Token} {e : Expr}
    (read : parseExpr anchor tokens = .ok (e, pos)) :
    ∃ alu : Alu, alu.expr = e ∧ lexemesOf tokens = alu.lexemes := by
  cases tokens with
  | nil => cases read
  | cons first rest =>
    rw [parseExpr] at read
    split at read
    · next found =>
      cases read
      exact expr?_sound found
    · cases read

theorem parseExpr_complete {tokens : List Token} {alu : Alu}
    (derived : lexemesOf tokens = alu.lexemes) (anchor : Pos) :
    ∃ pos, parseExpr anchor tokens = .ok (alu.expr, pos) := by
  cases tokens with
  | nil => cases alu with
    | not x | neg x | zero | one | negOne => simp [Alu.lexemes] at derived
    | reg x => cases x <;> simp [Alu.lexemes, Reg.lexemes] at derived
    | inc x | dec x | binary x op y => simp [Alu.lexemes] at derived
  | cons first rest =>
    exact ⟨spanFrom first rest, by rw [parseExpr, expr?_complete derived]⟩

theorem parseRest_sound {whole anchor : Pos} {destinations : List Destination} {jump : Jump}
    {body : List Token} {statement : Statement}
    (read : parseRest whole destinations jump anchor body = .ok statement) :
    ∃ alu : Alu, lexemesOf body = alu.lexemes ∧
      statement.node = .compute (destinations.map (·.register)) alu.expr jump := by
  obtain ⟨⟨e, pos⟩, exprRead, same⟩ := bind_eq_ok_iff.mp read
  cases same
  obtain ⟨alu, rfl, derived⟩ := parseExpr_sound exprRead
  exact ⟨alu, derived, rfl⟩

theorem parseRest_complete {body : List Token} {alu : Alu} (derived : lexemesOf body = alu.lexemes)
    (whole anchor : Pos) (destinations : List Destination) (jump : Jump) :
    ∃ statement, parseRest whole destinations jump anchor body = .ok statement ∧
      statement.node = .compute (destinations.map (·.register)) alu.expr jump := by
  obtain ⟨pos, read⟩ := parseExpr_complete derived anchor
  exact ⟨.compute ⟨destinations, alu.expr, pos, jump⟩ whole, by rw [parseRest, read]; rfl, rfl⟩

theorem parseBody_sound {whole : Pos} {destinations : List Destination} {anchor : Option Pos}
    {tokens : List Token} {statement : Statement}
    (read : parseBody whole destinations anchor tokens = .ok statement) :
    ∃ (alu : Alu) (jump : Option JumpWord),
      lexemesOf tokens = alu.lexemes ++ jumpLexemes jump ∧
        statement.node = .compute (destinations.map (·.register)) alu.expr
          ((jump.map (·.jump)).getD .never) := by
  unfold parseBody at read
  split at read
  · next body semicolon right cut =>
    obtain ⟨found, wordRead, bodyRead⟩ := bind_eq_ok_iff.mp read
    obtain ⟨j, rfl, word⟩ := parseJump_sound wordRead
    obtain ⟨alu, derived, node⟩ := parseRest_sound bodyRead
    refine ⟨alu, some j, ?_, node⟩
    rw [append_of_cutAt cut, lexemesOf_append, lexemesOf_cons,
      Token.isMark_iff.mp (found_of_cutAt cut), derived, word]
    rfl
  · next body cut =>
    obtain ⟨alu, derived, node⟩ := parseRest_sound read
    refine ⟨alu, none, ?_, node⟩
    rw [append_of_cutAt cut, lexemesOf_append, derived]
    rfl

theorem parseBody_complete {tokens : List Token} {alu : Alu} {jump : Option JumpWord}
    (derived : lexemesOf tokens = alu.lexemes ++ jumpLexemes jump) (whole : Pos)
    (destinations : List Destination) (anchor : Option Pos) :
    ∃ statement, parseBody whole destinations anchor tokens = .ok statement ∧
      statement.node = .compute (destinations.map (·.register)) alu.expr
        ((jump.map (·.jump)).getD .never) := by
  obtain ⟨body, behind, rfl, bodyDerived, jumpDerived⟩ := lexemesOf_eq_append.mp derived
  have absent : ∀ token ∈ body, token.isMark .semicolon = false :=
    isMark_eq_false_of_not_mem (bodyDerived ▸ Alu.not_mem_of_separates rfl)
  cases jump with
  | none =>
    obtain rfl := lexemesOf_eq_nil.mp jumpDerived
    obtain ⟨statement, read, node⟩ :=
      parseRest_complete bodyDerived whole (anchor.getD whole) destinations .never
    refine ⟨statement, ?_, node⟩
    rw [parseBody, List.append_nil, cutAt_eq_self absent]
    exact read
  | some j =>
    obtain ⟨semicolonPos, right, rfl, word⟩ := lexemesOf_eq_cons.mp jumpDerived
    obtain ⟨statement, read, node⟩ :=
      parseRest_complete bodyDerived whole (anchor.getD semicolonPos) destinations j.jump
    refine ⟨statement, ?_, node⟩
    rw [parseBody, cutAt_append absent (Token.isMark_iff.mpr rfl)]
    simp only [parseJump_complete word, ok_bind, read]

theorem parseCompute_sound [Constant.Evaluator] {whole : Pos} {tokens : List Token}
    {statement : Statement} (read : parseCompute whole tokens = .ok statement) :
    ∃ targets alu jump, (Line.compute targets alu jump).lexemes = lexemesOf tokens ∧
      (Line.compute targets alu jump).node = statement.node := by
  rw [parseCompute_eq_parseBody] at read
  split at read
  · next left equals right cut =>
    obtain ⟨destinations, listRead, bodyRead⟩ := bind_eq_ok_iff.mp read
    obtain ⟨alu, jump, derived, node⟩ := parseBody_sound bodyRead
    cases left with
    | nil => cases listRead
    | cons first rest =>
      obtain ⟨x, xs, listed, registers⟩ := destinationsFrom_sound listRead
      refine ⟨x :: xs, alu, jump, ?_, ?_⟩
      · rw [append_of_cutAt cut, lexemesOf_append, listed, lexemesOf_cons,
          Token.isMark_iff.mp (found_of_cutAt cut), derived]
        simp [Line.lexemes, targetLexemes]
      · rw [node, registers]
        rfl
  · next left cut =>
    obtain ⟨alu, jump, derived, node⟩ := parseBody_sound read
    refine ⟨[], alu, jump, ?_, node.symm⟩
    rw [append_of_cutAt cut, List.append_nil, derived]
    rfl

theorem parseCompute_complete [Constant.Evaluator] {tokens : List Token} {targets : List Reg} {alu : Alu}
    {jump : Option JumpWord} (derived : lexemesOf tokens = (Line.compute targets alu jump).lexemes)
    (whole : Pos) :
    ∃ statement, parseCompute whole tokens = .ok statement ∧
      statement.node = (Line.compute targets alu jump).node := by
  rw [parseCompute_eq_parseBody]
  cases targets with
  | nil =>
    have absent : ∀ token ∈ tokens, token.isMark .equals = false :=
      isMark_eq_false_of_not_mem (derived ▸ equals_not_mem_alu_jump alu jump)
    obtain ⟨statement, read, node⟩ := parseBody_complete derived whole [] none
    exact ⟨statement, by rw [cutAt_eq_self absent]; exact read, node⟩
  | cons x xs =>
    simp only [Line.lexemes, targetLexemes, List.append_assoc, List.singleton_append] at derived
    rw [← List.append_assoc] at derived
    obtain ⟨left, behind, rfl, listed, rest⟩ := lexemesOf_eq_append.mp derived
    obtain ⟨equalsPos, right, rfl, bodyDerived⟩ := lexemesOf_eq_cons.mp rest
    have absent : ∀ token ∈ left, token.isMark .equals = false :=
      isMark_eq_false_of_not_mem (listed ▸ not_mem_regList rfl (by simp) x xs)
    cases left with
    | nil => cases x <;> simp [Reg.lexemes] at listed
    | cons first rest =>
      obtain ⟨destinations, listRead, registers⟩ := destinationsFrom_complete listed []
      obtain ⟨statement, read, node⟩ :=
        parseBody_complete bodyDerived whole destinations (some equalsPos)
      refine ⟨statement, ?_, ?_⟩
      · rw [cutAt_append absent (Token.isMark_iff.mpr rfl)]
        simp only [parseDestinations, listRead, ok_bind, read]
      · rw [node, registers]
        rfl

/-! ## Lines -/

/-- What a line that is read holds: nothing, a label, an address instruction or a computation. -/
theorem parseTokens_cases [Constant.Evaluator] {tokens : List Token} {result : Option Statement}
    (read : parseTokens tokens = .ok result) :
    (tokens = [] ∧ result = none) ∨
    (∃ name pos colon, tokens = [⟨.name name, pos⟩, ⟨.mark .colon, colon⟩] ∧
      result = some (.label name (pos.through colon))) ∨
    (∃ pos assign rest whole statement,
      tokens = ⟨.name (ascii "A"), pos⟩ :: ⟨.mark .assign, assign⟩ :: rest ∧
        parseAddress whole assign rest = .ok statement ∧ result = some statement) ∨
    ∃ whole statement, parseCompute whole tokens = .ok statement ∧ result = some statement := by
  unfold parseTokens at read
  split at read
  · cases read
    exact .inl ⟨rfl, rfl⟩
  · next name pos colon rest =>
    obtain ⟨⟨⟩, empty, same⟩ := bind_eq_ok_iff.mp read
    obtain rfl := endOfLine_eq_ok_iff.mp empty
    cases same
    exact .inr (.inl ⟨name, pos, colon, rfl, rfl⟩)
  · next name pos assign rest =>
    split at read
    · next isA =>
      obtain ⟨statement, addressRead, same⟩ := bind_eq_ok_iff.mp read
      cases same
      obtain rfl := beq_iff_eq.mp isA
      exact .inr (.inr (.inl ⟨pos, assign, rest, _, statement, rfl, addressRead, rfl⟩))
    · obtain ⟨statement, computeRead, same⟩ := bind_eq_ok_iff.mp read
      cases same
      exact .inr (.inr (.inr ⟨_, statement, computeRead, rfl⟩))
  · obtain ⟨statement, computeRead, same⟩ := bind_eq_ok_iff.mp read
    cases same
    exact .inr (.inr (.inr ⟨_, statement, computeRead, rfl⟩))

theorem parseTokens_sound [Constant.Evaluator] {tokens : List Token} {statement : Statement}
    (read : parseTokens tokens = .ok (some statement)) :
    ∃ line : Line, line.lexemes = lexemesOf tokens ∧ line.node = statement.node := by
  obtain ⟨-, nothing⟩ | ⟨name, pos, colon, rfl, same⟩ |
    ⟨pos, assign, rest, whole, found, rfl, addressRead, same⟩ | ⟨whole, found, computeRead, same⟩ :=
      parseTokens_cases read
  · cases nothing
  · cases same
    exact ⟨.label name, rfl, rfl⟩
  · cases same
    obtain ⟨value, derived, node⟩ := parseAddress_sound addressRead
    exact ⟨.address value, by simp [Line.lexemes, derived], node.symm⟩
  · cases same
    obtain ⟨targets, alu, jump, derived, node⟩ := parseCompute_sound computeRead
    exact ⟨_, derived, node⟩

theorem parseTokens_eq_parseCompute [Constant.Evaluator] {first : Token} {rest : List Token}
    (noColon : .mark .colon ∉ lexemesOf (first :: rest))
    (noAssign : .mark .assign ∉ lexemesOf (first :: rest)) :
    parseTokens (first :: rest) =
      some <$> parseCompute (spanFrom first rest) (first :: rest) := by
  unfold parseTokens
  split
  · next empty => cases empty
  · next same => cases same; simp at noColon
  · next same => cases same; simp at noAssign
  · next same => cases same; rfl

theorem parseTokens_complete [Constant.Evaluator] {tokens : List Token} {line : Line}
    (derived : line.lexemes = lexemesOf tokens) :
    ∃ statement, parseTokens tokens = .ok (some statement) ∧ statement.node = line.node := by
  cases line with
  | label name =>
    obtain ⟨pos, behind, rfl, marked⟩ := lexemesOf_eq_cons.mp derived.symm
    obtain ⟨colonPos, rest, rfl, same⟩ := lexemesOf_eq_cons.mp marked
    obtain rfl := lexemesOf_eq_nil.mp same
    exact ⟨.label name (pos.through colonPos), rfl, rfl⟩
  | address value =>
    obtain ⟨pos, behind, rfl, marked⟩ := lexemesOf_eq_cons.mp derived.symm
    obtain ⟨assignPos, rest, rfl, same⟩ := lexemesOf_eq_cons.mp marked
    obtain ⟨statement, read, node⟩ := parseAddress_complete same
      (pos.through ((rest.getLast?.map (·.pos)).getD assignPos)) assignPos
    refine ⟨statement, ?_, node⟩
    simp only [parseTokens, beq_self_eq_true, if_true, read]
    rfl
  | compute targets alu jump =>
    have noColon := not_mem_compute (.inl rfl) targets alu jump
    have noAssign := not_mem_compute (.inr rfl) targets alu jump
    rw [derived] at noColon noAssign
    -- The whole span is that of the tokens, which are not yet known to be some.
    obtain ⟨statement, read, node⟩ := parseCompute_complete derived.symm
      (spanFrom (tokens.headD default) tokens.tail)
    cases tokens with
    | nil =>
      rw [parseCompute] at read
      cases read
    | cons first rest =>
      refine ⟨statement, ?_, node⟩
      rw [parseTokens_eq_parseCompute noColon noAssign, show parseCompute (spanFrom first rest)
        (first :: rest) = .ok statement from read]
      rfl

theorem parseLine_eq [Constant.Evaluator] {line : Bytes} {lineNo : Nat} {tokens : List Token}
    (lexed : lexLine lineNo line = .ok tokens) :
    parseLine line lineNo =
      match parseTokens tokens with
      | .ok statement => .ok (statement.map (⟨lineNo, line, ·⟩))
      | .error (pos, cause) => .error ⟨pos, line, cause⟩ := by
  rw [parseLine, lexed]
  rfl

theorem parseTokens_eq_ok_none_iff [Constant.Evaluator] {tokens : List Token} :
    parseTokens tokens = .ok none ↔ tokens = [] := by
  refine ⟨fun read => ?_, fun empty => empty ▸ rfl⟩
  obtain ⟨empty, -⟩ | ⟨_, _, _, -, same⟩ | ⟨_, _, _, _, _, -, -, same⟩ | ⟨_, _, -, same⟩ :=
    parseTokens_cases read
  · exact empty
  · cases same
  · cases same
  · cases same

/-- The line parser accepts exactly the empty line and the lexemes of a derivation.  The derivation
is unique, and the statement is the one it stands for. -/
theorem parseLine_iff_derivation [Constant.Evaluator] {line : Bytes} {lineNo : Nat} {tokens : List Token}
    (lexed : lexLine lineNo line = .ok tokens) :
    ((∃ result, parseLine line lineNo = .ok result) ↔
      tokens = [] ∨ ∃ derivation : Line, derivation.lexemes = lexemesOf tokens) ∧
    (parseLine line lineNo = .ok none ↔ tokens = []) ∧
    ∀ derivation : Line, derivation.lexemes = lexemesOf tokens →
      (∃ statement, parseLine line lineNo = .ok (some ⟨lineNo, line, statement⟩) ∧
        statement.node = derivation.node) ∧
      ∀ other : Line, other.lexemes = lexemesOf tokens → other = derivation := by
  rw [parseLine_eq lexed]
  refine ⟨⟨?_, ?_⟩, ?_, ?_⟩
  · rintro ⟨result, read⟩
    split at read
    · next found parsed =>
      cases found with
      | none => exact .inl (parseTokens_eq_ok_none_iff.mp parsed)
      | some statement =>
        obtain ⟨derivation, derived, -⟩ := parseTokens_sound parsed
        exact .inr ⟨derivation, derived⟩
    · cases read
  · rintro (rfl | ⟨derivation, derived⟩)
    · exact ⟨none, rfl⟩
    · obtain ⟨statement, parsed, -⟩ := parseTokens_complete derived
      exact ⟨_, by rw [parsed]⟩
  · rw [← parseTokens_eq_ok_none_iff]
    cases parseTokens tokens with
    | error fault => simp
    | ok found => simp
  · intro derivation derived
    obtain ⟨statement, parsed, node⟩ := parseTokens_complete derived
    refine ⟨⟨statement, by rw [parsed]; rfl, node⟩, fun other same => ?_⟩
    exact Line.lexemes_injective (same.trans derived.symm)

theorem parseLine_store_and_jump :
    ∃ statement, parseLine (ascii "D,*A = M + 1; JMP") 1 =
        .ok (some ⟨1, ascii "D,*A = M + 1; JMP", statement⟩) ∧
      statement.node = .compute [.d, .m] (.inc .m) .always := by
  have lexed : lexLine 1 (ascii "D,*A = M + 1; JMP") =
      .ok [⟨.name (ascii "D"), ⟨1, 1, 2⟩⟩, ⟨.mark .comma, ⟨1, 2, 3⟩⟩, ⟨.mark .star, ⟨1, 3, 4⟩⟩,
        ⟨.name (ascii "A"), ⟨1, 4, 5⟩⟩, ⟨.mark .equals, ⟨1, 6, 7⟩⟩, ⟨.name (ascii "M"), ⟨1, 8, 9⟩⟩,
        ⟨.mark .plus, ⟨1, 10, 11⟩⟩, ⟨.number (ascii "1"), ⟨1, 12, 13⟩⟩,
        ⟨.mark .semicolon, ⟨1, 13, 14⟩⟩, ⟨.name (ascii "JMP"), ⟨1, 15, 18⟩⟩] := by
    decide +kernel
  exact ((parseLine_iff_derivation lexed).2.2
    (.compute [.d, .star] (.inc .m) (some ⟨ascii "JMP", .always, by decide, by decide⟩)) rfl).1

end HackMachine
