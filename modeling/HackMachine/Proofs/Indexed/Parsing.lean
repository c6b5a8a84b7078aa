import HackMachine.Proofs.Indexed.Operands

/-! # Parsing a line by position

The line parser with the token positions that it keeps by hand: the first and the last token of an
expression, the places of `=` and `;`, the number of tokens that an operand takes.
`Indexed.parseTokens_eq` says that none of them lies outside of the line's tokens.
-/

namespace HackMachine.Indexed

/-! ## Address instructions -/

/-- The operand, its place, and the number of tokens up to its end. -/
def target [Constant.Evaluator] (tokens : List Token) : Parse (Target × Pos × Int) := do
  if tokens.length = 2 then fail (← entry tokens 1).pos .missingValue
  else
    let operand ← entry tokens 2
    match operand.lexeme with
    | .number text => do .ok (.value (← numberAt text operand.pos), operand.pos, 3)
    | .mark .minus =>
      if 3 < tokens.length then do
        let number ← entry tokens 3
        match number.lexeme with
        | .number text => do
          .ok (.value (-(← numberAt text number.pos)), ← span tokens 2 4, 4)
        | _ => fail operand.pos .missingValue
      else fail operand.pos .missingValue
    | .mark .at =>
      if tokens.length < 4 then fail operand.pos .labelForm
      else do
        match (← entry tokens 3).lexeme with
        | .name name => do .ok (.label name, ← span tokens 2 4, 4)
        | _ => fail operand.pos .labelForm
    | .constant text =>
      match Constant.evaluate text with
      | .ok value => .ok (.value value, operand.pos, 3)
      | .error failure => fail operand.pos (.constant text failure)
    | _ => fail operand.pos .missingValue

def address [Constant.Evaluator] (tokens : List Token) : Parse Statement := do
  let whole ← span tokens 0 tokens.length
  let (target, targetPos, used) ← target tokens
  if used < tokens.length then fail (← span tokens used tokens.length) .extraTokens
  else .ok (.address target targetPos whole)

/-- What an operand takes, up to the tokens behind it. -/
def upTo (tokens : List Token) : Target × Pos × List Token → Target × Pos × Int
  | (target, pos, behind) => (target, pos, tokens.length - behind.length)

theorem upTo_append (taken behind : List Token) (target : Target) (pos : Pos) :
    upTo (taken ++ behind) (target, pos, behind) = (target, pos, (taken.length : Int)) := by
  simp [upTo]

theorem target_eq [Constant.Evaluator] (head assign : Token) (rest : List Token) :
    target (head :: assign :: rest) =
      upTo (head :: assign :: rest) <$> checked (parseTarget assign.pos rest) := by
  rcases rest with _ | ⟨⟨lexeme, pos⟩, more⟩
  · rfl
  have operand : (entry (head :: assign :: ⟨lexeme, pos⟩ :: more) 2 : Parse Token) =
      .ok ⟨lexeme, pos⟩ := entry_at [head, assign] _ more rfl rfl
  rw [target, if_neg (by simp), operand, ok_bind]
  cases lexeme with
  | number text =>
    simp only [numberAt_eq, parseTarget, checked_bind]
    cases HackMachine.numberAt text pos with
    | error fault => rfl
    | ok value =>
      exact congrArg _ (upTo_append [head, assign, ⟨.number text, pos⟩] more (.value value) pos).symm
  | constant text =>
    simp only [parseTarget]
    cases Constant.evaluate text with
    | error failure => rfl
    | ok value =>
      exact congrArg _ (upTo_append [head, assign, ⟨.constant text, pos⟩] more (.value value) pos).symm
  | name name => rfl
  | mark mark =>
    rcases more with _ | ⟨⟨next, place⟩, more⟩
    · cases mark <;> rfl
    have second : (entry (head :: assign :: ⟨.mark mark, pos⟩ :: ⟨next, place⟩ :: more) 3 :
        Parse Token) = .ok ⟨next, place⟩ := entry_at [head, assign, ⟨.mark mark, pos⟩] _ more rfl rfl
    have both : span (head :: assign :: ⟨.mark mark, pos⟩ :: ⟨next, place⟩ :: more) 2 4 =
        .ok (pos.through place) :=
      span_at [head, assign] ⟨.mark mark, pos⟩ [⟨next, place⟩] more rfl rfl rfl
    have taken (target : Target) :=
      upTo_append [head, assign, ⟨.mark mark, pos⟩, ⟨next, place⟩] more target (pos.through place)
    cases mark with
    | minus =>
      dsimp only
      rw [if_pos (by simp), second, ok_bind, both]
      cases next with
      | number text =>
        simp only [numberAt_eq, parseTarget, checked_bind]
        cases HackMachine.numberAt text place with
        | error fault => rfl
        | ok value => exact congrArg _ (taken (.value (-value))).symm
      | name text | constant text | mark mark => rfl
    | «at» =>
      dsimp only
      rw [if_neg (by simp), second, ok_bind, both]
      cases next with
      | name name =>
        exact congrArg _ (taken (.label name)).symm
      | number text | constant text | mark mark => rfl
    | _ => rfl

theorem address_eq [Constant.Evaluator] (head assign : Token) (rest : List Token) :
    address (head :: assign :: rest) =
      checked (parseAddress (spanFrom head (assign :: rest)) assign.pos rest) := by
  have whole : span (head :: assign :: rest) 0 (head :: assign :: rest).length =
      .ok (spanFrom head (assign :: rest)) :=
    span_at [] head (assign :: rest) [] (by simp) rfl (by simp)
  rw [address, whole, ok_bind, target_eq, parseAddress, checked_bind]
  cases read : parseTarget assign.pos rest with
  | error fault => rfl
  | ok result =>
    obtain ⟨target, pos, behind⟩ := result
    obtain ⟨value, operand, taken, -, rfl, -, -⟩ := parseTarget_sound read
    rcases behind with _ | ⟨first, more⟩
    · simp [upTo, endOfLine]
    · have extra : span (head :: assign :: operand :: (taken ++ first :: more))
          ((head :: assign :: operand :: (taken ++ first :: more)).length - (first :: more).length)
          (head :: assign :: operand :: (taken ++ first :: more)).length = .ok (spanFrom first more) :=
        span_at (head :: assign :: operand :: taken) first more [] (by simp) (by grind) (by grind)
      rw [checked_ok, map_ok, ok_bind, upTo]
      dsimp only
      rw [if_pos (by grind), extra]
      rfl

/-! ## Destinations and jumps -/

/-- The register list from `n` up to the `=` at `equals`, behind the destinations in `found`. -/
def destinationsFrom (tokens : List Token) (equals n : Int) (found : List Destination) :
    Parse (List Destination) := do
  match ← register tokens n with
  | none => fail (← entry tokens n).pos .invalidTarget
  | some (register, used) =>
    if equals < n + used then fail (← entry tokens n).pos .invalidTarget
    else do
      let pos ← span tokens n (n + used)
      if n + used = equals then .ok (⟨register, pos⟩ :: found).reverse
      else do
        let separator ← entry tokens (n + used)
        if !separator.isMark .comma || n + used + 1 = equals then
          fail separator.pos .invalidTarget
        else destinationsFrom tokens equals (n + used + 1) (⟨register, pos⟩ :: found)
termination_by (equals - n).toNat

def destinations (tokens : List Token) (equals : Int) : Parse (List Destination) := do
  if equals = 0 then fail (← entry tokens 0).pos .missingTarget
  else destinationsFrom tokens equals 0 []

def jump (tokens : List Token) (semicolon : Int) : Parse Jump := do
  if tokens.length ≤ semicolon + 1 then fail (← entry tokens semicolon).pos .invalidJump
  else if semicolon + 2 < tokens.length then
    fail (← span tokens (semicolon + 2) tokens.length) .extraTokens
  else do
    let token ← entry tokens (semicolon + 1)
    match token.lexeme with
    | .name word =>
      match Jump.ofWord? word with
      | some jump => .ok jump
      | none => fail token.pos .invalidJump
    | _ => fail token.pos .invalidJump

/-- One register of a list: it ends the list, or a separator stands behind it. -/
theorem destinationsFrom_register {before : List Token} {first : Token} {taken behind after : List Token}
    {x : Register} {equals : Int} (found : List Destination)
    (stop : equals = before.length + (taken ++ behind).length + 1)
    (read : register (before ++ (first :: (taken ++ behind) ++ after)) before.length =
      .ok (some (x, taken.length + 1))) :
    destinationsFrom (before ++ (first :: (taken ++ behind) ++ after)) equals before.length found =
      match behind with
      | [] => .ok (⟨x, spanFrom first taken⟩ :: found).reverse
      | separator :: rest =>
        if !separator.isMark .comma || rest.isEmpty then fail separator.pos .invalidTarget
        else
          destinationsFrom (before ++ (first :: (taken ++ behind) ++ after)) equals
            (before ++ first :: (taken ++ [separator])).length (⟨x, spanFrom first taken⟩ :: found) := by
  have place : span (before ++ (first :: (taken ++ behind) ++ after)) before.length
      (before.length + (taken.length + 1 : Nat)) = .ok (spanFrom first taken) :=
    span_at before first taken (behind ++ after) (by simp) rfl (by omega)
  have width : (taken ++ behind).length = taken.length + behind.length := List.length_append
  rw [destinationsFrom, read, ok_bind]
  simp only [place, ok_bind]
  rw [if_neg (by omega)]
  rcases behind with _ | ⟨separator, rest⟩
  · rw [if_pos (by grind)]
  · rw [if_neg (by grind), entry_at (before ++ first :: taken) separator (rest ++ after)
      (by simp) (by simp), ok_bind]
    have last : decide ((before.length : Int) + (taken.length + 1 : Nat) + 1 = equals) =
        rest.isEmpty := by
      rw [Bool.eq_iff_iff, decide_eq_true_iff, List.isEmpty_iff_length_eq_zero, stop]
      simp only [List.length_append, List.length_cons]
      omega
    have next : (before.length : Int) + (taken.length + 1 : Nat) + 1 =
        (before ++ first :: (taken ++ [separator])).length := by
      grind
    rw [last, next]

theorem destinationsFrom_eq (before after : List Token) (closed : Closed after) {first : Token}
    {rest : List Token} {equals : Int} (stop : equals = before.length + rest.length + 1)
    (found : List Destination) :
    destinationsFrom (before ++ (first :: rest ++ after)) equals before.length found =
      checked (HackMachine.destinationsFrom found first rest) := by
  fun_induction HackMachine.destinationsFrom found first rest generalizing before with
  | case1 found first rest unread =>
    rw [destinationsFrom, register_of_unread closed unread]
    simp [fail]
  | case2 found first rest x pos found' read =>
    obtain ⟨taken, rfl, rfl, registered⟩ := register_of_read closed read before
    rw [destinationsFrom_register found stop registered]
    rfl
  | case3 found first rest x pos found' separator read =>
    obtain ⟨taken, rfl, rfl, registered⟩ := register_of_read closed read before
    rw [destinationsFrom_register found stop registered]
    simp [fail]
  | case4 found first rest x pos found' separator next more read comma =>
    rename_i ih
    obtain ⟨taken, rfl, rfl, registered⟩ := register_of_read closed read before
    have marked : separator.isMark .comma = true := Token.isMark_iff.mpr comma
    rw [destinationsFrom_register found stop registered]
    simp only [marked, List.isEmpty_cons, Bool.not_true, Bool.or_self, Bool.false_eq_true, if_false]
    -- The register and its comma go over to the part before the position.
    have behind := ih (before ++ first :: (taken ++ [separator])) (by grind)
    simpa using behind
  | case5 found first rest x pos separator next more read comma =>
    obtain ⟨taken, rfl, rfl, registered⟩ := register_of_read closed read before
    have unmarked : separator.isMark .comma = false := by simpa [Token.isMark] using comma
    rw [destinationsFrom_register found stop registered]
    simp [unmarked, fail]

theorem jump_eq (before : List Token) (semicolon : Token) (rest : List Token) :
    jump (before ++ semicolon :: rest) before.length = checked (parseJump semicolon.pos rest) := by
  rcases rest with _ | ⟨⟨lexeme, pos⟩, _ | ⟨extra, more⟩⟩
  · simp [jump, parseJump, fail]
  · rw [jump, if_neg (by simp), if_neg (by simp),
      entry_at (before ++ [semicolon]) ⟨lexeme, pos⟩ [] (by simp) (by simp), ok_bind]
    cases lexeme with
    | name word =>
      simp only [parseJump]
      cases Jump.ofWord? word <;> rfl
    | number text | constant text | mark mark => rfl
  · rw [jump, if_neg (by grind), if_pos (by grind),
      span_at (before ++ [semicolon, ⟨lexeme, pos⟩]) extra more [] (by simp) (by simp) (by grind)]
    cases lexeme <;> rfl

/-! ## Compute instructions -/

/-- The position of the first of some marks from `n` on. -/
def search (mark : Mark) (tokens : List Token) (n : Int) : Parse (Option Int) :=
  if n < tokens.length then do
    if (← entry tokens n).isMark mark then .ok (some n) else search mark tokens (n + 1)
  else .ok none
termination_by (tokens.length - n).toNat

/-- The computation whose expression goes from `start` up to `stop`. -/
def computeExpr (tokens : List Token) (whole : Pos) (destinations : List Destination) (jump : Jump)
    (start stop : Int) : Parse Statement :=
  if start = stop then do
    let token ← entry tokens (if start < tokens.length then start else tokens.length - 1)
    let anchor ← if 0 < start then entry tokens (start - 1) else .ok token
    fail anchor.pos .missingExpression
  else do
    let (expr, exprPos) ← expr tokens start stop
    .ok (.compute ⟨destinations, expr, exprPos, jump⟩ whole)

/-- The computation whose expression starts at `start`. -/
def computeFrom (tokens : List Token) (whole : Pos) (destinations : List Destination)
    (start : Int) : Parse Statement := do
  match ← search .semicolon tokens start with
  | some semicolon => do
    computeExpr tokens whole destinations (← jump tokens semicolon) start semicolon
  | none => computeExpr tokens whole destinations .never start tokens.length

def compute (tokens : List Token) : Parse Statement := do
  let whole ← span tokens 0 tokens.length
  match ← search .equals tokens 0 with
  | some equals => do computeFrom tokens whole (← destinations tokens equals) (equals + 1)
  | none => computeFrom tokens whole [] 0

theorem search_eq (mark : Mark) (before xs : List Token) :
    search mark (before ++ xs) before.length =
      .ok (match cutAt (Token.isMark mark) xs with
        | (left, _ :: _) => some (before.length + left.length : Int)
        | (_, []) => none) := by
  induction xs generalizing before with
  | nil =>
    rw [search, if_neg (by simp)]
    rfl
  | cons token rest ih =>
    rw [search, if_pos (by grind), entry_behind, ok_bind]
    by_cases found : token.isMark mark = true
    · rw [if_pos found]
      simp [cutAt, found]
    · have next := ih (before ++ [token])
      have cut : cutAt (Token.isMark mark) (token :: rest) =
          (token :: (cutAt (Token.isMark mark) rest).1, (cutAt (Token.isMark mark) rest).2) := by
        simp [cutAt, found]
      rw [if_neg found, cut]
      rcases cutting : cutAt (Token.isMark mark) rest with ⟨left, _ | ⟨head, right⟩⟩
      · rw [cutting] at next
        simpa using next
      · rw [cutting] at next
        simpa [Int.add_assoc, Int.add_comm 1] using next

/-- The token at which a missing expression is reported: the `=` before it, or the `;` behind it. -/
def anchorToken? (before after : List Token) : Option Token :=
  if before.isEmpty then after.head? else before.getLast?

theorem anchorToken?_eq {before after : List Token} {fallback : Pos}
    (start : before = [] → after.head?.map (·.pos) = some fallback) :
    (anchorToken? before after).map (·.pos) =
      some ((before.getLast?.map (·.pos)).getD fallback) := by
  rcases List.eq_nil_or_concat before with rfl | ⟨inner, token, rfl⟩
  · exact start rfl
  · simp [anchorToken?]

theorem computeExpr_eq {tokens : List Token} {start stop : Int} (before body after : List Token)
    (closed : Closed after) (split : tokens = before ++ (body ++ after)) (first : start = before.length)
    (last : stop = before.length + body.length) {anchor : Pos}
    (anchored : body = [] → (anchorToken? before after).map (·.pos) = some anchor)
    (whole : Pos) (destinations : List Destination) (jump : Jump) :
    computeExpr tokens whole destinations jump start stop =
      checked (parseRest whole destinations jump anchor body) := by
  rcases body with _ | ⟨token, rest⟩
  · obtain ⟨token, found, same⟩ := Option.map_eq_some_iff.mp (anchored rfl)
    rw [computeExpr, if_pos (by simp [first, last])]
    rcases List.eq_nil_or_concat before with rfl | ⟨inner, token', rfl⟩
    · obtain ⟨more, rfl⟩ := List.head?_eq_some_iff.mp found
      have near : start < tokens.length := by simp [first, split]
      rw [if_pos near, entry_at [] token more split first, ok_bind, if_neg (by simp [first]), ok_bind]
      simp [fail, parseRest, parseExpr, same]
    · obtain rfl : token' = token := by simpa [anchorToken?] using found
      have nonempty : (0 : Int) < tokens.length := by grind
      -- The token at the end is read first, though the report names the one before it.
      obtain ⟨other, near⟩ : ∃ other, (entry tokens
          (if start < tokens.length then start else tokens.length - 1) : Parse Token) = .ok other := by
        split
        · exact entry_inside (by omega) (by omega)
        · exact entry_inside (by omega) (by omega)
      rw [near, ok_bind, if_pos (by simp [first]),
        entry_at inner token' after (by simp [split]) (by simp [first]), ok_bind]
      simp [fail, parseRest, parseExpr, same]
  · rw [computeExpr, if_neg (by grind),
      expr_eq before token rest after closed split first (by grind) anchor, parseRest,
      checked_bind]
    rfl

theorem computeFrom_eq {tokens : List Token} {start : Int} (before rest : List Token)
    (split : tokens = before ++ rest) (first : start = before.length) (nonempty : tokens ≠ [])
    (whole : Pos) (destinations : List Destination) :
    computeFrom tokens whole destinations start =
      checked (parseBody whole destinations (before.getLast?.map (·.pos)) rest) := by
  rw [computeFrom, split, first, search_eq, ok_bind, parseBody]
  rcases cutting : cutAt (Token.isMark .semicolon) rest with ⟨body, _ | ⟨semicolon, right⟩⟩
  · have all : rest = body := by simpa using append_of_cutAt cutting
    refine computeExpr_eq before body [] trivial (by simp [all]) rfl (by simp [all]) ?_ whole
      destinations .never
    rintro rfl
    refine anchorToken?_eq fun nothing => absurd split ?_
    rw [all, nothing]
    exact nonempty
  · have cut : rest = body ++ semicolon :: right := append_of_cutAt cutting
    have marked := found_of_cutAt cutting
    have place : before ++ rest = (before ++ body) ++ semicolon :: right := by simp [cut]
    have word : jump (before ++ rest) (before.length + body.length) =
        checked (parseJump semicolon.pos right) := by
      rw [place, ← jump_eq (before ++ body)]
      simp
    simp only [word, checked_bind]
    congr 1
    funext found
    exact computeExpr_eq before body (semicolon :: right) (.inr marked) (by simp [cut]) rfl rfl
      (fun _ => anchorToken?_eq fun _ => rfl) whole destinations found

theorem compute_eq (first : Token) (rest : List Token) :
    compute (first :: rest) = checked (parseCompute (spanFrom first rest) (first :: rest)) := by
  have whole : span (first :: rest) 0 (first :: rest).length = .ok (spanFrom first rest) :=
    span_at [] first rest [] (by simp) rfl (by simp)
  have found := search_eq .equals [] (first :: rest)
  rw [List.nil_append, List.length_nil, Int.natCast_zero] at found
  rw [compute, whole, ok_bind, found, ok_bind, parseCompute_eq_parseBody]
  rcases cutting : cutAt (Token.isMark .equals) (first :: rest) with ⟨left, _ | ⟨equals, right⟩⟩
  · have all : first :: rest = left := by simpa using append_of_cutAt cutting
    rw [← all]
    exact computeFrom_eq [] (first :: rest) rfl rfl (by simp) _ []
  · have cut : first :: rest = left ++ equals :: right := append_of_cutAt cutting
    have marked := found_of_cutAt cutting
    have targets : destinations (first :: rest) left.length =
        checked (parseDestinations equals.pos left) := by
      rcases left with _ | ⟨head, more⟩
      · cases cut
        rfl
      · cases cut
        rw [destinations, if_neg (by grind)]
        exact destinationsFrom_eq [] (equals :: right) (.inl marked) (by simp) []
    simp only [Int.zero_add, targets, checked_bind]
    congr 1
    funext destinations
    have behind : computeFrom (first :: rest) (spanFrom first rest) destinations (left.length + 1) =
        checked (parseBody (spanFrom first rest) destinations
          ((left ++ [equals]).getLast?.map (·.pos)) right) :=
      computeFrom_eq (left ++ [equals]) right (by simp [cut]) (by simp) (by simp) _ destinations
    simpa using behind

/-! ## Lines -/

def label (tokens : List Token) (name : Bytes) : Parse Statement := do
  if 2 < tokens.length then fail (← span tokens 2 tokens.length) .extraTokens
  else .ok (.label name (← span tokens 0 2))

def parseTokens [Constant.Evaluator] (tokens : List Token) : Parse (Option Statement) := do
  if tokens.length = 0 then .ok none
  else if 2 ≤ tokens.length then
    let first ← entry tokens 0
    let second ← entry tokens 1
    match first.lexeme, second.lexeme with
    | .name name, .mark .colon => some <$> label tokens name
    | .name name, .mark .assign =>
      if name == ascii "A" then some <$> address tokens else some <$> compute tokens
    | _, _ => some <$> compute tokens
  else some <$> compute tokens

def parseLine [Constant.Evaluator] (line : Bytes) (lineNo : Nat) : Checked Diagnostic (Option Item) := do
  let statement ←
    (lexLine lineNo line >>= parseTokens).relabel fun (pos, cause) => ⟨pos, line, cause⟩
  .ok (statement.map (⟨lineNo, line, ·⟩))

theorem label_eq (head colon : Token) (rest : List Token) (name : Bytes) :
    label (head :: colon :: rest) name =
      checked (endOfLine rest >>= fun _ => .ok (.label name (head.pos.through colon.pos))) := by
  rcases rest with _ | ⟨first, more⟩
  · rfl
  · have extra : span (head :: colon :: first :: more) 2 (head :: colon :: first :: more).length =
        .ok (spanFrom first more) :=
      span_at [head, colon] first more [] (by simp) rfl (by grind)
    rw [label, if_pos (by simp), extra]
    rfl

theorem spanFrom_cons (first second : Token) (rest : List Token) :
    spanFrom first (second :: rest) =
      first.pos.through ((rest.getLast?.map (·.pos)).getD second.pos) := by
  cases last : rest.getLast? <;> simp [spanFrom, List.getLast?_cons, last]

theorem parseTokens_eq [Constant.Evaluator] (tokens : List Token) :
    parseTokens tokens = checked (HackMachine.parseTokens tokens) := by
  rcases tokens with _ | ⟨first, _ | ⟨second, rest⟩⟩
  · rfl
  · rw [parseTokens, if_neg (by simp), if_neg (by simp), compute_eq, ← checked_map]
    obtain ⟨lexeme, pos⟩ := first
    cases lexeme <;> rfl
  · have head : (entry (first :: second :: rest) 0 : Parse Token) = .ok first := entry_at [] _ _ rfl rfl
    have next : (entry (first :: second :: rest) 1 : Parse Token) = .ok second :=
      entry_at [first] _ _ rfl rfl
    rw [parseTokens, if_neg (by simp), if_pos (by simp), head, next, ok_bind, ok_bind, compute_eq,
      address_eq]
    obtain ⟨lexeme, pos⟩ := first
    obtain ⟨mark, place⟩ := second
    cases lexeme with
    | number text | constant text | mark mark => exact (checked_map _ _).symm
    | name name =>
      cases mark with
      | name text | number text | constant text => exact (checked_map _ _).symm
      | mark mark =>
        cases mark with
        | colon =>
          dsimp only
          rw [label_eq, ← checked_map, HackMachine.parseTokens]
          cases endOfLine rest <;> rfl
        | assign =>
          simp only [HackMachine.parseTokens, ← spanFrom_cons ⟨.name name, pos⟩ ⟨.mark .assign, place⟩]
          split
          · exact (checked_map _ _).symm
          · exact (checked_map _ _).symm
        | _ => exact (checked_map _ _).symm

theorem parseLine_eq [Constant.Evaluator] (line : Bytes) (lineNo : Nat) :
    parseLine line lineNo = checked (HackMachine.parseLine line lineNo) := by
  rw [parseLine, HackMachine.parseLine, lexLine_eq]
  have tokens : (checked (HackMachine.lexLine lineNo line) >>= parseTokens) =
      checked (HackMachine.lexLine lineNo line >>= HackMachine.parseTokens) := by
    rw [checked_bind]
    congr 1
    funext tokens
    exact parseTokens_eq tokens
  rw [tokens, relabel_checked]
  cases HackMachine.lexLine lineNo line >>= HackMachine.parseTokens <;> rfl

end HackMachine.Indexed
