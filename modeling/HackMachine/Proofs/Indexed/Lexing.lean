import HackMachine.Proofs.Indexed.Checked
import HackMachine.Proofs.Source.Columns

/-! # Lexing by position

The lexer with the positions that it reads and the slices that it cuts.  `Indexed.lexLine_eq` says
that all of them lie inside the line.
-/

namespace HackMachine.Indexed

variable {ε : Type}

/-- The position behind the word that goes on at `n`. -/
def wordEnd (line : Bytes) (n : Int) : Checked ε Int :=
  if n < line.length then do
    let b ← entry line n
    if Bytes.isWord b then wordEnd line (n + 1) else .ok n
  else .ok n
termination_by (line.length - n).toNat

/-- The number of open parentheses behind one more byte. -/
def depthBehind (b : UInt8) (depth : Int) : Int :=
  if b == byte '(' then depth + 1 else if b == byte ')' then depth - 1 else depth

/-- The position behind the parenthesis that balances, and the number of those still open. -/
def balanceEnd (line : Bytes) (n depth : Int) : Checked ε (Int × Int) :=
  if n < line.length then do
    let b ← entry line n
    if depthBehind b depth = 0 then .ok (n + 1, 0)
    else balanceEnd line (n + 1) (depthBehind b depth)
  else .ok (n, depth)
termination_by (line.length - n).toNat

/-- What stands at a position, and the position behind it. -/
inductive Advance where
  | skip (next : Int)
  | finished
  | token (token : Token) (next : Int)

def lexStep (lineNo : Nat) (line : Bytes) (n : Int) : Checked (Pos × Cause) Advance := do
  let place (low high : Int) : Pos := ⟨lineNo, low + 1, high + 1⟩
  let b ← entry line n
  let behind ← part line n line.length
  if Bytes.isBlank b then .ok (.skip (n + 1))
  else if (ascii "//").isPrefixOf behind then .ok .finished
  else if Bytes.isLetter b then do
    let stop ← wordEnd line n
    .ok (.token ⟨.name (← part line n stop), place n stop⟩ stop)
  else if Bytes.isDigit b then do
    let stop ← wordEnd line n
    .ok (.token ⟨.number (← part line n stop), place n stop⟩ stop)
  else if (ascii "$(").isPrefixOf behind then do
    let (stop, depth) ← balanceEnd line (n + 1) 0
    if depth ≠ 0 then .error (.reported (place n line.length, .unclosedConstant))
    else .ok (.token ⟨.constant (← part line (n + 2) (stop - 1)), place n stop⟩ stop)
  else if (ascii ":=").isPrefixOf behind then
    .ok (.token ⟨.mark .assign, place n (n + 2)⟩ (n + 2))
  else
    match Mark.ofByte? b with
    | some mark => do
      let _ ← part line n (n + 1)
      .ok (.token ⟨.mark mark, place n (n + 1)⟩ (n + 1))
    | none => .error (.reported (place n (n + 1), .invalidCharacter))

/-! ## The loops inside a lexeme -/

theorem wordEnd_eq (before rest : Bytes) :
    (wordEnd (before ++ rest) before.length : Checked ε Int) =
      .ok (before.length + (rest.takeWhile Bytes.isWord).length) := by
  induction rest generalizing before with
  | nil =>
    rw [wordEnd]
    simp
  | cons b rest ih =>
    have next := ih (before ++ [b])
    rw [List.append_assoc, List.length_append] at next
    rw [wordEnd]
    simp only [entry_behind, ok_bind, List.length_append, List.length_cons]
    rw [if_pos (by omega)]
    by_cases word : Bytes.isWord b = true
    · rw [if_pos word, List.takeWhile_cons_of_pos word]
      simpa [Int.add_assoc, Int.add_comm 1] using next
    · rw [if_neg word, List.takeWhile_cons_of_neg word]
      simp

theorem balanceEnd_nil (before : Bytes) (depth : Int) :
    (balanceEnd (before ++ []) before.length depth : Checked ε (Int × Int)) =
      .ok (before.length, depth) := by
  rw [balanceEnd]
  simp

theorem balanceEnd_cons (before : Bytes) (b : UInt8) (rest : Bytes) (depth : Int) :
    (balanceEnd (before ++ b :: rest) before.length depth : Checked ε (Int × Int)) =
      if depthBehind b depth = 0 then .ok (before.length + 1, 0)
      else balanceEnd ((before ++ [b]) ++ rest) (before ++ [b]).length (depthBehind b depth) := by
  rw [balanceEnd]
  simp only [entry_behind, ok_bind, List.length_append, List.length_cons]
  rw [if_pos (by omega)]
  simp

theorem balanceEnd_of_closing {depth count found : Nat} {text : Bytes}
    (closes : closing depth count text = some found) (before : Bytes) :
    (balanceEnd (before ++ text) before.length (depth + 1) : Checked ε (Int × Int)) =
      .ok (before.length + (found - count) + 1, 0) := by
  fun_induction closing depth count text generalizing before with
  | case1 => cases closes
  | case2 depth count b rest opens ih =>
    have behind : depthBehind b (depth + 1) = (depth + 1 : Nat) + 1 := by simp [depthBehind, opens]
    rw [balanceEnd_cons, behind, if_neg (by omega), ih closes]
    grind
  | case3 count b rest opens ends =>
    cases closes
    have behind : depthBehind b ((0 : Nat) + 1) = 0 := by simp [depthBehind, opens, ends]
    rw [balanceEnd_cons, behind, if_pos rfl]
    simp
  | case4 count b rest opens ends outer ih =>
    have behind : depthBehind b ((outer + 1 : Nat) + 1) = outer + 1 := by
      simp [depthBehind, opens, ends]
    rw [balanceEnd_cons, behind, if_neg (by omega), ih closes]
    grind
  | case5 depth count b rest opens ends ih =>
    have behind : depthBehind b (depth + 1) = depth + 1 := by simp [depthBehind, opens, ends]
    rw [balanceEnd_cons, behind, if_neg (by omega), ih closes]
    grind

theorem balanceEnd_of_open {depth count : Nat} {text : Bytes}
    (unclosed : closing depth count text = none) (before : Bytes) :
    ∃ deeper : Int, deeper ≠ 0 ∧
      (balanceEnd (before ++ text) before.length (depth + 1) : Checked ε (Int × Int)) =
        .ok ((before ++ text).length, deeper) := by
  fun_induction closing depth count text generalizing before with
  | case1 depth count =>
    refine ⟨depth + 1, by omega, ?_⟩
    rw [balanceEnd_nil]
    simp
  | case2 depth count b rest opens ih =>
    have behind : depthBehind b (depth + 1) = (depth + 1 : Nat) + 1 := by simp [depthBehind, opens]
    rw [balanceEnd_cons, behind, if_neg (by omega)]
    simpa using ih unclosed (before ++ [b])
  | case3 count b rest opens ends => cases unclosed
  | case4 count b rest opens ends outer ih =>
    have behind : depthBehind b ((outer + 1 : Nat) + 1) = outer + 1 := by
      simp [depthBehind, opens, ends]
    rw [balanceEnd_cons, behind, if_neg (by omega)]
    simpa using ih unclosed (before ++ [b])
  | case5 depth count b rest opens ends ih =>
    have behind : depthBehind b (depth + 1) = depth + 1 := by simp [depthBehind, opens, ends]
    rw [balanceEnd_cons, behind, if_neg (by omega)]
    simpa using ih unclosed (before ++ [b])

/-! ## Lexemes -/

/-- The step that a scan at position `n` of line `lineNo` stands for. -/
def advance (lineNo : Nat) (n : Int) : Scan → Except (Pos × Cause) Advance
  | .blank => .ok (.skip (n + 1))
  | .comment => .ok .finished
  | .lexeme lexeme more =>
    .ok (.token ⟨lexeme, ⟨lineNo, n + 1, n + (more + 1) + 1⟩⟩ (n + (more + 1)))
  | .fault cause more => .error (⟨lineNo, n + 1, n + (more + 1) + 1⟩, cause)

theorem isPrefixOf_pair (x y b : UInt8) (rest : Bytes) :
    [x, y].isPrefixOf (b :: rest) = (b == x && rest.head? == some y) := by
  cases rest with
  | nil => simp [List.isPrefixOf]
  | cons c rest => simp [List.isPrefixOf, Bool.beq_comm]

theorem word_step {b : UInt8} (word : Bytes.isWord b = true) (lineNo : Nat) (before rest : Bytes)
    (make : Bytes → Lexeme) :
    (do
      let stop ← wordEnd (before ++ b :: rest) before.length
      .ok (.token ⟨make (← part (before ++ b :: rest) before.length stop),
        ⟨lineNo, before.length + 1, stop + 1⟩⟩ stop) : Checked (Pos × Cause) Advance) =
      checked (advance lineNo before.length
        (.lexeme (make (b :: rest.takeWhile Bytes.isWord)) (rest.takeWhile Bytes.isWord).length)) := by
  have cut : (part (before ++ b :: rest) before.length
      (before.length + (b :: rest.takeWhile Bytes.isWord).length) : Checked (Pos × Cause) Bytes) =
      .ok (b :: rest.takeWhile Bytes.isWord) :=
    part_at before (b :: rest.takeWhile Bytes.isWord) (rest.dropWhile Bytes.isWord)
      (by rw [List.cons_append, List.takeWhile_append_dropWhile]) rfl rfl
  rw [wordEnd_eq, List.takeWhile_cons_of_pos word, ok_bind, cut]
  rfl

theorem constant_step (lineNo : Nat) (before rest : Bytes) :
    (do
      let (stop, depth) ← balanceEnd (before ++ byte '$' :: byte '(' :: rest) (before.length + 1) 0
      if depth ≠ 0 then
        .error (.reported (⟨lineNo, before.length + 1,
          (before ++ byte '$' :: byte '(' :: rest).length + 1⟩, .unclosedConstant))
      else .ok (.token ⟨.constant (← part (before ++ byte '$' :: byte '(' :: rest) (before.length + 2)
        (stop - 1)), ⟨lineNo, before.length + 1, stop + 1⟩⟩ stop) : Checked (Pos × Cause) Advance) =
      checked (advance lineNo before.length
        (match closing 0 0 rest with
        | some count => .lexeme (.constant (rest.take count)) (count + 2)
        | none => .fault .unclosedConstant (rest.length + 1))) := by
  have opened : (balanceEnd (before ++ byte '$' :: byte '(' :: rest) (before.length + 1) 0 :
      Checked (Pos × Cause) (Int × Int)) =
      balanceEnd ((before ++ [byte '$', byte '(']) ++ rest) (before ++ [byte '$', byte '(']).length
        ((0 : Nat) + 1) := by
    have step := balanceEnd_cons (ε := Pos × Cause) (before ++ [byte '$']) (byte '(') rest 0
    simpa [depthBehind] using step
  rw [opened]
  cases closes : closing 0 0 rest with
  | some count =>
    have inside := closing_lt closes
    have stop : ((before ++ [byte '$', byte '(']).length : Int) + (count - (0 : Nat)) + 1 =
        before.length + ((count + 2 : Nat) + 1) := by
      simp only [List.length_append, List.length_cons, List.length_nil]
      omega
    have cut : (part (before ++ byte '$' :: byte '(' :: rest) (before.length + 2)
        (before.length + ((count + 2 : Nat) + 1) - 1) : Checked (Pos × Cause) Bytes) =
        .ok (rest.take count) := by
      refine part_at (before ++ [byte '$', byte '(']) (rest.take count) (rest.drop count) (by simp)
        (by simp) ?_
      simp only [List.length_append, List.length_cons, List.length_nil, List.length_take]
      omega
    rw [balanceEnd_of_closing closes, stop, ok_bind]
    simp only [ne_eq, not_true_eq_false, if_false, cut]
    rfl
  | none =>
    obtain ⟨deeper, still, ends⟩ := balanceEnd_of_open (ε := Pos × Cause) closes
      (before ++ [byte '$', byte '('])
    rw [ends]
    simp [still, advance]

theorem lexStep_eq (lineNo : Nat) (before : Bytes) (b : UInt8) (rest : Bytes) :
    lexStep lineNo (before ++ b :: rest) before.length =
      checked (advance lineNo before.length (scan b rest)) := by
  have behind : (part (before ++ b :: rest) before.length (before ++ b :: rest).length :
      Checked (Pos × Cause) Bytes) = .ok (b :: rest) :=
    part_at before (b :: rest) [] (by simp) rfl (by simp)
  have comment : (ascii "//").isPrefixOf (b :: rest) =
      (b == byte '/' && rest.head? == some (byte '/')) := isPrefixOf_pair _ _ _ _
  have constant : (ascii "$(").isPrefixOf (b :: rest) =
      (b == byte '$' && rest.head? == some (byte '(')) := isPrefixOf_pair _ _ _ _
  have assign : (ascii ":=").isPrefixOf (b :: rest) =
      (b == byte ':' && rest.head? == some (byte '=')) := isPrefixOf_pair _ _ _ _
  simp only [lexStep, scan, entry_behind, behind, ok_bind, comment, constant, assign]
  split
  · rfl
  split
  · rfl
  split
  · next letter => exact word_step (by simp [Bytes.isWord, letter]) lineNo before rest .name
  split
  · next digit => exact word_step (by simp [Bytes.isWord, digit]) lineNo before rest .number
  split
  · next dollar =>
    simp only [Bool.and_eq_true, beq_iff_eq] at dollar
    obtain ⟨rfl, opens⟩ := dollar
    obtain ⟨inner, rfl⟩ := List.head?_eq_some_iff.mp opens
    exact constant_step lineNo before inner
  split
  · simp [advance]
  · cases Mark.ofByte? b with
    | none => simp [advance]
    | some mark =>
      have cut : (part (before ++ b :: rest) before.length (before.length + 1) :
          Checked (Pos × Cause) Bytes) = .ok [b] :=
        part_at before [b] rest rfl rfl rfl
      simp [advance, cut]

/-! ## Lines -/

/-- Every step but the last moves on. -/
theorem lexStep_advances {lineNo : Nat} {line : Bytes} {n next : Int} {step : Advance}
    (stepped : lexStep lineNo line n = .ok step)
    (continues : step = .skip next ∨ ∃ token, step = .token token next) : n < next := by
  obtain ⟨b, found, -⟩ := bind_eq_ok_iff.mp stepped
  obtain ⟨before, rest, rfl, rfl⟩ := exists_of_entry found
  rw [lexStep_eq] at stepped
  cases scanned : scan b rest with
  | blank =>
    rw [scanned] at stepped
    cases stepped
    obtain same | ⟨token, same⟩ := continues
    · cases same
      omega
    · cases same
  | comment =>
    rw [scanned] at stepped
    cases stepped
    obtain same | ⟨token, same⟩ := continues <;> cases same
  | lexeme lexeme more =>
    rw [scanned] at stepped
    cases stepped
    obtain same | ⟨token, same⟩ := continues
    · cases same
    · cases same
      omega
  | fault cause more =>
    rw [scanned] at stepped
    cases stepped

/-- The tokens from a position on, behind those in `found`, which are in reverse. -/
def lexFrom (lineNo : Nat) (line : Bytes) (n : Int) (found : List Token) :
    Checked (Pos × Cause) (List Token) :=
  if n < line.length then
    match _stepped : lexStep lineNo line n with
    | .error stop => .error stop
    | .ok (.skip next) => lexFrom lineNo line next found
    | .ok .finished => .ok found.reverse
    | .ok (.token token next) => lexFrom lineNo line next (token :: found)
  else .ok found.reverse
termination_by (line.length - n).toNat
decreasing_by
  · have := lexStep_advances _stepped (.inl rfl)
    omega
  · have := lexStep_advances _stepped (.inr ⟨token, rfl⟩)
    omega

def lexLine (lineNo : Nat) (line : Bytes) : Checked (Pos × Cause) (List Token) :=
  lexFrom lineNo line 0 []

/-- What is behind a step. -/
def lexBehind (lineNo : Nat) (line : Bytes) (found : List Token) :
    Advance → Checked (Pos × Cause) (List Token)
  | .skip next => lexFrom lineNo line next found
  | .finished => .ok found.reverse
  | .token token next => lexFrom lineNo line next (token :: found)

theorem lexFrom_cons (lineNo : Nat) (before : Bytes) (b : UInt8) (rest : Bytes) (found : List Token) :
    lexFrom lineNo (before ++ b :: rest) before.length found =
      checked (advance lineNo before.length (scan b rest)) >>=
        lexBehind lineNo (before ++ b :: rest) found := by
  have inside : (before.length : Int) < (before ++ b :: rest).length := by grind
  rw [lexFrom, if_pos inside, ← lexStep_eq]
  split
  · next stop stepped =>
    rw [stepped]
    rfl
  · next next stepped =>
    rw [stepped]
    rfl
  · next stepped =>
    rw [stepped]
    rfl
  · next token next stepped =>
    rw [stepped]
    rfl

theorem lexFrom_eq (lineNo : Nat) {column : Nat} (before text : Bytes) (found : List Token)
    (place : column = before.length + 1) :
    lexFrom lineNo (before ++ text) before.length found =
      checked (HackMachine.lexFrom lineNo column found text) := by
  fun_induction HackMachine.lexFrom lineNo column found text generalizing before with
  | case1 column found =>
    rw [lexFrom, if_neg (by simp)]
    rfl
  | case2 column found b rest blank ih =>
    have next := ih (before ++ [b]) (by simp [place])
    rw [lexFrom_cons, blank]
    simpa [advance, lexBehind] using next
  | case3 column found b rest comment =>
    rw [lexFrom_cons, comment]
    rfl
  | case4 column found b rest lexeme more scanned next =>
    rename_i ih
    have inside := scan_lexeme_le scanned
    -- The lexeme goes over to the part before the position.
    have behind := ih (before ++ b :: rest.take more) (by grind)
    have whole : before ++ b :: rest = (before ++ b :: rest.take more) ++ rest.drop more := by simp
    have start : (before.length : Int) + 1 = column := by omega
    have moved : (before.length : Int) + (more + 1) = (before ++ b :: rest.take more).length := by
      simp only [List.length_append, List.length_cons, List.length_take]
      omega
    have stop : ((before ++ b :: rest.take more).length : Int) + 1 = next := by
      simp only [next]
      omega
    rw [lexFrom_cons, scanned, ← behind, ← whole]
    simp only [advance, checked_ok, ok_bind, lexBehind, start, moved, stop]
  | case5 column found b rest cause more scanned =>
    have start : (before.length : Int) + 1 = column := by omega
    have stop : (before.length : Int) + (more + 1) + 1 = (column + 1 + more : Nat) := by omega
    rw [lexFrom_cons, scanned, advance, start, stop]
    rfl

theorem lexLine_eq (lineNo : Nat) (line : Bytes) :
    lexLine lineNo line = checked (HackMachine.lexLine lineNo line) :=
  lexFrom_eq lineNo [] line [] rfl

end HackMachine.Indexed
