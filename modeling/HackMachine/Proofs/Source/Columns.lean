import HackMachine.Proofs.Program.Labels
import HackMachine.Proofs.Source.LineParsing

/-! # Where tokens stand

The tokens of a line stand in order, each in at least one column of the line, and every label has a name
of letters and digits.
-/

namespace HackMachine

/-- Tokens of a line that stand in order from column `low` on and end before column `high`. -/
inductive LaidOut (line : Nat) : Nat → Nat → List Token → Prop
  | nil {low high} : LaidOut line low high []
  | cons {low high start stop lexeme rest} : low ≤ start → start < stop → stop ≤ high →
      LaidOut line stop high rest →
      LaidOut line low high (⟨lexeme, ⟨line, (start : Nat), (stop : Nat)⟩⟩ :: rest)

/-- A span of at least one of the columns from `low` to `high`, the latter excluded. -/
structure Pos.Spans (pos : Pos) (low high : Nat) : Prop where
  low_le : (low : Int) ≤ pos.start
  start_lt : pos.start < pos.stop
  stop_le : pos.stop ≤ high

theorem LaidOut.mono {line low low' high : Nat} {tokens : List Token} (le : low' ≤ low)
    (laid : LaidOut line low high tokens) : LaidOut line low' high tokens := by
  cases laid with
  | nil => exact .nil
  | cons first width last rest => exact .cons (le.trans first) width last rest

theorem LaidOut.spans {line low high : Nat} {first : Token} {more rest : List Token}
    (laid : LaidOut line low high (first :: (more ++ rest))) : (spanFrom first more).Spans low high := by
  induction more generalizing first low with
  | nil =>
    cases laid with
    | cons before width last _ =>
      exact ⟨by simpa [spanFrom, Pos.through], by simpa [spanFrom, Pos.through],
        by simpa [spanFrom, Pos.through]⟩
  | cons next more ih =>
    have same : (spanFrom first (next :: more)).stop = (spanFrom next more).stop := by
      simp [spanFrom, Pos.through, List.getLast?_cons]
    cases laid with
    | cons before width _ behind =>
      obtain ⟨order, width', last⟩ := ih behind
      refine ⟨by simpa [spanFrom, Pos.through], ?_, same ▸ last⟩
      rw [same]
      simp only [spanFrom, Pos.through] at order width' ⊢
      omega

theorem LaidOut.rest {line low high : Nat} {token : Token} {rest : List Token}
    (laid : LaidOut line low high (token :: rest)) : LaidOut line low high rest := by
  cases laid with
  | cons first width _ rest => exact rest.mono (first.trans width.le)

/-! ## The lexer -/

theorem closing_lt {depth count found : Nat} {text : Bytes}
    (close : closing depth count text = some found) : found < count + text.length := by
  fun_induction closing depth count text with
  | case1 => cases close
  | case2 depth count b rest opens ih =>
    have inside := ih close
    simp only [List.length_cons]
    omega
  | case3 count b rest opens closes =>
    cases close
    simp
  | case4 count b rest opens closes outer ih =>
    have inside := ih close
    simp only [List.length_cons]
    omega
  | case5 depth count b rest opens closes ih =>
    have inside := ih close
    simp only [List.length_cons]
    omega

/-- The shapes of a lexeme, with the number of bytes that it takes behind its first. -/
theorem scan_lexeme_cases {b : UInt8} {rest : Bytes} {lexeme : Lexeme} {more : Nat}
    (scanned : scan b rest = .lexeme lexeme more) :
    ((Bytes.isLetter b = true ∧ lexeme = .name (b :: rest.takeWhile Bytes.isWord) ∨
        Bytes.isDigit b = true ∧ lexeme = .number (b :: rest.takeWhile Bytes.isWord)) ∧
      more = (rest.takeWhile Bytes.isWord).length) ∨
    (∃ inner count, b = byte '$' ∧ rest = byte '(' :: inner ∧ closing 0 0 inner = some count ∧
      lexeme = .constant (inner.take count) ∧ more = count + 2) ∨
    (∃ behind, b = byte ':' ∧ rest = byte '=' :: behind ∧ lexeme = .mark .assign ∧ more = 1) ∨
    ∃ mark, Mark.ofByte? b = some mark ∧ ¬ (b = byte ':' ∧ rest.head? = some (byte '=')) ∧
      lexeme = .mark mark ∧ more = 0 := by
  unfold scan at scanned
  split at scanned
  · cases scanned
  split at scanned
  · cases scanned
  split at scanned
  · next letter =>
    cases scanned
    exact .inl ⟨.inl ⟨letter, rfl⟩, rfl⟩
  split at scanned
  · next digit =>
    cases scanned
    exact .inl ⟨.inr ⟨digit, rfl⟩, rfl⟩
  split at scanned
  · next dollar =>
    simp only [Bool.and_eq_true, beq_iff_eq] at dollar
    obtain ⟨inner, rfl⟩ := List.head?_eq_some_iff.mp dollar.2
    split at scanned
    · next count close =>
      cases scanned
      exact .inr (.inl ⟨inner, count, dollar.1, rfl, close, rfl, rfl⟩)
    · cases scanned
  split at scanned
  · next assign =>
    cases scanned
    simp only [Bool.and_eq_true, beq_iff_eq] at assign
    obtain ⟨behind, rfl⟩ := List.head?_eq_some_iff.mp assign.2
    exact .inr (.inr (.inl ⟨behind, assign.1, rfl, rfl, rfl⟩))
  · next single =>
    simp only [Bool.and_eq_true, beq_iff_eq] at single
    split at scanned
    · next mark named =>
      cases scanned
      exact .inr (.inr (.inr ⟨mark, named, single, rfl, rfl⟩))
    · cases scanned

theorem scan_lexeme_le {b : UInt8} {rest : Bytes} {lexeme : Lexeme} {more : Nat}
    (scanned : scan b rest = .lexeme lexeme more) : more ≤ rest.length := by
  obtain ⟨-, rfl⟩ | ⟨inner, count, -, rfl, close, -, rfl⟩ | ⟨behind, -, rfl, -, rfl⟩ |
    ⟨mark, -, -, -, rfl⟩ := scan_lexeme_cases scanned
  · exact (List.takeWhile_sublist _).length_le
  · have inside := closing_lt close
    rw [List.length_cons]
    omega
  · simp
  · omega

/-- The two faults of a line's start: a byte that starts nothing, and a constant without an end. -/
theorem scan_fault_cases {b : UInt8} {rest : Bytes} {cause : Cause} {more : Nat}
    (scanned : scan b rest = .fault cause more) :
    (cause = .invalidCharacter ∧ more = 0 ∧ ¬ (b = byte '$' ∧ rest.head? = some (byte '('))) ∨
    ∃ inner, b = byte '$' ∧ rest = byte '(' :: inner ∧ closing 0 0 inner = none ∧
      cause = .unclosedConstant ∧ more = rest.length := by
  unfold scan at scanned
  split at scanned
  · cases scanned
  split at scanned
  · cases scanned
  split at scanned
  · cases scanned
  split at scanned
  · cases scanned
  split at scanned
  · next dollar =>
    simp only [Bool.and_eq_true, beq_iff_eq] at dollar
    obtain ⟨inner, rfl⟩ := List.head?_eq_some_iff.mp dollar.2
    split at scanned
    · cases scanned
    · next unclosed =>
      cases scanned
      exact .inr ⟨inner, dollar.1, rfl, unclosed, rfl, rfl⟩
  · next plain =>
    simp only [Bool.and_eq_true, beq_iff_eq] at plain
    split at scanned
    · cases scanned
    · split at scanned
      · cases scanned
      · cases scanned
        exact .inl ⟨rfl, rfl, plain⟩

theorem scan_fault_le {b : UInt8} {rest : Bytes} {cause : Cause} {more : Nat}
    (scanned : scan b rest = .fault cause more) : more ≤ rest.length := by
  obtain ⟨-, rfl, -⟩ | ⟨inner, -, -, -, -, rfl⟩ := scan_fault_cases scanned
  · exact Nat.zero_le _
  · exact le_refl _

theorem lexFrom_laidOut {line column : Nat} {found tokens : List Token} {text : Bytes}
    (lexed : lexFrom line column found text = .ok tokens) :
    ∃ more, tokens = found.reverse ++ more ∧ LaidOut line column (column + text.length) more := by
  fun_induction lexFrom line column found text with
  | case1 column found =>
    cases lexed
    exact ⟨[], by simp, .nil⟩
  | case2 column found b rest blank ih =>
    obtain ⟨more, same, laid⟩ := ih lexed
    refine ⟨more, same, ?_⟩
    rw [List.length_cons, Nat.add_comm rest.length, ← Nat.add_assoc]
    exact laid.mono (by omega)
  | case3 column found b rest comment =>
    cases lexed
    exact ⟨[], by simp, .nil⟩
  | case4 column found b rest lexeme taken scanned next ih =>
    obtain ⟨more, same, laid⟩ := ih lexed
    have inside := scan_lexeme_le scanned
    refine ⟨⟨lexeme, ⟨line, column, next⟩⟩ :: more, by simp [same], ?_⟩
    -- The end of the line stays where it is while the column moves on.
    have width : next + (rest.drop taken).length = column + (b :: rest).length := by
      simp only [next, List.length_drop, List.length_cons]
      omega
    rw [width] at laid
    exact .cons (le_refl _) (by simp only [next]; omega) (by simp only [next, List.length_cons]; omega) laid
  | case5 column found b rest cause taken scanned => cases lexed

/-- The tokens of a line stand in its columns, which count from one. -/
theorem lexLine_laidOut {line : Nat} {text : Bytes} {tokens : List Token}
    (lexed : lexLine line text = .ok tokens) : LaidOut line 1 (text.length + 1) tokens := by
  obtain ⟨more, rfl, laid⟩ := lexFrom_laidOut lexed
  simpa [Nat.add_comm] using laid

theorem lexFrom_forall (property : Lexeme → Prop)
    (scans : ∀ b rest lexeme more, scan b rest = .lexeme lexeme more → property lexeme)
    {line column : Nat} {found tokens : List Token} {text : Bytes}
    (before : ∀ token ∈ found, property token.lexeme)
    (lexed : lexFrom line column found text = .ok tokens) :
    ∀ token ∈ tokens, property token.lexeme := by
  fun_induction lexFrom line column found text with
  | case1 column found =>
    cases lexed
    simpa using before
  | case2 column found b rest blank ih => exact ih before lexed
  | case3 column found b rest comment =>
    cases lexed
    simpa using before
  | case4 column found b rest lexeme taken scanned next ih =>
    exact ih (List.forall_mem_cons.mpr ⟨scans _ _ _ _ scanned, before⟩) lexed
  | case5 column found b rest cause taken scanned => cases lexed

/-- A letter or an underscore, then letters, digits and underscores. -/
def IsName (name : Bytes) : Prop :=
  ∃ b more, name = b :: more ∧ Bytes.isLetter b = true ∧ ∀ c ∈ more, Bytes.isWord c = true

theorem scan_isName {b : UInt8} {rest name : Bytes} {more : Nat}
    (scanned : scan b rest = .lexeme (.name name) more) : IsName name := by
  obtain ⟨⟨letter, same⟩ | ⟨-, same⟩, -⟩ | ⟨_, _, -, -, -, same, -⟩ | ⟨_, -, -, same, -⟩ |
    ⟨_, -, -, same, -⟩ := scan_lexeme_cases scanned
  · cases same
    exact ⟨b, _, rfl, letter, fun c member => (List.mem_takeWhile_imp member)⟩
  · cases same
  · cases same
  · cases same
  · cases same

theorem lexLine_isName {line : Nat} {text name : Bytes} {tokens : List Token}
    (lexed : lexLine line text = .ok tokens) (member : .name name ∈ lexemesOf tokens) : IsName name := by
  have all := lexFrom_forall (fun lexeme => ∀ name, lexeme = .name name → IsName name)
    (fun b rest lexeme more scanned name same => scan_isName (same ▸ scanned)) (by simp) lexed
  obtain ⟨token, listed, same⟩ := List.mem_map.mp member
  exact all token listed name same

/-! ## Items -/

theorem parseLine_eq_ok_some [Constant.Evaluator] {line : Bytes} {lineNo : Nat} {item : Item}
    (read : parseLine line lineNo = .ok (some item)) :
    ∃ tokens, lexLine item.lineNo item.line = .ok tokens ∧
      parseTokens tokens = .ok (some item.statement) := by
  unfold parseLine at read
  split at read
  · next statement parsed =>
    obtain ⟨tokens, lexed, parsed⟩ := bind_eq_ok_iff.mp parsed
    cases statement with
    | none => cases read
    | some statement =>
      cases read
      exact ⟨tokens, lexed, parsed⟩
  · cases read

/-- Every item of a source is the statement of the tokens of its line. -/
theorem parse_item [Constant.Evaluator] {source : Bytes} {items : List Item}
    (parsed : parse source = .ok items) {item : Item} (member : item ∈ items) :
    ∃ tokens, lexLine item.lineNo item.line = .ok tokens ∧
      parseTokens tokens = .ok (some item.statement) := by
  obtain ⟨found, mapped, same⟩ := bind_eq_ok_iff.mp parsed
  cases same
  obtain ⟨result, listed, rfl⟩ : ∃ result ∈ found, result = some item := by
    simpa [List.mem_filterMap] using member
  obtain ⟨⟨line, lineNo⟩, -, read⟩ := exists_of_mapM_eq_ok mapped listed
  exact parseLine_eq_ok_some read

/-- What a parsed item declares or refers to is a name. -/
theorem parse_isName [Constant.Evaluator] {source name : Bytes} {items : List Item}
    (parsed : parse source = .ok items) {item : Item} (member : item ∈ items)
    (named : item.declared? = some name ∨ item.referenced? = some name) : IsName name := by
  obtain ⟨tokens, lexed, read⟩ := parse_item parsed member
  obtain ⟨line, derived, node⟩ := parseTokens_sound read
  apply lexLine_isName lexed
  rw [← derived]
  -- The name stands in the line from which the statement derives.
  rcases named with declares | refers
  · obtain ⟨pos, same⟩ := Item.declared?_eq_some declares
    rw [same] at node
    cases line with
    | label => cases node; simp [Grammar.Line.lexemes]
    | address | compute => cases node
  · obtain ⟨targetPos, pos, same⟩ := Item.referenced?_eq_some refers
    rw [same] at node
    cases line with
    | label | compute => cases node
    | address value =>
      cases value with
      | label => cases node; simp [Grammar.Line.lexemes, Grammar.Value.lexemes]
      | number | negative | constant => cases node

theorem parse_referenced_ne_nil [Constant.Evaluator] {source : Bytes} {items : List Item}
    (parsed : parse source = .ok items) {item : Item} (member : item ∈ items) :
    item.referenced? ≠ some [] := by
  intro refers
  obtain ⟨_, _, same, -⟩ := parse_isName parsed member (.inr refers)
  cases same

end HackMachine
