import HackMachine.Proofs.Source.Renumbering

/-! # Lines with code

`codeLines` are the lines of a source that hold tokens.  What parsing gives depends on them alone
(`parse_eq_codeLines`), and an accepted source has one item for each (`codeLines_of_parse`).  Those that
do not declare a label hold its instructions, in order (`instructionLines_of_parse`).
-/

namespace HackMachine

/-- A line of a source with its tokens. -/
structure CodeLine where
  lineNo : Nat
  text : Bytes
  tokens : List Token
  deriving DecidableEq, Repr

/-- What parsing makes of the line. -/
def CodeLine.read [Constant.Evaluator] (c : CodeLine) : Except Diagnostic (Option Item) :=
  match parseTokens c.tokens with
  | .ok statement => .ok (statement.map (⟨c.lineNo, c.text, ·⟩))
  | .error (pos, cause) => .error ⟨pos, c.text, cause⟩

def lexNumbered (numbered : Bytes × Nat) : Except (Pos × Cause) CodeLine := do
  .ok ⟨numbered.2, numbered.1, ← lexLine numbered.2 numbered.1⟩

/-- The lines of a source that hold tokens, if every line can be cut into tokens. -/
def codeLines (source : Bytes) : Except (Pos × Cause) (List CodeLine) := do
  let lines ← (numberedLines source).mapM lexNumbered
  .ok (lines.filter (!·.tokens.isEmpty))

/-! ## One line -/

theorem lexNumbered_eq_ok_iff {numbered : Bytes × Nat} {c : CodeLine} :
    lexNumbered numbered = .ok c ↔
      (c.text, c.lineNo) = numbered ∧ lexLine c.lineNo c.text = .ok c.tokens := by
  obtain ⟨line, lineNo⟩ := numbered
  obtain ⟨lineNo', text, tokens⟩ := c
  rw [lexNumbered, bind_eq_ok_iff]
  constructor
  · intro ⟨_, lexed, same⟩
    cases same
    exact ⟨rfl, lexed⟩
  · intro ⟨same, lexed⟩
    cases same
    exact ⟨tokens, lexed, rfl⟩

theorem CodeLine.read_eq [Constant.Evaluator] {c : CodeLine}
    (lexed : lexLine c.lineNo c.text = .ok c.tokens) :
    c.read = parseLine c.text c.lineNo :=
  (parseLine_eq lexed).symm

theorem CodeLine.read_eq_ok_none_iff [Constant.Evaluator] {c : CodeLine} :
    c.read = .ok none ↔ c.tokens = [] := by
  rw [← parseTokens_eq_ok_none_iff, read]
  cases parseTokens c.tokens with
  | error fault => simp
  | ok statement => cases statement <;> simp

theorem LaidOut.line_eq {line low high : Nat} {tokens : List Token}
    (laid : LaidOut line low high tokens) {token : Token} (member : token ∈ tokens) :
    token.pos.line = line := by
  induction laid with
  | nil => cases member
  | cons _ _ _ _ ih =>
    rcases List.mem_cons.mp member with rfl | member
    · rfl
    · exact ih member

theorem lexLine_line_eq {line : Nat} {text : Bytes} {tokens : List Token}
    (lexed : lexLine line text = .ok tokens) {token : Token} (member : token ∈ tokens) :
    token.pos.line = line :=
  (lexLine_laidOut lexed).line_eq member

/-! ## All lines -/

theorem mapM_parseLine_eq [Constant.Evaluator] {numbered : List (Bytes × Nat)} {lines : List CodeLine}
    (each : List.Forall₂ (fun numbered c => lexNumbered numbered = .ok c) numbered lines) :
    (numbered.mapM fun numbered => parseLine numbered.1 numbered.2) = lines.mapM CodeLine.read := by
  induction each with
  | nil => rfl
  | @cons numbered c rest more lexed _ ih =>
    obtain ⟨rfl, lexed'⟩ := lexNumbered_eq_ok_iff.mp lexed
    rw [List.mapM_cons, List.mapM_cons, ih, CodeLine.read_eq lexed']

theorem map_lineNo_eq {numbered : List (Bytes × Nat)} {lines : List CodeLine}
    (each : List.Forall₂ (fun numbered c => lexNumbered numbered = .ok c) numbered lines) :
    lines.map (·.lineNo) = numbered.map Prod.snd := by
  induction each with
  | nil => rfl
  | cons lexed _ ih =>
    obtain ⟨same, -⟩ := lexNumbered_eq_ok_iff.mp lexed
    rw [List.map_cons, List.map_cons, ih, ← same]

theorem mapM_read_filter [Constant.Evaluator] (lines : List CodeLine) :
    (lines.mapM CodeLine.read >>= fun results => .ok (results.filterMap id)) =
      ((lines.filter (!·.tokens.isEmpty)).mapM CodeLine.read >>=
        fun results => .ok (results.filterMap id) : Except Diagnostic (List Item)) := by
  induction lines with
  | nil => rfl
  | cons c rest ih =>
    -- Both sides read the line first when it holds tokens; otherwise it gives nothing.
    by_cases empty : c.tokens = []
    · rw [List.filter_cons_of_neg (by simp [empty]), ← ih, List.mapM_cons,
        CodeLine.read_eq_ok_none_iff.mpr empty, ok_bind]
      cases rest.mapM CodeLine.read <;> rfl
    · rw [List.filter_cons_of_pos (by simp [empty]), List.mapM_cons, List.mapM_cons]
      cases c.read with
      | error d => rfl
      | ok result =>
        simp only [ok_bind]
        generalize rest.mapM CodeLine.read = outcome at ih ⊢
        generalize (rest.filter (!·.tokens.isEmpty)).mapM CodeLine.read = outcome' at ih ⊢
        cases outcome <;> cases outcome' <;> cases result <;> simp_all [pure, Except.pure]

section

variable {source : Bytes} {lines : List CodeLine} (lexed : codeLines source = .ok lines)

include lexed

/-- A source is parsed by reading its lines with code. -/
theorem parse_eq_codeLines [Constant.Evaluator] :
    parse source = lines.mapM CodeLine.read >>= fun results => .ok (results.filterMap id) := by
  obtain ⟨all, each, same⟩ := bind_eq_ok_iff.mp lexed
  cases same
  rw [← mapM_read_filter, ← mapM_parseLine_eq (mapM_eq_ok_iff.mp each)]
  rfl

theorem mem_codeLines {c : CodeLine} (member : c ∈ lines) :
    lexLine c.lineNo c.text = .ok c.tokens ∧ c.tokens ≠ [] := by
  obtain ⟨all, each, same⟩ := bind_eq_ok_iff.mp lexed
  cases same
  obtain ⟨listed, nonempty⟩ := List.mem_filter.mp member
  obtain ⟨numbered, -, lexed'⟩ := exists_of_mapM_eq_ok each listed
  exact ⟨(lexNumbered_eq_ok_iff.mp lexed').2, by simpa using nonempty⟩

theorem codeLines_distinct : (lines.map (·.lineNo)).Nodup := by
  obtain ⟨all, each, same⟩ := bind_eq_ok_iff.mp lexed
  cases same
  have distinct : (all.map (·.lineNo)).Nodup := by
    rw [map_lineNo_eq (mapM_eq_ok_iff.mp each), numberedLines, List.zipIdx_map_snd]
    exact List.nodup_range'
  exact distinct.sublist (List.filter_sublist.map _)

end

theorem exists_codeLines [Constant.Evaluator] {source : Bytes} {items : List Item}
    (parsed : parse source = .ok items) :
    ∃ lines, codeLines source = .ok lines := by
  cases each : (numberedLines source).mapM lexNumbered with
  | ok all => exact ⟨_, bind_eq_ok_iff.mpr ⟨all, each, rfl⟩⟩
  | error fault =>
    -- A line without tokens to read is not parsed either.
    obtain ⟨before, numbered, after, same, -, failed⟩ := mapM_eq_error_iff.mp each
    have listed : (numbered.1, numbered.2) ∈ numberedLines source := by simp [same]
    obtain ⟨result, read, -⟩ := parse_line parsed listed
    cases lexed : lexLine numbered.2 numbered.1 with
    | error fault =>
      rw [parseLine, lexed] at read
      cases read
    | ok tokens =>
      rw [lexNumbered, lexed] at failed
      cases failed

/-- An accepted source has one item for each of its lines with code. -/
theorem codeLines_of_parse [Constant.Evaluator] {source : Bytes} {items : List Item}
    (parsed : parse source = .ok items) :
    ∃ lines, codeLines source = .ok lines ∧
      List.Forall₂ (fun c item => CodeLine.read c = .ok (some item)) lines items := by
  obtain ⟨lines, lexed⟩ := exists_codeLines parsed
  rw [parse_eq_codeLines lexed] at parsed
  obtain ⟨results, mapped, same⟩ := bind_eq_ok_iff.mp parsed
  cases same
  refine ⟨lines, lexed, ?_⟩
  have held : ∀ c ∈ lines, c.read ≠ .ok none := by
    intro c member empty
    exact (mem_codeLines lexed member).2 (CodeLine.read_eq_ok_none_iff.mp empty)
  have each := mapM_eq_ok_iff.mp mapped
  clear mapped parsed lexed
  induction each with
  | nil => exact .nil
  | @cons c result _ _ read _ ih =>
    obtain ⟨first, others⟩ := List.forall_mem_cons.mp held
    cases result with
    | none => exact absurd read first
    | some item => exact .cons read (ih others)

/-! ## Lines with instructions -/

/-- The lexemes start like the declaration of a label. -/
def startsLabel : List Lexeme → Bool
  | .name _ :: .mark .colon :: _ => true
  | _ => false

def CodeLine.isLabel (c : CodeLine) : Bool := startsLabel (lexemesOf c.tokens)

/-- The numbers of the lines that hold an instruction. -/
def instructionLines (source : Bytes) : Except (Pos × Cause) (List Nat) := do
  let lines ← codeLines source
  .ok ((lines.filter (!·.isLabel)).map (·.lineNo))

theorem colon_mem_of_startsLabel {lexemes : List Lexeme} (starts : startsLabel lexemes = true) :
    .mark .colon ∈ lexemes := by
  unfold startsLabel at starts
  split at starts
  · simp
  · cases starts

theorem isInstruction_of_node [Constant.Evaluator] {derivation : Grammar.Line} {statement : Statement}
    (node : derivation.node = statement.node) :
    statement.isInstruction = !startsLabel derivation.lexemes := by
  cases derivation with
  | label name =>
    cases statement with
    | label => rfl
    | address | compute => cases node
  | address value =>
    obtain ⟨targetPos, pos, rfl⟩ := Statement.eq_address node.symm
    rfl
  | compute targets alu jump =>
    obtain ⟨c, pos, rfl, -⟩ := Statement.eq_compute node.symm
    -- A computation holds no colon.
    have other : startsLabel (Grammar.Line.compute targets alu jump).lexemes = false := by
      rw [Bool.eq_false_iff]
      intro starts
      exact Grammar.not_mem_compute (.inl rfl) targets alu jump (colon_mem_of_startsLabel starts)
    rw [other]
    rfl

theorem CodeLine.read_isInstruction [Constant.Evaluator] {c : CodeLine} {item : Item}
    (read : c.read = .ok (some item)) :
    item.lineNo = c.lineNo ∧ item.statement.isInstruction = !c.isLabel := by
  rw [CodeLine.read] at read
  split at read
  · next found parsed =>
    rw [Except.ok.injEq, Option.map_eq_some_iff] at read
    obtain ⟨statement, rfl, rfl⟩ := read
    obtain ⟨derivation, derived, node⟩ := parseTokens_sound parsed
    refine ⟨rfl, ?_⟩
    rw [isLabel, ← derived]
    exact isInstruction_of_node node
  · cases read

/-- The instructions of an accepted source stand on its lines with instructions. -/
theorem instructionLines_of_parse [Constant.Evaluator] {source : Bytes} {items : List Item}
    (parsed : parse source = .ok items) :
    instructionLines source = .ok ((instructions items).map (·.lineNo)) := by
  obtain ⟨lines, lexed, each⟩ := codeLines_of_parse parsed
  refine bind_eq_ok_iff.mpr ⟨lines, lexed, congrArg Except.ok ?_⟩
  clear lexed parsed
  induction each with
  | nil => rfl
  | @cons c item _ _ read _ ih =>
    obtain ⟨lineNo, isInstruction⟩ := CodeLine.read_isInstruction read
    cases label : c.isLabel with
    | true =>
      rw [label] at isInstruction
      rw [List.filter_cons_of_neg (by simp [label]), ih, instructions, instructions,
        List.filter_cons_of_neg (by simp [isInstruction])]
    | false =>
      rw [label] at isInstruction
      rw [List.filter_cons_of_pos (by simp [label]), List.map_cons, ih, instructions, instructions,
        List.filter_cons_of_pos (by simp [isInstruction]), List.map_cons, lineNo]

end HackMachine
