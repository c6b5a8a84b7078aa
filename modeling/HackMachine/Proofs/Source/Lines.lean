import HackMachine.Proofs.Source.Columns
import HackMachine.Proofs.Text.Lines

/-! # The lines of a source and its items

An item of a source is what one of its numbered lines holds, and a line is known by its number.
`LineReads` says which lexemes a line has; the statement of its item is the one that they derive.
-/

namespace HackMachine

/-- The line with a number has the given lexemes. -/
def LineReads (source : Bytes) (lineNo : Nat) (lexemes : List Lexeme) : Prop :=
  ∃ line tokens, (line, lineNo) ∈ numberedLines source ∧ lexLine lineNo line = .ok tokens ∧
    lexemesOf tokens = lexemes

/-! ## Numbered lines -/

theorem mem_numberedLines {source line : Bytes} {lineNo : Nat} :
    (line, lineNo) ∈ numberedLines source ↔
      1 ≤ lineNo ∧ ((Bytes.lines source).map Bytes.dropReturn)[lineNo - 1]? = some line :=
  List.mk_mem_zipIdx_iff_le_and_getElem?_sub

theorem numberedLines_unique {source line other : Bytes} {lineNo : Nat}
    (listed : (line, lineNo) ∈ numberedLines source)
    (listed' : (other, lineNo) ∈ numberedLines source) : line = other := by
  have first := (mem_numberedLines.mp listed).2
  have second := (mem_numberedLines.mp listed').2
  exact Option.some.inj (first.symm.trans second)

theorem LineReads.unique {source : Bytes} {lineNo : Nat} {lexemes others : List Lexeme}
    (reads : LineReads source lineNo lexemes) (reads' : LineReads source lineNo others) :
    lexemes = others := by
  obtain ⟨line, tokens, listed, lexed, rfl⟩ := reads
  obtain ⟨line', tokens', listed', lexed', rfl⟩ := reads'
  obtain rfl := numberedLines_unique listed listed'
  rw [Except.ok.inj (lexed.symm.trans lexed')]

theorem numberedLines_stack (ended : Bool) {texts : List Bytes}
    (visible : ∀ text ∈ texts, Bytes.Visible text) (nonempty : ∀ text ∈ texts, text ≠ []) :
    numberedLines (Bytes.stack ended texts) = texts.zipIdx 1 := by
  have kept : texts.map Bytes.dropReturn = texts := by
    refine (List.map_congr_left fun text member => ?_).trans (List.map_id texts)
    exact (visible text member).dropReturn_eq
  rw [numberedLines, Bytes.lines_stack ended visible nonempty, kept]

/-! ## Items -/

/-- Lines that are read one by one are read together. -/
theorem mapM_parseLine_each [Constant.Evaluator] {α : Type} {text : α → Bytes}
    {holds : α → Item → Prop} {xs : List α}
    (each : ∀ x ∈ xs, ∀ lineNo, ∃ item, parseLine (text x) lineNo = .ok (some item) ∧ holds x item)
    (lineNo : Nat) :
    ∃ items : List Item,
      ((xs.map text).zipIdx lineNo).mapM (fun numbered => parseLine numbered.1 numbered.2) =
        .ok (items.map some) ∧ List.Forall₂ holds xs items := by
  induction xs generalizing lineNo with
  | nil => exact ⟨[], rfl, .nil⟩
  | cons x xs ih =>
    obtain ⟨first, others⟩ := List.forall_mem_cons.mp each
    obtain ⟨item, read, held⟩ := first lineNo
    obtain ⟨items, mapped, rest⟩ := ih others (lineNo + 1)
    refine ⟨item :: items, ?_, .cons held rest⟩
    simp only [List.map_cons, List.zipIdx_cons, List.mapM_cons, read, mapped]
    rfl

theorem parseLine_place [Constant.Evaluator] {line : Bytes} {lineNo : Nat} {item : Item}
    (read : parseLine line lineNo = .ok (some item)) : item.line = line ∧ item.lineNo = lineNo := by
  unfold parseLine at read
  split at read
  · next statement _ =>
    cases statement with
    | none => cases read
    | some statement =>
      cases read
      exact ⟨rfl, rfl⟩
  · cases read

theorem parse_eq_ok [Constant.Evaluator] {source : Bytes} {results : List (Option Item)}
    (mapped : (numberedLines source).mapM (fun numbered => parseLine numbered.1 numbered.2) = .ok results) :
    parse source = .ok (results.filterMap id) :=
  bind_eq_ok_iff.mpr ⟨results, mapped, rfl⟩

theorem parse_eq_error [Constant.Evaluator] {source : Bytes} {diagnostic : Diagnostic}
    (failed : (numberedLines source).mapM (fun numbered => parseLine numbered.1 numbered.2) =
      .error diagnostic) : parse source = .error diagnostic :=
  bind_eq_error_iff.mpr (.inl failed)

/-- A source is refused for its first line that cannot be read. -/
theorem parse_eq_error_iff [Constant.Evaluator] {source : Bytes} {d : Diagnostic} :
    parse source = .error d ↔
      ∃ before line lineNo after, numberedLines source = before ++ (line, lineNo) :: after ∧
        (∀ earlier ∈ before, ∃ result, parseLine earlier.1 earlier.2 = .ok result) ∧
        parseLine line lineNo = .error d := by
  constructor
  · intro failed
    rcases bind_eq_error_iff.mp failed with failed | ⟨_, _, same⟩
    · obtain ⟨before, ⟨line, lineNo⟩, after, cut, passed, refused⟩ := mapM_eq_error_iff.mp failed
      exact ⟨before, line, lineNo, after, cut, passed, refused⟩
    · cases same
  · rintro ⟨before, line, lineNo, after, cut, passed, refused⟩
    exact parse_eq_error (mapM_eq_error_iff.mpr ⟨before, (line, lineNo), after, cut, passed, refused⟩)

section

variable [Constant.Evaluator] {source : Bytes} {items : List Item} (parsed : parse source = .ok items)

include parsed

theorem parse_mapM :
    ∃ results, (numberedLines source).mapM (fun numbered => parseLine numbered.1 numbered.2) = .ok results ∧
      items = results.filterMap id := by
  obtain ⟨results, mapped, same⟩ := bind_eq_ok_iff.mp parsed
  exact ⟨results, mapped, (Except.ok.inj same).symm⟩

/-- Every line is read, and what it holds is an item of the source. -/
theorem parse_line {line : Bytes} {lineNo : Nat} (listed : (line, lineNo) ∈ numberedLines source) :
    ∃ result, parseLine line lineNo = .ok result ∧ ∀ item, result = some item → item ∈ items := by
  obtain ⟨results, mapped, rfl⟩ := parse_mapM parsed
  obtain ⟨result, member, read⟩ := forall_of_mapM_eq_ok mapped listed
  refine ⟨result, read, fun item found => ?_⟩
  exact List.mem_filterMap.mpr ⟨result, member, found⟩

/-- Every item stands on the line with its number. -/
theorem parse_listed {item : Item} (member : item ∈ items) :
    (item.line, item.lineNo) ∈ numberedLines source ∧
      parseLine item.line item.lineNo = .ok (some item) := by
  obtain ⟨results, mapped, rfl⟩ := parse_mapM parsed
  obtain ⟨result, listed, found⟩ := List.mem_filterMap.mp member
  obtain rfl : result = some item := found
  obtain ⟨⟨line, lineNo⟩, numbered, read⟩ := exists_of_mapM_eq_ok mapped listed
  obtain ⟨rfl, rfl⟩ := parseLine_place read
  exact ⟨numbered, read⟩

/-- The statement of an item is the one that the lexemes of its line derive. -/
theorem parse_reads {item : Item} (member : item ∈ items) :
    ∃ derivation : Grammar.Line, LineReads source item.lineNo derivation.lexemes ∧
      derivation.node = item.statement.node := by
  obtain ⟨listed, read⟩ := parse_listed parsed member
  obtain ⟨tokens, lexed, statementRead⟩ := parseLine_eq_ok_some read
  obtain ⟨derivation, derived, node⟩ := parseTokens_sound statementRead
  exact ⟨derivation, ⟨item.line, tokens, listed, lexed, derived.symm⟩, node⟩

/-- A line with lexemes holds an item. -/
theorem LineReads.item {lineNo : Nat} {lexemes : List Lexeme} (reads : LineReads source lineNo lexemes)
    (nonempty : lexemes ≠ []) : ∃ item ∈ items, item.lineNo = lineNo := by
  obtain ⟨line, tokens, listed, lexed, rfl⟩ := reads
  obtain ⟨result, read, held⟩ := parse_line parsed listed
  cases result with
  | some item => exact ⟨item, held item rfl, (parseLine_place read).2⟩
  | none =>
    rw [parseLine_eq lexed] at read
    cases parsedTokens : parseTokens tokens with
    | error fault =>
      rw [parsedTokens] at read
      cases read
    | ok statement =>
      cases statement with
      | some statement =>
        rw [parsedTokens] at read
        cases read
      | none =>
        rw [parseTokens_eq_ok_none_iff.mp parsedTokens] at nonempty
        exact absurd rfl nonempty

end

end HackMachine
