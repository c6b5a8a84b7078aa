import HackMachine.Proofs.Program.Layout
import HackMachine.Proofs.Source.Spans

/-! # Positions fit the source

Every place that a diagnostic or an item names lies in a line that the source has, at columns of it
(`Pos.FitsIn`), so that the marker of `caret` stands under bytes of the line.  The columns come from
the order of the tokens, the line numbers from the renumbering of lines.
-/

namespace HackMachine

namespace Pos

/-- The marker of a place under a line: blanks up to it, then a mark for each of its bytes. -/
def MarksUnder (pos : Pos) (line : Bytes) : Prop :=
  ∃ blanks marks : Nat, pos.start = blanks + 1 ∧ pos.stop = pos.start + marks ∧
    blanks + marks ≤ line.length ∧
    pos.caret line =
      line ++ [Bytes.newline] ++ Bytes.fill blanks (byte ' ') ++ Bytes.fill marks (byte '^')

/-- A place in the source: `line` is the line of its number, without a carriage return at the end. -/
structure FitsIn (pos : Pos) (source line : Bytes) : Prop where
  numbered : ∃ n text, (Bytes.lines source)[n]? = some text ∧ pos.line = (n + 1 : Nat) ∧
    line = Bytes.dropReturn text
  spans : pos.Spans 1 (line.length + 1)
  marks : pos.MarksUnder line

theorem Spans.marksUnder {pos : Pos} {line : Bytes} (spans : pos.Spans 1 (line.length + 1)) :
    pos.MarksUnder line := by
  obtain ⟨first, width, last⟩ := spans
  refine ⟨(pos.start - 1).toNat, (pos.stop - pos.start).toNat, by omega, by omega, by omega, ?_⟩
  -- The span is not empty and starts in the line, so its marker is as wide as it is.
  have marked : pos.markWidth = pos.stop - pos.start := by
    have inside : ¬ pos.start < 1 := by omega
    simp only [markWidth, inside, decide_false, Bool.false_and, Bool.false_eq_true, if_false]
    omega
  rw [caret, marked]

theorem fitsIn {pos : Pos} {source line : Bytes} {lineNo : Nat}
    (listed : (line, lineNo) ∈ numberedLines source) (number : pos.line = lineNo)
    (spans : pos.Spans 1 (line.length + 1)) : pos.FitsIn source line := by
  obtain ⟨counts, found⟩ := mem_numberedLines.mp listed
  rw [List.getElem?_map, Option.map_eq_some_iff] at found
  obtain ⟨text, same, dropped⟩ := found
  refine ⟨⟨lineNo - 1, text, same, ?_, dropped.symm⟩, spans, spans.marksUnder⟩
  rw [number, Nat.sub_add_cancel counts]

end Pos

section

variable [Constant.Evaluator] {source : Bytes} {items : List Item}
  (parsed : parse source = .ok items) {item : Item}
  (member : item ∈ items)

include parsed member

theorem item_nested : item.statement.Nested := by
  obtain ⟨tokens, lexed, read⟩ := parse_item parsed member
  exact parseTokens_nested (lexLine_laidOut lexed) read

theorem item_place {pos : Pos} (place : pos ∈ item.statement.places) :
    pos.line = item.lineNo ∧ pos.FitsIn source item.line := by
  obtain ⟨listed, read⟩ := parse_listed parsed member
  have number := parseLine_places read place
  obtain ⟨tokens, lexed, parsedTokens⟩ := parse_item parsed member
  exact ⟨number, Pos.fitsIn listed number (parseTokens_spans (lexLine_laidOut lexed) parsedTokens place)⟩

end

theorem parse_error_fitsIn [Constant.Evaluator] {source : Bytes} {d : Diagnostic}
    (failed : parse source = .error d) :
    d.pos.FitsIn source d.line := by
  obtain ⟨before, line, lineNo, after, cut, -, refused⟩ := parse_eq_error_iff.mp failed
  have listed : (line, lineNo) ∈ numberedLines source := by simp [cut]
  obtain ⟨rfl, number⟩ := parseLine_error refused
  exact Pos.fitsIn listed number (parseLine_error_spans refused)

theorem validate_error_fitsIn [Constant.Evaluator] {source : Bytes} {items : List Item} {d : Diagnostic}
    (parsed : parse source = .ok items) (failed : validate items = .error d) :
    d.pos.FitsIn source d.line := by
  obtain ⟨item, member, line, place⟩ := (validate_eq_error_iff.mp failed).place
  rw [line]
  exact (item_place parsed member place).2

/-- The pass that refuses a source, and its reason. -/
theorem assemble_error_cases [Constant.Evaluator] {source : Bytes} {e : AssemblyError}
    (failed : assemble source = .error e) :
    (∃ d, e = .parse d ∧ parse source = .error d) ∨
    (∃ items d, e = .validation d ∧ parse source = .ok items ∧ validate items = .error d) ∨
    ∃ fault, e = .encoding fault := by
  unfold assemble at failed
  split at failed
  · next d refused =>
    cases failed
    exact .inl ⟨d, rfl, refused⟩
  · next items parsed =>
    split at failed
    · next d refused =>
      cases failed
      exact .inr (.inl ⟨items, d, rfl, parsed, refused⟩)
    · split at failed
      · next fault _ =>
        cases failed
        exact .inr (.inr ⟨fault, rfl⟩)
      · cases failed

/-- All places of a source, reported or stored, are in it; those inside a statement are apart, in the
order written and within the place of the statement. -/
theorem positions_fit_source [Constant.Evaluator] (source : Bytes) :
    (∀ d, assemble source = .error (.parse d) ∨ assemble source = .error (.validation d) →
      d.pos.FitsIn source d.line) ∧
    ∀ items, parse source = .ok items → ∀ item ∈ items, item.statement.Nested ∧
      ∀ pos ∈ item.statement.places, pos.line = item.lineNo ∧ pos.FitsIn source item.line := by
  refine ⟨fun d failed => ?_, fun items parsed item member =>
    ⟨item_nested parsed member, fun pos place => item_place parsed member place⟩⟩
  rcases failed with failed | failed
  · obtain ⟨_, same, refused⟩ | ⟨_, _, same, -⟩ | ⟨_, same⟩ := assemble_error_cases failed
    · cases same
      exact parse_error_fitsIn refused
    · cases same
    · cases same
  · obtain ⟨_, same, -⟩ | ⟨items, _, same, parsed, refused⟩ | ⟨_, same⟩ := assemble_error_cases failed
    · cases same
    · cases same
      exact validate_error_fitsIn parsed refused
    · cases same

theorem positions_fit_source_twice_written :
    (∃ d, assemble (ascii "D, *A, D = A\r\n") = .error (.validation d) ∧ d.pos = ⟨1, 8, 9⟩ ∧
      d.pos.FitsIn (ascii "D, *A, D = A\r\n") (ascii "D, *A, D = A")) ∧
    ∃ item, parse (ascii "D, *A, D = A\r\n") = .ok [item] ∧
      item.statement.inner = [⟨1, 1, 2⟩, ⟨1, 4, 6⟩, ⟨1, 8, 9⟩, ⟨1, 12, 13⟩] ∧ item.statement.Nested := by
  have parsed : parse (ascii "D, *A, D = A\r\n") = .ok [⟨1, ascii "D, *A, D = A",
      .compute ⟨[⟨.d, ⟨1, 1, 2⟩⟩, ⟨.m, ⟨1, 4, 6⟩⟩, ⟨.d, ⟨1, 8, 9⟩⟩], .reg .a, ⟨1, 12, 13⟩, .never⟩
        ⟨1, 1, 13⟩⟩] := by decide +kernel
  have failed : assemble (ascii "D, *A, D = A\r\n") = .error (.validation
      ⟨⟨1, 8, 9⟩, ascii "D, *A, D = A", .duplicateTarget (ascii "D")⟩) := by decide +kernel
  obtain ⟨reported, stored⟩ := positions_fit_source (ascii "D, *A, D = A\r\n")
  exact ⟨⟨_, failed, rfl, reported _ (.inr failed)⟩,
    _, parsed, rfl, (stored _ parsed _ List.mem_cons_self).1⟩

end HackMachine
