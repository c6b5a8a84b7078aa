import HackMachine.Proofs.Source.Lines
import HackMachine.Proofs.Source.Relocation
import HackMachine.Proofs.Text.Lines

/-! # Lines with other numbers

A renumbering is a relocation that keeps texts and columns.  The number of a line goes through the lexer
and the parser untouched (`parseLine_renumber`), which gives two facts:

* every place of a statement, and the place of a fault, is on the line that was read
  (`parseLine_places`, `parseLine_error`);
* a source behind another one has the same items, with numbers that go on from there (`parse_append`).
-/

namespace HackMachine

namespace Relocation

/-- Another number for each line. -/
def renumber (f : Int → Int) : Relocation where
  number n := (f n).toNat
  place pos := { pos with line := f pos.line }
  line := id
  quote := id
  place_through _ _ := rfl
  slice_line _ _ := rfl

/-- Numbers that start `k` lines later. -/
def shift (k : Nat) : Relocation := renumber (· + k)

end Relocation

open Relocation

/-- All places of a statement. -/
def Statement.places : Statement → List Pos
  | .label _ pos => [pos]
  | .address _ targetPos pos => [pos, targetPos]
  | .compute c pos => pos :: c.exprPos :: c.destinations.map (·.pos)

theorem Relocation.places_statement (r : Relocation) (s : Statement) :
    (r.statement s).places = s.places.map r.place := by
  cases s with
  | label | address => rfl
  | compute c pos => simp [statement, Statement.places, computation, destination]

theorem renumber_place (f : Int → Int) (pos : Pos) :
    (renumber f).place pos = { pos with line := f pos.line } := rfl

@[simp] theorem renumber_cause (f : Int → Int) (cause : Cause) :
    (renumber f).cause cause = cause := by
  cases cause <;> rfl

/-! ## One line -/

section

variable {f : Int → Int} {lineNo lineNo' : Nat} (moved : f lineNo = lineNo')

include moved

theorem lexFrom_renumber (column : Nat) (found : List Token) (text : Bytes) :
    lexFrom lineNo' column (found.map (renumber f).token) text =
      recast (renumber f).fault (List.map (renumber f).token) (lexFrom lineNo column found text) := by
  fun_induction lexFrom lineNo column found text with
  | case1 column found => simp [lexFrom]
  | case2 column found b rest blank ih =>
    rw [lexFrom]
    simp only [blank]
    exact ih
  | case3 column found b rest comment =>
    rw [lexFrom]
    simp [comment]
  | case4 column found b rest lexeme taken scanned next ih =>
    rw [lexFrom]
    simp only [scanned]
    rw [← ih]
    simp [token, renumber, moved, next]
  | case5 column found b rest cause taken scanned =>
    rw [lexFrom]
    simp only [scanned, recast_error]
    simp [fault, renumber_place, moved]

theorem parseLine_renumber [Constant.Evaluator] (line : Bytes) :
    parseLine line lineNo' =
      recast (renumber f).diagnostic (Option.map (renumber f).item) (parseLine line lineNo) := by
  have read : (lexLine lineNo' line >>= parseTokens) =
      recast (renumber f).fault (Option.map (renumber f).statement)
        (lexLine lineNo line >>= parseTokens) :=
    recast_bind (lexFrom_renumber moved 1 [] line) fun tokens _ =>
      (renumber f).parseTokens_token tokens
  have number : (renumber f).number lineNo = lineNo' := by simp [renumber, moved]
  unfold parseLine
  rw [read]
  cases lexLine lineNo line >>= parseTokens with
  | error fault => rfl
  | ok statement =>
    cases statement with
    | none => rfl
    | some statement => simp only [recast_ok, Option.map_some, item, number]; rfl

end

/-- Giving every line the number of the one that is read changes nothing. -/
theorem parseLine_renumber_self [Constant.Evaluator] (line : Bytes) (lineNo : Nat) :
    parseLine line lineNo =
      recast (renumber fun _ => lineNo).diagnostic (Option.map (renumber fun _ => lineNo).item)
        (parseLine line lineNo) :=
  parseLine_renumber rfl line

section

variable {line : Bytes} {lineNo : Nat}

theorem parseLine_places [Constant.Evaluator] {item : Item}
    (read : parseLine line lineNo = .ok (some item)) {pos : Pos}
    (member : pos ∈ item.statement.places) : pos.line = lineNo := by
  have same := parseLine_renumber_self line lineNo
  rw [read, recast_ok, Except.ok.injEq, Option.map_some, Option.some.injEq] at same
  rw [same] at member
  change pos ∈ ((renumber fun _ => lineNo).statement item.statement).places at member
  rw [places_statement] at member
  obtain ⟨_, -, rfl⟩ := List.mem_map.mp member
  rfl

theorem parseLine_error [Constant.Evaluator] {d : Diagnostic}
    (failed : parseLine line lineNo = .error d) :
    d.line = line ∧ d.pos.line = lineNo := by
  have same := parseLine_renumber_self line lineNo
  constructor
  · unfold parseLine at failed
    split at failed
    · cases failed
    · cases failed
      rfl
  · rw [failed, recast_error, Except.error.injEq] at same
    rw [same]
    rfl

end

/-! ## Sources -/

theorem numberedLines_append {first : Bytes} (ended : first.getLast? = some Bytes.newline)
    (second : Bytes) :
    numberedLines (first ++ second) =
      numberedLines first ++
        (numberedLines second).map fun numbered =>
          (numbered.1, numbered.2 + first.count Bytes.newline) := by
  rw [numberedLines, Bytes.lines_append ended, List.map_append, List.zipIdx_append, List.length_map,
    Bytes.length_lines ended]
  congr 1
  rw [Nat.add_comm, ← List.map_snd_add_zipIdx_eq_zipIdx]
  rfl

/-- Behind a source that ends with a line feed another one is read as it is by itself, with the numbers
of its lines shifted; the first source is read first. -/
theorem parse_append [Constant.Evaluator] {first : Bytes} (ended : first.getLast? = some Bytes.newline)
    (second : Bytes) :
    parse (first ++ second) =
      parse first >>= fun items =>
        recast (shift (first.count Bytes.newline)).diagnostic
          (fun more => items ++ more.map (shift (first.count Bytes.newline)).item) (parse second) := by
  let k := first.count Bytes.newline
  let read := fun numbered : Bytes × Nat => parseLine numbered.1 numbered.2
  have behind : ((numberedLines second).map fun numbered => (numbered.1, numbered.2 + k)).mapM read =
      recast (shift k).diagnostic (List.map (Option.map (shift k).item))
        ((numberedLines second).mapM read) :=
    recast_mapM fun numbered _ => parseLine_renumber rfl numbered.1
  have opened : ∀ source, parse source =
      (numberedLines source).mapM read >>= fun results => .ok (results.filterMap id) := fun _ => rfl
  rw [opened, opened, opened, numberedLines_append ended, List.mapM_append, behind]
  cases (numberedLines first).mapM read with
  | error d => rfl
  | ok results =>
    cases (numberedLines second).mapM read with
    | error d => rfl
    | ok more =>
      simp only [ok_bind, recast_ok, pure, Except.pure, List.filterMap_append, List.filterMap_map,
        List.map_filterMap]
      rfl

/-! ## Items and faults further down -/

/-- The place `k` lines further down. -/
def Pos.down (k : Nat) (pos : Pos) : Pos := { pos with line := pos.line + k }

/-- The statement with each of its places `k` lines further down. -/
def Statement.down (k : Nat) : Statement → Statement
  | .label name pos => .label name (pos.down k)
  | .address target targetPos pos => .address target (targetPos.down k) (pos.down k)
  | .compute c pos =>
    .compute { c with
      destinations := c.destinations.map fun d => { d with pos := d.pos.down k }
      exprPos := c.exprPos.down k } (pos.down k)

/-- The item of the same line, `k` lines further down. -/
def Item.down (k : Nat) (item : Item) : Item :=
  { item with lineNo := item.lineNo + k, statement := item.statement.down k }

/-- The fault in the same line, `k` lines further down. -/
def Diagnostic.down (k : Nat) (d : Diagnostic) : Diagnostic := { d with pos := d.pos.down k }

theorem shift_statement (k : Nat) (s : Statement) : (shift k).statement s = s.down k := by
  cases s <;> rfl

theorem shift_item (k : Nat) : (shift k).item = Item.down k := by
  funext item
  rw [Relocation.item, shift_statement]
  rfl

theorem shift_diagnostic (k : Nat) (d : Diagnostic) : (shift k).diagnostic d = d.down k := by
  rw [Relocation.diagnostic, shift, renumber_cause]
  rfl

/-- Parsing goes line by line and stops at the first bad line.  A source that ends with a line feed is
read in front of any other source as it is by itself: if it is refused, so are both together, and for the
same reason.  If it is read, the other source is refused or read behind it as it is by itself, further
down by the number of line feeds before it. -/
theorem parse_goes_line_by_line [Constant.Evaluator] {first : Bytes}
    (ended : first.getLast? = some Bytes.newline) (second : Bytes) :
    (∀ d, parse first = .error d → parse (first ++ second) = .error d) ∧
    (∀ items, parse first = .ok items →
      (∀ d, parse second = .error d →
        parse (first ++ second) = .error (d.down (first.count Bytes.newline))) ∧
      ∀ more, parse second = .ok more →
        parse (first ++ second) = .ok (items ++ more.map (Item.down (first.count Bytes.newline)))) ∧
    ∀ d, parse (first ++ second) = .error d ↔
      ∃ before line lineNo after, numberedLines (first ++ second) = before ++ (line, lineNo) :: after ∧
        (∀ earlier ∈ before, ∃ result, parseLine earlier.1 earlier.2 = .ok result) ∧
        parseLine line lineNo = .error d := by
  have whole := parse_append ended second
  refine ⟨fun d refused => ?_, fun items parsed => ⟨fun d refused => ?_, fun more parsed' => ?_⟩,
    fun d => parse_eq_error_iff⟩
  · rw [whole, refused, error_bind]
  · rw [whole, parsed, ok_bind, refused, recast_error, shift_diagnostic]
  · rw [whole, parsed, ok_bind, parsed', recast_ok, shift_item]

/-- A line of only a carriage return on either side of the seam, and no line feed at the end. -/
theorem parse_goes_line_by_line_seam :
    parse (ascii "top:\r\n\r\n" ++ ascii "\r\nD, *A = A") =
      .ok [⟨1, ascii "top:", .label (ascii "top") ⟨1, 1, 5⟩⟩,
        ⟨4, ascii "D, *A = A", .compute ⟨[⟨.d, ⟨4, 1, 2⟩⟩, ⟨.m, ⟨4, 4, 6⟩⟩], .reg .a, ⟨4, 9, 10⟩, .never⟩
          ⟨4, 1, 10⟩⟩] ∧
    parse (ascii "top:\r\n\r\n" ++ ascii "\r\nD; jmp D") =
      .error ⟨⟨4, 8, 9⟩, ascii "D; jmp D", .extraTokens⟩ := by
  have parsed : parse (ascii "top:\r\n\r\n") =
      .ok [⟨1, ascii "top:", .label (ascii "top") ⟨1, 1, 5⟩⟩] := by
    decide +kernel
  have parsed' : parse (ascii "\r\nD, *A = A") =
      .ok [⟨2, ascii "D, *A = A", .compute ⟨[⟨.d, ⟨2, 1, 2⟩⟩, ⟨.m, ⟨2, 4, 6⟩⟩], .reg .a, ⟨2, 9, 10⟩,
        .never⟩ ⟨2, 1, 10⟩⟩] := by
    decide +kernel
  have refused : parse (ascii "\r\nD; jmp D") = .error ⟨⟨2, 8, 9⟩, ascii "D; jmp D", .extraTokens⟩ := by
    decide +kernel
  have ended : (ascii "top:\r\n\r\n").getLast? = some Bytes.newline := by decide
  constructor
  · exact ((parse_goes_line_by_line ended _).2.1 _ parsed).2 _ parsed'
  · exact ((parse_goes_line_by_line ended _).2.1 _ parsed).1 _ refused

end HackMachine
