import HackMachine.Proofs.Program.Relocation
import HackMachine.Proofs.Source.CodeLines

/-! # Layout does not matter

Two sources have the same layout-free form when their lines with code have the same lexemes, one after
the other.  `collapse` forgets all that distinguishes them: it numbers the lines with code from zero and
empties their texts and columns.  Relocation carries both sources to the same collapsed items, so they
are accepted together, with the same program, or refused together, for the same cause on corresponding
lines (`assemble_layout_free`).
-/

namespace HackMachine

/-- Line numbers become indices of lines with code; columns and texts vanish. -/
def collapse (lines : List CodeLine) : Relocation where
  number n := (lines.map (·.lineNo)).idxOf n
  place pos := ⟨(lines.map (·.lineNo)).idxOf pos.line.toNat, 0, 0⟩
  line _ := []
  quote _ := []
  place_through _ _ := rfl
  slice_line pos text := by simp [Pos.slice]

def Relocation.codeLine (r : Relocation) (c : CodeLine) : CodeLine :=
  ⟨r.number c.lineNo, r.line c.text, c.tokens.map r.token⟩

/-- Equal, but for the text that a constant out of range is quoted with. -/
def Cause.Agrees (cause cause' : Cause) : Prop :=
  cause = cause' ∨ ∃ text text', cause = .immediateRange text ∧ cause' = .immediateRange text'

/-- The report is about this line. -/
def Diagnostic.OnLine (d : Diagnostic) (c : CodeLine) : Prop := d.pos.line = c.lineNo ∧ d.line = c.text

/-- Reports of the same cause on corresponding lines. -/
structure Diagnostic.Corresponds (lines lines' : List CodeLine) (d d' : Diagnostic) : Prop where
  cause : d.cause.Agrees d'.cause
  place : ∃ (i : Nat) (c c' : CodeLine), lines[i]? = some c ∧ lines'[i]? = some c' ∧ d.OnLine c ∧ d'.OnLine c'

/-- What two sources with these lines of code have in common. -/
inductive SameOutcome (lines lines' : List CodeLine) :
    Except AssemblyError Program → Except AssemblyError Program → Prop
  | accepted {p q : Program} : p.words = q.words → p.symbols = q.symbols →
      p.opcodes.map (fun op => (op.ip, op.text, op.link)) =
        q.opcodes.map (fun op => (op.ip, op.text, op.link)) →
      SameOutcome lines lines' (.ok p) (.ok q)
  | malformed {d d'} : Diagnostic.Corresponds lines lines' d d' →
      SameOutcome lines lines' (.error (.parse d)) (.error (.parse d'))
  | invalid {d d'} : Diagnostic.Corresponds lines lines' d d' →
      SameOutcome lines lines' (.error (.validation d)) (.error (.validation d'))

/-! ## Reading collapsed lines -/

theorem Relocation.read_codeLine [Constant.Evaluator] (r : Relocation) (c : CodeLine) :
    (r.codeLine c).read = recast r.diagnostic (Option.map r.item) c.read := by
  rw [CodeLine.read, codeLine, r.parseTokens_token, CodeLine.read]
  cases parseTokens c.tokens with
  | error fault => rfl
  | ok statement => cases statement <;> rfl

theorem Relocation.mapM_read [Constant.Evaluator] (r : Relocation) (lines : List CodeLine) :
    ((lines.map r.codeLine).mapM CodeLine.read >>= fun results => .ok (results.filterMap id)) =
      recast r.diagnostic (List.map r.item)
        (lines.mapM CodeLine.read >>= fun results => .ok (results.filterMap id)) := by
  refine recast_bind (recast_mapM fun c _ => r.read_codeLine c) fun results _ => ?_
  simp only [recast_ok, List.filterMap_map, List.map_filterMap]
  rfl

theorem idxOf_lineNo {lines : List CodeLine} (distinct : (lines.map (·.lineNo)).Nodup) {i : Nat}
    {c : CodeLine} (found : lines[i]? = some c) : (lines.map (·.lineNo)).idxOf c.lineNo = i := by
  obtain ⟨bound, rfl⟩ := List.getElem?_eq_some_iff.mp found
  have bound' : i < (lines.map (·.lineNo)).length := by rwa [List.length_map]
  simpa using distinct.idxOf_getElem i bound'

section

variable {source source' : Bytes} {lines lines' : List CodeLine} (lexed : codeLines source = .ok lines)
  (lexed' : codeLines source' = .ok lines')
  (agree : lines.map (lexemesOf ·.tokens) = lines'.map (lexemesOf ·.tokens))

include lexed in
theorem collapse_getElem? {i : Nat} {c : CodeLine} (found : lines[i]? = some c) :
    (collapse lines).codeLine c = ⟨i, [], (lexemesOf c.tokens).map (⟨·, ⟨i, 0, 0⟩⟩)⟩ := by
  have index := idxOf_lineNo (codeLines_distinct lexed) found
  obtain ⟨lexedLine, -⟩ := mem_codeLines lexed (List.mem_of_getElem? found)
  -- All tokens of the line have its number, so they collapse to the same place.
  simp only [Relocation.codeLine, collapse, index, lexemesOf, List.map_map]
  congr 1
  refine List.map_congr_left fun token member => ?_
  simp [Relocation.token, lexLine_line_eq lexedLine member, index]

include lexed lexed' agree in
theorem collapse_eq :
    lines.map (collapse lines).codeLine = lines'.map (collapse lines').codeLine := by
  have length : lines.length = lines'.length := by simpa using congrArg List.length agree
  refine List.ext_getElem (by simpa) fun i bound bound' => ?_
  rw [List.length_map] at bound bound'
  have same : lexemesOf lines[i].tokens = lexemesOf lines'[i].tokens := by
    simpa [bound, bound'] using congrArg (·[i]?) agree
  rw [List.getElem_map, List.getElem_map, collapse_getElem? lexed (List.getElem?_eq_getElem bound),
    collapse_getElem? lexed' (List.getElem?_eq_getElem bound'), same]

include lexed lexed' agree in
theorem parse_collapse [Constant.Evaluator] :
    recast (collapse lines).diagnostic (List.map (collapse lines).item) (parse source) =
      recast (collapse lines').diagnostic (List.map (collapse lines').item) (parse source') := by
  rw [parse_eq_codeLines lexed, parse_eq_codeLines lexed', ← Relocation.mapM_read,
    ← Relocation.mapM_read, collapse_eq lexed lexed' agree]

/-! ## Where reports stand -/

include lexed in
theorem parse_error_onLine [Constant.Evaluator] {d : Diagnostic} (failed : parse source = .error d) :
    ∃ c ∈ lines, d.OnLine c := by
  rw [parse_eq_codeLines lexed, bind_eq_error_iff] at failed
  rcases failed with failed | ⟨_, _, same⟩
  · obtain ⟨before, c, after, rfl, -, failed⟩ := mapM_eq_error_iff.mp failed
    have member : c ∈ before ++ c :: after := by simp
    rw [CodeLine.read_eq (mem_codeLines lexed member).1] at failed
    obtain ⟨line, number⟩ := parseLine_error failed
    exact ⟨c, member, number, line⟩
  · cases same

theorem Breach.place {before : List Item} {item : Item} {d : Diagnostic} (breach : Breach before item d) :
    d.line = item.line ∧ d.pos ∈ item.statement.places := by
  cases breach with
  | destination cut => simp [Statement.places, cut]
  | constant | conflict | data | declaration => simp [Statement.places]

theorem FirstViolation.place {items : List Item} {d : Diagnostic} (violation : FirstViolation items d) :
    ∃ item ∈ items, d.line = item.line ∧ d.pos ∈ item.statement.places := by
  cases violation with
  | item cut _ breach => exact ⟨_, by simp [cut], breach.place⟩
  | @undefined _ lineNo line name targetPos pos _ _ cut =>
    exact ⟨⟨lineNo, line, .address (.label name) targetPos pos⟩, by simp [cut], rfl,
      by simp [Statement.places]⟩
  | @range _ lineNo line name targetPos pos _ _ _ cut =>
    exact ⟨⟨lineNo, line, .address (.label name) targetPos pos⟩, by simp [cut], rfl,
      by simp [Statement.places]⟩

include lexed in
theorem validate_error_onLine [Constant.Evaluator] {items : List Item} {d : Diagnostic}
    (parsed : parse source = .ok items)
    (failed : validate items = .error d) : ∃ c ∈ lines, d.OnLine c := by
  obtain ⟨item, member, line, place⟩ := (validate_eq_error_iff.mp failed).place
  rw [parse_eq_codeLines lexed, bind_eq_ok_iff] at parsed
  obtain ⟨results, mapped, same⟩ := parsed
  cases same
  obtain ⟨result, listed, found⟩ := List.mem_filterMap.mp member
  obtain rfl : result = some item := found
  obtain ⟨c, listed', read⟩ := exists_of_mapM_eq_ok mapped listed
  rw [CodeLine.read_eq (mem_codeLines lexed listed').1] at read
  exact ⟨c, listed', parseLine_places read place, line.trans (parseLine_place read).1⟩

theorem Relocation.cause_agrees {r r' : Relocation} {cause cause' : Cause}
    (same : r.cause cause = r'.cause cause') : cause.Agrees cause' := by
  cases cause with
  | immediateRange text =>
    cases cause' with
    | immediateRange text' => exact .inr ⟨text, text', rfl, rfl⟩
    | _ => cases same
  | _ =>
    cases cause' with
    | immediateRange text' => cases same
    | _ => exact .inl same

include lexed lexed' in
theorem corresponds_of_collapse {d d' : Diagnostic} (here : ∃ c ∈ lines, d.OnLine c)
    (here' : ∃ c ∈ lines', d'.OnLine c)
    (same : (collapse lines).diagnostic d = (collapse lines').diagnostic d') :
    d.Corresponds lines lines' d' := by
  obtain ⟨c, member, onLine⟩ := here
  obtain ⟨c', member', onLine'⟩ := here'
  obtain ⟨i, found⟩ := List.mem_iff_getElem?.mp member
  obtain ⟨i', found'⟩ := List.mem_iff_getElem?.mp member'
  -- The collapsed places are the indices of the two lines.
  have place := congrArg (·.pos.line) same
  simp only [Relocation.diagnostic, collapse, onLine.1, onLine'.1, Int.toNat_natCast,
    idxOf_lineNo (codeLines_distinct lexed) found, idxOf_lineNo (codeLines_distinct lexed') found',
    Int.natCast_inj] at place
  subst place
  exact ⟨Relocation.cause_agrees (congrArg (·.cause) same), i, c, c', found, found', onLine, onLine'⟩

end

/-! ## Programs -/

section

variable {r r' : Relocation} {items items' : List Item} (same : items.map r.item = items'.map r'.item)

include same

theorem index_eq_of_moved : index items = index items' := by
  rw [← r.index_item items, same, r'.index_item]

/-- What relocations keep of an opcode is the same in both programs. -/
theorem opcode_fields_eq {α : Type} {field : Opcode → α}
    (kept : ∀ (r : Relocation) (op : Opcode), field (r.opcode op) = field op) :
    (directOpcodes (index items) items).map field =
      (directOpcodes (index items') items').map field := by
  have opcodes : (directOpcodes (index items) items).map r.opcode =
      (directOpcodes (index items') items').map r'.opcode := by
    rw [← r.directOpcodes_item, ← r'.directOpcodes_item, index_eq_of_moved same, same]
  simpa only [List.map_map, Function.comp_def, kept] using congrArg (List.map field) opcodes

end

/-- Sources whose lines with code have the same lexemes are accepted together, with the same program,
or refused together, for the same cause on corresponding lines. -/
theorem assemble_layout_free [Constant.Evaluator] {source source' : Bytes} {lines lines' : List CodeLine}
    (lexed : codeLines source = .ok lines) (lexed' : codeLines source' = .ok lines')
    (agree : lines.map (lexemesOf ·.tokens) = lines'.map (lexemesOf ·.tokens)) :
    SameOutcome lines lines' (assemble source) (assemble source') := by
  let r := collapse lines
  let r' := collapse lines'
  have parses := parse_collapse lexed lexed' agree
  cases parsed : parse source with
  | error d =>
    rw [parsed, recast_error] at parses
    obtain ⟨d', parsed', same⟩ := recast_eq_error_iff.mp parses.symm
    simp only [assemble, parsed, parsed']
    exact .malformed (corresponds_of_collapse lexed lexed' (parse_error_onLine lexed parsed)
      (parse_error_onLine lexed' parsed') same.symm)
  | ok items =>
    rw [parsed, recast_ok] at parses
    obtain ⟨items', parsed', same⟩ := recast_eq_ok_iff.mp parses.symm
    have validates : recast r.diagnostic id (validate items) = recast r'.diagnostic id (validate items') := by
      rw [← r.validate_item, ← r'.validate_item, same]
    cases validated : validate items with
    | error d =>
      rw [validated, recast_error] at validates
      obtain ⟨d', validated', same⟩ := recast_eq_error_iff.mp validates.symm
      simp only [assemble, parsed, parsed', validated, validated']
      exact .invalid (corresponds_of_collapse lexed lexed' (validate_error_onLine lexed parsed validated)
        (validate_error_onLine lexed' parsed' validated') same.symm)
    | ok accepted =>
      rw [validated, recast_ok] at validates
      obtain ⟨⟨⟩, validated', -⟩ := recast_eq_ok_iff.mp validates.symm
      rw [assemble_eq_ok_iff.mpr ⟨items, parsed, validate_eq_ok_iff.mp validated, rfl⟩,
        assemble_eq_ok_iff.mpr ⟨items', parsed', validate_eq_ok_iff.mp validated', rfl⟩]
      exact .accepted (opcode_fields_eq same.symm (fun _ _ => rfl)) (index_eq_of_moved same.symm)
        (opcode_fields_eq same.symm (fun _ _ => rfl))

theorem assemble_layout_free_negative :
    ∃ lines lines', codeLines (ascii "top:\nA := -1") = .ok lines ∧
      codeLines (ascii "\n  top : // here\r\nA:=- 1\n") = .ok lines' ∧
      SameOutcome lines lines' (assemble (ascii "top:\nA := -1"))
        (assemble (ascii "\n  top : // here\r\nA:=- 1\n")) := by
  have lexed : codeLines (ascii "top:\nA := -1") =
      .ok [⟨1, ascii "top:", [⟨.name (ascii "top"), ⟨1, 1, 4⟩⟩, ⟨.mark .colon, ⟨1, 4, 5⟩⟩]⟩,
        ⟨2, ascii "A := -1", [⟨.name (ascii "A"), ⟨2, 1, 2⟩⟩, ⟨.mark .assign, ⟨2, 3, 5⟩⟩,
          ⟨.mark .minus, ⟨2, 6, 7⟩⟩, ⟨.number (ascii "1"), ⟨2, 7, 8⟩⟩]⟩] := by
    decide +kernel
  have lexed' : codeLines (ascii "\n  top : // here\r\nA:=- 1\n") =
      .ok [⟨2, ascii "  top : // here",
          [⟨.name (ascii "top"), ⟨2, 3, 6⟩⟩, ⟨.mark .colon, ⟨2, 7, 8⟩⟩]⟩,
        ⟨3, ascii "A:=- 1", [⟨.name (ascii "A"), ⟨3, 1, 2⟩⟩, ⟨.mark .assign, ⟨3, 2, 4⟩⟩,
          ⟨.mark .minus, ⟨3, 4, 5⟩⟩, ⟨.number (ascii "1"), ⟨3, 6, 7⟩⟩]⟩] := by
    decide +kernel
  exact ⟨_, _, lexed, lexed', assemble_layout_free lexed lexed' (by decide)⟩

end HackMachine
