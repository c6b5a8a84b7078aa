import HackMachine.Instruction.Coded
import HackMachine.Proofs.Indexed.Parsing
import HackMachine.Proofs.Program.Resolution
import HackMachine.Proofs.Source.Spans

/-! # Assembling by position

The whole assembler with every position that it reads: the lines of the source, their bytes and
tokens, the operand that a report quotes, the table of registers seen so far, and the codes by which
an instruction is encoded.  The main statement is that it is the assembler, so no position lies
outside and every source gives a report or a complete program.
-/

namespace HackMachine.Indexed

/-! ## Sources -/

/-- The lines of a source, which is ended by a line feed first. -/
def lines (source : Bytes) : Checked Diagnostic (List Bytes) :=
  let text := if source.getLast? = some Bytes.newline then source else source ++ [Bytes.newline]
  let pieces := text.splitOn Bytes.newline
  part pieces 0 (pieces.length - 1)

def parse [Constant.Evaluator] (source : Bytes) : Checked Diagnostic (List Item) := do
  let lines ← lines source
  let items ← ((lines.map Bytes.dropReturn).zipIdx 1).mapM fun (line, lineNo) => parseLine line lineNo
  .ok (items.filterMap id)

theorem lines_cons {ended text : Bytes} (same : Bytes.lines ended = text.splitOn Bytes.newline)
    (b : UInt8) : Bytes.lines (b :: ended) = (b :: text).splitOn Bytes.newline := by
  have pieces : (b :: text).splitOn Bytes.newline =
      if b == Bytes.newline then [] :: text.splitOn Bytes.newline
      else (text.splitOn Bytes.newline).modifyHead (b :: ·) :=
    List.splitOnP_cons_eq_if_modifyHead b text
  rw [pieces, Bytes.lines, List.foldr_cons, ← Bytes.lines, same]
  cases cut : text.splitOn Bytes.newline with
  | nil => exact absurd cut (List.splitOnP_ne_nil _ _)
  | cons line more => rfl

theorem lines_append_newline (text : Bytes) :
    Bytes.lines (text ++ [Bytes.newline]) = text.splitOn Bytes.newline := by
  induction text with
  | nil => rfl
  | cons b rest ih => exact lines_cons ih b

/-- A text that goes on behind its last line feed is cut at its line feeds too. -/
theorem lines_eq_splitOn {text : Bytes} (nonempty : text ≠ [])
    (unended : text.getLast? ≠ Bytes.newline) : Bytes.lines text = text.splitOn Bytes.newline := by
  induction text with
  | nil => exact absurd rfl nonempty
  | cons b rest ih =>
    rcases rest with _ | ⟨next, more⟩
    · have other : b ≠ Bytes.newline := by simpa using unended
      simp [Bytes.lines, List.splitOn, List.splitOnP_cons_eq_if_modifyHead, other]
    · exact lines_cons (ih (by simp) (by simpa [List.getLast?_cons] using unended)) b

/-- The last piece, behind the last line feed, is the one that is dropped. -/
theorem part_splitOn (text : Bytes) :
    (part ((text ++ [Bytes.newline]).splitOn Bytes.newline) 0
      (((text ++ [Bytes.newline]).splitOn Bytes.newline).length - 1) :
      Checked Diagnostic (List Bytes)) = .ok (text.splitOn Bytes.newline) := by
  have pieces : (text ++ [Bytes.newline]).splitOn Bytes.newline =
      text.splitOn Bytes.newline ++ [[]] :=
    List.splitOnP_append_cons text [] (beq_self_eq_true _)
  exact part_at [] (text.splitOn Bytes.newline) [[]] (by simp [pieces]) rfl (by simp [pieces])

theorem lines_eq {source : Bytes} (nonempty : source ≠ []) : lines source = .ok (Bytes.lines source) := by
  unfold lines
  split
  · next ended =>
    obtain ⟨text, rfl⟩ := List.getLast?_eq_some_iff.mp ended
    rw [lines_append_newline]
    exact part_splitOn text
  · next unended =>
    rw [lines_eq_splitOn nonempty unended]
    exact part_splitOn source

theorem parse_eq [Constant.Evaluator] (source : Bytes) :
    parse source = checked (HackMachine.parse source) := by
  rcases eq_or_ne source [] with rfl | nonempty
  · -- The empty source counts as one empty line, which holds no statement.
    have blank : lines [] = .ok [[]] := part_splitOn []
    have empty : parseLine [] 1 = .ok none := by
      rw [parseLine_eq, HackMachine.parseLine, HackMachine.lexLine, HackMachine.lexFrom]
      rfl
    have numbered : ([[]].map Bytes.dropReturn).zipIdx 1 = [([], 1)] := rfl
    rw [parse, blank, ok_bind, numbered, List.mapM_cons, List.mapM_nil]
    dsimp only
    rw [empty]
    rfl
  · rw [parse, lines_eq nonempty, ok_bind, HackMachine.parse, checked_bind]
    congr 1
    exact checked_mapM fun numbered _ => parseLine_eq numbered.1 numbered.2

/-! ## Validation -/

/-- The first destination whose register is marked in `seen`, or was met before. -/
def repeatedDestination? (seen : List Bool) :
    List Destination → Checked Diagnostic (Option Destination)
  | [] => .ok none
  | d :: rest => do
    if ← entry seen (Coded.ofRegister d.register) then .ok (some d)
    else repeatedDestination? (← put seen (Coded.ofRegister d.register) true) rest

def computationFault? (c : Computation) : Checked Diagnostic (Option (Pos × Cause)) := do
  match ← repeatedDestination? [false, false, false] c.destinations with
  | some d => .ok (some (d.pos, .duplicateTarget d.register.text))
  | none => .ok ((operandFault? c.expr).map (c.exprPos, ·))

/-- The walk behind one more item; labels and references need no position. -/
def walkStep (w : Walk) (item : Item) : Checked Diagnostic Walk :=
  match item.statement with
  | .address (.value value) targetPos _ =>
    if value < 0 || value > immediateMax then do
      let text ← part item.line (targetPos.start - 1) (targetPos.stop - 1)
      .error (.reported ⟨targetPos, item.line, .immediateRange text⟩)
    else .ok { w with address := w.address + 1 }
  | .compute c _ => do
    match ← computationFault? c with
    | some (pos, cause) => .error (.reported ⟨pos, item.line, cause⟩)
    | none => .ok { w with address := w.address + 1 }
  | _ => checked (w.step item)

def validate (items : List Item) : Checked Diagnostic Unit := do
  let walk ← items.foldlM walkStep {}
  checked (walk.references.reverse.forM (Reference.check walk.declared))

/-- The table in which the registers of `seen` are marked. -/
def marks (seen : List Register) : List Bool := Coded.registers.map (seen.contains ·)

theorem repeatedDestination?_eq (seen : List Register) (destinations : List Destination) :
    repeatedDestination? (marks seen) destinations =
      .ok (HackMachine.repeatedDestination? seen destinations) := by
  induction destinations generalizing seen with
  | nil => rfl
  | cons d rest ih =>
    have marked : (entry (marks seen) (Coded.ofRegister d.register) : Checked Diagnostic Bool) =
        .ok (seen.contains d.register) := by
      cases d.register <;> rfl
    have noted : (put (marks seen) (Coded.ofRegister d.register) true :
        Checked Diagnostic (List Bool)) = .ok (marks (d.register :: seen)) := by
      cases d.register <;> rfl
    rw [repeatedDestination?, marked, ok_bind, HackMachine.repeatedDestination?, noted, ok_bind, ih]
    split <;> rfl

theorem computationFault?_eq (c : Computation) :
    computationFault? c = .ok (HackMachine.computationFault? c) := by
  rw [computationFault?, HackMachine.computationFault?]
  -- The empty table has no register marked.
  change (repeatedDestination? (marks []) c.destinations >>= _) = _
  rw [repeatedDestination?_eq, ok_bind]
  cases HackMachine.repeatedDestination? [] c.destinations <;> rfl

theorem part_slice {line : Bytes} {pos : Pos} (spans : pos.Spans 1 (line.length + 1)) :
    (part line (pos.start - 1) (pos.stop - 1) : Checked Diagnostic Bytes) = .ok (pos.slice line) := by
  obtain ⟨low, width, high⟩ := spans
  rw [part, if_pos (by omega), Pos.slice, List.drop_take]
  congr 2
  omega

theorem walkStep_eq {item : Item} (w : Walk)
    (spans : ∀ target targetPos pos, item.statement = .address target targetPos pos →
      targetPos.Spans 1 (item.line.length + 1)) :
    walkStep w item = checked (w.step item) := by
  unfold walkStep
  split
  · next value targetPos pos same =>
    rw [part_slice (spans _ _ _ same), Walk.step, same]
    dsimp only
    split <;> rfl
  · next c pos same =>
    rw [computationFault?_eq, ok_bind, Walk.step, same]
    dsimp only
    cases HackMachine.computationFault? c <;> rfl
  · rfl

theorem validate_eq [Constant.Evaluator] {source : Bytes} {items : List Item}
    (parsed : HackMachine.parse source = .ok items) :
    validate items = checked (HackMachine.validate items) := by
  have steps : ∀ item ∈ items, ∀ w, walkStep w item = checked (w.step item) :=
    fun item member w => walkStep_eq w fun _ _ _ same => parse_target_spans parsed member same
  rw [validate, checked_foldlM steps, HackMachine.validate, checked_bind]

/-! ## Encoding -/

/-- A computation by the codes of its parts. -/
def codeOf (c : Computation) : CodedCompute :=
  ⟨c.registers.map Coded.ofRegister, CodedExpr.ofExpr c.expr, Coded.ofJump c.jump⟩

/-- The word of an instruction, a computation being encoded by its codes. -/
def instructionWord (symbols : Symbols) (known : List Bytes) :
    Statement → Except EncodingFault (Word × Option Bytes)
  | .compute c _ => do .ok (← (codeOf c).encode, none)
  | statement => HackMachine.instructionWord symbols known statement

def emissionStep (symbols : Symbols) (e : Emission) (item : Item) :
    Except EncodingFault Emission :=
  match item.statement with
  | .label name _ => .ok { e with known := name :: e.known }
  | statement => do
    let (word, link) ← instructionWord symbols e.known statement
    let opcode : Opcode := ⟨item.lineNo, e.next, statement.text, word, link⟩
    .ok { e with opcodes := opcode :: e.opcodes, next := e.next + 1 }

def resolveLabels (items : List Item) : Except EncodingFault Program := do
  let symbols := index items
  let emission ← items.foldlM (emissionStep symbols) {}
  .ok ⟨← link emission.opcodes.reverse symbols, symbols⟩

theorem register_ofRegister (x : Register) : Coded.register (Coded.ofRegister x) = x := by
  cases x <;> rfl

theorem normalize_ofExpr (e : Expr) :
    (CodedExpr.ofExpr e).normalize = CodedExpr.ofExpr e.normalize := by
  cases e with
  | binary x op y => cases x <;> cases op <;> rfl
  | zero | one | negOne => rfl
  | reg x | not x | neg x | inc x | dec x => cases x <;> rfl

theorem expr_ofExpr (e : Expr) : (CodedExpr.ofExpr e).expr = .ok e := by
  cases e with
  | binary x op y => cases x <;> cases op <;> cases y <;> rfl
  | zero | one | negOne => rfl
  | reg x | not x | neg x | inc x | dec x => cases x <;> rfl

theorem encode_codeOf (c : Computation) :
    (codeOf c).encode = .ok (encodeCompute c.registers c.expr c.jump) := by
  have operation : (CodedExpr.ofExpr c.expr).normalize.operation =
      .ok c.expr.normalize.operation := by
    rw [normalize_ofExpr, CodedExpr.operation, expr_ofExpr]
    rfl
  have registers : ((c.registers.map Coded.ofRegister).find? fun code => !Coded.isRegister code) =
      none := by
    rw [List.find?_eq_none]
    intro code member
    obtain ⟨x, -, rfl⟩ := List.mem_map.mp member
    cases x <;> decide
  have targets : (c.registers.map Coded.ofRegister).map Coded.register = c.registers := by
    simp [Function.comp_def, register_ofRegister]
  have bits : BitVec.ofInt 16 (Coded.ofJump c.jump) = c.jump.bits := by
    simp [Coded.ofJump]
  simp only [codeOf, CodedCompute.encode, operation, registers, targets, bits]
  rfl

theorem emissionStep_eq (symbols : Symbols) (e : Emission) (item : Item) :
    emissionStep symbols e item = e.step symbols item := by
  obtain ⟨lineNo, line, statement⟩ := item
  cases statement with
  | label name pos => rfl
  | address target targetPos pos => rfl
  | compute c pos =>
    simp only [emissionStep, Emission.step, instructionWord, encode_codeOf, ok_bind]
    rfl

theorem resolveLabels_eq (items : List Item) :
    resolveLabels items = HackMachine.resolveLabels items := by
  have steps : emissionStep (index items) = Emission.step (index items) :=
    funext fun e => funext fun item => emissionStep_eq (index items) e item
  rw [resolveLabels, HackMachine.resolveLabels, emit, steps]
  cases items.foldlM (Emission.step (index items)) {} <;> rfl

/-! ## Programs -/

def assemble [Constant.Evaluator] (source : Bytes) : Checked AssemblyError Program := do
  let items ← (parse source).relabel .parse
  (validate items).relabel .validation
  checked ((resolveLabels items).mapError .encoding)

theorem assemble_eq [Constant.Evaluator] (source : Bytes) :
    assemble source = checked (HackMachine.assemble source) := by
  rw [assemble, HackMachine.assemble, parse_eq, relabel_checked]
  cases parsed : HackMachine.parse source with
  | error diagnostic => rfl
  | ok items =>
    change (validate items).relabel AssemblyError.validation >>= _ = _
    rw [validate_eq parsed, relabel_checked, resolveLabels_eq]
    dsimp only
    cases HackMachine.validate items with
    | error diagnostic => rfl
    | ok accepted => cases HackMachine.resolveLabels items <;> rfl

/-- Assembling never leaves a line, a list of tokens or a table: read by position it is the
assembler itself.  It ends in one of three ways, and a program has no placeholder left. -/
theorem assemble_stays_inside [Constant.Evaluator] (source : Bytes) :
    assemble source = checked (HackMachine.assemble source) ∧
    ((∃ diagnostic, assemble source = .error (.reported (.parse diagnostic))) ∨
      (∃ diagnostic, assemble source = .error (.reported (.validation diagnostic))) ∨
      ∃ program, assemble source = .ok program ∧ ∀ op ∈ program.opcodes, op.link = none) := by
  refine ⟨assemble_eq source, ?_⟩
  rw [assemble_eq, HackMachine.assemble]
  cases parsed : HackMachine.parse source with
  | error diagnostic => exact .inl ⟨diagnostic, rfl⟩
  | ok items =>
    dsimp only
    cases validated : HackMachine.validate items with
    | error diagnostic => exact .inr (.inl ⟨diagnostic, rfl⟩)
    | ok accepted =>
      have valid : Valid items := validate_eq_ok_iff.mp validated
      dsimp only
      rw [resolveLabels_eq_direct valid]
      refine .inr (.inr ⟨_, rfl, fun op member => ?_⟩)
      obtain ⟨⟨item, ip⟩, -, rfl⟩ := List.mem_map.mp member
      rfl

end HackMachine.Indexed
