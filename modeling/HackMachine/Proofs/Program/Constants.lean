import HackMachine.Proofs.Program.Resolution
import HackMachine.Proofs.Source.Lines
import HackMachine.Proofs.Source.Numbers

/-! # Constants are exact

`Denotes` gives the integer that the operand of an address instruction stands for, without a bound.
Reading saturates and encoding keeps sixteen bits, but neither shows: a reading differs from the
integer only where no instruction can hold either (`StandsFor`), and validation refuses both.
-/

namespace HackMachine

open Grammar

/-- The integer that an operand stands for. -/
inductive Denotes [Constant.Evaluator] : List Lexeme → Int → Prop
  | number {text n} : NumberForm text n → Denotes [.number text] n
  | negative {text n} : NumberForm text n → Denotes [.mark .minus, .number text] (-n)
  | constant {text n} : Constant.outcome text = .integer n → Denotes [.constant text] n

/-- An integer that an address instruction can load. -/
def Immediate (n : Int) : Prop := 0 ≤ n ∧ n ≤ immediateMax

/-- What was read is the integer, or no instruction can load either of them. -/
def StandsFor (reading n : Int) : Prop := reading = n ∨ (¬ Immediate reading ∧ ¬ Immediate n)

theorem Denotes.unique [Constant.Evaluator] {operand : List Lexeme} {n m : Int}
    (denotes : Denotes operand n) (denotes' : Denotes operand m) : n = m := by
  cases denotes with
  | number form =>
    cases denotes' with
    | number form' => rw [form.unique form']
  | negative form =>
    cases denotes' with
    | negative form' => rw [form.unique form']
  | constant runs =>
    cases denotes' with
    | constant runs' => exact Constant.Outcome.integer.inj (runs.symm.trans runs')

/-! ## Readings -/

theorem standsFor_number (n : Nat) : StandsFor (min n maxNumber : Nat) n := by
  simp only [StandsFor, Immediate, immediateMax, maxNumber]
  omega

theorem standsFor_negative (n : Nat) : StandsFor (-(min n maxNumber : Nat)) (-n) := by
  simp only [StandsFor, Immediate, immediateMax, maxNumber]
  omega

theorem standsFor_saturate64 (n : Int) : StandsFor (Constant.saturate64 n) n := by
  simp only [StandsFor, Immediate, immediateMax, Constant.saturate64]
  omega

theorem not_immediate_maxNumber : ¬ Immediate maxNumber := by
  simp only [Immediate, immediateMax, maxNumber]
  omega

theorem StandsFor.immediate_iff {reading n : Int} (stands : StandsFor reading n) :
    Immediate reading ↔ Immediate n := by
  rcases stands with rfl | ⟨unfit, unfit'⟩
  · rfl
  · exact iff_of_false unfit unfit'

theorem StandsFor.eq_of_immediate {reading n : Int} (stands : StandsFor reading n)
    (fits : Immediate reading) : reading = n := by
  rcases stands with same | ⟨unfit, -⟩
  · exact same
  · exact absurd fits unfit

/-- An operand that denotes an integer is read, and what is read stands for the integer. -/
theorem Denotes.read [Constant.Evaluator] {operand : List Lexeme} {n : Int}
    (denotes : Denotes operand n) :
    ∃ (value : Value) (reading : Int), value.lexemes = operand ∧ value.target = .value reading ∧
      StandsFor reading n := by
  cases denotes with
  | @number text n form =>
    exact ⟨.number text _ form.parseNumber?_eq, _, rfl, rfl, standsFor_number n⟩
  | @negative text n form =>
    exact ⟨.negative text _ form.parseNumber?_eq, _, rfl, rfl, standsFor_negative n⟩
  | @constant text n runs => exact ⟨.constant text n runs, _, rfl, rfl, standsFor_saturate64 n⟩

/-- A number that is read and fits is of one of the two forms, and the reading is its value. -/
theorem numberForm_of_small {text : Bytes} {number : Nat} (read : parseNumber? text = some number)
    (small : number ≠ maxNumber) : NumberForm text number := by
  obtain ⟨value, form⟩ | saturated := parseNumber?_eq_some read
  · have same := Option.some.inj (form.parseNumber?_eq.symm.trans read)
    have exact : value = number := by omega
    exact exact ▸ form
  · exact absurd saturated small

/-- What is read and fits is the integer that the operand denotes. -/
theorem denotes_of_immediate [Constant.Evaluator] {value : Value} {reading : Int}
    (target : value.target = .value reading)
    (fits : Immediate reading) : Denotes value.lexemes reading := by
  cases value with
  | number text number read =>
    cases target
    refine .number (numberForm_of_small read ?_)
    rintro rfl
    exact not_immediate_maxNumber fits
  | negative text number read =>
    cases target
    refine .negative (numberForm_of_small read ?_)
    rintro rfl
    simp only [Immediate, maxNumber] at fits
    omega
  | label name => cases target
  | constant text n runs =>
    cases target
    have same := (standsFor_saturate64 n).eq_of_immediate fits
    show Denotes [.constant text] (Constant.saturate64 n)
    rw [same]
    exact .constant runs

/-! ## Number words of a line -/

theorem Grammar.Reg.number_not_mem (x : Reg) (text : Bytes) : .number text ∉ x.lexemes := by
  cases x <;> simp [Reg.lexemes]

theorem numberForm_of_mem_alu {alu : Alu} {text : Bytes} (member : .number text ∈ alu.lexemes) :
    ∃ n, NumberForm text n := by
  have digit : text = ascii "0" ∨ text = ascii "1" := by
    cases alu with
    | zero | one | negOne => simp_all [Alu.lexemes]
    | not x | neg x | reg x | inc x | dec x | binary x op y =>
      simp_all [Alu.lexemes, Reg.number_not_mem]
  rcases digit with rfl | rfl
  · exact ⟨_, .decimal (by decide) (List.all_eq_true.mp rfl)⟩
  · exact ⟨_, .decimal (by decide) (List.all_eq_true.mp rfl)⟩

theorem number_not_mem_targets (targets : List Reg) (text : Bytes) :
    .number text ∉ targetLexemes targets := by
  cases targets with
  | nil => simp [targetLexemes]
  | cons first rest => simp [targetLexemes, Reg.number_not_mem]

/-- A number word of a statement is well formed, or the statement loads what no instruction holds. -/
theorem numberForm_of_mem_line [Constant.Evaluator] {derivation : Line} {text : Bytes}
    (member : .number text ∈ derivation.lexemes) :
    (∃ n, NumberForm text n) ∨
      ∃ reading, derivation.node = .address (.value reading) ∧ ¬ Immediate reading := by
  cases derivation with
  | label name => simp [Line.lexemes] at member
  | address value =>
    cases value with
    | number word number read =>
      obtain rfl : text = word := by simpa [Line.lexemes, Value.lexemes] using member
      refine (parseNumber?_eq_some read).imp_right fun saturated => ⟨number, rfl, ?_⟩
      rw [saturated]
      exact not_immediate_maxNumber
    | negative word number read =>
      obtain rfl : text = word := by simpa [Line.lexemes, Value.lexemes] using member
      refine (parseNumber?_eq_some read).imp_right fun saturated => ⟨-number, rfl, ?_⟩
      simp only [saturated, Immediate, maxNumber]
      omega
    | label name => simp [Line.lexemes, Value.lexemes] at member
    | constant word n runs => simp [Line.lexemes, Value.lexemes] at member
  | compute targets alu jump =>
    simp only [Line.lexemes, List.mem_append] at member
    rcases member with member | member | member
    · exact absurd member (number_not_mem_targets targets text)
    · exact .inl (numberForm_of_mem_alu member)
    · cases jump <;> simp [jumpLexemes] at member

theorem Grammar.Line.eq_address [Constant.Evaluator] {derivation : Line} {operand : List Lexeme}
    (derived : derivation.lexemes = .name (ascii "A") :: .mark .assign :: operand) :
    ∃ value : Value, derivation = .address value ∧ value.lexemes = operand := by
  cases derivation with
  | label name => simp [Line.lexemes] at derived
  | address value => exact ⟨value, rfl, by simpa [Line.lexemes] using derived⟩
  | compute targets alu jump =>
    refine absurd ?_ (not_mem_compute (.inr rfl) targets alu jump)
    rw [derived]
    simp

/-! ## Accepted programs -/

theorem mem_directOpcodes {symbols : Symbols} {items : List Item} {op : Opcode} :
    op ∈ directOpcodes symbols items ↔
      ∃ item ip, (item, ip) ∈ (instructions items).zipIdx ∧ op = directOpcode symbols item ip := by
  simp only [directOpcodes, List.mem_map, Prod.exists, eq_comm]

theorem Immediate.of_fits {item : Item} (fits : item.Fits) {reading : Int}
    (node : item.statement.node = .address (.value reading)) : Immediate reading := by
  obtain ⟨lineNo, line, statement⟩ := item
  obtain ⟨targetPos, pos, rfl⟩ := Statement.eq_address node
  exact fits

theorem directWord_of_node {symbols : Symbols} {statement : Statement} {reading : Int}
    (node : statement.node = .address (.value reading)) :
    directWord symbols statement = lowWord reading := by
  obtain ⟨targetPos, pos, rfl⟩ := Statement.eq_address node
  rfl

section

variable [Constant.Evaluator] {source : Bytes} {items : List Item} (parsed : parse source = .ok items)
  (valid : Valid items) {lineNo : Nat} {operand : List Lexeme}

include parsed valid

/-- The item of an accepted line `A := operand` loads what its operand denotes. -/
theorem item_denotes
    (reads : LineReads source lineNo (.name (ascii "A") :: .mark .assign :: operand))
    (constant : ∀ name, operand ≠ [.mark .at, .name name]) {item : Item} (member : item ∈ items)
    (numbered : item.lineNo = lineNo) :
    ∃ n, Immediate n ∧ Denotes operand n ∧ item.statement.node = .address (.value n) := by
  obtain ⟨derivation, reads', node⟩ := parse_reads parsed member
  rw [numbered] at reads'
  obtain ⟨value, rfl, rfl⟩ := Line.eq_address (reads'.unique reads)
  cases target : value.target with
  | label name =>
    cases value with
    | label other => exact absurd rfl (constant other)
    | number | negative | constant => cases target
  | value n =>
    have loaded : item.statement.node = .address (.value n) := by rw [← node, ← target]; rfl
    have fits := Immediate.of_fits (valid.fits item member) loaded
    exact ⟨n, fits, denotes_of_immediate target fits, loaded⟩

end

/-- The opcode of an accepted line `A := operand` is the integer that the operand denotes. -/
theorem accepted_constant [Constant.Evaluator] {source : Bytes} {program : Program}
    (assembled : assemble source = .ok program) {lineNo : Nat} {operand : List Lexeme}
    (reads : LineReads source lineNo (.name (ascii "A") :: .mark .assign :: operand))
    (constant : ∀ name, operand ≠ [.mark .at, .name name]) :
    (∃ op ∈ program.opcodes, op.line = lineNo) ∧
      ∀ op ∈ program.opcodes, op.line = lineNo → ∀ n, Denotes operand n ↔ n = op.word.toNat := by
  obtain ⟨items, parsed, valid, rfl⟩ := assemble_eq_ok_iff.mp assembled
  simp only [mem_directOpcodes]
  constructor
  · obtain ⟨item, member, numbered⟩ := reads.item parsed (by simp)
    obtain ⟨n, -, -, node⟩ := item_denotes parsed valid reads constant member numbered
    have slot : item.statement.isInstruction = true := by
      obtain ⟨targetPos, pos, same⟩ := Statement.eq_address node
      rw [same]
      rfl
    have placed : item ∈ instructions items := List.mem_filter.mpr ⟨member, slot⟩
    obtain ⟨ip, bound, found⟩ := List.mem_iff_getElem.mp placed
    refine ⟨_, ⟨item, ip, ?_, rfl⟩, congrArg Int.ofNat numbered⟩
    rw [List.mk_mem_zipIdx_iff_getElem?, List.getElem?_eq_some_iff]
    exact ⟨bound, found⟩
  · rintro _ ⟨item, ip, listed, rfl⟩ numbered n
    have member : item ∈ items := (List.mem_filter.mp (List.fst_mem_of_mem_zipIdx listed)).1
    obtain ⟨m, fits, denotes, node⟩ :=
      item_denotes parsed valid reads constant member (Int.natCast_inj.mp numbered)
    have word : ((directOpcode (index items) item ip).word.toNat : Int) = m := by
      rw [directOpcode, directWord_of_node node, toNat_lowWord fits.1 fits.2]
    rw [word]
    constructor
    · intro denotes'
      exact denotes'.unique denotes
    · rintro rfl
      exact denotes

theorem valid_singleton (item : Item) {reading : Int}
    (node : item.statement.node = .address (.value reading)) : Valid [item] ↔ Immediate reading := by
  obtain ⟨lineNo, line, statement⟩ := item
  obtain ⟨targetPos, pos, rfl⟩ := Statement.eq_address node
  rw [valid_iff_fits (List.forall_mem_singleton.mpr ⟨rfl, rfl⟩), List.forall_mem_singleton]
  rfl

/-- A source of one line `A := operand` is accepted exactly when an instruction can load the integer. -/
theorem single_constant_accepted_iff [Constant.Evaluator] {source : Bytes}
    (single : (Bytes.lines source).length = 1) {operand : List Lexeme}
    (reads : LineReads source 1 (.name (ascii "A") :: .mark .assign :: operand)) {n : Int}
    (denotes : Denotes operand n) : (∃ program, assemble source = .ok program) ↔ Immediate n := by
  obtain ⟨line, tokens, listed, lexed, derived⟩ := reads
  obtain ⟨value, reading, rfl, target, stands⟩ := denotes.read
  have derived : (Line.address value).lexemes = lexemesOf tokens := derived.symm
  obtain ⟨statement, read, node⟩ := parseTokens_complete derived
  rw [Line.node, target] at node
  have lines : numberedLines source = [(line, 1)] := by
    obtain ⟨only, same⟩ := List.length_eq_one_iff.mp single
    rw [numberedLines, same] at listed ⊢
    simpa [eq_comm] using listed
  have parsed : parse source = .ok [⟨1, line, statement⟩] := by
    rw [parse, lines, List.mapM_cons, List.mapM_nil]
    dsimp only
    rw [parseLine_eq lexed, read]
    rfl
  rw [← stands.immediate_iff, ← valid_singleton ⟨1, line, statement⟩ node]
  simp only [assemble_eq_ok_iff, parsed, Except.ok.injEq, exists_and_left, exists_eq_left', exists_eq,
    and_true]

/-- A source with a malformed number word is refused. -/
theorem malformed_number_refused [Constant.Evaluator] {source : Bytes} {lineNo : Nat}
    {lexemes : List Lexeme}
    (reads : LineReads source lineNo lexemes) {text : Bytes} (member : .number text ∈ lexemes)
    (malformed : ¬ ∃ n, NumberForm text n) : ¬ ∃ program, assemble source = .ok program := by
  rintro ⟨program, assembled⟩
  obtain ⟨items, parsed, valid, -⟩ := assemble_eq_ok_iff.mp assembled
  obtain ⟨item, listed, rfl⟩ := reads.item parsed (List.ne_nil_of_mem member)
  obtain ⟨derivation, reads', node⟩ := parse_reads parsed listed
  obtain rfl := reads'.unique reads
  obtain formed | ⟨reading, loaded, unfit⟩ := numberForm_of_mem_line member
  · exact malformed formed
  · exact unfit (Immediate.of_fits (valid.fits item listed) (node.symm.trans loaded))

/-- Constants are exact from the source to the word, whatever their length.  In an accepted source
every line `A := operand` with a constant operand has an opcode, whose word is the integer that the
operand denotes; a single such line is accepted exactly when that integer fits fifteen bits; and a
number word that is neither decimal nor hexadecimal makes a source unacceptable. -/
theorem constants_assemble_exactly [Constant.Evaluator] :
    (∀ source program, assemble source = .ok program → ∀ lineNo operand,
      LineReads source lineNo (.name (ascii "A") :: .mark .assign :: operand) →
      (∀ name, operand ≠ [.mark .at, .name name]) →
      (∃ op ∈ program.opcodes, op.line = lineNo) ∧
        ∀ op ∈ program.opcodes, op.line = lineNo → ∀ n, Denotes operand n ↔ n = op.word.toNat) ∧
    (∀ source operand n, (Bytes.lines source).length = 1 →
      LineReads source 1 (.name (ascii "A") :: .mark .assign :: operand) → Denotes operand n →
      ((∃ program, assemble source = .ok program) ↔ 0 ≤ n ∧ n ≤ 32767)) ∧
    (∀ source lineNo lexemes text, LineReads source lineNo lexemes → .number text ∈ lexemes →
      (¬ ∃ n, NumberForm text n) → ¬ ∃ program, assemble source = .ok program) := by
  refine ⟨?_, ?_, ?_⟩
  · intro source program assembled lineNo operand reads constant
    exact accepted_constant assembled reads constant
  · intro source operand n single reads denotes
    exact single_constant_accepted_iff single reads denotes
  · intro source lineNo lexemes text reads member malformed
    exact malformed_number_refused reads member malformed

/-- The largest immediate, an expression that leaves sixty-four bits on its way, the number that
sixty-four bits take for zero, in digits and as an expression, and a malformed word that overflows before
its bad digit. -/
theorem constants_at_the_limits :
    (∃ program, assemble (ascii "A := 0x007fFF") = .ok program ∧
      ∀ op ∈ program.opcodes, op.line = 1 → op.word.toNat = 32767) ∧
    (∃ program, assemble (ascii "A := $((1 << 70) >> 56)") = .ok program ∧
      ∀ op ∈ program.opcodes, op.line = 1 → op.word.toNat = 16384) ∧
    (¬ ∃ program, assemble (ascii "A := $(1 << 64)") = .ok program) ∧
    (¬ ∃ program, assemble (ascii "A := 18446744073709551616") = .ok program) ∧
    ¬ ∃ program, assemble (ascii "A := 99999999999999999999z") = .ok program := by
  obtain ⟨accepted, single, refused⟩ := constants_assemble_exactly
  have loads : ∀ source operand (n : Nat), (Bytes.lines source).length = 1 →
      LineReads source 1 (.name (ascii "A") :: .mark .assign :: operand) →
      (∀ name, operand ≠ [.mark .at, .name name]) → Denotes operand n → n ≤ 32767 →
      ∃ program, assemble source = .ok program ∧
        ∀ op ∈ program.opcodes, op.line = 1 → op.word.toNat = n := by
    intro source operand n lines reads constant denotes fits
    obtain ⟨program, assembled⟩ := (single source operand n lines reads denotes).mpr (by omega)
    refine ⟨program, assembled, ?_⟩
    intro op member numbered
    have loaded := ((accepted _ _ assembled 1 _ reads constant).2 op member numbered n).mp denotes
    exact (Int.natCast_inj.mp loaded).symm
  refine ⟨?_, ?_, ?_, ?_, ?_⟩
  · have reads : LineReads (ascii "A := 0x007fFF") 1
        [.name (ascii "A"), .mark .assign, .number (ascii "0x007fFF")] :=
      ⟨ascii "A := 0x007fFF", [⟨.name (ascii "A"), ⟨1, 1, 2⟩⟩, ⟨.mark .assign, ⟨1, 3, 5⟩⟩,
        ⟨.number (ascii "0x007fFF"), ⟨1, 6, 14⟩⟩], by decide, by decide +kernel, rfl⟩
    have denotes : Denotes [.number (ascii "0x007fFF")] 32767 :=
      .number (.hexadecimal (.inl rfl) (by decide) (List.all_eq_true.mp rfl))
    exact loads _ _ 32767 (by decide) reads (by simp) denotes (Nat.le_refl _)
  · have reads : LineReads (ascii "A := $((1 << 70) >> 56)") 1
        [.name (ascii "A"), .mark .assign, .constant (ascii "(1 << 70) >> 56")] :=
      ⟨ascii "A := $((1 << 70) >> 56)", [⟨.name (ascii "A"), ⟨1, 1, 2⟩⟩, ⟨.mark .assign, ⟨1, 3, 5⟩⟩,
        ⟨.constant (ascii "(1 << 70) >> 56"), ⟨1, 6, 24⟩⟩], by decide, by decide +kernel, rfl⟩
    have denotes : Denotes [.constant (ascii "(1 << 70) >> 56")] 16384 := .constant (by decide +kernel)
    exact loads _ _ 16384 (by decide) reads (by simp) denotes (by decide)
  · have reads : LineReads (ascii "A := $(1 << 64)") 1
        [.name (ascii "A"), .mark .assign, .constant (ascii "1 << 64")] :=
      ⟨ascii "A := $(1 << 64)", [⟨.name (ascii "A"), ⟨1, 1, 2⟩⟩, ⟨.mark .assign, ⟨1, 3, 5⟩⟩,
        ⟨.constant (ascii "1 << 64"), ⟨1, 6, 16⟩⟩], by decide, by decide +kernel, rfl⟩
    have denotes : Denotes [.constant (ascii "1 << 64")] 18446744073709551616 :=
      .constant (by decide +kernel)
    rw [single _ _ _ (by decide) reads denotes]
    omega
  · have reads : LineReads (ascii "A := 18446744073709551616") 1
        [.name (ascii "A"), .mark .assign, .number (ascii "18446744073709551616")] :=
      ⟨ascii "A := 18446744073709551616", [⟨.name (ascii "A"), ⟨1, 1, 2⟩⟩, ⟨.mark .assign, ⟨1, 3, 5⟩⟩,
        ⟨.number (ascii "18446744073709551616"), ⟨1, 6, 26⟩⟩], by decide, by decide +kernel, rfl⟩
    have denotes : Denotes [.number (ascii "18446744073709551616")] 18446744073709551616 :=
      .number (.decimal (by decide) (List.all_eq_true.mp rfl))
    rw [single _ _ _ (by decide) reads denotes]
    omega
  · have reads : LineReads (ascii "A := 99999999999999999999z") 1
        [.name (ascii "A"), .mark .assign, .number (ascii "99999999999999999999z")] :=
      ⟨ascii "A := 99999999999999999999z", [⟨.name (ascii "A"), ⟨1, 1, 2⟩⟩, ⟨.mark .assign, ⟨1, 3, 5⟩⟩,
        ⟨.number (ascii "99999999999999999999z"), ⟨1, 6, 27⟩⟩], by decide, by decide +kernel, rfl⟩
    refine refused _ 1 _ (ascii "99999999999999999999z") reads (by simp) ?_
    rintro ⟨n, form⟩
    generalize same : ascii "99999999999999999999z" = text at form
    cases form with
    | decimal _ all =>
      have digit := all (byte 'z') (by rw [← same]; decide)
      revert digit
      decide
    | hexadecimal _ _ _ =>
      have first : some (byte '9') = some (byte '0') := congrArg List.head? same
      revert first
      decide

end HackMachine
