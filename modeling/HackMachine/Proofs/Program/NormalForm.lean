import HackMachine.Proofs.Program.Disassembly

/-! # The normal form of assembled code

What the words of a program are written back as.  An address instruction comes back as the number it
loads.  A computation comes back with its targets in the order `A`, `D`, `*A`, and with `D` in front of
a commutative operator.  So a compute word forgets no more than the order of the targets and of the
operands of `+`, `&` and `|` (`encodeCompute_eq_iff`).  `normalTargets`, `Expr.normalForms` and
`normalJump` spell out the texts.
-/

namespace HackMachine

/-! ## Expressions up to the order of their operands -/

namespace Expr

/-- The same expression, or one with the operands of `+`, `&` or `|` swapped. -/
inductive SameUpToOrder : Expr → Expr → Prop
  | same (e) : SameUpToOrder e e
  | swapped {op} (x y) : op ∈ [Operator.add, .and, .or] →
      SameUpToOrder (.binary x op y) (.binary y op x)

theorem SameUpToOrder.symm {e e' : Expr} (same : e.SameUpToOrder e') : e'.SameUpToOrder e := by
  cases same with
  | same => exact .same e
  | swapped x y listed => exact .swapped y x listed

theorem SameUpToOrder.trans {e e' e'' : Expr} (first : e.SameUpToOrder e')
    (second : e'.SameUpToOrder e'') : e.SameUpToOrder e'' := by
  cases first with
  | same => exact second
  | swapped x y listed =>
    cases second with
    | same => exact .swapped x y listed
    | swapped => exact .same _

theorem normalize_sameUpToOrder (e : Expr) : e.SameUpToOrder e.normalize := by
  cases e with
  | binary x op y =>
    rw [normalize]
    split
    · next turned =>
      rw [Bool.and_eq_true] at turned
      apply SameUpToOrder.swapped
      cases op with
      | add | and | or => simp
      | sub => exact absurd turned.1 (by decide)
    · exact .same _
  | _ => exact .same _

/-- Expressions that the machine takes have one normal form exactly when they differ in the order of
their operands at most. -/
theorem normalize_eq_iff {e e' : Expr} (fits : e.OperandsFit) :
    e.normalize = e'.normalize ↔ e.SameUpToOrder e' := by
  constructor
  · intro same
    apply e.normalize_sameUpToOrder.trans
    rw [same]
    exact e'.normalize_sameUpToOrder.symm
  · intro same
    cases same with
    | same => rfl
    | @swapped op x y listed =>
      have commutes : op.commutes = true := by
        simp only [List.mem_cons, List.not_mem_nil, or_false] at listed
        rcases listed with rfl | rfl | rfl <;> rfl
      -- Exactly one of the two operands is `D`, and it comes first in both.
      rcases fits with ⟨rfl, other⟩ | ⟨other, rfl⟩
      · cases y <;> simp [normalize, commutes, Register.drivesX] at other ⊢
      · cases x <;> simp [normalize, commutes, Register.drivesX] at other ⊢

/-- No two expressions of the catalog ask the same of the unit. -/
theorem ofOperation?_operation {e : Expr} (listed : e ∈ catalog) :
    ofOperation? e.operation = some e := by
  have each : ∀ e ∈ catalog, ofOperation? e.operation = some e := by decide
  exact each e listed

theorem normalize_eq_of_operation {e e' : Expr} (fits : e.OperandsFit) (fits' : e'.OperandsFit)
    (same : e.normalize.operation = e'.normalize.operation) : e.normalize = e'.normalize := by
  have found := ofOperation?_operation (normalize_mem_catalog_iff.mpr fits)
  rw [same, ofOperation?_operation (normalize_mem_catalog_iff.mpr fits')] at found
  exact (Option.some.inj found).symm

end Expr

/-! ## Texts -/

/-- The expressions that have a word, with their texts. -/
def Expr.normalForms : List (Expr × Bytes) :=
  [(.zero, ascii "0"), (.one, ascii "1"), (.negOne, ascii "-1"),
    (.reg .d, ascii "D"), (.not .d, ascii "!D"), (.neg .d, ascii "-D"),
    (.inc .d, ascii "D + 1"), (.dec .d, ascii "D - 1"),
    (.reg .a, ascii "A"), (.not .a, ascii "!A"), (.neg .a, ascii "-A"),
    (.inc .a, ascii "A + 1"), (.dec .a, ascii "A - 1"),
    (.reg .m, ascii "*A"), (.not .m, ascii "!*A"), (.neg .m, ascii "-*A"),
    (.inc .m, ascii "*A + 1"), (.dec .m, ascii "*A - 1"),
    (.binary .d .add .a, ascii "D + A"), (.binary .d .and .a, ascii "D & A"),
    (.binary .d .or .a, ascii "D | A"), (.binary .d .sub .a, ascii "D - A"),
    (.binary .a .sub .d, ascii "A - D"),
    (.binary .d .add .m, ascii "D + *A"), (.binary .d .and .m, ascii "D & *A"),
    (.binary .d .or .m, ascii "D | *A"), (.binary .d .sub .m, ascii "D - *A"),
    (.binary .m .sub .d, ascii "*A - D")]

/-- What stands in front of the expression. -/
def normalTargets (registers : List Register) : Bytes :=
  match registers.contains .a, registers.contains .d, registers.contains .m with
  | false, false, false => []
  | true, false, false => ascii "A = "
  | false, true, false => ascii "D = "
  | false, false, true => ascii "*A = "
  | true, true, false => ascii "A, D = "
  | true, false, true => ascii "A, *A = "
  | false, true, true => ascii "D, *A = "
  | true, true, true => ascii "A, D, *A = "

/-- What stands behind the expression. -/
def normalJump : Jump → Bytes
  | .never => []
  | .gt => ascii "; jgt"
  | .eq => ascii "; jeq"
  | .ge => ascii "; jge"
  | .lt => ascii "; jlt"
  | .ne => ascii "; jne"
  | .le => ascii "; jle"
  | .always => ascii "; jmp"

theorem Expr.mem_normalForms {e : Expr} (listed : e ∈ catalog) : (e, e.text) ∈ normalForms := by
  have each : normalForms = catalog.map fun e => (e, e.text) := by decide +kernel
  rw [each]
  exact List.mem_map_of_mem listed

theorem computeText_normal (targets : List Register) (text : Bytes) (jump : Jump) :
    computeText (([.a, .d, .m].filter targets.contains).map Register.text) text jump.text? =
      normalTargets targets ++ text ++ normalJump jump := by
  have before : ∀ jump,
      computeText (([.a, .d, .m].filter targets.contains).map Register.text) text jump =
        normalTargets targets ++ computeText [] text jump := by
    intro jump
    simp only [normalTargets, computeText, List.filter_cons, List.filter_nil]
    cases targets.contains .a <;> cases targets.contains .d <;> cases targets.contains .m <;> rfl
  rw [before, List.append_assoc]
  cases jump <;> rfl

/-! ## Words -/

section

variable {targets targets' : List Register} {e e' : Expr} {jump jump' : Jump}

theorem targets_encodeCompute :
    Word.targets (encodeCompute targets e jump) = [.a, .d, .m].filter targets.contains := by
  simp only [Word.targets, writesA_encodeCompute, writesD_encodeCompute, writesM_encodeCompute,
    List.filter_cons, List.filter_nil]
  cases targets.contains .a <;> cases targets.contains .d <;> cases targets.contains .m <;> rfl

theorem disassemble_encodeCompute (fits : e.OperandsFit) :
    disassemble (encodeCompute targets e jump) =
      normalTargets targets ++ e.normalize.text ++ normalJump jump := by
  have expr : Operation.text e.normalize.operation = e.normalize.text := by
    rw [Operation.text, Expr.ofOperation?_operation (Expr.normalize_mem_catalog_iff.mpr fits)]
  rw [disassemble, isCompute_encodeCompute, if_pos rfl, targets_encodeCompute, operation_encodeCompute,
    jump_encodeCompute, expr, computeText_normal]

/-- A compute word keeps the set of the targets, the jump, and the expression up to the order of its
operands. -/
theorem encodeCompute_eq_iff (fits : e.OperandsFit) (fits' : e'.OperandsFit) :
    encodeCompute targets e jump = encodeCompute targets' e' jump' ↔
      (∀ r, r ∈ targets ↔ r ∈ targets') ∧ jump = jump' ∧ e.SameUpToOrder e' := by
  have written : ∀ r, targets.contains r = targets'.contains r ↔ (r ∈ targets ↔ r ∈ targets') := by
    intro r
    rw [Bool.eq_iff_iff, List.contains_iff_mem, List.contains_iff_mem]
  constructor
  · intro same
    -- Every field is read back from the word as it was packed.
    have a := congrArg Word.writesA same
    have d := congrArg Word.writesD same
    have m := congrArg Word.writesM same
    have operation := congrArg Word.operation same
    rw [writesA_encodeCompute, writesA_encodeCompute, written] at a
    rw [writesD_encodeCompute, writesD_encodeCompute, written] at d
    rw [writesM_encodeCompute, writesM_encodeCompute, written] at m
    rw [operation_encodeCompute, operation_encodeCompute] at operation
    refine ⟨fun r => ?_, by simpa using congrArg Word.jump same, ?_⟩
    · cases r with
      | a => exact a
      | d => exact d
      | m => exact m
    · exact (Expr.normalize_eq_iff fits).mp (Expr.normalize_eq_of_operation fits fits' operation)
  · rintro ⟨sameTargets, rfl, sameExpr⟩
    -- Packing only asks which registers are targets, not in which order.
    have expr := (Expr.normalize_eq_iff fits).mpr sameExpr
    have contains : ∀ r, targets.contains r = targets'.contains r := by
      intro r
      exact (written r).mpr (sameTargets r)
    simp only [encodeCompute, encodeOperation, expr, contains]

end

theorem disassemble_lowWord {value : Nat} (high : (value : Int) ≤ immediateMax) :
    disassemble (lowWord value) = ascii "A := " ++ Numeral.digits 10 value := by
  have low : (0 : Int) ≤ value := Int.natCast_nonneg value
  rw [disassemble, isCompute_eq_msb, msb_lowWord low high, if_neg Bool.false_ne_true,
    toNat_lowWord low high, Numeral.decimal_natCast]

/-! ## Programs -/

/-- The normal form of an instruction among `items`. -/
inductive NormalText (items : List Item) : Statement → Bytes → Prop
  | value {value : Nat} {numeral} (targetPos pos) : Numeral.IsDecimal numeral value →
      NormalText items (.address (.value value) targetPos pos) (ascii "A := " ++ numeral)
  | label {name} {address : Nat} {numeral} (targetPos pos) : DeclaredAt items name address →
      Numeral.IsDecimal numeral address →
      NormalText items (.address (.label name) targetPos pos) (ascii "A := " ++ numeral)
  | compute {c text} (pos) : c.expr.SameUpToOrder c.expr.normalize →
      (c.expr.normalize, text) ∈ Expr.normalForms →
      NormalText items (.compute c pos) (normalTargets c.registers ++ text ++ normalJump c.jump)

/-- The same targets as a set, the same jump, and the same expression up to the order of operands. -/
structure Computation.SameUpToOrder (c c' : Computation) : Prop where
  registers : ∀ r, r ∈ c.registers ↔ r ∈ c'.registers
  jump : c.jump = c'.jump
  expr : c.expr.SameUpToOrder c'.expr

/-- Instruction `i` is the computation `c`. -/
def ComputesAt (items : List Item) (i : Nat) (c : Computation) : Prop :=
  ∃ item pos, (instructions items)[i]? = some item ∧ item.statement = .compute c pos

theorem Valid.normalText {items : List Item} (valid : Valid items) {item : Item}
    (slot : item ∈ instructions items) :
    NormalText items item.statement (disassemble (directWord (index items) item.statement)) := by
  obtain ⟨listed, taken⟩ := List.mem_filter.mp slot
  have fits := valid.fits item listed
  have resolved := valid.resolved item listed
  obtain ⟨lineNo, line, statement⟩ := item
  cases statement with
  | label name pos => cases taken
  | address target targetPos pos =>
    cases target with
    | value value =>
      obtain ⟨n, rfl⟩ := Int.eq_ofNat_of_zero_le fits.1
      rw [directWord, disassemble_lowWord fits.2]
      exact .value targetPos pos (Numeral.isDecimal_digits n)
    | label name =>
      obtain ⟨address, declared, high⟩ := resolved name rfl
      have found : (index items).find? name = some (address : Int) :=
        valid.find?_index_iff.mpr ⟨address, declared, rfl⟩
      rw [directWord, found, Option.getD_some, disassemble_lowWord high]
      exact .label targetPos pos declared (Numeral.isDecimal_digits address)
  | compute c pos =>
    rw [directWord, disassemble_encodeCompute fits.2]
    apply NormalText.compute pos c.expr.normalize_sameUpToOrder
    exact Expr.mem_normalForms (Expr.normalize_mem_catalog_iff.mpr fits.2)

theorem Valid.computesAt {items : List Item} (valid : Valid items) {i : Nat} {c : Computation}
    (computes : ComputesAt items i c) :
    c.expr.OperandsFit ∧ ∀ symbols, (Program.words ⟨directOpcodes symbols items, symbols⟩)[i]? =
      some (encodeCompute c.registers c.expr c.jump) := by
  obtain ⟨⟨lineNo, line, statement⟩, pos, found, rfl⟩ := computes
  have listed := List.mem_of_mem_filter (List.mem_of_getElem? found)
  refine ⟨(valid.fits _ listed).2, fun symbols => ?_⟩
  rw [words_direct, List.getElem?_map, found]
  rfl

theorem direct_of_parsed [Constant.Evaluator] {source : Bytes} {items : List Item} {program : Program}
    (parsed : parse source = .ok items) (assembled : assemble source = .ok program) :
    Valid items ∧ program = ⟨directOpcodes (index items) items, index items⟩ := by
  obtain ⟨items', parsed', valid, same⟩ := assemble_eq_ok_iff.mp assembled
  obtain rfl : items = items' := Except.ok.inj (parsed.symm.trans parsed')
  exact ⟨valid, same⟩

/-- Each word of an accepted source is written back as the normal form of its instruction, and compute
instructions of accepted sources have the same word exactly when they are the same up to order. -/
theorem disassembly_is_normal_form [Constant.Evaluator] {source : Bytes} {items : List Item}
    {program : Program}
    (parsed : parse source = .ok items) (assembled : assemble source = .ok program) :
    program.words.length = (instructions items).length ∧
      (∀ (i : Nat) (item : Item), (instructions items)[i]? = some item →
        ∃ w, program.words[i]? = some w ∧ NormalText items item.statement (disassemble w)) ∧
      ∀ source' items' program', parse source' = .ok items' → assemble source' = .ok program' →
        ∀ (i j : Nat) (c c' : Computation), ComputesAt items i c → ComputesAt items' j c' →
          (program.words[i]? = program'.words[j]? ↔ c.SameUpToOrder c') := by
  obtain ⟨valid, rfl⟩ := direct_of_parsed parsed assembled
  refine ⟨by rw [words_direct, List.length_map], fun i item found => ?_, ?_⟩
  · refine ⟨_, ?_, valid.normalText (List.mem_of_getElem? found)⟩
    rw [words_direct, List.getElem?_map, found]
    rfl
  · intro source' items' program' parsed' assembled' i j c c' computes computes'
    obtain ⟨valid', rfl⟩ := direct_of_parsed parsed' assembled'
    obtain ⟨fits, word⟩ := valid.computesAt computes
    obtain ⟨fits', word'⟩ := valid'.computesAt computes'
    rw [word, word', Option.some_inj, encodeCompute_eq_iff fits fits']
    constructor
    · rintro ⟨registers, sameJump, expr⟩
      exact ⟨registers, sameJump, expr⟩
    · intro same
      exact ⟨same.registers, same.jump, same.expr⟩

/-- Two spellings of one instruction. -/
theorem disassembly_is_normal_form_swapped :
    ∃ items items' program program',
      parse (ascii "D,A = A + D; JMP") = .ok items ∧ assemble (ascii "D,A = A + D; JMP") = .ok program ∧
      parse (ascii "0\nA, D = D+A;jmp") = .ok items' ∧
      assemble (ascii "0\nA, D = D+A;jmp") = .ok program' ∧ program.words[0]? = program'.words[1]? ∧
      program.words[0]?.map disassemble = some (ascii "A, D = D + A; jmp") := by
  have parsed : parse (ascii "D,A = A + D; JMP") =
      .ok [⟨1, ascii "D,A = A + D; JMP", .compute ⟨[⟨.d, ⟨1, 1, 2⟩⟩, ⟨.a, ⟨1, 3, 4⟩⟩],
        .binary .a .add .d, ⟨1, 7, 12⟩, .always⟩ ⟨1, 1, 17⟩⟩] := by
    decide +kernel
  have assembled : assemble (ascii "D,A = A + D; JMP") =
      .ok ⟨[⟨1, 0, ascii "D, A = A + D; jmp", 0xe0b7#16, none⟩], []⟩ := by
    decide +kernel
  have parsed' : parse (ascii "0\nA, D = D+A;jmp") =
      .ok [⟨1, ascii "0", .compute ⟨[], .zero, ⟨1, 1, 2⟩, .never⟩ ⟨1, 1, 2⟩⟩,
        ⟨2, ascii "A, D = D+A;jmp", .compute ⟨[⟨.a, ⟨2, 1, 2⟩⟩, ⟨.d, ⟨2, 4, 5⟩⟩], .binary .d .add .a,
          ⟨2, 8, 11⟩, .always⟩ ⟨2, 1, 15⟩⟩] := by
    decide +kernel
  have assembled' : assemble (ascii "0\nA, D = D+A;jmp") =
      .ok ⟨[⟨1, 0, ascii "0", 0xea80#16, none⟩, ⟨2, 1, ascii "A, D = D + A; jmp", 0xe0b7#16, none⟩],
        []⟩ := by
    decide +kernel
  obtain ⟨-, texts, words⟩ := disassembly_is_normal_form parsed assembled
  refine ⟨_, _, _, _, parsed, assembled, parsed', assembled', ?_, ?_⟩
  · apply (words _ _ _ parsed' assembled' 0 1 _ _ ⟨_, _, rfl, rfl⟩ ⟨_, _, rfl, rfl⟩).mpr
    refine ⟨fun r => ?_, rfl, .swapped .a .d (by simp)⟩
    cases r <;> decide
  · obtain ⟨w, found, text⟩ := texts 0 _ rfl
    rw [found, Option.map_some]
    generalize disassemble w = shown at text
    cases text with
    | @compute _ expr _ order listed =>
      have only : ∀ entry ∈ Expr.normalForms,
          entry.1 = .binary .d .add .a → entry.2 = ascii "D + A" := by decide
      obtain rfl : expr = ascii "D + A" := only _ listed rfl
      rfl

end HackMachine
