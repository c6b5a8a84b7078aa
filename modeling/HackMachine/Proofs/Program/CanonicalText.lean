import HackMachine.Proofs.Program.Disassembly
import HackMachine.Proofs.Program.Layout

/-! # Canonical text

The canonical texts of the statements of a program, one on each line, are a source of the same program.

* `Statement.text_spells` — the canonical text of a statement spells a derivation of its node: any name
  is read back as a name, also one that reads like a register or a jump, and any value that fits as a
  numeral.
* `parse_canonicalText` — so the canonical text of an accepted program is read back node by node.
* `Relocation.forget` — nothing behind the parser looks at more than the nodes: items with the same
  nodes are the same items once all their places are forgotten.
-/

namespace HackMachine

open Grammar Bytes

/-! ## Items without their places -/

namespace Relocation

/-- Forgets where everything stands. -/
def forget : Relocation where
  number _ := 0
  place _ := ⟨0, 0, 0⟩
  line _ := []
  quote _ := []
  place_through _ _ := rfl
  slice_line _ _ := rfl

theorem forget_statement {s s' : Statement} (same : s.node = s'.node) :
    forget.statement s = forget.statement s' := by
  cases s with
  | label name pos =>
    cases s' with
    | label => cases same; rfl
    | address | compute => cases same
  | address target targetPos pos =>
    obtain ⟨targetPos', pos', rfl⟩ := Statement.eq_address same.symm
    rfl
  | compute c pos =>
    obtain ⟨c', pos', rfl, registers, expr, jump⟩ := Statement.eq_compute same.symm
    -- Once their places are forgotten, destinations are no more than their registers.
    have bare : ∀ c : Computation,
        c.destinations.map forget.destination = c.registers.map (⟨·, ⟨0, 0, 0⟩⟩) := by
      intro c
      simp [Computation.registers, destination, forget]
    simp only [statement, computation, bare, registers, expr, jump]
    rfl

theorem forget_item {i i' : Item} (same : i.statement.node = i'.statement.node) :
    forget.item i = forget.item i' := by
  simp only [item, forget_statement same]
  rfl

end Relocation

theorem Statement.text_eq_of_node {s s' : Statement} (same : s.node = s'.node) : s.text = s'.text := by
  rw [← Relocation.forget.text_statement s, Relocation.forget_statement same,
    Relocation.forget.text_statement]

/-! ## The text of a statement -/

/-- The labels are names and the value of an address instruction fits. -/
def Statement.Printable : Statement → Prop
  | .label name _ | .address (.label name) _ _ => IsName name
  | .address (.value value) _ _ => 0 ≤ value ∧ value ≤ immediateMax
  | .compute _ _ => True

theorem printable_of_valid [Constant.Evaluator] {source : Bytes} {items : List Item}
    (parsed : parse source = .ok items)
    (valid : Valid items) {item : Item} (member : item ∈ items) : item.statement.Printable := by
  have fits := valid.fits item member
  have named : ∀ name, item.declared? = some name ∨ item.referenced? = some name → IsName name :=
    fun _ => parse_isName parsed member
  obtain ⟨lineNo, line, statement⟩ := item
  cases statement with
  | label name pos => exact named name (.inl rfl)
  | address target targetPos pos =>
    cases target with
    | value value => exact fits
    | label name => exact named name (.inr rfl)
  | compute c pos => trivial

theorem visible_of_isWord {b : UInt8} (word : isWord b = true) : IsVisible b := by
  simp only [isWord, isLetter, Bool.or_eq_true, Bool.and_eq_true, beq_iff_eq, decide_eq_true_eq] at word
  rcases word with ((rfl | ⟨low, high⟩) | ⟨low, high⟩) | digit
  · decide
  · exact ⟨UInt8.le_trans (by decide) low, UInt8.le_trans high (by decide)⟩
  · exact ⟨UInt8.le_trans (by decide) low, UInt8.le_trans high (by decide)⟩
  · exact visible_of_isDigit digit

namespace IsName

theorem isWord {name : Bytes} (isName : IsName name) : ∀ b ∈ name, isWord b = true := by
  obtain ⟨b, more, rfl, letter, word⟩ := isName
  exact List.forall_mem_cons.mpr ⟨by simp [Bytes.isWord, letter], word⟩

theorem visible {name : Bytes} (isName : IsName name) : Visible name :=
  fun b member => visible_of_isWord (isName.isWord b member)

theorem spells {name rest : Bytes} (isName : IsName name) (ends : WordEnds rest) :
    Spells (name ++ rest) [.name name] rest := by
  obtain ⟨b, more, rfl, letter, word⟩ := isName
  exact .name more letter word ends

end IsName

namespace Statement

theorem text_visible {s : Statement} (printable : s.Printable) : Visible s.text := by
  cases s with
  | label name pos => exact .append (IsName.visible printable) (by decide)
  | address target targetPos pos =>
    cases target with
    | label name => exact .append (by decide) (IsName.visible printable)
    | value value =>
      obtain ⟨n, rfl⟩ := Int.eq_ofNat_of_zero_le printable.1
      rw [text, Numeral.decimal_natCast]
      refine .append (by decide) fun b member => visible_of_isDigit ?_
      exact Numeral.isDigit_of_mem_digits (by decide) (by decide) member
  | compute c pos => exact computeText_visible _ c.expr.text_visible _

theorem text_ne_nil (s : Statement) : s.text ≠ [] := by
  cases s with
  | label name pos => simp [text, ascii]
  | address target targetPos pos => cases target <;> simp [text, ascii]
  | compute c pos => simp [text, computeText, Expr.text_ne_nil]

theorem text_spells [Constant.Evaluator] {s : Statement} (printable : s.Printable) :
    ∃ line : Line, Spells s.text line.lexemes [] ∧ line.node = s.node := by
  cases s with
  | label name pos =>
    refine ⟨.label name, ?_, rfl⟩
    exact .trans (IsName.spells printable (wordEnds_cons rfl)) (.mark (b := byte ':') rfl)
  | address target targetPos pos =>
    cases target with
    | label name =>
      refine ⟨.address (.label name), assign_spells (.trans (.mark (b := byte '@') rfl) ?_), rfl⟩
      simpa using IsName.spells printable wordEnds_nil
    | value value =>
      obtain ⟨low, high⟩ := printable
      obtain ⟨n, rfl⟩ := Int.eq_ofNat_of_zero_le low
      -- A value that fits is far below where reading saturates.
      have reads : parseNumber? (Numeral.digits 10 n) = some n := by
        rw [parseNumber?_digits, Nat.min_eq_left]
        simp only [immediateMax, maxNumber] at high ⊢
        omega
      exact ⟨.address (.number _ n reads), decimal_spells n, rfl⟩
  | compute c pos => exact ⟨_, computeText_spells c.registers c.expr c.jump, node_written _ _ _⟩

theorem parseLine_text [Constant.Evaluator] {s : Statement} (printable : s.Printable) (lineNo : Nat) :
    ∃ item, parseLine s.text lineNo = .ok (some item) ∧ s.node = item.statement.node := by
  obtain ⟨line, spells, node⟩ := text_spells printable
  obtain ⟨statement, read, same⟩ := spells.parseLine_eq_ok lineNo
  exact ⟨_, read, (same.trans node).symm⟩

end Statement

/-! ## The text of a program -/

/-- The canonical texts of the items, one on each line; the last line may lack its line feed. -/
def canonicalText (ended : Bool) (items : List Item) : Bytes :=
  stack ended (items.map (·.statement.text))

theorem parse_canonicalText [Constant.Evaluator] {items : List Item}
    (printable : ∀ item ∈ items, item.statement.Printable) (ended : Bool) :
    ∃ again, parse (canonicalText ended items) = .ok again ∧
      List.Forall₂ (fun i i' => i.statement.node = i'.statement.node) items again := by
  have visible : ∀ text ∈ items.map (·.statement.text), Visible text :=
    List.forall_mem_map.mpr fun item member => Statement.text_visible (printable item member)
  have nonempty : ∀ text ∈ items.map (·.statement.text), text ≠ [] :=
    List.forall_mem_map.mpr fun item _ => item.statement.text_ne_nil
  obtain ⟨again, mapped, each⟩ := mapM_parseLine_each
    (fun item member lineNo => Statement.parseLine_text (printable item member) lineNo) 1
  rw [← numberedLines_stack ended visible nonempty] at mapped
  exact ⟨again, by simpa [canonicalText] using parse_eq_ok mapped, each⟩

/-- The canonical text of an accepted source is accepted, with the same words, instruction texts,
addresses and symbols, and is its own canonical text. -/
theorem canonical_text_fixed [Constant.Evaluator] {source : Bytes} {program : Program}
    (assembled : assemble source = .ok program) (ended : Bool) :
    ∃ items again program', parse source = .ok items ∧
      parse (canonicalText ended items) = .ok again ∧
      canonicalText ended again = canonicalText ended items ∧
      again.map (·.statement.node) = items.map (·.statement.node) ∧
      assemble (canonicalText ended items) = .ok program' ∧
      program'.words = program.words ∧
      program'.opcodes.map (fun op => (op.text, op.ip)) = program.opcodes.map (fun op => (op.text, op.ip)) ∧
      program'.symbols = program.symbols := by
  obtain ⟨items, parsed, valid, rfl⟩ := assemble_eq_ok_iff.mp assembled
  obtain ⟨again, reparsed, each⟩ :=
    parse_canonicalText (fun item member => printable_of_valid parsed valid member) ended
  have nodes := map_eq_of_forall₂ each
  have texts : items.map (·.statement.text) = again.map (·.statement.text) :=
    map_eq_of_forall₂ (each.imp fun _ _ same => Statement.text_eq_of_node same)
  have moved : items.map Relocation.forget.item = again.map Relocation.forget.item :=
    map_eq_of_forall₂ (each.imp fun _ _ same => Relocation.forget_item same)
  -- Without their places the two lists are equal, and neither the verdict nor what is compared here
  -- depends on places.
  have valid' : Valid again := by
    rw [← Relocation.forget.valid_item_iff, ← moved, Relocation.forget.valid_item_iff]
    exact valid
  refine ⟨items, again, ⟨directOpcodes (index again) again, index again⟩, parsed, reparsed, ?_,
    nodes.symm, assemble_eq_ok_iff.mpr ⟨again, reparsed, valid', rfl⟩, ?_, ?_, ?_⟩
  · rw [canonicalText, ← texts, canonicalText]
  · exact opcode_fields_eq moved.symm fun _ _ => rfl
  · exact opcode_fields_eq moved.symm fun _ _ => rfl
  · exact index_eq_of_moved moved.symm

/-- A label that reads like a jump. -/
theorem canonical_text_fixed_jump_label :
    ∃ items program program',
      parse (ascii "jmp: // top\nM,D=M+D;JMP\nA:=0x10\nA := @jmp") = .ok items ∧
      assemble (ascii "jmp: // top\nM,D=M+D;JMP\nA:=0x10\nA := @jmp") = .ok program ∧
      assemble (canonicalText true items) = .ok program' ∧ program'.words = program.words ∧
      program'.symbols = [(ascii "jmp", 0)] := by
  have assembled : assemble (ascii "jmp: // top\nM,D=M+D;JMP\nA:=0x10\nA := @jmp") =
      .ok ⟨[⟨2, 0, ascii "*A, D = *A + D; jmp", 0xf09f#16, none⟩,
        ⟨3, 1, ascii "A := 16", 0x0010#16, none⟩, ⟨4, 2, ascii "A := @jmp", 0x0000#16, none⟩],
        [(ascii "jmp", 0)]⟩ := by
    decide +kernel
  obtain ⟨items, -, program', parsed, -, -, -, again, words, -, symbols⟩ :=
    canonical_text_fixed assembled true
  exact ⟨items, _, program', parsed, assembled, again, words, symbols⟩

end HackMachine
