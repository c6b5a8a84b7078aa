import HackMachine.Proofs.Instruction.Canonical
import HackMachine.Proofs.Program.Resolution
import HackMachine.Proofs.Source.Lines
import HackMachine.Proofs.Source.Spelling
import HackMachine.Proofs.Text.Lines

/-! # Assembling what was disassembled

The text of a readable word is a line of the language, and its statement encodes to the word with its
marks set.  The text of any other word has a parenthesis that no lexeme starts with.  So the texts of
words, one on each line, assemble to those words with their marks set, or fail on the first word that
is not readable; and the words of programs are exactly the canonical ones.
-/

namespace HackMachine

open Grammar Bytes

/-! ## Disassembled texts are visible -/

theorem Register.text_visible (r : Register) : Visible r.text := by
  cases r <;> decide

theorem Expr.text_visible (e : Expr) : Visible e.text := by
  cases e with
  | zero | one | negOne => decide
  | reg x => exact x.text_visible
  | not x | neg x => exact .append (by decide) x.text_visible
  | inc x | dec x => exact .append x.text_visible (by decide)
  | binary x op y =>
    have operator : Visible op.text := by cases op <;> decide
    exact .append (.append (.append (.append x.text_visible (by decide)) operator) (by decide))
      y.text_visible

theorem visible_of_isDigit {b : UInt8} (digit : isDigit b = true) : IsVisible b := by
  simp only [isDigit, Bool.and_eq_true, decide_eq_true_eq] at digit
  exact ⟨UInt8.le_trans (by decide) digit.1, UInt8.le_trans digit.2 (by decide)⟩

theorem Numeral.padded_visible {base : Nat} (two : 2 ≤ base) (ten : base ≤ 10) (width n : Nat) :
    Visible (Numeral.padded base width n) :=
  fun _ member => visible_of_isDigit (Numeral.isDigit_of_mem_padded two ten member)

theorem Control.text_visible (c : Control) : Visible c.text :=
  Numeral.padded_visible (by decide) (by decide) 6 _

theorem Operation.text_visible (op : Operation) : Visible op.text := by
  unfold Operation.text
  split
  · next e _ => exact e.text_visible
  · refine .append (.append (.append (by decide) op.control.text_visible) ?_) (by decide)
    split <;> decide

theorem computeText_visible (targets : List Register) {text : Bytes} (visible : Visible text)
    (jump : Jump) : Visible (computeText (targets.map Register.text) text jump.text?) := by
  have named : ∀ name ∈ targets.map Register.text, Visible name :=
    List.forall_mem_map.mpr fun r _ => r.text_visible
  unfold computeText
  refine .append (.append ?_ visible) ?_
  · split
    · exact nofun
    · exact .append (.join (by decide) named) (by decide)
  · cases jump <;> decide

theorem disassemble_visible (w : Word) : Visible (disassemble w) := by
  unfold disassemble
  split
  · exact computeText_visible _ (Operation.text_visible _) _
  · rw [Numeral.decimal_natCast]
    refine .append (by decide) fun b member => ?_
    exact visible_of_isDigit (Numeral.isDigit_of_mem_digits (by decide) (by decide) member)

theorem Expr.text_ne_nil (e : Expr) : e.text ≠ [] := by
  cases e with
  | zero | one | negOne => decide
  | reg x => cases x <;> decide
  | _ => simp [Expr.text, ascii]

theorem Operation.text_ne_nil (op : Operation) : op.text ≠ [] := by
  unfold Operation.text
  split
  · next e _ => exact e.text_ne_nil
  · simp [ascii]

theorem disassemble_ne_nil (w : Word) : disassemble w ≠ [] := by
  unfold disassemble
  split
  · simp [computeText, Operation.text_ne_nil]
  · simp [ascii]

/-! ## The line of a word -/

/-- The item loads or computes without labels, and its word is `w`. -/
structure Item.Yields (item : Item) (w : Word) : Prop where
  plain : item.declared? = none ∧ item.referenced? = none
  fits : item.Fits
  word : ∀ symbols, directWord symbols item.statement = w

theorem Item.yields_address {item : Item} {value : Int}
    (node : item.statement.node = .address (.value value)) (range : 0 ≤ value ∧ value ≤ immediateMax) :
    item.Yields (lowWord value) := by
  obtain ⟨lineNo, line, statement⟩ := item
  obtain ⟨targetPos, pos, rfl⟩ := Statement.eq_address node
  exact ⟨⟨rfl, rfl⟩, range, fun _ => rfl⟩

theorem Item.yields_compute {item : Item} {registers : List Register} {e : Expr} {jump : Jump}
    (node : item.statement.node = .compute registers e jump) (distinct : registers.Nodup)
    (operands : e.OperandsFit) : item.Yields (encodeCompute registers e jump) := by
  obtain ⟨lineNo, line, statement⟩ := item
  obtain ⟨c, pos, rfl, rfl, rfl, rfl⟩ := Statement.eq_compute node
  exact ⟨⟨rfl, rfl⟩, ⟨distinct, operands⟩, fun _ => rfl⟩

/-- The expressions that the machine takes are those of the catalog, in either order. -/
theorem Expr.normalize_mem_catalog_iff {e : Expr} : e.normalize ∈ Expr.catalog ↔ e.OperandsFit := by
  cases e with
  | zero | one | negOne => simp [OperandsFit]; decide
  | reg x | not x | neg x | inc x | dec x => cases x <;> simp [OperandsFit] <;> decide
  | binary x op y =>
    cases x <;> cases op <;> cases y <;> simp [OperandsFit] <;> decide

theorem Word.targets_nodup (w : Word) : (Word.targets w).Nodup := by
  unfold Word.targets
  cases Word.writesA w <;> cases Word.writesD w <;> cases Word.writesM w <;> decide

theorem parseNumber?_digits (n : Nat) : parseNumber? (Numeral.digits 10 n) = some (min n maxNumber) := by
  have form : NumberForm (Numeral.digits 10 n) (Numeral.valueOf 10 (Numeral.digits 10 n)) := by
    refine .decimal (Numeral.digits_ne_nil 10 n) fun b member => ?_
    exact Numeral.isDigit_of_mem_digits (by decide) (by decide) member
  rw [form.parseNumber?_eq, Numeral.valueOf_digits (by decide) (by decide)]

/-- The line of a readable word is read as a statement that encodes to it. -/
theorem parseLine_disassemble [Constant.Evaluator] {w : Word} (readable : Word.Readable w)
    (lineNo : Nat) :
    ∃ item, parseLine (disassemble w) lineNo = .ok (some item) ∧ item.Yields (Word.marked w) := by
  cases compute : w.getLsbD 15 with
  | false =>
    -- A word below bit 15 is far below where reading saturates.
    have small : w.toNat < 0x8000 := by
      rw [← Word.isCompute, isCompute_eq_msb, BitVec.msb_eq_false_iff_two_mul_lt] at compute
      omega
    have same : min w.toNat maxNumber = w.toNat := by simp only [maxNumber]; omega
    have reads : parseNumber? (Numeral.digits 10 w.toNat) = some w.toNat := by
      rw [parseNumber?_digits, same]
    have text : disassemble w = ascii "A := " ++ Numeral.decimal w.toNat := by
      rw [disassemble, Word.isCompute, compute, if_neg Bool.false_ne_true]
    have spells : Spells (disassemble w) (Line.address (.number _ _ reads)).lexemes [] := by
      rw [text]
      exact decimal_spells w.toNat
    obtain ⟨statement, read, node⟩ := spells.parseLine_eq_ok lineNo
    have word : Word.marked w = lowWord w.toNat := by
      rw [Word.marked, compute, if_neg Bool.false_ne_true, lowWord, BitVec.ofInt_natCast,
        BitVec.ofNat_toNat, BitVec.setWidth_eq]
    refine ⟨_, read, ?_⟩
    rw [word]
    exact Item.yields_address node (by simp only [immediateMax]; omega)
  | true =>
    cases found : Expr.ofOperation? (Word.operation w) with
    | none => exact absurd (readable compute) (Expr.ofOperation?_eq_none_iff.mp found)
    | some e =>
      obtain ⟨listed, operation⟩ := Expr.ofOperation?_eq_some found
      have text : disassemble w = computeText ((Word.targets w).map Register.text) e.text
          (Word.jump w).text? := by
        rw [disassemble, Word.isCompute, compute, if_pos rfl, Operation.text, found]
      have spells := computeText_spells (Word.targets w) e (Word.jump w)
      rw [← text] at spells
      obtain ⟨statement, read, node⟩ := spells.parseLine_eq_ok lineNo
      refine ⟨_, read, ?_⟩
      rw [node_written] at node
      rw [← encodeCompute_fields compute listed operation]
      refine Item.yields_compute node (Word.targets_nodup w) ?_
      rwa [← Expr.normalize_mem_catalog_iff, Expr.normalize_of_mem_catalog listed]

/-- The line of any other word fails at the parenthesis behind `alu`. -/
theorem parseLine_unreadable [Constant.Evaluator] {w : Word} (unreadable : ¬ Word.Readable w)
    (lineNo : Nat) :
    ∃ pos, parseLine (disassemble w) lineNo = .error ⟨pos, disassemble w, .invalidCharacter⟩ ∧
      pos.line = lineNo := by
  obtain ⟨compute, unlisted⟩ := Classical.not_imp.mp unreadable
  have absent : Expr.ofOperation? (Word.operation w) = none := Expr.ofOperation?_eq_none_iff.mpr unlisted
  -- The targets are spelled, then the name `alu`; what stands behind it does not matter.
  obtain ⟨rest, text⟩ : ∃ rest, disassemble w =
      (if (Word.targets w).isEmpty then [] else
        join (ascii ", ") ((Word.targets w).map Register.text) ++ ascii " = ") ++
        (ascii "alu" ++ byte '(' :: rest) := by
    rw [disassemble, Word.isCompute, compute, if_pos rfl, computeText.eq_def, List.isEmpty_map,
      Operation.text, absent, List.append_assoc]
    exact ⟨_, congrArg _ (by simp only [List.append_assoc]; rfl)⟩
  have spells : Spells (disassemble w) (targetLexemes ((Word.targets w).map Register.written) ++
      [.name (ascii "alu")]) (byte '(' :: rest) := by
    rw [text]
    refine (targets_spell _ _).trans ?_
    exact .name (b := byte 'a') (ascii "lu") rfl (List.all_eq_true.mp rfl) (wordEnds_cons rfl)
  exact spells.parseLine_eq_error rfl lineNo

/-! ## The lines of a list of words -/

/-- The texts of words, one on each line; the last line may lack its line feed. -/
inductive Lists : Bytes → List Word → Prop
  | ended (ws) : Lists (unlines (ws.map disassemble)) ws
  | unended (ws) : Lists (join [newline] (ws.map disassemble)) ws

theorem Lists.numberedLines_eq {text : Bytes} {ws : List Word} (lists : Lists text ws) :
    numberedLines text = (ws.map disassemble).zipIdx 1 := by
  have visible : ∀ line ∈ ws.map disassemble, Visible line :=
    List.forall_mem_map.mpr fun w _ => disassemble_visible w
  have nonempty : ∀ line ∈ ws.map disassemble, line ≠ [] :=
    List.forall_mem_map.mpr fun w _ => disassemble_ne_nil w
  cases lists with
  | ended => exact numberedLines_stack true visible nonempty
  | unended => exact numberedLines_stack false visible nonempty

theorem mapM_parseLine_disassemble [Constant.Evaluator] {ws : List Word}
    (readable : ∀ w ∈ ws, Word.Readable w) (lineNo : Nat) :
    ∃ items : List Item,
      ((ws.map disassemble).zipIdx lineNo).mapM (fun numbered => parseLine numbered.1 numbered.2) =
        .ok (items.map some) ∧ List.Forall₂ (fun w item => item.Yields (Word.marked w)) ws items :=
  mapM_parseLine_each (fun w member lineNo => parseLine_disassemble (readable w member) lineNo) lineNo

theorem Lists.assemble_eq_ok [Constant.Evaluator] {text : Bytes} {ws : List Word} (lists : Lists text ws)
    (readable : ∀ w ∈ ws, Word.Readable w) :
    ∃ program, assemble text = .ok program ∧ program.words = ws.map Word.marked := by
  obtain ⟨items, mapped, each⟩ := mapM_parseLine_disassemble readable 1
  rw [← lists.numberedLines_eq] at mapped
  have parsed : parse text = .ok items := by simpa using parse_eq_ok mapped
  have plain : ∀ item ∈ items, item.declared? = none ∧ item.referenced? = none := by
    intro item member
    obtain ⟨w, -, yields⟩ := exists_of_forall₂ each member
    exact yields.plain
  have valid : Valid items := by
    rw [valid_iff_fits plain]
    intro item member
    obtain ⟨w, -, yields⟩ := exists_of_forall₂ each member
    exact yields.fits
  have slots : instructions items = items :=
    List.filter_eq_self.mpr fun item member => Item.slot_iff_undeclared.mpr (plain item member).1
  refine ⟨_, assemble_eq_ok_iff.mpr ⟨items, parsed, valid, rfl⟩, ?_⟩
  rw [words_direct, slots]
  exact (map_eq_of_forall₂ (each.imp fun w item yields => (yields.word _).symm)).symm

theorem Lists.assemble_eq_error [Constant.Evaluator] {text : Bytes} {before after : List Word} {w : Word}
    (lists : Lists text (before ++ w :: after)) (readable : ∀ v ∈ before, Word.Readable v)
    (unreadable : ¬ Word.Readable w) :
    ∃ pos, assemble text = .error (.parse ⟨pos, disassemble w, .invalidCharacter⟩) ∧
      pos.line = before.length + 1 := by
  obtain ⟨pos, failed, line⟩ := parseLine_unreadable unreadable (before.length + 1)
  obtain ⟨items, mapped, -⟩ := mapM_parseLine_disassemble readable 1
  have numbered : numberedLines text = (before.map disassemble).zipIdx 1 ++
      (disassemble w, before.length + 1) :: (after.map disassemble).zipIdx (before.length + 2) := by
    rw [lists.numberedLines_eq, List.map_append, List.zipIdx_append, List.map_cons, List.zipIdx_cons,
      List.length_map, Nat.add_comm 1]
  have refused : parse text = .error ⟨pos, disassemble w, .invalidCharacter⟩ := by
    refine parse_eq_error (mapM_eq_error_iff.mpr ⟨_, _, _, numbered, ?_, failed⟩)
    intro earlier member
    obtain ⟨result, -, read⟩ := forall_of_mapM_eq_ok mapped member
    exact ⟨result, read⟩
  refine ⟨pos, ?_, line⟩
  rw [assemble, refused]

/-! ## The words of programs -/

theorem canonical_of_assemble [Constant.Evaluator] {source : Bytes} {program : Program}
    (assembled : assemble source = .ok program) {w : Word} (member : w ∈ program.words) :
    Word.Canonical w := by
  obtain ⟨items, -, valid, rfl⟩ := assemble_eq_ok_iff.mp assembled
  rw [words_direct] at member
  obtain ⟨item, slot, rfl⟩ := List.mem_map.mp member
  have listed : item ∈ items := List.mem_of_mem_filter slot
  obtain ⟨fits, resolved⟩ := valid.encodes listed
  -- A loaded value or address is below bit 15.
  have loads : ∀ {value : Int}, 0 ≤ value → value ≤ immediateMax → Word.Canonical (lowWord value) := by
    intro value low high
    refine .inl ?_
    rw [← Word.isCompute, isCompute_eq_msb]
    exact msb_lowWord low high
  obtain ⟨lineNo, line, statement⟩ := item
  cases statement with
  | label name pos => cases (List.mem_filter.mp slot).2
  | address target targetPos pos =>
    cases target with
    | value value => exact loads fits.1 fits.2
    | label name =>
      obtain ⟨address, found, low, high⟩ := resolved name rfl
      simp only [directWord, found, Option.getD_some]
      exact loads low high
  | compute c pos => exact canonical_encodeCompute (Expr.normalize_mem_catalog_iff.mpr fits.2) _ _

theorem map_marked_eq_self_iff {ws : List Word} (readable : ∀ w ∈ ws, Word.Readable w) :
    ws.map Word.marked = ws ↔ ∀ w ∈ ws, Word.Canonical w := by
  calc ws.map Word.marked = ws ↔ ws.map Word.marked = ws.map id := by rw [List.map_id]
    _ ↔ ∀ w ∈ ws, Word.marked w = w := List.map_inj_left
    _ ↔ ∀ w ∈ ws, Word.Canonical w :=
      forall₂_congr fun w member => Word.marked_eq_self_iff (readable w member)

theorem exists_first_unreadable {ws : List Word} (unreadable : ¬ ∀ w ∈ ws, Word.Readable w) :
    ∃ before w after, ws = before ++ w :: after ∧ (∀ v ∈ before, Word.Readable v) ∧
      ¬ Word.Readable w := by
  cases found : ws.find? (fun w => !decide (Word.Readable w)) with
  | none =>
    have all := List.find?_eq_none.mp found
    exact absurd (fun w member => by simpa using all w member) unreadable
  | some w =>
    obtain ⟨fails, before, after, same, passes⟩ := List.find?_eq_some_iff_append.mp found
    exact ⟨before, w, after, same, fun v member => by simpa using passes v member, by simpa using fails⟩

/-- Assembly undoes disassembly.  The texts of readable words, one on each line, assemble to these
words with their marks set, and so to themselves exactly when all are canonical; the texts of other
words fail on the line of the first that is not readable.  The words of programs are exactly the
canonical ones. -/
theorem disassembly_reassembles [Constant.Evaluator] :
    (∀ ws text, Lists text ws → (∀ w ∈ ws, Word.Readable w) →
      ∃ program, assemble text = .ok program ∧ program.words = ws.map Word.marked ∧
        (program.words = ws ↔ ∀ w ∈ ws, Word.Canonical w)) ∧
    (∀ ws text, Lists text ws → (¬ ∀ w ∈ ws, Word.Readable w) →
      ∃ before w after, ws = before ++ w :: after ∧ (∀ v ∈ before, Word.Readable v) ∧
        ¬ Word.Readable w ∧
        ∃ pos, assemble text = .error (.parse ⟨pos, disassemble w, .invalidCharacter⟩) ∧
          pos.line = before.length + 1) ∧
    ∀ ws, (∃ source program, assemble source = .ok program ∧ program.words = ws) ↔
      ∀ w ∈ ws, Word.Canonical w := by
  refine ⟨?_, ?_, ?_⟩
  · intro ws text lists readable
    obtain ⟨program, assembled, words⟩ := lists.assemble_eq_ok readable
    exact ⟨program, assembled, words, words ▸ map_marked_eq_self_iff readable⟩
  · intro ws text lists unreadable
    obtain ⟨before, w, after, rfl, readable, unreadable⟩ := exists_first_unreadable unreadable
    exact ⟨before, w, after, rfl, readable, unreadable, lists.assemble_eq_error readable unreadable⟩
  · intro ws
    constructor
    · rintro ⟨source, program, assembled, rfl⟩ w member
      exact canonical_of_assemble assembled member
    · intro canonical
      have readable : ∀ w ∈ ws, Word.Readable w := fun w member => (canonical w member).readable
      obtain ⟨program, assembled, words⟩ := Lists.assemble_eq_ok (.ended ws) readable
      exact ⟨_, program, assembled, words.trans ((map_marked_eq_self_iff readable).mpr canonical)⟩

/-- A compute word without its marks comes back with them, and a conjunction whose result is
complemented has no source form. -/
theorem disassembly_reassembles_unmarked :
    (∃ program, assemble (ascii "A := 7\nD = 0; jmp\n") = .ok program ∧
      program.words = [0x0007#16, 0xea97#16]) ∧
    ∃ pos, assemble (ascii "A := 7\nalu(000001, *A)") =
        .error (.parse ⟨pos, ascii "alu(000001, *A)", .invalidCharacter⟩) ∧ pos.line = 2 := by
  obtain ⟨readable, unreadable, -⟩ := disassembly_reassembles
  constructor
  · have text : unlines ([0x0007#16, 0x8a97#16].map disassemble) = ascii "A := 7\nD = 0; jmp\n" := by
      decide +kernel
    have listed : ∀ w ∈ [0x0007#16, 0x8a97#16], Word.Readable w := by
      rw [List.forall_mem_cons, List.forall_mem_singleton]
      decide
    rw [← text]
    obtain ⟨program, assembled, words, -⟩ := readable _ _ (.ended _) listed
    exact ⟨program, assembled, words.trans (by decide)⟩
  · have text : join [newline] ([0x0007#16, 0xf040#16].map disassemble) =
        ascii "A := 7\nalu(000001, *A)" := by decide +kernel
    have shown : disassemble 0xf040#16 = ascii "alu(000001, *A)" := by decide +kernel
    have outside : ¬ ∀ w ∈ [0x0007#16, 0xf040#16], Word.Readable w := by
      rw [List.forall_mem_cons, List.forall_mem_singleton]
      decide
    rw [← text, ← shown]
    obtain ⟨before, w, after, same, -, unlisted, pos, failed, line⟩ :=
      unreadable _ _ (.unended _) outside
    -- The first word is readable, so the failure is at the second.
    cases before with
    | nil =>
      cases same
      exact absurd (by decide) unlisted
    | cons v before =>
      cases before with
      | nil =>
        cases same
        exact ⟨pos, failed, line⟩
      | cons _ _ => simp at same

end HackMachine
