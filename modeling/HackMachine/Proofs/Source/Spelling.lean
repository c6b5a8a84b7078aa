import HackMachine.Proofs.Source.LineParsing
import HackMachine.Proofs.Source.Numbers
import HackMachine.Proofs.Text.Lines

/-! # Texts and the lexemes they spell

`Spells text lexemes rest` says that a text starts with the given lexemes, with blanks between them,
and goes on with `rest`.  The lexer follows it: it finds these lexemes and then stands at `rest`.
Each canonical text spells the lexemes of one derivation.
-/

namespace HackMachine

open Grammar

inductive Spells : Bytes → List Lexeme → Bytes → Prop
  | done {text} : Spells text [] text
  | blank {b text lexemes rest} : Bytes.isBlank b = true → Spells text lexemes rest →
      Spells (b :: text) lexemes rest
  | lexeme {b} (more) {text lexeme lexemes rest} :
      scan b (more ++ text) = .lexeme lexeme more.length → Spells text lexemes rest →
      Spells (b :: (more ++ text)) (lexeme :: lexemes) rest

theorem Spells.trans {text middle rest : Bytes} {lexemes more : List Lexeme}
    (first : Spells text lexemes middle) (second : Spells middle more rest) :
    Spells text (lexemes ++ more) rest := by
  induction first with
  | done => exact second
  | blank isBlank _ ih => exact .blank isBlank (ih second)
  | lexeme more scanned _ ih => exact .lexeme more scanned (ih second)

/-! ## The lexer follows -/

theorem Spells.lexFrom_eq {text rest : Bytes} {lexemes : List Lexeme}
    (spells : Spells text lexemes rest) (line column : Nat) (found : List Token) :
    ∃ tokens column', lexemesOf tokens = lexemes ∧
      lexFrom line column found text = lexFrom line column' (tokens.reverse ++ found) rest := by
  -- The lexer carries its column and the tokens found, so the induction is over any of these.
  induction spells generalizing column found with
  | done => exact ⟨[], column, rfl, rfl⟩
  | @blank b text lexemes rest isBlank _ ih =>
    obtain ⟨tokens, column', derived, same⟩ := ih (column + 1) found
    refine ⟨tokens, column', derived, ?_⟩
    have scanned : scan b text = .blank := by rw [scan, if_pos isBlank]
    rw [lexFrom, scanned]
    exact same
  | @lexeme b more text lexeme lexemes rest scanned _ ih =>
    obtain ⟨tokens, column', derived, same⟩ := ih (column + 1 + more.length)
      (⟨lexeme, ⟨line, column, (column + 1 + more.length : Nat)⟩⟩ :: found)
    refine ⟨⟨lexeme, ⟨line, column, (column + 1 + more.length : Nat)⟩⟩ :: tokens, column',
      congrArg (lexeme :: ·) derived, ?_⟩
    rw [lexFrom, scanned]
    dsimp only
    rw [List.drop_left, same]
    simp

/-- A text that spells a derivation holds the statement of it. -/
theorem Spells.parseLine_eq_ok [Constant.Evaluator] {text : Bytes} {line : Line}
    (spells : Spells text line.lexemes []) (lineNo : Nat) :
    ∃ statement, parseLine text lineNo = .ok (some ⟨lineNo, text, statement⟩) ∧
      statement.node = line.node := by
  obtain ⟨tokens, column, derived, same⟩ := spells.lexFrom_eq lineNo 1 []
  have lexed : lexLine lineNo text = .ok tokens := by
    rw [lexLine, same, lexFrom, List.append_nil, List.reverse_reverse]
  obtain ⟨statement, read, node⟩ := parseTokens_complete derived.symm
  refine ⟨statement, ?_, node⟩
  rw [parseLine_eq lexed, read]
  rfl

/-- A text is refused where it goes on with something that is no lexeme. -/
theorem Spells.parseLine_eq_error [Constant.Evaluator] {text rest : Bytes} {lexemes : List Lexeme}
    {b : UInt8} {cause : Cause} {more : Nat} (spells : Spells text lexemes (b :: rest))
    (fault : scan b rest = .fault cause more) (lineNo : Nat) :
    ∃ pos, parseLine text lineNo = .error ⟨pos, text, cause⟩ ∧ pos.line = lineNo := by
  obtain ⟨tokens, column, -, same⟩ := spells.lexFrom_eq lineNo 1 []
  refine ⟨⟨lineNo, column, (column + 1 + more : Nat)⟩, ?_, rfl⟩
  have lexed : lexLine lineNo text = .error (⟨lineNo, column, (column + 1 + more : Nat)⟩, cause) := by
    rw [lexLine, same, lexFrom, fault]
  rw [parseLine, lexed]
  rfl

/-! ## Words and marks -/

/-- A word ends here: the text is over or goes on with a byte that is no part of a word. -/
def WordEnds (rest : Bytes) : Prop := ∀ b, rest.head? = some b → Bytes.isWord b = false

theorem wordEnds_nil : WordEnds [] := nofun

theorem wordEnds_cons {b : UInt8} {rest : Bytes} (other : Bytes.isWord b = false) :
    WordEnds (b :: rest) := by
  rintro _ ⟨⟩
  exact other

theorem takeWhile_isWord {more rest : Bytes} (word : ∀ b ∈ more, Bytes.isWord b = true)
    (ends : WordEnds rest) : (more ++ rest).takeWhile Bytes.isWord = more := by
  rw [List.takeWhile_append_of_pos word]
  cases rest with
  | nil => simp
  | cons b rest => simp [ends b rfl]

theorem Bytes.isBlank_eq_false {b : UInt8} (word : Bytes.isWord b = true) : Bytes.isBlank b = false := by
  rw [← Bool.not_eq_true]
  intro blank
  simp only [Bytes.isBlank, Bool.or_eq_true, beq_iff_eq] at blank
  rcases blank with (rfl | rfl) | rfl <;> exact absurd word (by decide)

theorem Bytes.not_slash {b : UInt8} (word : Bytes.isWord b = true) : (b == byte '/') = false := by
  rw [beq_eq_false_iff_ne]
  rintro rfl
  exact absurd word (by decide)

theorem Bytes.isLetter_eq_false {b : UInt8} (digit : Bytes.isDigit b = true) :
    Bytes.isLetter b = false := by
  simp only [Bytes.isDigit, Bool.and_eq_true, decide_eq_true_eq, UInt8.le_iff_toNat_le] at digit
  simp only [Bytes.isLetter, Bool.or_eq_false_iff, beq_eq_false_iff_ne, ne_eq, ← UInt8.toNat_inj,
    Bool.and_eq_false_iff, decide_eq_false_iff_not, UInt8.le_iff_toNat_le]
  have nine : (byte '9').toNat = 57 := rfl
  have underscore : (byte '_').toNat = 95 := rfl
  have upper : (byte 'A').toNat = 65 := rfl
  have lower : (byte 'a').toNat = 97 := rfl
  omega

theorem scan_name {b : UInt8} {more rest : Bytes} (letter : Bytes.isLetter b = true)
    (word : ∀ c ∈ more, Bytes.isWord c = true) (ends : WordEnds rest) :
    scan b (more ++ rest) = .lexeme (.name (b :: more)) more.length := by
  have first : Bytes.isWord b = true := by simp [Bytes.isWord, letter]
  simp [scan, Bytes.isBlank_eq_false first, Bytes.not_slash first, letter, takeWhile_isWord word ends]

theorem scan_number {b : UInt8} {more rest : Bytes} (digit : Bytes.isDigit b = true)
    (word : ∀ c ∈ more, Bytes.isWord c = true) (ends : WordEnds rest) :
    scan b (more ++ rest) = .lexeme (.number (b :: more)) more.length := by
  have first : Bytes.isWord b = true := by simp [Bytes.isWord, digit]
  simp [scan, Bytes.isBlank_eq_false first, Bytes.not_slash first, Bytes.isLetter_eq_false digit, digit,
    takeWhile_isWord word ends]

theorem Spells.name {b : UInt8} (more : Bytes) {rest : Bytes} (letter : Bytes.isLetter b = true)
    (word : ∀ c ∈ more, Bytes.isWord c = true) (ends : WordEnds rest) :
    Spells (b :: (more ++ rest)) [.name (b :: more)] rest :=
  .lexeme more (scan_name letter word ends) .done

theorem Spells.number {b : UInt8} (more : Bytes) {rest : Bytes} (digit : Bytes.isDigit b = true)
    (word : ∀ c ∈ more, Bytes.isWord c = true) (ends : WordEnds rest) :
    Spells (b :: (more ++ rest)) [.number (b :: more)] rest :=
  .lexeme more (scan_number digit word ends) .done

theorem Spells.mark {b : UInt8} {rest : Bytes} {mark : Mark}
    (scanned : scan b rest = .lexeme (.mark mark) 0) : Spells (b :: rest) [.mark mark] rest :=
  .lexeme [] scanned .done

/-! ## Canonical texts -/

namespace Register

/-- The canonical spelling as a derivation. -/
def written : Register → Reg
  | .a => .a
  | .d => .d
  | .m => .star

theorem register_written (r : Register) : r.written.register = r := by
  cases r <;> rfl

theorem text_spells (r : Register) {rest : Bytes} (ends : WordEnds rest) :
    Spells (r.text ++ rest) r.written.lexemes rest := by
  cases r with
  | a => exact .name [] rfl nofun ends
  | d => exact .name [] rfl nofun ends
  | m => exact .trans (.mark (b := byte '*') rfl) (.name [] rfl nofun ends)

end Register

namespace Expr

def written : Expr → Alu
  | .zero => .zero
  | .one => .one
  | .negOne => .negOne
  | .reg x => .reg x.written
  | .not x => .not x.written
  | .neg x => .neg x.written
  | .inc x => .inc x.written
  | .dec x => .dec x.written
  | .binary x op y => .binary x.written op y.written

theorem expr_written (e : Expr) : e.written.expr = e := by
  cases e <;> simp [written, Alu.expr, Register.register_written]

end Expr

theorem Operator.text_spells (op : Operator) (rest : Bytes) :
    Spells (op.text ++ rest) [.mark (operatorMark op)] rest := by
  cases op with
  | add => exact .mark (b := byte '+') rfl
  | sub => exact .mark (b := byte '-') rfl
  | and => exact .mark (b := byte '&') rfl
  | or => exact .mark (b := byte '|') rfl

theorem one_spells {rest : Bytes} (ends : WordEnds rest) :
    Spells (ascii "1" ++ rest) [.number (ascii "1")] rest := .number [] rfl nofun ends

theorem Expr.text_spells (e : Expr) {rest : Bytes} (ends : WordEnds rest) :
    Spells (e.text ++ rest) e.written.lexemes rest := by
  cases e with
  | zero => exact .number [] rfl nofun ends
  | one => exact one_spells ends
  | negOne => exact .trans (.mark (b := byte '-') rfl) (one_spells ends)
  | reg x => exact x.text_spells ends
  | not x => exact .trans (.mark (b := byte '!') rfl) (x.text_spells ends)
  | neg x => exact .trans (.mark (b := byte '-') rfl) (x.text_spells ends)
  | inc x =>
    rw [text, List.append_assoc]
    refine (x.text_spells (wordEnds_cons rfl)).trans ?_
    exact .blank rfl (.trans (.mark (b := byte '+') rfl) (.blank rfl (one_spells ends)))
  | dec x =>
    rw [text, List.append_assoc]
    refine (x.text_spells (wordEnds_cons rfl)).trans ?_
    exact .blank rfl (.trans (.mark (b := byte '-') rfl) (.blank rfl (one_spells ends)))
  | binary x op y =>
    simp only [text, List.append_assoc]
    refine (x.text_spells (wordEnds_cons rfl)).trans (.blank rfl ?_)
    exact (op.text_spells _).trans (.blank rfl (y.text_spells ends))

/-- A list of registers, without the `=` behind it. -/
theorem join_text_spells (first : Register) (more : List Register) {rest : Bytes}
    (ends : WordEnds rest) :
    Spells (Bytes.join (ascii ", ") ((first :: more).map Register.text) ++ rest)
      (first.written.lexemes ++ (more.map Register.written).flatMap (fun r => .mark .comma :: r.lexemes))
      rest := by
  induction more generalizing first with
  | nil =>
    rw [List.map_singleton, Bytes.join_singleton, List.map_nil, List.flatMap_nil]
    exact .trans (first.text_spells ends) .done
  | cons second more ih =>
    rw [List.map_cons, List.map_cons, Bytes.join_cons_cons, ← List.map_cons, List.append_assoc,
      List.append_assoc, List.map_cons (f := Register.written), List.flatMap_cons, List.cons_append]
    refine (first.text_spells (wordEnds_cons rfl)).trans ?_
    exact .trans (.mark (b := byte ',') rfl) (.blank rfl (ih second))

theorem targets_spell (targets : List Register) (rest : Bytes) :
    Spells ((if targets.isEmpty then [] else
        Bytes.join (ascii ", ") (targets.map Register.text) ++ ascii " = ") ++ rest)
      (targetLexemes (targets.map Register.written)) rest := by
  cases targets with
  | nil => exact .done
  | cons first more =>
    rw [List.isEmpty_cons, if_neg Bool.false_ne_true, List.append_assoc,
      List.map_cons (f := Register.written), targetLexemes]
    refine (join_text_spells first more (wordEnds_cons rfl)).trans ?_
    exact .blank rfl (.trans (.mark (b := byte '=') rfl) (.blank rfl .done))

namespace Jump

theorem mem_named {jump : Jump} (taken : jump ≠ .never) : jump ∈ named := by
  cases jump <;> simp [named] at taken ⊢

theorem toLower_text (jump : Jump) : jump.text.map Bytes.toLower = jump.text := by
  cases jump <;> decide

/-- A jump as the word of its canonical spelling. -/
def written (jump : Jump) : Option JumpWord :=
  if taken : jump = .never then none else some ⟨jump.text, jump, mem_named taken, jump.toLower_text⟩

theorem jump_written (jump : Jump) : (jump.written.map (·.jump)).getD .never = jump := by
  cases jump <;> rfl

end Jump

/-- The jump with the `; ` before it. -/
theorem jump_spells (jump : Jump) :
    Spells (match jump.text? with
      | some word => ascii "; " ++ word
      | none => []) (jumpLexemes jump.written) [] := by
  -- Every jump word starts with the same letter, so one spelling serves them all.
  have word : ∀ more : Bytes, (∀ c ∈ more, Bytes.isWord c = true) →
      Spells (byte ';' :: byte ' ' :: byte 'j' :: more) [.mark .semicolon, .name (byte 'j' :: more)] [] := by
    intro more word
    refine .trans (.mark rfl) (.blank rfl ?_)
    simpa using Spells.name (b := byte 'j') more rfl word wordEnds_nil
  cases jump with
  | never => exact .done
  | _ => exact word _ (List.all_eq_true.mp rfl)

theorem computeText_spells [Constant.Evaluator] (targets : List Register) (e : Expr) (jump : Jump) :
    Spells (computeText (targets.map Register.text) e.text jump.text?)
      (Line.compute (targets.map Register.written) e.written jump.written).lexemes [] := by
  rw [computeText.eq_def, List.isEmpty_map, List.append_assoc]
  refine (targets_spell targets _).trans ((e.text_spells ?_).trans (jump_spells jump))
  cases jump with
  | never => exact wordEnds_nil
  | _ => exact wordEnds_cons rfl

theorem node_written [Constant.Evaluator] (targets : List Register) (e : Expr) (jump : Jump) :
    (Line.compute (targets.map Register.written) e.written jump.written).node =
      .compute targets e jump := by
  simp [Line.node, Function.comp_def, Register.register_written, Expr.expr_written, Jump.jump_written]

/-- `A :=` and an operand. -/
theorem assign_spells {operand : Bytes} {lexemes : List Lexeme} (spells : Spells operand lexemes []) :
    Spells (ascii "A := " ++ operand) (.name (ascii "A") :: .mark .assign :: lexemes) [] := by
  refine .trans (.name [] rfl nofun (wordEnds_cons rfl)) (.blank rfl ?_)
  exact .trans (.lexeme [byte '='] rfl .done) (.blank rfl spells)

theorem digits_spell (n : Nat) :
    Spells (Numeral.digits 10 n) [.number (Numeral.digits 10 n)] [] := by
  have digit : ∀ b ∈ Numeral.digits 10 n, Bytes.isDigit b = true := by
    intro b member
    exact Numeral.isDigit_of_mem_digits (by decide) (by decide) member
  cases digits : Numeral.digits 10 n with
  | nil => exact absurd digits (Numeral.digits_ne_nil 10 n)
  | cons b more =>
    rw [digits, List.forall_mem_cons] at digit
    have word : ∀ c ∈ more, Bytes.isWord c = true := by
      intro c member
      simp [Bytes.isWord, digit.2 c member]
    simpa using Spells.number more digit.1 word wordEnds_nil

/-- `A :=` and a numeral. -/
theorem decimal_spells (n : Nat) :
    Spells (ascii "A := " ++ Numeral.decimal n)
      [.name (ascii "A"), .mark .assign, .number (Numeral.digits 10 n)] [] := by
  rw [Numeral.decimal_natCast]
  exact assign_spells (digits_spell n)

end HackMachine
