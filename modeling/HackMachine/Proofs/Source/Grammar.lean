import Mathlib.Data.List.Basic
import HackMachine.Source.Parsing

/-! # The grammar of a line

Derivations of the line grammar, as trees that carry what their leaves must satisfy:

* `line  = IDENT ':' | 'A' ':=' value | [reg {',' reg} '='] alu [';' jump]`
* `value = NUMBER | '-' NUMBER | '@' IDENT | EXPR`
* `reg   = 'A' | 'D' | 'M' | '*' 'A'`
* `alu   = '0' | '1' | '-' '1' | '!' reg | '-' reg | reg | reg ('+'|'-') '1' | reg op reg`

Each tree has the `lexemes` it derives, and a line has the `node` it stands for.  The grammar is
unambiguous: `Line.lexemes_injective`.
-/

namespace HackMachine

/-- A statement without its places. -/
inductive Node where
  | label (name : Bytes)
  | address (target : Target)
  | compute (registers : List Register) (expr : Expr) (jump : Jump)
  deriving DecidableEq, Repr

def Statement.node : Statement → Node
  | .label name _ => .label name
  | .address target _ _ => .address target
  | .compute c _ => .compute c.registers c.expr c.jump

theorem Statement.eq_address {statement : Statement} {target : Target}
    (node : statement.node = .address target) :
    ∃ targetPos pos, statement = .address target targetPos pos := by
  cases statement with
  | label | compute => cases node
  | address target targetPos pos =>
    cases node
    exact ⟨targetPos, pos, rfl⟩

theorem Statement.eq_compute {statement : Statement} {registers : List Register} {e : Expr} {jump : Jump}
    (node : statement.node = .compute registers e jump) :
    ∃ c pos, statement = .compute c pos ∧ c.registers = registers ∧ c.expr = e ∧ c.jump = jump := by
  cases statement with
  | label | address => cases node
  | compute c pos =>
    cases node
    exact ⟨c, pos, rfl, rfl, rfl, rfl⟩

/-- The jumps that have a spelling have different ones. -/
theorem Jump.eq_of_text {jump other : Jump} (named : jump ∈ Jump.named) (named' : other ∈ Jump.named)
    (same : jump.text = other.text) : jump = other := by
  have distinct : ∀ j ∈ Jump.named, ∀ k ∈ Jump.named, j.text = k.text → j = k := by decide
  exact distinct jump named other named' same

namespace Grammar

inductive Reg where
  | a
  | d
  | m
  | star
  deriving DecidableEq

def Reg.lexemes : Reg → List Lexeme
  | .a => [.name (ascii "A")]
  | .d => [.name (ascii "D")]
  | .m => [.name (ascii "M")]
  | .star => [.mark .star, .name (ascii "A")]

/-- `M` and `*A` are the same cell. -/
def Reg.register : Reg → Register
  | .a => .a
  | .d => .d
  | .m | .star => .m

def operatorMark : Operator → Mark
  | .add => .plus
  | .sub => .minus
  | .and => .ampersand
  | .or => .bar

inductive Alu where
  | zero
  | one
  | negOne
  | not (x : Reg)
  | neg (x : Reg)
  | reg (x : Reg)
  | inc (x : Reg)
  | dec (x : Reg)
  | binary (x : Reg) (op : Operator) (y : Reg)
  deriving DecidableEq

def Alu.lexemes : Alu → List Lexeme
  | .zero => [.number (ascii "0")]
  | .one => [.number (ascii "1")]
  | .negOne => [.mark .minus, .number (ascii "1")]
  | .not x => .mark .bang :: x.lexemes
  | .neg x => .mark .minus :: x.lexemes
  | .reg x => x.lexemes
  | .inc x => x.lexemes ++ [.mark .plus, .number (ascii "1")]
  | .dec x => x.lexemes ++ [.mark .minus, .number (ascii "1")]
  | .binary x op y => x.lexemes ++ .mark (operatorMark op) :: y.lexemes

def Alu.expr : Alu → Expr
  | .zero => .zero
  | .one => .one
  | .negOne => .negOne
  | .not x => .not x.register
  | .neg x => .neg x.register
  | .reg x => .reg x.register
  | .inc x => .inc x.register
  | .dec x => .dec x.register
  | .binary x op y => .binary x.register op y.register

/-- An operand of `A :=`, with the reading of its text. -/
inductive Value [Constant.Evaluator] where
  | number (text : Bytes) (value : Nat) (reads : parseNumber? text = some value)
  | negative (text : Bytes) (value : Nat) (reads : parseNumber? text = some value)
  | label (name : Bytes)
  | constant (text : Bytes) (value : Int) (runs : Constant.outcome text = .integer value)

def Value.lexemes [Constant.Evaluator] : Value → List Lexeme
  | .number text _ _ => [.number text]
  | .negative text _ _ => [.mark .minus, .number text]
  | .label name => [.mark .at, .name name]
  | .constant text _ _ => [.constant text]

def Value.target [Constant.Evaluator] : Value → Target
  | .number _ value _ => .value value
  | .negative _ value _ => .value (-value)
  | .label name => .label name
  | .constant _ value _ => .value (Constant.saturate64 value)

/-- A word that names a jump, whatever the case of its letters. -/
structure JumpWord where
  word : Bytes
  jump : Jump
  named : jump ∈ Jump.named
  spells : word.map Bytes.toLower = jump.text

/-- `reg {',' reg} '='`, or nothing. -/
def targetLexemes : List Reg → List Lexeme
  | [] => []
  | first :: rest =>
    first.lexemes ++ rest.flatMap (fun r => .mark .comma :: r.lexemes) ++ [.mark .equals]

/-- `';' jump`, or nothing. -/
def jumpLexemes : Option JumpWord → List Lexeme
  | none => []
  | some j => [.mark .semicolon, .name j.word]

inductive Line [Constant.Evaluator] where
  | label (name : Bytes)
  | address (value : Value)
  | compute (targets : List Reg) (alu : Alu) (jump : Option JumpWord)

def Line.lexemes [Constant.Evaluator] : Line → List Lexeme
  | .label name => [.name name, .mark .colon]
  | .address value => .name (ascii "A") :: .mark .assign :: value.lexemes
  | .compute targets alu jump => targetLexemes targets ++ (alu.lexemes ++ jumpLexemes jump)

def Line.node [Constant.Evaluator] : Line → Node
  | .label name => .label name
  | .address value => .address value.target
  | .compute targets alu jump =>
    .compute (targets.map Reg.register) alu.expr ((jump.map (·.jump)).getD .never)

/-! ## Marks that separate the parts of a line -/

def separates : Mark → Bool
  | .colon | .equals | .assign | .comma | .semicolon => true
  | _ => false

theorem Reg.separates_eq_false {x : Reg} {mark : Mark} (member : .mark mark ∈ x.lexemes) :
    separates mark = false := by
  cases x <;> simp [Reg.lexemes] at member
  subst member
  rfl

theorem Alu.separates_eq_false {alu : Alu} {mark : Mark} (member : .mark mark ∈ alu.lexemes) :
    separates mark = false := by
  cases alu with
  | zero | one => simp [Alu.lexemes] at member
  | negOne =>
    simp [Alu.lexemes] at member
    subst member
    rfl
  | not x | neg x =>
    rcases List.mem_cons.mp member with same | member
    · cases same; rfl
    · exact Reg.separates_eq_false member
  | reg x => exact Reg.separates_eq_false member
  | inc x | dec x =>
    rcases List.mem_append.mp member with member | member
    · exact Reg.separates_eq_false member
    · simp at member
      subst member
      rfl
  | binary x op y =>
    rcases List.mem_append.mp member with member | member
    · exact Reg.separates_eq_false member
    · rcases List.mem_cons.mp member with same | member
      · cases same; cases op <;> rfl
      · exact Reg.separates_eq_false member

theorem Alu.not_mem_of_separates {alu : Alu} {mark : Mark} (separator : separates mark = true) :
    .mark mark ∉ alu.lexemes := by
  intro member
  rw [Alu.separates_eq_false member] at separator
  cases separator

/-- The register list, without its `=`, holds no mark that separates except commas. -/
theorem not_mem_regList {mark : Mark} (separator : separates mark = true) (noComma : mark ≠ .comma)
    (first : Reg) (rest : List Reg) :
    .mark mark ∉ first.lexemes ++ rest.flatMap (fun r => .mark .comma :: r.lexemes) := by
  intro member
  have reg : ∀ x : Reg, .mark mark ∉ x.lexemes := by
    intro x member
    rw [Reg.separates_eq_false member] at separator
    cases separator
  rcases List.mem_append.mp member with member | member
  · exact reg first member
  · obtain ⟨r, -, member⟩ := List.mem_flatMap.mp member
    rcases List.mem_cons.mp member with same | member
    · exact noComma (by injection same)
    · exact reg r member

theorem not_mem_jumpLexemes {mark : Mark} (other : mark ≠ .semicolon) (jump : Option JumpWord) :
    .mark mark ∉ jumpLexemes jump := by
  cases jump <;> simp [jumpLexemes, other]

theorem not_mem_compute [Constant.Evaluator] {mark : Mark}
    (colonOrAssign : mark = .colon ∨ mark = .assign)
    (targets : List Reg) (alu : Alu) (jump : Option JumpWord) :
    .mark mark ∉ (Line.compute targets alu jump).lexemes := by
  have separator : separates mark = true := by rcases colonOrAssign with rfl | rfl <;> rfl
  have noEquals : mark ≠ .equals := by rcases colonOrAssign with rfl | rfl <;> simp
  have noComma : mark ≠ .comma := by rcases colonOrAssign with rfl | rfl <;> simp
  have noSemicolon : mark ≠ .semicolon := by rcases colonOrAssign with rfl | rfl <;> simp
  simp only [Line.lexemes, List.mem_append, not_or]
  refine ⟨?_, Alu.not_mem_of_separates separator, not_mem_jumpLexemes noSemicolon jump⟩
  cases targets with
  | nil => simp [targetLexemes]
  | cons first rest =>
    rw [targetLexemes, List.mem_append, not_or]
    exact ⟨not_mem_regList separator noComma first rest, by simpa using noEquals⟩

/-! ## One derivation for each line -/

theorem Reg.lexemes_append_inj {x y : Reg} {s t : List Lexeme} :
    x.lexemes ++ s = y.lexemes ++ t ↔ x = y ∧ s = t := by
  cases x <;> cases y <;> simp +decide [Reg.lexemes]

theorem Reg.lexemes_inj {x y : Reg} : x.lexemes = y.lexemes ↔ x = y := by
  simpa using Reg.lexemes_append_inj (x := x) (y := y) (s := []) (t := [])

theorem Reg.lexemes_ne_number (x : Reg) (text : Bytes) : x.lexemes ≠ [.number text] := by
  cases x <;> simp [Reg.lexemes]

theorem Reg.number_ne_lexemes (x : Reg) (text : Bytes) : [.number text] ≠ x.lexemes :=
  (x.lexemes_ne_number text).symm

theorem operatorMark_inj {op other : Operator} : operatorMark op = operatorMark other ↔ op = other := by
  cases op <;> cases other <;> simp [operatorMark]

/-- The register that an expression starts with. -/
def Alu.lead : Alu → Option Reg
  | .reg x | .inc x | .dec x | .binary x _ _ => some x
  | _ => none

/-- What stands behind that register. -/
def Alu.tail : Alu → List Lexeme
  | .reg _ => []
  | .inc _ => [.mark .plus, .number (ascii "1")]
  | .dec _ => [.mark .minus, .number (ascii "1")]
  | .binary _ op y => .mark (operatorMark op) :: y.lexemes
  | alu => alu.lexemes

theorem Alu.lexemes_eq_lead_append (alu : Alu) :
    alu.lexemes = (alu.lead.elim [] Reg.lexemes) ++ alu.tail := by
  cases alu <;> simp [Alu.lead, Alu.tail, Alu.lexemes]

/-- An expression that starts with no register starts with no name and no star. -/
theorem Alu.reg_append_ne_tail {alu : Alu} (leadless : alu.lead = none) (x : Reg) (s : List Lexeme) :
    x.lexemes ++ s ≠ alu.tail := by
  cases alu <;> simp [Alu.lead] at leadless <;> cases x <;> simp [Alu.tail, Alu.lexemes, Reg.lexemes]

theorem Alu.lead_tail_inj {alu other : Alu} (same : alu.lexemes = other.lexemes) :
    alu.lead = other.lead ∧ alu.tail = other.tail := by
  rw [Alu.lexemes_eq_lead_append, Alu.lexemes_eq_lead_append other] at same
  cases first : alu.lead with
  | none =>
    cases second : other.lead with
    | none => simpa [first, second] using same
    | some y =>
      simp only [first, second, Option.elim_none, Option.elim_some, List.nil_append] at same
      exact absurd same.symm (Alu.reg_append_ne_tail first y _)
  | some x =>
    cases second : other.lead with
    | none =>
      simp only [first, second, Option.elim_none, Option.elim_some, List.nil_append] at same
      exact absurd same (Alu.reg_append_ne_tail second x _)
    | some y =>
      simp only [first, second, Option.elim_some] at same
      obtain ⟨rfl, rest⟩ := Reg.lexemes_append_inj.mp same
      exact ⟨rfl, rest⟩

theorem Alu.lexemes_injective {alu other : Alu} (same : alu.lexemes = other.lexemes) :
    alu = other := by
  obtain ⟨lead, tail⟩ := Alu.lead_tail_inj same
  -- A tail `+ 1` or `- 1` is no operator with a register, as no register is a number.
  cases alu <;> cases other <;>
    simp_all +decide [Alu.lead, Alu.tail, Alu.lexemes, Reg.lexemes_inj, Reg.lexemes_ne_number,
      Reg.number_ne_lexemes, operatorMark_inj]

theorem commaRegs_inj {rest more : List Reg}
    (same : rest.flatMap (fun r => Lexeme.mark .comma :: r.lexemes) =
      more.flatMap (fun r => Lexeme.mark .comma :: r.lexemes)) : rest = more := by
  induction rest generalizing more with
  | nil => cases more <;> simp_all
  | cons r rest ih =>
    cases more with
    | nil => simp at same
    | cons s more =>
      simp only [List.flatMap_cons, List.cons_append, List.cons.injEq, true_and,
        Reg.lexemes_append_inj] at same
      obtain ⟨rfl, rest_same⟩ := same
      rw [ih rest_same]

theorem regList_inj {first other : Reg} {rest more : List Reg}
    (same : first.lexemes ++ rest.flatMap (fun r => .mark .comma :: r.lexemes) =
      other.lexemes ++ more.flatMap (fun r => .mark .comma :: r.lexemes)) :
    first = other ∧ rest = more := by
  obtain ⟨heads, tails⟩ := Reg.lexemes_append_inj.mp same
  exact ⟨heads, commaRegs_inj tails⟩

/-- Two lists that are cut at the same first mark are cut into the same parts. -/
theorem cut_inj {α : Type} {mark : α} {left left' right right' : List α} (before : mark ∉ left)
    (before' : mark ∉ left') (same : left ++ mark :: right = left' ++ mark :: right') :
    left = left' ∧ right = right' := by
  induction left generalizing left' with
  | nil =>
    cases left' with
    | nil => exact ⟨rfl, by simpa using same⟩
    | cons x left' =>
      simp only [List.nil_append, List.cons_append, List.cons.injEq] at same
      exact absurd (same.1 ▸ List.mem_cons_self) before'
  | cons x left ih =>
    cases left' with
    | nil =>
      simp only [List.nil_append, List.cons_append, List.cons.injEq] at same
      exact absurd (same.1 ▸ List.mem_cons_self) before
    | cons y left' =>
      simp only [List.cons_append, List.cons.injEq, List.mem_cons, not_or] at same before before'
      obtain ⟨rfl, rfl⟩ := ih before.2 before'.2 same.2
      exact ⟨by rw [same.1], rfl⟩

theorem JumpWord.ext_word {j k : JumpWord} (same : j.word = k.word) : j = k := by
  obtain ⟨word, jump, named, spells⟩ := j
  obtain ⟨other, jump', named', spells'⟩ := k
  subst same
  obtain rfl : jump = jump' := Jump.eq_of_text named named' (spells.symm.trans spells')
  rfl

/-- The part behind the targets is cut at its semicolon. -/
theorem alu_jump_inj {alu other : Alu} {jump next : Option JumpWord}
    (same : alu.lexemes ++ jumpLexemes jump = other.lexemes ++ jumpLexemes next) :
    alu = other ∧ jump = next := by
  have absent : ∀ alu : Alu, .mark .semicolon ∉ alu.lexemes :=
    fun alu => Alu.not_mem_of_separates rfl
  cases jump with
  | none =>
    cases next with
    | none => exact ⟨Alu.lexemes_injective (by simpa [jumpLexemes] using same), rfl⟩
    | some k =>
      have member : .mark .semicolon ∈ alu.lexemes := by
        rw [show alu.lexemes = other.lexemes ++ jumpLexemes (some k) by
          simpa [jumpLexemes] using same]
        simp [jumpLexemes]
      exact absurd member (absent alu)
  | some j =>
    cases next with
    | none =>
      have member : .mark .semicolon ∈ other.lexemes := by
        rw [show other.lexemes = alu.lexemes ++ jumpLexemes (some j) by
          simpa [jumpLexemes] using same.symm]
        simp [jumpLexemes]
      exact absurd member (absent other)
    | some k =>
      obtain ⟨alus, words⟩ := cut_inj (absent alu) (absent other) same
      have word : j.word = k.word := by simpa using words
      exact ⟨Alu.lexemes_injective alus, by rw [JumpWord.ext_word word]⟩

theorem equals_not_mem_alu_jump (alu : Alu) (jump : Option JumpWord) :
    .mark .equals ∉ alu.lexemes ++ jumpLexemes jump := by
  rw [List.mem_append, not_or]
  exact ⟨Alu.not_mem_of_separates rfl, not_mem_jumpLexemes (by simp) jump⟩

theorem compute_inj [Constant.Evaluator] {targets others : List Reg} {alu other : Alu}
    {jump next : Option JumpWord}
    (same : (Line.compute targets alu jump).lexemes = (Line.compute others other next).lexemes) :
    targets = others ∧ alu = other ∧ jump = next := by
  simp only [Line.lexemes] at same
  cases targets with
  | nil =>
    cases others with
    | nil => exact ⟨rfl, alu_jump_inj (by simpa [targetLexemes] using same)⟩
    | cons first rest =>
      refine absurd ?_ (equals_not_mem_alu_jump alu jump)
      simp only [targetLexemes, List.nil_append] at same
      rw [same]
      simp
  | cons first rest =>
    cases others with
    | nil =>
      refine absurd ?_ (equals_not_mem_alu_jump other next)
      simp only [targetLexemes, List.nil_append] at same
      rw [← same]
      simp
    | cons first' rest' =>
      -- Neither list of registers holds an `=`, so both lines are cut at the same one.
      simp only [targetLexemes, List.append_assoc, List.singleton_append] at same
      rw [← List.append_assoc, ← List.append_assoc first'.lexemes] at same
      obtain ⟨lists, bodies⟩ := cut_inj
        (not_mem_regList rfl (by simp) first rest) (not_mem_regList rfl (by simp) first' rest') same
      obtain ⟨rfl, rfl⟩ := regList_inj lists
      exact ⟨rfl, alu_jump_inj bodies⟩

theorem Value.lexemes_injective [Constant.Evaluator] {value other : Value}
    (same : value.lexemes = other.lexemes) :
    value = other := by
  cases value with
  | number text n reads =>
    cases other with
    | number text' n' reads' =>
      simp only [Value.lexemes, List.cons.injEq, Lexeme.number.injEq, and_true] at same
      subst same
      obtain rfl : n = n' := Option.some.inj (reads.symm.trans reads')
      rfl
    | negative | label | constant => simp [Value.lexemes] at same
  | negative text n reads =>
    cases other with
    | negative text' n' reads' =>
      simp only [Value.lexemes, List.cons.injEq, Lexeme.number.injEq, and_true, true_and] at same
      subst same
      obtain rfl : n = n' := Option.some.inj (reads.symm.trans reads')
      rfl
    | number | label | constant => simp [Value.lexemes] at same
  | label name =>
    cases other with
    | label name' =>
      simp only [Value.lexemes, List.cons.injEq, Lexeme.name.injEq, and_true, true_and] at same
      rw [same]
    | number | negative | constant => simp [Value.lexemes] at same
  | constant text n runs =>
    cases other with
    | constant text' n' runs' =>
      simp only [Value.lexemes, List.cons.injEq, Lexeme.constant.injEq, and_true] at same
      subst same
      obtain rfl : n = n' := Constant.Outcome.integer.inj (runs.symm.trans runs')
      rfl
    | number | negative | label => simp [Value.lexemes] at same

/-- No two derivations have the same lexemes. -/
theorem Line.lexemes_injective [Constant.Evaluator] {line other : Line}
    (same : line.lexemes = other.lexemes) :
    line = other := by
  cases line with
  | label name =>
    cases other with
    | label name' => simp [Line.lexemes] at same; rw [same]
    | address value => simp [Line.lexemes] at same
    | compute targets alu jump =>
      exact absurd (same ▸ by simp [Line.lexemes]) (not_mem_compute (.inl rfl) targets alu jump)
  | address value =>
    cases other with
    | label name => simp [Line.lexemes] at same
    | address value' =>
      simp only [Line.lexemes, List.cons.injEq, true_and] at same
      rw [Value.lexemes_injective same]
    | compute targets alu jump =>
      exact absurd (same ▸ by simp [Line.lexemes]) (not_mem_compute (.inr rfl) targets alu jump)
  | compute targets alu jump =>
    cases other with
    | label name =>
      exact absurd (same ▸ by simp [Line.lexemes]) (not_mem_compute (.inl rfl) targets alu jump)
    | address value =>
      exact absurd (same ▸ by simp [Line.lexemes]) (not_mem_compute (.inr rfl) targets alu jump)
    | compute others alu' next =>
      obtain ⟨rfl, rfl, rfl⟩ := compute_inj same
      rfl

end Grammar

end HackMachine
