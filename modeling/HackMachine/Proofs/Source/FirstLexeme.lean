import HackMachine.Proofs.Source.Columns
import HackMachine.Proofs.Source.Spelling

/-! # The first lexeme of a text

A lexeme has one spelling (`Lexeme.written`), and a text starts with it when it takes all that it can
(`Lexeme.Starts`): a word goes on to its last byte, and a constant to the parenthesis that balances.
`scan` finds the lexeme that a text starts with.  It faults exactly where no spelling is possible.
-/

namespace HackMachine

/-! ## Parentheses -/

/-- The text closes `depth` parentheses that are open before it, and no part of it closes more. -/
@[mk_iff]
structure Closes (depth : Nat) (inner : Bytes) : Prop where
  open_before : ∀ part, part <+: inner → part.count (byte ')') ≤ part.count (byte '(') + depth
  balanced : inner.count (byte ')') = inner.count (byte '(') + depth

theorem closes_nil {depth : Nat} : Closes depth [] ↔ depth = 0 := by
  constructor
  · intro closes
    simpa using closes.balanced.symm
  · rintro rfl
    exact ⟨fun part empty => by simp [List.prefix_nil.mp empty], rfl⟩

theorem closes_cons {depth : Nat} {b : UInt8} {inner : Bytes} :
    Closes depth (b :: inner) ↔
      (∀ part, part <+: inner → (b :: part).count (byte ')') ≤ (b :: part).count (byte '(') + depth) ∧
        (b :: inner).count (byte ')') = (b :: inner).count (byte '(') + depth := by
  constructor
  · intro closes
    exact ⟨fun part before => closes.open_before _ (List.cons_prefix_cons.mpr ⟨rfl, before⟩),
      closes.balanced⟩
  · rintro ⟨each, balanced⟩
    refine ⟨fun part before => ?_, balanced⟩
    rcases List.prefix_cons_iff.mp before with rfl | ⟨part', rfl, inside⟩
    · simp
    · exact each part' inside

theorem closes_cons_open {depth : Nat} {inner : Bytes} :
    Closes depth (byte '(' :: inner) ↔ Closes (depth + 1) inner := by
  have other : byte '(' ≠ byte ')' := by decide
  rw [closes_cons, closes_iff]
  simp only [List.count_cons_self, List.count_cons_of_ne other, Nat.add_right_comm _ 1,
    Nat.add_assoc _ depth 1]

theorem closes_cons_close {depth : Nat} {inner : Bytes} :
    Closes (depth + 1) (byte ')' :: inner) ↔ Closes depth inner := by
  have other : byte ')' ≠ byte '(' := by decide
  rw [closes_cons, closes_iff]
  simp only [List.count_cons_self, List.count_cons_of_ne other, ← Nat.add_assoc,
    Nat.add_le_add_iff_right, Nat.add_right_cancel_iff]

theorem not_closes_zero_close {inner : Bytes} : ¬ Closes 0 (byte ')' :: inner) := by
  intro closes
  have bound := closes.open_before [byte ')'] (List.cons_prefix_cons.mpr ⟨rfl, List.nil_prefix⟩)
  exact absurd bound (by decide)

theorem closes_cons_other {depth : Nat} {b : UInt8} {inner : Bytes} (opens : b ≠ byte '(')
    (closes : b ≠ byte ')') : Closes depth (b :: inner) ↔ Closes depth inner := by
  rw [closes_cons, closes_iff]
  simp only [List.count_cons_of_ne opens, List.count_cons_of_ne closes]

/-- The parenthesis that `closing` looks for stands behind `found - count` bytes of the text. -/
def ClosesAt (depth count : Nat) (text : Bytes) (found : Nat) : Prop :=
  ∃ inner rest, text = inner ++ byte ')' :: rest ∧ Closes depth inner ∧ found = count + inner.length

-- Unless it is the parenthesis itself, the first byte belongs to what is closed.
theorem closesAt_cons {depth count found : Nat} {b : UInt8} {text : Bytes}
    (inside : ¬ (b = byte ')' ∧ depth = 0)) :
    ClosesAt depth count (b :: text) found ↔
      ∃ inner rest, text = inner ++ byte ')' :: rest ∧ Closes depth (b :: inner) ∧
        found = count + 1 + inner.length := by
  constructor
  · rintro ⟨inner, rest, cut, closes, rfl⟩
    cases inner with
    | nil => exact absurd ⟨(List.cons.inj cut).1, closes_nil.mp closes⟩ inside
    | cons c inner =>
      obtain ⟨rfl, rfl⟩ := List.cons.inj cut
      exact ⟨inner, rest, rfl, closes, by rw [List.length_cons]; omega⟩
  · rintro ⟨inner, rest, rfl, closes, rfl⟩
    exact ⟨b :: inner, rest, rfl, closes, by rw [List.length_cons]; omega⟩

theorem closing_eq_some_iff {depth count found : Nat} {text : Bytes} :
    closing depth count text = some found ↔ ClosesAt depth count text found := by
  fun_induction closing depth count text with
  | case1 => simp [ClosesAt]
  | case2 depth count b rest opens ih =>
    obtain rfl := beq_iff_eq.mp opens
    rw [ih, closesAt_cons (by simp [show byte '(' ≠ byte ')' by decide])]
    simp only [closes_cons_open]
    rfl
  | case3 count b rest _ closes =>
    obtain rfl := beq_iff_eq.mp closes
    constructor
    · rintro ⟨⟩
      exact ⟨[], rest, rfl, closes_nil.mpr rfl, rfl⟩
    · rintro ⟨inner, rest', cut, closed, rfl⟩
      cases inner with
      | nil => rfl
      | cons c inner =>
        obtain ⟨rfl, -⟩ := List.cons.inj cut
        exact absurd closed not_closes_zero_close
  | case4 count b rest _ closes outer ih =>
    obtain rfl := beq_iff_eq.mp closes
    rw [ih, closesAt_cons (by simp)]
    simp only [Nat.succ_eq_add_one, closes_cons_close]
    rfl
  | case5 depth count b rest opens closes ih =>
    simp only [beq_iff_eq] at opens closes
    rw [ih, closesAt_cons (by simp [closes])]
    simp only [closes_cons_other opens closes]
    rfl

/-- A constant has no end when no part of the text closes it. -/
theorem closing_eq_none_iff {text : Bytes} :
    closing 0 0 text = none ↔ ∀ inner, Closes 0 inner → ¬ inner ++ [byte ')'] <+: text := by
  rw [Option.eq_none_iff_forall_ne_some]
  constructor
  · rintro never inner closes ⟨rest, rfl⟩
    exact never inner.length (closing_eq_some_iff.mpr ⟨inner, rest, by simp, closes, by simp⟩)
  · rintro never found close
    obtain ⟨inner, rest, rfl, closes, -⟩ := closing_eq_some_iff.mp close
    exact never inner closes ⟨rest, by simp⟩

/-! ## Lexemes as they are written -/

def Mark.text : Mark → Bytes
  | .colon => ascii ":"
  | .equals => ascii "="
  | .assign => ascii ":="
  | .comma => ascii ","
  | .semicolon => ascii ";"
  | .plus => ascii "+"
  | .minus => ascii "-"
  | .ampersand => ascii "&"
  | .bar => ascii "|"
  | .bang => ascii "!"
  | .at => ascii "@"
  | .star => ascii "*"

namespace Lexeme

/-- The bytes of a lexeme in a line. -/
def written : Lexeme → Bytes
  | .name text | .number text => text
  | .constant text => ascii "$(" ++ text ++ ascii ")"
  | .mark m => m.text

/-- A lexeme whose text has the form of its kind. -/
def WellFormed : Lexeme → Prop
  | .name text => IsName text
  | .number text => ∃ b more, text = b :: more ∧ Bytes.isDigit b = true ∧
      ∀ c ∈ more, Bytes.isWord c = true
  | .constant text => Closes 0 text
  | .mark _ => True

/-- The lexeme takes no more of the text than this: a word ends, and `:` is not the start of `:=`. -/
def Ends : Lexeme → Bytes → Prop
  | .name _, rest | .number _, rest => WordEnds rest
  | .mark .colon, rest => rest.head? ≠ some (byte '=')
  | _, _ => True

/-- A text that starts with the lexeme and goes on with `rest`. -/
structure Starts (lexeme : Lexeme) (text rest : Bytes) : Prop where
  wellFormed : lexeme.WellFormed
  cut : text = lexeme.written ++ rest
  ends : lexeme.Ends rest

end Lexeme

theorem eq_or_of_ite_eq_some {α : Type} {c : Bool} {x y : α} {other : Option α}
    (found : (if c then some x else other) = some y) : c = true ∧ x = y ∨ other = some y := by
  cases c with
  | true => exact .inl ⟨rfl, Option.some.inj found⟩
  | false => exact .inr found

theorem Mark.ofByte?_text {b : UInt8} {mark : Mark} (named : Mark.ofByte? b = some mark) :
    mark.text = [b] ∧ mark ≠ .assign := by
  unfold Mark.ofByte? at named
  -- One byte of the list after the other.
  repeat'
    obtain ⟨same, rfl⟩ | named := eq_or_of_ite_eq_some named
    · rw [beq_iff_eq.mp same]
      exact ⟨rfl, by decide⟩
  cases named

theorem Mark.text_length (mark : Mark) : 0 < mark.text.length := by
  cases mark <;> decide

theorem Lexeme.WellFormed.length_pos {lexeme : Lexeme} (wellFormed : lexeme.WellFormed) :
    0 < lexeme.written.length := by
  cases lexeme with
  | name text =>
    obtain ⟨b, more, rfl, -⟩ := wellFormed
    exact Nat.succ_pos _
  | number text =>
    obtain ⟨b, more, rfl, -⟩ := wellFormed
    exact Nat.succ_pos _
  | constant text => exact Nat.succ_pos _
  | mark mark => exact mark.text_length

/-! ## The first lexeme of a text -/

theorem scan_dollar (inner : Bytes) :
    scan (byte '$') (byte '(' :: inner) =
      ((closing 0 0 inner).map fun count => .lexeme (.constant (inner.take count)) (count + 2)).getD
        (.fault .unclosedConstant (inner.length + 1)) := by
  unfold scan
  rw [List.drop_one, List.tail_cons]
  cases closing 0 0 inner <;> rfl

theorem scan_constant {inner rest : Bytes} (closes : Closes 0 inner) :
    scan (byte '$') (byte '(' :: (inner ++ byte ')' :: rest)) =
      .lexeme (.constant inner) (inner.length + 2) := by
  have close : closing 0 0 (inner ++ byte ')' :: rest) = some inner.length :=
    closing_eq_some_iff.mpr ⟨inner, rest, rfl, closes, (Nat.zero_add _).symm⟩
  rw [scan_dollar, close, Option.map_some, Option.getD_some, List.take_left]

theorem scan_mark {mark : Mark} {b : UInt8} {text rest : Bytes}
    (cut : b :: text = mark.text ++ rest) (ends : (Lexeme.mark mark).Ends rest) :
    scan b text = .lexeme (.mark mark) (mark.text.length - 1) := by
  cases mark with
  | colon =>
    obtain ⟨rfl, rfl⟩ := List.cons.inj cut
    have single : (text.head? == some (byte '=')) = false := beq_eq_false_iff_ne.mpr ends
    simp only [scan, single]
    rfl
  | _ =>
    obtain ⟨rfl, rfl⟩ := List.cons.inj cut
    rfl

theorem Lexeme.Starts.scan_eq {lexeme : Lexeme} {b : UInt8} {text rest : Bytes}
    (starts : lexeme.Starts (b :: text) rest) :
    scan b text = .lexeme lexeme (lexeme.written.length - 1) := by
  obtain ⟨wellFormed, cut, ends⟩ := starts
  cases lexeme with
  | name word =>
    obtain ⟨c, more, rfl, letter, each⟩ := wellFormed
    obtain ⟨rfl, rfl⟩ := List.cons.inj cut
    exact scan_name letter each ends
  | number word =>
    obtain ⟨c, more, rfl, digit, each⟩ := wellFormed
    obtain ⟨rfl, rfl⟩ := List.cons.inj cut
    exact scan_number digit each ends
  | constant inner =>
    simp only [written, ascii, List.append_assoc] at cut
    obtain ⟨rfl, rfl⟩ := List.cons.inj cut
    rw [show (Lexeme.constant inner).written.length - 1 = inner.length + 2 by simp [written, ascii]]
    exact scan_constant wellFormed
  | mark mark => exact scan_mark cut ends

theorem wordEnds_dropWhile (text : Bytes) : WordEnds (text.dropWhile Bytes.isWord) := by
  intro b head
  have not := List.head?_dropWhile_not Bytes.isWord text
  rw [head] at not
  simpa using not

theorem drop_takeWhile_isWord (text : Bytes) :
    text.drop (text.takeWhile Bytes.isWord).length = text.dropWhile Bytes.isWord := by
  calc text.drop (text.takeWhile Bytes.isWord).length
      = (text.takeWhile Bytes.isWord ++ text.dropWhile Bytes.isWord).drop
          (text.takeWhile Bytes.isWord).length := by rw [List.takeWhile_append_dropWhile]
    _ = text.dropWhile Bytes.isWord := List.drop_left

theorem starts_of_scan {b : UInt8} {text : Bytes} {lexeme : Lexeme} {more : Nat}
    (scanned : scan b text = .lexeme lexeme more) :
    lexeme.Starts (b :: text) (text.drop more) ∧ lexeme.written.length = more + 1 := by
  -- Names, numbers, constants, `:=`, and the marks of one byte.
  obtain ⟨⟨letter, rfl⟩ | ⟨digit, rfl⟩, rfl⟩ | ⟨inner, count, rfl, rfl, close, rfl, rfl⟩ |
    ⟨behind, rfl, rfl, rfl, rfl⟩ | ⟨mark, named, single, rfl, rfl⟩ := scan_lexeme_cases scanned
  · rw [drop_takeWhile_isWord]
    exact ⟨⟨⟨b, _, rfl, letter, fun c member => List.mem_takeWhile_imp member⟩,
      by simp [Lexeme.written], wordEnds_dropWhile text⟩, rfl⟩
  · rw [drop_takeWhile_isWord]
    exact ⟨⟨⟨b, _, rfl, digit, fun c member => List.mem_takeWhile_imp member⟩,
      by simp [Lexeme.written], wordEnds_dropWhile text⟩, rfl⟩
  · obtain ⟨part, rest, rfl, closes, rfl⟩ := closing_eq_some_iff.mp close
    rw [Nat.zero_add, List.take_left]
    exact ⟨⟨closes, by simp [Lexeme.written, ascii], trivial⟩, by simp [Lexeme.written, ascii]⟩
  · exact ⟨⟨trivial, rfl, trivial⟩, rfl⟩
  · obtain ⟨spelled, other⟩ := Mark.ofByte?_text named
    refine ⟨⟨trivial, ?_, ?_⟩, congrArg List.length spelled⟩
    · rw [Lexeme.written, spelled]
      rfl
    · cases mark with
      | colon => exact fun equals => single ⟨(List.cons.inj spelled).1.symm, equals⟩
      | assign => exact absurd rfl other
      | _ => trivial

theorem Lexeme.Starts.scan {lexeme : Lexeme} {text rest : Bytes} (starts : lexeme.Starts text rest) :
    ∃ b behind more, text = b :: behind ∧ HackMachine.scan b behind = .lexeme lexeme more ∧
      rest = behind.drop more ∧ lexeme.written.length = more + 1 := by
  cases text with
  | nil =>
    have positive := starts.wellFormed.length_pos
    have empty := congrArg List.length starts.cut
    simp only [List.length_nil, List.length_append] at empty
    omega
  | cons b behind =>
    obtain ⟨again, width⟩ := starts_of_scan starts.scan_eq
    refine ⟨b, behind, _, rfl, starts.scan_eq, ?_, width⟩
    exact List.append_cancel_left (starts.cut.symm.trans again.cut)

/-- Where a lexeme can be read, one can be read that takes all it can. -/
theorem exists_starts {lexeme : Lexeme} {text : Bytes} (wellFormed : lexeme.WellFormed)
    (written : lexeme.written <+: text) : ∃ (longest : Lexeme) (rest : Bytes), longest.Starts text rest := by
  obtain ⟨rest, rfl⟩ := written
  cases lexeme with
  | name word =>
    obtain ⟨b, more, rfl, letter, -⟩ := wellFormed
    refine ⟨.name (b :: (more ++ rest).takeWhile Bytes.isWord), (more ++ rest).dropWhile Bytes.isWord,
      ⟨b, _, rfl, letter, fun c member => List.mem_takeWhile_imp member⟩, ?_, wordEnds_dropWhile _⟩
    simp [Lexeme.written]
  | number word =>
    obtain ⟨b, more, rfl, digit, -⟩ := wellFormed
    refine ⟨.number (b :: (more ++ rest).takeWhile Bytes.isWord), (more ++ rest).dropWhile Bytes.isWord,
      ⟨b, _, rfl, digit, fun c member => List.mem_takeWhile_imp member⟩, ?_, wordEnds_dropWhile _⟩
    simp [Lexeme.written]
  | constant inner => exact ⟨.constant inner, rest, wellFormed, rfl, trivial⟩
  | mark mark =>
    cases mark with
    | colon =>
      by_cases equals : rest.head? = some (byte '=')
      · obtain ⟨behind, rfl⟩ := List.head?_eq_some_iff.mp equals
        exact ⟨.mark .assign, behind, trivial, rfl, trivial⟩
      · exact ⟨.mark .colon, rest, trivial, rfl, equals⟩
    | _ => exact ⟨.mark _, rest, trivial, rfl, trivial⟩

theorem isBlank_of_scan {b : UInt8} {rest : Bytes} (scanned : scan b rest = .blank) :
    Bytes.isBlank b = true := by
  unfold scan at scanned
  split at scanned
  · next blank => exact blank
  · repeat' split at scanned
    all_goals cases scanned

theorem comment_of_scan {b : UInt8} {rest : Bytes} (scanned : scan b rest = .comment) :
    ascii "//" <+: b :: rest := by
  unfold scan at scanned
  split at scanned
  · cases scanned
  split at scanned
  · next slashes =>
    simp only [Bool.and_eq_true, beq_iff_eq] at slashes
    obtain ⟨behind, rfl⟩ := List.head?_eq_some_iff.mp slashes.2
    rw [slashes.1]
    exact ⟨behind, rfl⟩
  · repeat' split at scanned
    all_goals cases scanned

/-! ## Texts without a lexeme -/

/-- A byte that is no blank and starts neither a comment nor a lexeme. -/
structure StartsNothing (text : Bytes) : Prop where
  solid : ∃ b more, text = b :: more ∧ Bytes.isBlank b = false
  no_comment : ¬ ascii "//" <+: text
  no_constant : ¬ ascii "$(" <+: text
  no_lexeme : ∀ lexeme : Lexeme, lexeme.WellFormed → ¬ lexeme.written <+: text

/-- A constant whose parentheses never balance. -/
def Unclosed (text : Bytes) : Prop :=
  ∃ inner, text = ascii "$(" ++ inner ∧ ∀ part, Closes 0 part → ¬ part ++ [byte ')'] <+: inner

theorem StartsNothing.scan_eq {b : UInt8} {more : Bytes} (nothing : StartsNothing (b :: more)) :
    scan b more = .fault .invalidCharacter 0 := by
  cases scanned : scan b more with
  | blank =>
    obtain ⟨_, _, ⟨⟩, solid⟩ := nothing.solid
    exact absurd (isBlank_of_scan scanned) (Bool.eq_false_iff.mp solid)
  | comment => exact absurd (comment_of_scan scanned) nothing.no_comment
  | lexeme lexeme taken =>
    obtain ⟨starts, -⟩ := starts_of_scan scanned
    exact absurd ⟨_, starts.cut.symm⟩ (nothing.no_lexeme lexeme starts.wellFormed)
  | fault cause taken =>
    obtain ⟨rfl, rfl, -⟩ | ⟨inner, rfl, rfl, -⟩ := scan_fault_cases scanned
    · rfl
    · exact absurd ⟨inner, rfl⟩ nothing.no_constant

theorem stuck_of_scan {b : UInt8} {more : Bytes} {cause : Cause} {taken : Nat}
    (scanned : scan b more = .fault cause taken) : StartsNothing (b :: more) ∨ Unclosed (b :: more) := by
  obtain ⟨-, -, dollar⟩ | ⟨inner, rfl, rfl, none, -, -⟩ := scan_fault_cases scanned
  · left
    refine ⟨⟨b, more, rfl, ?_⟩, ?_, ?_, ?_⟩
    · rw [← Bool.not_eq_true]
      intro blank
      rw [scan, if_pos blank] at scanned
      cases scanned
    · rintro ⟨behind, same⟩
      obtain ⟨rfl, rfl⟩ := List.cons.inj same
      cases scanned
    · rintro ⟨behind, same⟩
      obtain ⟨rfl, rfl⟩ := List.cons.inj same
      exact dollar ⟨rfl, rfl⟩
    · intro lexeme wellFormed written
      -- `scan` finds a longer lexeme where the spelling of a shorter one stands.
      obtain ⟨longest, rest, starts⟩ := exists_starts wellFormed written
      rw [starts.scan_eq] at scanned
      cases scanned
  · exact .inr ⟨inner, rfl, closing_eq_none_iff.mp none⟩

end HackMachine
