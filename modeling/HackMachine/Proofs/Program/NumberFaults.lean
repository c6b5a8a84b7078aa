import HackMachine.Proofs.Program.Constants

/-! # Which number words are refused

Digits are read from the left and reading stops at the first of two events: a byte that is no digit, or
a value beyond sixty-four bits.  So a malformed word is refused exactly when the digits before its first
bad byte stay within sixty-four bits (`number_words_read_exactly`).  A longer one is read like a number
that is too large, and only validation refuses its line (`overflowing_malformed_word_is_read`).
-/

namespace HackMachine

open Grammar

/-- The digits that a word starts with are beyond sixty-four bits by themselves. -/
inductive Overflows : Bytes → Prop
  | decimal {digits rest} : (∀ b ∈ digits, Bytes.isDigit b = true) →
      0x10000000000000000 ≤ Numeral.valueOf 10 digits → Overflows (digits ++ rest)
  | hexadecimal {letter digits rest} : letter = byte 'x' ∨ letter = byte 'X' →
      (∀ b ∈ digits, Numeral.isDigitOf 16 b = true) → 0x10000000000000000 ≤ Numeral.valueOf 16 digits →
      Overflows (byte '0' :: letter :: (digits ++ rest))

/-! ## Digits from the left -/

/-- Some of the digits, from the first on, take the value beyond sixty-four bits. -/
def OverflowsFrom (base value : Nat) (digits : Bytes) : Prop :=
  ∃ leading rest, digits = leading ++ rest ∧ (∀ b ∈ leading, Numeral.isDigitOf base b = true) ∧
    0x10000000000000000 ≤ Numeral.valueFrom base value leading

theorem not_overflowsFrom_nil {base value : Nat} (small : value < 0x10000000000000000) :
    ¬ OverflowsFrom base value [] := by
  intro overflows
  obtain ⟨leading, rest, same, -, beyond⟩ := overflows
  obtain ⟨rfl, rfl⟩ := List.append_eq_nil_iff.mp same.symm
  exact absurd beyond (Nat.not_le.mpr small)

theorem overflowsFrom_cons_iff {base value : Nat} (small : value < 0x10000000000000000) {b : UInt8} {rest : Bytes} :
    OverflowsFrom base value (b :: rest) ↔
      ∃ digit, Numeral.digitValue? b = some digit ∧ digit < base ∧
        (0x10000000000000000 ≤ value * base + digit ∨ OverflowsFrom base (value * base + digit) rest) := by
  constructor
  · intro overflows
    obtain ⟨leading, behind, same, all, beyond⟩ := overflows
    cases leading with
    | nil => exact absurd beyond (Nat.not_le.mpr small)
    | cons c leading =>
      cases same
      obtain ⟨first, others⟩ := List.forall_mem_cons.mp all
      obtain ⟨digit, valued, below⟩ := Numeral.isDigitOf_iff.mp first
      rw [Numeral.valueFrom_cons, valued, Option.getD_some] at beyond
      exact ⟨digit, valued, below, .inr ⟨leading, behind, rfl, others, beyond⟩⟩
  · intro stepped
    obtain ⟨digit, valued, below, further⟩ := stepped
    have first : Numeral.isDigitOf base b = true := Numeral.isDigitOf_iff.mpr ⟨digit, valued, below⟩
    rcases further with beyond | ⟨leading, behind, rfl, others, beyond⟩
    · refine ⟨[b], rest, rfl, List.forall_mem_singleton.mpr first, ?_⟩
      simpa [Numeral.valueFrom, valued] using beyond
    · refine ⟨b :: leading, behind, rfl, List.forall_mem_cons.mpr ⟨first, others⟩, ?_⟩
      rwa [Numeral.valueFrom_cons, valued, Option.getD_some]

/-- Digits are read to their end or to the one that overflows. -/
theorem numberFrom_eq_some_iff {base value n : Nat} (positive : 0 < base) (small : value < 0x10000000000000000)
    {digits : Bytes} :
    numberFrom base value digits = some n ↔
      ((∀ b ∈ digits, Numeral.isDigitOf base b = true) ∧
        n = min (Numeral.valueFrom base value digits) maxNumber) ∨
      OverflowsFrom base value digits ∧ n = maxNumber := by
  induction digits generalizing value with
  | nil =>
    rw [numberFrom, Option.some.injEq]
    constructor
    · intro same
      exact .inl ⟨List.forall_mem_nil _, same.symm⟩
    · rintro (⟨-, same⟩ | ⟨overflows, -⟩)
      · exact same.symm
      · exact absurd overflows (not_overflowsFrom_nil small)
  | cons b rest ih =>
    rw [numberFrom, overflowsFrom_cons_iff small, List.forall_mem_cons, Numeral.isDigitOf_iff,
      Numeral.valueFrom_cons]
    cases valued : Numeral.digitValue? b with
    | none => simp
    | some digit =>
      simp only [Option.some.injEq, exists_eq_left', Option.getD_some, ge_iff_le]
      by_cases large : base ≤ digit
      · simp [large, Nat.not_lt.mpr large]
      · have below : digit < base := Nat.lt_of_not_le large
        rw [if_neg large]
        by_cases beyond : 0x10000000000000000 ≤ value * base + digit
        · -- The value never falls again, so the word saturates on either reading.
          rw [if_pos beyond, numberFrom_overflow positive rest beyond]
          simp only [below, true_and, Option.some.injEq]
          constructor
          · intro same
            exact .inr ⟨.inl beyond, same.symm⟩
          · rintro (⟨-, same⟩ | ⟨-, same⟩)
            · exact same.symm
            · exact same.symm
        · rw [if_neg beyond, ih (Nat.lt_of_not_le beyond)]
          simp [below, beyond]

theorem numberOf_eq_some_iff {base n : Nat} (positive : 0 < base) {digits : Bytes} :
    numberOf base digits = some n ↔
      (digits ≠ [] ∧ (∀ b ∈ digits, Numeral.isDigitOf base b = true) ∧
        n = min (Numeral.valueOf base digits) maxNumber) ∨
      OverflowsFrom base 0 digits ∧ n = maxNumber := by
  have zero : 0 < 0x10000000000000000 := by decide
  by_cases empty : digits = []
  · subst empty
    simp [numberOf, not_overflowsFrom_nil zero]
  · rw [numberOf, if_neg (by simpa using empty), numberFrom_eq_some_iff positive zero]
    simp only [empty, ne_eq, not_false_eq_true, true_and]
    rfl

/-! ## Words -/

/-- The word starts with `0x` or `0X`. -/
def Marked (text : Bytes) : Prop :=
  ∃ letter digits, text = byte '0' :: letter :: digits ∧ (letter = byte 'x' ∨ letter = byte 'X')

theorem overflows_marked_iff {letter : UInt8} (marked : letter = byte 'x' ∨ letter = byte 'X')
    {digits : Bytes} : Overflows (byte '0' :: letter :: digits) ↔ OverflowsFrom 16 0 digits := by
  constructor
  · intro overflows
    generalize word : byte '0' :: letter :: digits = text at overflows
    cases overflows with
    | hexadecimal _ all beyond =>
      cases word
      exact ⟨_, _, rfl, all, beyond⟩
    | @decimal leading rest all beyond =>
      -- Behind the zero stands a letter, so no decimal digits of any size come first.
      rcases leading with _ | ⟨zero, _ | ⟨second, more⟩⟩
      · exact absurd beyond (by decide)
      · cases word
        exact absurd beyond (by decide)
      · cases word
        exact absurd all (not_decimal_of_marked marked more)
  · intro overflows
    obtain ⟨leading, rest, rfl, all, beyond⟩ := overflows
    exact .hexadecimal marked all beyond

theorem overflows_unmarked_iff {text : Bytes} (unmarked : ¬ Marked text) :
    Overflows text ↔ OverflowsFrom 10 0 text := by
  constructor
  · intro overflows
    cases overflows with
    | @decimal digits rest all beyond =>
      exact ⟨digits, rest, rfl, fun b member => (Numeral.isDigitOf_ten b).trans (all b member), beyond⟩
    | hexadecimal marked _ _ => exact absurd ⟨_, _, rfl, marked⟩ unmarked
  · intro overflows
    obtain ⟨digits, rest, rfl, all, beyond⟩ := overflows
    exact .decimal (fun b member => (Numeral.isDigitOf_ten b).symm.trans (all b member)) beyond

theorem numberForm_marked_iff {letter : UInt8} (marked : letter = byte 'x' ∨ letter = byte 'X')
    {digits : Bytes} {value : Nat} :
    NumberForm (byte '0' :: letter :: digits) value ↔
      digits ≠ [] ∧ (∀ b ∈ digits, Numeral.isDigitOf 16 b = true) ∧ value = Numeral.valueOf 16 digits := by
  constructor
  · intro form
    cases form with
    | decimal _ all => exact absurd all (not_decimal_of_marked marked digits)
    | hexadecimal _ nonempty all => exact ⟨nonempty, all, rfl⟩
  · rintro ⟨nonempty, all, rfl⟩
    exact .hexadecimal marked nonempty all

theorem numberForm_unmarked_iff {text : Bytes} (unmarked : ¬ Marked text) {value : Nat} :
    NumberForm text value ↔
      text ≠ [] ∧ (∀ b ∈ text, Numeral.isDigitOf 10 b = true) ∧ value = Numeral.valueOf 10 text := by
  simp only [Numeral.isDigitOf_ten]
  constructor
  · intro form
    cases form with
    | decimal nonempty all => exact ⟨nonempty, all, rfl⟩
    | hexadecimal marked _ _ => exact absurd ⟨_, _, rfl, marked⟩ unmarked
  · rintro ⟨nonempty, all, rfl⟩
    exact .decimal nonempty all

/-- A word is read when it is well formed or overflows. -/
theorem parseNumber?_eq_some_iff {text : Bytes} {n : Nat} :
    parseNumber? text = some n ↔
      (∃ value, NumberForm text value ∧ n = min value maxNumber) ∨ Overflows text ∧ n = maxNumber := by
  by_cases marked : Marked text
  · obtain ⟨letter, digits, rfl, marked⟩ := marked
    rw [parseNumber?_hexadecimal marked, numberOf_eq_some_iff (by decide), overflows_marked_iff marked]
    simp only [numberForm_marked_iff marked, and_assoc, exists_and_left, exists_eq_left]
  · obtain ⟨letter, digits, same, hexadecimal, -⟩ | read := parseNumber?_cases text
    · exact absurd ⟨letter, digits, same, hexadecimal⟩ marked
    · rw [read, numberOf_eq_some_iff (by decide), overflows_unmarked_iff marked]
      simp only [numberForm_unmarked_iff marked, and_assoc, exists_and_left, exists_eq_left]

theorem numberAt_eq_error_iff {text : Bytes} {pos : Pos} {fault : Pos × Cause} :
    numberAt text pos = .error fault ↔
      fault = (pos, .invalidNumber text) ∧ (¬ ∃ value, NumberForm text value) ∧ ¬ Overflows text := by
  have refused : (¬ ∃ value, NumberForm text value) ∧ ¬ Overflows text ↔ parseNumber? text = none := by
    simp only [Option.eq_none_iff_forall_ne_some, ne_eq, parseNumber?_eq_some_iff, not_or, not_exists,
      not_and]
    constructor
    · rintro ⟨malformed, short⟩ n
      exact ⟨fun value form => absurd form (malformed value), fun overflows => absurd overflows short⟩
    · intro unread
      exact ⟨fun value form => (unread _).1 value form rfl, fun overflows => (unread _).2 overflows rfl⟩
  rw [refused, numberAt]
  cases parseNumber? text with
  | none => simp [eq_comm]
  | some n => simp

/-! ## Lines -/

/-- The tokens of a number with the sign before it, if it has one. -/
def signed (sign : Option Pos) (number : Token) : List Token :=
  match sign with
  | some pos => [⟨.mark .minus, pos⟩, number]
  | none => [number]

/-- What a number that is read as `n` loads. -/
def signedValue (sign : Option Pos) (n : Nat) : Int := if sign.isSome then -n else n

theorem parseTarget_signed [Constant.Evaluator] (assign : Pos) (sign : Option Pos) (text : Bytes)
    (pos : Pos) (rest : List Token) :
    parseTarget assign (signed sign ⟨.number text, pos⟩ ++ rest) =
      numberAt text pos >>= fun n => .ok (.value (signedValue sign n), (sign.getD pos).through pos, rest) := by
  cases sign with
  | none => rfl
  | some _ => rfl

theorem parseTokens_signed [Constant.Evaluator] (register assign : Pos) (sign : Option Pos)
    (text : Bytes) (pos : Pos) (rest : List Token) :
    ∃ whole, parseTokens (⟨.name (ascii "A"), register⟩ :: ⟨.mark .assign, assign⟩ ::
        (signed sign ⟨.number text, pos⟩ ++ rest)) =
      numberAt text pos >>= fun n => endOfLine rest >>= fun _ =>
        .ok (some (.address (.value (signedValue sign n)) ((sign.getD pos).through pos) whole)) := by
  refine ⟨register.through
    (((signed sign ⟨.number text, pos⟩ ++ rest).getLast?.map (·.pos)).getD assign), ?_⟩
  simp only [parseTokens, beq_self_eq_true, if_true, parseAddress, parseTarget_signed]
  cases numberAt text pos with
  | error fault => rfl
  | ok n =>
    simp only [ok_bind]
    cases endOfLine rest <;> rfl

theorem not_immediate_signedValue (sign : Option Pos) : ¬ Immediate (signedValue sign maxNumber) := by
  simp only [Immediate, immediateMax, signedValue, maxNumber]
  split <;> omega

/-- A number word is read when it is decimal or hexadecimal, as its value up to `maxNumber`, and when it
overflows before its first bad byte.  Every other word is refused by the parser, with its text and its
place; a malformed word that overflows goes through the parser, and its line does not fit the machine. -/
theorem number_words_read_exactly [Constant.Evaluator] (text : Bytes) (pos : Pos) :
    (∀ n, numberAt text pos = .ok n ↔
      (∃ value, NumberForm text value ∧ n = min value maxNumber) ∨ Overflows text ∧ n = maxNumber) ∧
    (∀ fault, numberAt text pos = .error fault ↔
      fault = (pos, .invalidNumber text) ∧ (¬ ∃ value, NumberForm text value) ∧ ¬ Overflows text) ∧
    ∀ (register assign : Pos) (sign : Option Pos),
      (∀ rest, parseTokens (⟨.name (ascii "A"), register⟩ :: ⟨.mark .assign, assign⟩ ::
          (signed sign ⟨.number text, pos⟩ ++ rest)) = .error (pos, .invalidNumber text) ↔
        (¬ ∃ value, NumberForm text value) ∧ ¬ Overflows text) ∧
      (Overflows text → ∃ statement, parseTokens (⟨.name (ascii "A"), register⟩ ::
          ⟨.mark .assign, assign⟩ :: signed sign ⟨.number text, pos⟩) = .ok (some statement) ∧
        ∀ lineNo line, ¬ Item.Fits ⟨lineNo, line, statement⟩) := by
  refine ⟨fun n => ?_, fun fault => numberAt_eq_error_iff, fun register assign sign => ⟨fun rest => ?_, ?_⟩⟩
  · rw [numberAt_eq_ok_iff, parseNumber?_eq_some_iff]
  · obtain ⟨whole, read⟩ := parseTokens_signed register assign sign text pos rest
    rw [read]
    constructor
    · intro failed
      rcases bind_eq_error_iff.mp failed with refused | ⟨n, -, ended⟩
      · exact (numberAt_eq_error_iff.mp refused).2
      · -- Behind a number that is read no fault is that of a number.
        rcases bind_eq_error_iff.mp ended with extra | ⟨_, _, same⟩
        · cases rest <;> simp [endOfLine] at extra
        · cases same
    · intro refused
      rw [numberAt_eq_error_iff.mpr ⟨rfl, refused⟩, error_bind]
  · intro overflows
    obtain ⟨whole, read⟩ := parseTokens_signed register assign sign text pos []
    have saturated : numberAt text pos = .ok maxNumber :=
      numberAt_eq_ok_iff.mpr (parseNumber?_eq_some_iff.mpr (.inr ⟨overflows, rfl⟩))
    rw [List.append_nil, saturated] at read
    exact ⟨_, read, fun lineNo line => not_immediate_signedValue sign⟩

theorem number_words_read_exactly_at_limit :
    numberAt (ascii "0xFFFFFFFFFFFFFFFFg") ⟨1, 6, 25⟩ =
        .error (⟨1, 6, 25⟩, .invalidNumber (ascii "0xFFFFFFFFFFFFFFFFg")) ∧
      Overflows (ascii "0x10000000000000000g") ∧
      ∃ statement, parseTokens [⟨.name (ascii "A"), ⟨1, 1, 2⟩⟩, ⟨.mark .assign, ⟨1, 3, 5⟩⟩,
          ⟨.mark .minus, ⟨1, 6, 7⟩⟩, ⟨.number (ascii "0x10000000000000000g"), ⟨1, 7, 27⟩⟩] =
          .ok (some statement) ∧ ¬ Item.Fits ⟨1, ascii "A := -0x10000000000000000g", statement⟩ := by
  have overflows : Overflows (ascii "0x10000000000000000g") :=
    @Overflows.hexadecimal (byte 'x') (ascii "10000000000000000") (ascii "g") (.inl rfl)
      (List.all_eq_true.mp rfl) (by decide)
  obtain ⟨-, -, lines⟩ := number_words_read_exactly (ascii "0x10000000000000000g") ⟨1, 7, 27⟩
  obtain ⟨statement, read, unfit⟩ := (lines ⟨1, 1, 2⟩ ⟨1, 3, 5⟩ (some ⟨1, 6, 7⟩)).2 overflows
  exact ⟨by decide +kernel, overflows, statement, read, unfit _ _⟩

/-- Twenty nines and a letter are no number, but the parser takes them for one; only validation refuses
the line, and for its size. -/
theorem overflowing_malformed_word_is_read :
    (¬ ∃ value, NumberForm (ascii "99999999999999999999z") value) ∧
    ∃ items, parse (ascii "A := 99999999999999999999z") = .ok items ∧
      items.map (·.statement.node) = [.address (.value maxNumber)] ∧
      validate items = .error ⟨⟨1, 6, 27⟩, ascii "A := 99999999999999999999z",
        .immediateRange (ascii "99999999999999999999z")⟩ := by
  refine ⟨?_, [⟨1, ascii "A := 99999999999999999999z",
    .address (.value maxNumber) ⟨1, 6, 27⟩ ⟨1, 1, 27⟩⟩], by decide +kernel, rfl, by decide +kernel⟩
  rintro ⟨value, form⟩
  have unmarked : ¬ Marked (ascii "99999999999999999999z") := by
    rintro ⟨letter, digits, same, -⟩
    exact absurd (List.cons.inj same).1 (by decide)
  have digit := ((numberForm_unmarked_iff unmarked).mp form).2.1 (byte 'z') (by decide)
  exact absurd digit (by decide)

end HackMachine
