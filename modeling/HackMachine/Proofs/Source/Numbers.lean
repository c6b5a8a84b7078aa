import HackMachine.Source.Number
import HackMachine.Proofs.Text.Numerals

/-! # Number words and their values

`NumberForm` gives the two well-formed shapes of a number word and the value of each, which is not
bounded.  Reading such a word gives its value, or `maxNumber` when that is less
(`NumberForm.parseNumber?_eq`).  Reading any other word fails, or gives `maxNumber` because the word
overflows before its first bad digit (`parseNumber?_eq_some`).
-/

namespace HackMachine

/-- A number word of one of the two shapes, with its value. -/
inductive NumberForm : Bytes → Nat → Prop
  | decimal {digits} : digits ≠ [] → (∀ b ∈ digits, Bytes.isDigit b = true) →
      NumberForm digits (Numeral.valueOf 10 digits)
  | hexadecimal {letter digits} : letter = byte 'x' ∨ letter = byte 'X' → digits ≠ [] →
      (∀ b ∈ digits, Numeral.isDigitOf 16 b = true) →
      NumberForm (byte '0' :: letter :: digits) (Numeral.valueOf 16 digits)

/-! ## Digits from the left -/

theorem numberFrom_overflow {base value : Nat} (positive : 0 < base) (digits : Bytes)
    (beyond : 0x10000000000000000 ≤ value) : min (Numeral.valueFrom base value digits) maxNumber = maxNumber := by
  have grows := Numeral.le_valueFrom positive value digits
  simp only [maxNumber]
  omega

/-- Digits of the base give their value, up to `maxNumber`. -/
theorem numberFrom_of_digits {base value : Nat} (positive : 0 < base) {digits : Bytes}
    (all : ∀ b ∈ digits, Numeral.isDigitOf base b = true) :
    numberFrom base value digits = some (min (Numeral.valueFrom base value digits) maxNumber) := by
  induction digits generalizing value with
  | nil => rfl
  | cons b rest ih =>
    obtain ⟨first, others⟩ := List.forall_mem_cons.mp all
    obtain ⟨digit, valued, small⟩ := Numeral.isDigitOf_iff.mp first
    rw [numberFrom, Numeral.valueFrom_cons, valued]
    simp only [Option.getD_some, if_neg (Nat.not_le.mpr small), ge_iff_le]
    -- The value never falls again, so an overflow shows in the end too.
    by_cases overflows : 0x10000000000000000 ≤ value * base + digit
    · rw [if_pos overflows, numberFrom_overflow positive rest overflows]
    · rw [if_neg overflows]
      exact ih others

/-- Whatever is read is made of digits only, or it overflows. -/
theorem numberFrom_eq_some {base value number : Nat} {digits : Bytes}
    (read : numberFrom base value digits = some number) :
    (∀ b ∈ digits, Numeral.isDigitOf base b = true) ∨ number = maxNumber := by
  induction digits generalizing value with
  | nil => exact .inl (by simp)
  | cons b rest ih =>
    rw [numberFrom] at read
    cases valued : Numeral.digitValue? b with
    | none =>
      rw [valued] at read
      cases read
    | some digit =>
      simp only [valued, ge_iff_le] at read
      by_cases large : base ≤ digit
      · rw [if_pos large] at read
        cases read
      · rw [if_neg large] at read
        by_cases overflows : 0x10000000000000000 ≤ value * base + digit
        · rw [if_pos overflows] at read
          cases read
          exact .inr rfl
        · rw [if_neg overflows] at read
          refine (ih read).imp_left fun others => ?_
          exact List.forall_mem_cons.mpr
            ⟨Numeral.isDigitOf_iff.mpr ⟨digit, valued, Nat.lt_of_not_le large⟩, others⟩

theorem numberOf_of_digits {base : Nat} (positive : 0 < base) {digits : Bytes}
    (nonempty : digits ≠ []) (all : ∀ b ∈ digits, Numeral.isDigitOf base b = true) :
    numberOf base digits = some (min (Numeral.valueOf base digits) maxNumber) := by
  rw [numberOf, if_neg (by simpa using nonempty), numberFrom_of_digits positive all]
  rfl

theorem numberOf_eq_some {base number : Nat} {digits : Bytes}
    (read : numberOf base digits = some number) :
    (digits ≠ [] ∧ ∀ b ∈ digits, Numeral.isDigitOf base b = true) ∨ number = maxNumber := by
  unfold numberOf at read
  by_cases empty : digits = []
  · rw [empty] at read
    cases read
  · rw [if_neg (by simpa using empty)] at read
    exact (numberFrom_eq_some read).imp_left fun all => ⟨empty, all⟩

/-! ## Words -/

/-- A word is read in base sixteen behind `0x` or `0X`, and else in base ten. -/
theorem parseNumber?_cases (text : Bytes) :
    (∃ letter digits, text = byte '0' :: letter :: digits ∧ (letter = byte 'x' ∨ letter = byte 'X') ∧
      parseNumber? text = numberOf 16 digits) ∨
    parseNumber? text = numberOf 10 text := by
  unfold parseNumber?
  split
  · next zero letter digits =>
    split
    · next marked =>
      simp only [Bool.and_eq_true, Bool.or_eq_true, beq_iff_eq] at marked
      exact .inl ⟨letter, digits, by rw [marked.1], marked.2, rfl⟩
    · exact .inr rfl
  · exact .inr rfl

theorem parseNumber?_hexadecimal {letter : UInt8} (marked : letter = byte 'x' ∨ letter = byte 'X')
    (digits : Bytes) : parseNumber? (byte '0' :: letter :: digits) = numberOf 16 digits := by
  rcases marked with rfl | rfl
  · rfl
  · rfl

/-- No word has both shapes. -/
theorem not_decimal_of_marked {letter : UInt8} (marked : letter = byte 'x' ∨ letter = byte 'X')
    (digits : Bytes) : ¬ ∀ b ∈ byte '0' :: letter :: digits, Bytes.isDigit b = true := by
  intro all
  have digit := all letter (by simp)
  rcases marked with rfl | rfl
  · revert digit
    decide
  · revert digit
    decide

theorem parseNumber?_decimal {digits : Bytes} (all : ∀ b ∈ digits, Bytes.isDigit b = true) :
    parseNumber? digits = numberOf 10 digits := by
  obtain ⟨letter, more, rfl, marked, -⟩ | read := parseNumber?_cases digits
  · exact absurd all (not_decimal_of_marked marked more)
  · exact read

/-- A well-formed word is read as its value, or as `maxNumber` when that is less. -/
theorem NumberForm.parseNumber?_eq {text : Bytes} {value : Nat} (form : NumberForm text value) :
    parseNumber? text = some (min value maxNumber) := by
  cases form with
  | decimal nonempty all =>
    rw [parseNumber?_decimal all]
    exact numberOf_of_digits (by omega) nonempty fun b member =>
      (Numeral.isDigitOf_ten b).trans (all b member)
  | hexadecimal marked nonempty all =>
    rw [parseNumber?_hexadecimal marked]
    exact numberOf_of_digits (by omega) nonempty all

theorem parseNumber?_eq_some {text : Bytes} {number : Nat} (read : parseNumber? text = some number) :
    (∃ value, NumberForm text value) ∨ number = maxNumber := by
  obtain ⟨letter, digits, rfl, marked, same⟩ | same := parseNumber?_cases text
  · rw [same] at read
    refine (numberOf_eq_some read).imp_left fun formed => ?_
    exact ⟨_, .hexadecimal marked formed.1 formed.2⟩
  · rw [same] at read
    refine (numberOf_eq_some read).imp_left fun formed => ?_
    exact ⟨_, .decimal formed.1 fun b member =>
      (Numeral.isDigitOf_ten b).symm.trans (formed.2 b member)⟩

theorem NumberForm.unique {text : Bytes} {value other : Nat} (form : NumberForm text value)
    (form' : NumberForm text other) : value = other := by
  cases form with
  | decimal _ all =>
    cases form' with
    | decimal _ _ => rfl
    | hexadecimal marked _ _ => exact absurd all (not_decimal_of_marked marked _)
  | hexadecimal marked _ _ =>
    cases form' with
    | decimal _ all => exact absurd all (not_decimal_of_marked marked _)
    | hexadecimal _ _ _ => rfl

end HackMachine
