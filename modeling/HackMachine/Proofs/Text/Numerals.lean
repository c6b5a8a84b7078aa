import Mathlib.Algebra.Group.Nat.Defs
import HackMachine.Text.Numeral

/-! # Numerals and their values

`valueFrom` is the value of digits behind those that gave a number; `Numeral.valueOf` starts from
nothing.  The numeral of a number in a base up to ten is made of decimal digits and has that number
for its value, also when zeros bring it to a width; a number that fits has then exactly that width.
`IsDecimal` says what makes a text the decimal numeral of a number, without writing one.
-/

namespace HackMachine.Numeral

/-- The value of digits behind digits of the value `value`. -/
def valueFrom (base value : Nat) (digits : Bytes) : Nat :=
  digits.foldl (fun value b => value * base + (digitValue? b).getD 0) value

theorem valueFrom_cons (base value : Nat) (b : UInt8) (rest : Bytes) :
    valueFrom base value (b :: rest) = valueFrom base (value * base + (digitValue? b).getD 0) rest := rfl

theorem le_valueFrom {base : Nat} (positive : 0 < base) (value : Nat) (digits : Bytes) :
    value ≤ valueFrom base value digits := by
  induction digits generalizing value with
  | nil => exact Nat.le_refl value
  | cons b rest ih =>
    rw [valueFrom_cons]
    calc value ≤ value * base := Nat.le_mul_of_pos_right value positive
      _ ≤ value * base + (digitValue? b).getD 0 := Nat.le_add_right _ _
      _ ≤ valueFrom base (value * base + (digitValue? b).getD 0) rest := ih _

theorem valueOf_append_digit (base : Nat) (digits : Bytes) (b : UInt8) :
    valueOf base (digits ++ [b]) = valueOf base digits * base + (digitValue? b).getD 0 := by
  simp [valueOf]

theorem isDigitOf_iff {base : Nat} {b : UInt8} :
    isDigitOf base b = true ↔ ∃ value, digitValue? b = some value ∧ value < base := by
  unfold isDigitOf
  cases digitValue? b <;> simp

/-! ## Decimal digits -/

/-- The digits of base ten are the bytes from `0` to `9`. -/
theorem isDigitOf_ten (b : UInt8) : isDigitOf 10 b = Bytes.isDigit b := by
  have zero : (byte '0').toNat = 48 := by decide
  have nine : (byte '9').toNat = 57 := by decide
  rw [Bool.eq_iff_iff, isDigitOf_iff]
  unfold digitValue? Bytes.isDigit
  by_cases decimal : (decide (byte '0' ≤ b) && decide (b ≤ byte '9')) = true
  · simp only [decimal, if_true, Option.some.injEq, exists_eq_left', iff_true]
    simp only [Bool.and_eq_true, decide_eq_true_eq] at decimal
    have low := UInt8.le_iff_toNat_le.mp decimal.1
    have high := UInt8.le_iff_toNat_le.mp decimal.2
    rw [UInt8.toNat_sub_of_le _ _ decimal.1]
    omega
  · -- The value of a letter is at least ten.
    simp only [decimal, Bool.false_eq_true, if_false, iff_false]
    intro found
    obtain ⟨value, valued, small⟩ := found
    split at valued
    · cases valued
      omega
    · split at valued
      · cases valued
        omega
      · cases valued

theorem digitValue?_digit {value : Nat} (small : value < 10) : digitValue? (digit value) = some value := by
  have each : ∀ v < 10, digitValue? (digit v) = some v := by decide
  exact each value small

theorem isDigit_digit {value : Nat} (small : value < 10) : Bytes.isDigit (digit value) = true := by
  rw [← isDigitOf_ten]
  exact isDigitOf_iff.mpr ⟨value, digitValue?_digit small, small⟩

/-! ## Digits of a numeral -/

theorem length_digits_le {base n k : Nat} (small : n < base ^ (k + 1)) : (digits base n).length ≤ k + 1 := by
  fun_induction digits base n generalizing k with
  | case1 n last => simp
  | case2 n more ih =>
    cases k with
    | zero =>
      rw [Nat.zero_add, Nat.pow_one] at small
      omega
    | succ k =>
      have fewer : n / base < base ^ (k + 1) := Nat.div_lt_of_lt_mul (by rwa [Nat.pow_succ'] at small)
      have shorter := ih fewer
      rw [List.length_append, List.length_singleton]
      omega

/-- A number that fits has the width that it is brought to. -/
theorem length_padded {base n k : Nat} (small : n < base ^ (k + 1)) :
    (padded base (k + 1) n).length = k + 1 := by
  have short := length_digits_le small
  rw [padded, Bytes.padLeft, Bytes.fill, List.length_append, List.length_replicate]
  omega

section

variable {base : Nat} (two : 2 ≤ base)

include two

theorem exists_digit_of_mem_digits {n : Nat} {b : UInt8} (member : b ∈ digits base n) :
    ∃ value < base, b = digit value := by
  fun_induction digits base n with
  | case1 n last => exact ⟨n, by omega, List.mem_singleton.mp member⟩
  | case2 n more ih =>
    rcases List.mem_append.mp member with member | member
    · exact ih member
    · exact ⟨n % base, Nat.mod_lt n (by omega), List.mem_singleton.mp member⟩

theorem exists_digit_of_mem_padded {width n : Nat} {b : UInt8} (member : b ∈ padded base width n) :
    ∃ value < base, b = digit value := by
  rcases List.mem_append.mp member with filled | member
  · exact ⟨0, by omega, List.eq_of_mem_replicate filled⟩
  · exact exists_digit_of_mem_digits two member

end

section

variable {base : Nat} (two : 2 ≤ base) (ten : base ≤ 10)

include two ten

theorem isDigit_of_mem_digits {n : Nat} {b : UInt8} (member : b ∈ digits base n) :
    Bytes.isDigit b = true := by
  obtain ⟨value, small, rfl⟩ := exists_digit_of_mem_digits two member
  exact isDigit_digit (by omega)

theorem isDigit_of_mem_padded {width n : Nat} {b : UInt8} (member : b ∈ padded base width n) :
    Bytes.isDigit b = true := by
  obtain ⟨value, small, rfl⟩ := exists_digit_of_mem_padded two member
  exact isDigit_digit (by omega)

theorem valueOf_digits (n : Nat) : valueOf base (digits base n) = n := by
  fun_induction digits base n with
  | case1 n last =>
    have small : n < 10 := by omega
    simp [valueOf, digitValue?_digit small]
  | case2 n more ih =>
    have small : n % base < base := Nat.mod_lt n (by omega)
    rw [valueOf_append_digit, ih, digitValue?_digit (by omega), Option.getD_some, Nat.mul_comm]
    exact Nat.div_add_mod n base

/-- Zeros in front leave the value as it is. -/
theorem valueOf_padded (width n : Nat) : valueOf base (padded base width n) = n := by
  have zeros : ∀ count text, valueOf base (Bytes.fill count (byte '0') ++ text) = valueOf base text := by
    intro count text
    induction count with
    | zero => rfl
    | succ count ih =>
      have start : 0 * base + (digitValue? (byte '0')).getD 0 = 0 := by
        rw [Nat.zero_mul]
        decide
      show valueFrom base 0 (byte '0' :: (Bytes.fill count (byte '0') ++ text)) = _
      rw [valueFrom_cons, start]
      exact ih
  rw [padded, Bytes.padLeft, zeros]
  exact valueOf_digits two ten n

end

theorem digits_ne_nil (base n : Nat) : digits base n ≠ [] := by
  rw [digits]
  split <;> simp

/-- The decimal digits of a number, without a zero in front of others. -/
structure IsDecimal (text : Bytes) (n : Nat) : Prop where
  nonempty : text ≠ []
  digits : ∀ b ∈ text, Bytes.isDigit b = true
  value : valueOf 10 text = n
  shortest : text.head? = some (byte '0') → text = [byte '0']

theorem head?_digits {n : Nat} (zero : (digits 10 n).head? = some (byte '0')) :
    digits 10 n = [byte '0'] := by
  fun_induction digits 10 n with
  | case1 n last => simpa using zero
  | case2 n more ih =>
    -- The quotient is positive, so its numeral is not a zero.
    obtain ⟨first, rest, cut⟩ := List.exists_cons_of_ne_nil (digits_ne_nil 10 (n / 10))
    have front : (digits 10 (n / 10)).head? = some (byte '0') := by
      rw [cut] at zero ⊢
      exact zero
    have value := valueOf_digits (by decide) (Nat.le_refl 10) (n / 10)
    rw [ih front] at value
    have none : valueOf 10 [byte '0'] = 0 := by decide
    omega

theorem isDecimal_digits (n : Nat) : IsDecimal (digits 10 n) n where
  nonempty := digits_ne_nil 10 n
  digits _ member := isDigit_of_mem_digits (by decide) (Nat.le_refl 10) member
  value := valueOf_digits (by decide) (Nat.le_refl 10) n
  shortest := head?_digits

theorem decimal_natCast (n : Nat) : decimal n = digits 10 n := by
  rw [decimal, sign, if_neg (by omega), Int.natAbs_natCast, List.nil_append]

end HackMachine.Numeral
