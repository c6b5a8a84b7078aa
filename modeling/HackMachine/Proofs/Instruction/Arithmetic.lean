import Mathlib.Algebra.BigOperators.Group.Finset.Basic
import Mathlib.Data.Nat.Bitwise
import HackMachine.Proofs.Instruction.Canonical

/-! # The unit in integer arithmetic

`Control.arithmetic` says what the unit computes without words: complementing is a difference, and the
conjunction of two numbers is the sum of the powers of two by which both have an odd quotient
(`sum_commonBits`).  The unit agrees with it for every setting of its switches, its status tells the sign
of the result, and the jumps of compute words follow that sign.
-/

namespace HackMachine

namespace Control

/-- The complement of a 16-bit number, if it is asked for. -/
def complementInt (negate : Bool) (v : Int) : Int := if negate then 65535 - v else v

/-- An input behind its two switches. -/
def conditionInt (zero negate : Bool) (v : Int) : Int := complementInt negate (if zero then 0 else v)

/-- The sum of the powers of two by which both numbers have an odd quotient. -/
def commonBits (x y : Int) : Int :=
  ∑ n ∈ Finset.range 16, if x / 2 ^ n % 2 = 1 ∧ y / 2 ^ n % 2 = 1 then 2 ^ n else 0

/-- What the unit makes of two 16-bit numbers. -/
def arithmetic (c : Control) (x y : Int) : Int :=
  let x := conditionInt c.zeroX c.negateX x
  let y := conditionInt c.zeroY c.negateY y
  complementInt c.negateOut (if c.add then (x + y) % 65536 else commonBits x y)

/-! ## Words as integers -/

theorem toNat_complement (negate : Bool) (v : Word) :
    ((if negate then ~~~v else v).toNat : Int) = complementInt negate v.toNat := by
  cases negate with
  | false => rfl
  | true =>
    have small := v.isLt
    simp only [complementInt, if_true, BitVec.toNat_not]
    omega

theorem toNat_condition (zero negate : Bool) (v : Word) :
    ((condition zero negate v).toNat : Int) = conditionInt zero negate v.toNat := by
  rw [condition, toNat_complement, conditionInt]
  cases zero <;> rfl

/-- The lowest `k` bits that two numbers have in common. -/
theorem sum_commonBits (x y k : Nat) :
    (∑ n ∈ Finset.range k, if x / 2 ^ n % 2 = 1 ∧ y / 2 ^ n % 2 = 1 then 2 ^ n else 0) =
      (x &&& y) % 2 ^ k := by
  induction k with
  | zero => simp [Nat.mod_one]
  | succ k ih =>
    -- The bit at `k` is set in the conjunction exactly when both quotients are odd.
    have bit : (x &&& y) / 2 ^ k % 2 = if x / 2 ^ k % 2 = 1 ∧ y / 2 ^ k % 2 = 1 then 1 else 0 := by
      have both := Nat.testBit_and x y k
      simp only [Nat.testBit_eq_decide_div_mod_eq, ← Bool.decide_and, decide_eq_decide] at both
      split
      · next odd => exact both.mpr odd
      · next even => exact Nat.mod_two_ne_one.mp fun odd => even (both.mp odd)
    rw [Finset.sum_range_succ, ih, Nat.mod_pow_succ, bit]
    split <;> simp

theorem toNat_and (x y : Word) : ((x &&& y).toNat : Int) = commonBits x.toNat y.toNat := by
  have small : (x &&& y).toNat < 2 ^ 16 := (x &&& y).isLt
  rw [← Nat.mod_eq_of_lt small, BitVec.toNat_and, ← sum_commonBits, commonBits]
  norm_cast

theorem toNat_result (c : Control) (x y : Word) :
    ((c.result x y).toNat : Int) = c.arithmetic x.toNat y.toNat := by
  simp only [result, arithmetic, toNat_complement, ← toNat_condition]
  cases c.add with
  | false => simp only [Bool.false_eq_true, if_false, toNat_and]
  | true =>
    simp only [if_true, BitVec.toNat_add, Int.natCast_emod, Int.natCast_add]
    rfl

end Control

/-! ## Status and jumps -/

theorem Status.zero_iff (out : Word) : (Status.of out).zero = true ↔ (out.toNat : Int) = 0 := by
  simp only [Status.of, beq_iff_eq]
  rw [← BitVec.toNat_inj]
  simp

theorem Status.negative_iff (out : Word) : (Status.of out).negative = true ↔ 32768 ≤ (out.toNat : Int) := by
  simp only [Status.of, BitVec.msb_eq_decide, decide_eq_true_eq]
  omega

/-- A jump is taken when it is one for the sign of the result. -/
theorem Jump.taken_iff (jump : Jump) (out : Word) :
    jump.taken (Status.of out) = true ↔
      (jump.onNegative = true ∧ out.toInt < 0) ∨ (jump.onZero = true ∧ out.toInt = 0) ∨
        (jump.onPositive = true ∧ 0 < out.toInt) := by
  have negative : out.msb = decide (out.toInt < 0) := BitVec.msb_eq_toInt
  have zero : (out == 0#16) = decide (out.toInt = 0) := by
    rw [Bool.eq_iff_iff, beq_iff_eq, decide_eq_true_iff, ← BitVec.toInt_inj, BitVec.toInt_zero]
  have positive : (!decide (out.toInt < 0) && !decide (out.toInt = 0)) = decide (0 < out.toInt) := by
    rw [Bool.eq_iff_iff]
    simp only [Bool.and_eq_true, Bool.not_eq_true', decide_eq_false_iff_not, decide_eq_true_eq]
    omega
  simp only [Jump.taken, Status.of, negative, zero, positive, Bool.or_eq_true, Bool.and_eq_true,
    decide_eq_true_eq, or_assoc]

/-- The unit is integer arithmetic: for every setting of the switches and all inputs the result is the
one that integers give, the status tells whether it is zero and whether it is at least 2^15, and a word
jumps on that status exactly when it has the bit for the sign of the result. -/
theorem compute_is_arithmetic (c : Control) (x y : Word) :
    let out := (c.compute x y).1
    let status := (c.compute x y).2
    (out.toNat : Int) = c.arithmetic x.toNat y.toNat ∧
      (status.zero = true ↔ c.arithmetic x.toNat y.toNat = 0) ∧
      (status.negative = true ↔ 32768 ≤ c.arithmetic x.toNat y.toNat) ∧
      ∀ word : Word, (Word.jump word).taken status = true ↔
        (word.getLsbD 2 = true ∧ out.toInt < 0) ∨ (word.getLsbD 1 = true ∧ out.toInt = 0) ∨
          (word.getLsbD 0 = true ∧ 0 < out.toInt) := by
  have same := c.toNat_result x y
  refine ⟨same, ?_, ?_, fun word => ?_⟩
  · rw [← same]
    exact Status.zero_iff (c.result x y)
  · rw [← same]
    exact Status.negative_iff (c.result x y)
  · obtain ⟨negative, zero, positive⟩ :=
      Jump.on_ofSigns (word.getLsbD 2) (word.getLsbD 1) (word.getLsbD 0)
    have taken := Jump.taken_iff (Word.jump word) (c.result x y)
    rw [Word.jump, negative, zero, positive] at taken
    exact taken

end HackMachine
