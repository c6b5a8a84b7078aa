import HackMachine.Machine.Cpu
import HackMachine.Proofs.Program.Validity

/-! # Running parsed instructions

A direct interpreter of parsed programs, which knows nothing of words, fields or switches:

* `Expr.eval` evaluates an expression as it is written;
* `Statement.perform` is the effect of one instruction;
* `interpret` runs a number of instructions and stops at the first one that cannot run.

`Expr.eval_eq_result` says that the unit computes the same from the switches of an expression.
-/

namespace HackMachine

/-- What instructions read and write. -/
structure State where
  a : Word
  d : Word
  pc : Word
  ram : Array Word
  deriving DecidableEq, Repr, Inhabited

def Cpu.state (cpu : Cpu) : State := ⟨cpu.a, cpu.d, cpu.pc, cpu.ram⟩

/-- The operator on words, modulo 2^16. -/
def Operator.apply : Operator → Word → Word → Word
  | .add, x, y => x + y
  | .sub, x, y => x - y
  | .and, x, y => x &&& y
  | .or, x, y => x ||| y

/-- Whether a signed result satisfies the condition. -/
def Jump.holds : Jump → Int → Bool
  | .never, _ => false
  | .gt, v => 0 < v
  | .eq, v => v = 0
  | .ge, v => 0 ≤ v
  | .lt, v => v < 0
  | .ne, v => v ≠ 0
  | .le, v => v ≤ 0
  | .always, _ => true

namespace State

/-- The value of a register; the memory cell has none where `A` lies outside of the memory. -/
def read (s : State) : Register → Option Word
  | .a => some s.a
  | .d => some s.d
  | .m => s.ram[s.a.toNat]?

/-- Puts a value into the listed registers, the memory cell being the one that `A` addresses before. -/
def store (s : State) (targets : List Register) (v : Word) : Option State :=
  if .m ∈ targets ∧ s.ram.size ≤ s.a.toNat then none
  else some { s with
    a := if .a ∈ targets then v else s.a
    d := if .d ∈ targets then v else s.d
    ram := if .m ∈ targets then s.ram.setIfInBounds s.a.toNat v else s.ram }

end State

/-- The value of an expression, operands in written order. -/
def Expr.eval (read : Register → Option Word) : Expr → Option Word
  | .zero => some 0#16
  | .one => some 1#16
  | .negOne => some (-1#16)
  | .reg x => read x
  | .not x => do return ~~~(← read x)
  | .neg x => do return -(← read x)
  | .inc x => do return (← read x) + 1#16
  | .dec x => do return (← read x) - 1#16
  | .binary x op y => do return op.apply (← read x) (← read y)

/-- The effect of an instruction of a program. -/
def Statement.perform (items : List Item) (s : State) : Statement → Option State
  | .address (.value value) _ _ => some { s with a := BitVec.ofInt 16 value, pc := s.pc + 1#16 }
  | .address (.label name) _ _ => do
    let address ← addressOf? items name
    return { s with a := BitVec.ofNat 16 address, pc := s.pc + 1#16 }
  | .compute c _ => do
    let v ← c.expr.eval s.read
    let stored ← s.store c.registers v
    return { stored with pc := if c.jump.holds v.toInt then s.a else s.pc + 1#16 }
  | .label _ _ => none

/-- The instruction at the program counter. -/
def interpretOne (items : List Item) (s : State) : Option State := do
  let item ← (instructions items)[s.pc.toNat]?
  item.statement.perform items s

/-- The state behind at most `k` instructions, and whether one of them could not run. -/
def interpret (items : List Item) : Nat → State → State × Bool
  | 0, s => (s, false)
  | k + 1, s =>
    match interpretOne items s with
    | some next => interpret items k next
    | none => (s, true)

/-! ## The unit evaluates expressions -/

/-- The input of the unit that a register drives. -/
def Register.input (x : Register) (first second : Word) : Word := if x.drivesX then first else second

theorem Register.input_of_ne {x : Register} (other : x ≠ .d) (first second : Word) :
    x.input first second = second := by
  cases x with
  | d => exact absurd rfl other
  | _ => rfl

section

variable (x : Register) (first second : Word)

theorem result_reg : (Expr.reg x).control.result first second = x.input first second := by
  cases x
  case d =>
    show first &&& ~~~0#16 = first
    rw [BitVec.not_zero, BitVec.and_allOnes]
  case a | m =>
    show ~~~0#16 &&& second = second
    rw [BitVec.not_zero, BitVec.allOnes_and]

theorem result_not : (Expr.not x).control.result first second = ~~~x.input first second := by
  cases x
  case d =>
    show ~~~(first &&& ~~~0#16) = ~~~first
    rw [BitVec.not_zero, BitVec.and_allOnes]
  case a | m =>
    show ~~~(~~~0#16 &&& second) = ~~~second
    rw [BitVec.not_zero, BitVec.allOnes_and]

theorem result_dec : (Expr.dec x).control.result first second = x.input first second - 1#16 := by
  cases x
  case d =>
    show first + ~~~0#16 = first - 1#16
    bv_omega
  case a | m =>
    show ~~~0#16 + second = second - 1#16
    bv_omega

theorem result_neg : (Expr.neg x).control.result first second = -x.input first second := by
  cases x
  case d =>
    show ~~~(first + ~~~0#16) = -first
    bv_omega
  case a | m =>
    show ~~~(~~~0#16 + second) = -second
    bv_omega

theorem result_inc : (Expr.inc x).control.result first second = x.input first second + 1#16 := by
  cases x
  case d =>
    show ~~~(~~~first + ~~~0#16) = first + 1#16
    bv_omega
  case a | m =>
    show ~~~(~~~0#16 + ~~~second) = second + 1#16
    bv_omega

/-- The operands of a commutative operator change places where the first one drives the second
input; a difference complements the input of its minuend. -/
theorem result_binary (y : Register) (op : Operator) (fits : (Expr.binary x op y).OperandsFit) :
    (Expr.binary x op y).normalize.control.result first second =
      op.apply (x.input first second) (y.input first second) := by
  obtain ⟨rfl, other⟩ | ⟨other, rfl⟩ := fits
  · rw [Register.input_of_ne other]
    cases op with
    | add => rfl
    | and => rfl
    | or =>
      show ~~~(~~~first &&& ~~~second) = first ||| second
      simp [BitVec.not_and]
    | sub =>
      show ~~~(~~~first + second) = first - second
      bv_omega
  · have second_input : x.drivesX = false := by
      cases x with
      | d => exact absurd rfl other
      | _ => rfl
    rw [Register.input_of_ne other]
    -- `D` comes second: normalizing exchanges the operands, except those of a difference.
    simp only [Expr.normalize, second_input, Bool.not_false, Bool.and_true]
    cases op with
    | add => exact BitVec.add_comm first second
    | and => exact BitVec.and_comm first second
    | or =>
      show ~~~(~~~first &&& ~~~second) = second ||| first
      simp [BitVec.not_and, BitVec.or_comm]
    | sub =>
      show (Control.complement { add := true, negateOut := true } x.drivesX).result first second =
        second - first
      rw [second_input]
      show ~~~(first + ~~~second) = second - first
      bv_omega

end

/-- The unit computes an expression from the inputs that its registers drive. -/
theorem eval_inputs {e : Expr} (fits : e.OperandsFit) (first second : Word) :
    e.eval (fun x => some (x.input first second)) =
      some (e.normalize.control.result first second) := by
  cases e with
  | zero => rfl
  | one => exact congrArg some (by decide : (1#16 : Word) = ~~~(~~~0#16 + ~~~0#16))
  | negOne => exact congrArg some (by decide : (-1#16 : Word) = ~~~0#16 + 0#16)
  | reg x => exact congrArg some (result_reg x first second).symm
  | not x => exact congrArg some (result_not x first second).symm
  | neg x => exact congrArg some (result_neg x first second).symm
  | inc x => exact congrArg some (result_inc x first second).symm
  | dec x => exact congrArg some (result_dec x first second).symm
  | binary x op y => exact congrArg some (result_binary x first second y op fits).symm

/-- The second input of the unit, if there is one. -/
def State.second (s : State) (memory : Bool) : Option Word := if memory then s.read .m else some s.a

/-- The registers of an expression that the machine can evaluate are `D` and the second input. -/
theorem eval_read {e : Expr} (fits : e.OperandsFit) (s : State) :
    e.eval s.read =
      (s.second e.usesMemory).bind fun y => e.eval fun x => some (x.input s.d y) := by
  cases e with
  | zero | one | negOne => rfl
  | reg x =>
    cases x
    case a | d => rfl
    case m => exact (Option.bind_fun_some (s.read .m)).symm
  | not x | neg x | inc x | dec x => cases x <;> rfl
  | binary x op y =>
    obtain ⟨rfl, other⟩ | ⟨other, rfl⟩ := fits
    · cases y
      case d => exact absurd rfl other
      case a | m => rfl
    · cases x
      case d => exact absurd rfl other
      case a | m => rfl

theorem eval_eq_result {e : Expr} (fits : e.OperandsFit) (s : State) :
    e.eval s.read = (s.second e.usesMemory).map (e.normalize.control.result s.d) := by
  rw [eval_read fits, Option.map_eq_bind]
  congr 1
  funext y
  exact eval_inputs fits s.d y

end HackMachine
