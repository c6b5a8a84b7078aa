import HackMachine.Text.Numeral
import HackMachine.Alu

/-! # Registers, expressions and jumps

What a compute instruction is made of, as it is written in source text:

* `Register` — `A`, `D` and `*A`, the memory cell that `A` addresses;
* `Operator` and `Expr` — the fixed catalog of expressions the machine can evaluate;
* `Jump` — the conditions on the result under which the program continues at `A`.

Each has a `text`, its canonical spelling.
-/

namespace HackMachine

inductive Register where
  | a
  | d
  /-- The memory cell addressed by `A`. -/
  | m
  deriving DecidableEq, Repr, Inhabited

inductive Operator where
  | add
  | sub
  | and
  | or
  deriving DecidableEq, Repr, Inhabited

inductive Jump where
  | never
  | gt
  | eq
  | ge
  | lt
  | ne
  | le
  | always
  deriving DecidableEq, Repr, Inhabited

/-- An expression of the catalog; operands stand in written order. -/
inductive Expr where
  | zero
  | one
  | negOne
  | reg (x : Register)
  | not (x : Register)
  | neg (x : Register)
  | inc (x : Register)
  | dec (x : Register)
  | binary (x : Register) (op : Operator) (y : Register)
  deriving DecidableEq, Repr, Inhabited

namespace Register

def text : Register → Bytes
  | .a => ascii "A"
  | .d => ascii "D"
  | .m => ascii "*A"

/-- The data register drives the first input of the unit, the other two drive the second. -/
def drivesX : Register → Bool
  | .d => true
  | _ => false

end Register

namespace Operator

def text : Operator → Bytes
  | .add => ascii "+"
  | .sub => ascii "-"
  | .and => ascii "&"
  | .or => ascii "|"

def commutes (op : Operator) : Bool := op != .sub

end Operator

namespace Jump

def text : Jump → Bytes
  | .never => []
  | .gt => ascii "jgt"
  | .eq => ascii "jeq"
  | .ge => ascii "jge"
  | .lt => ascii "jlt"
  | .ne => ascii "jne"
  | .le => ascii "jle"
  | .always => ascii "jmp"

def onNegative : Jump → Bool
  | .lt | .ne | .le | .always => true
  | _ => false

def onZero : Jump → Bool
  | .eq | .ge | .le | .always => true
  | _ => false

def onPositive : Jump → Bool
  | .gt | .ge | .ne | .always => true
  | _ => false

def ofSigns (negative zero positive : Bool) : Jump :=
  match negative, zero, positive with
  | false, false, false => .never
  | false, false, true => .gt
  | false, true, false => .eq
  | false, true, true => .ge
  | true, false, false => .lt
  | true, false, true => .ne
  | true, true, false => .le
  | true, true, true => .always

def taken (jump : Jump) (status : Status) : Bool :=
  (jump.onNegative && status.negative) || (jump.onZero && status.zero) ||
    (jump.onPositive && (!status.negative && !status.zero))

def named : List Jump := [.gt, .eq, .ge, .lt, .ne, .le, .always]

/-- The condition a word spells, whatever the case of its letters. -/
def ofWord? (word : Bytes) : Option Jump := named.find? (·.text == word.map Bytes.toLower)

end Jump

namespace Expr

def text : Expr → Bytes
  | .zero => ascii "0"
  | .one => ascii "1"
  | .negOne => ascii "-1"
  | .reg x => x.text
  | .not x => ascii "!" ++ x.text
  | .neg x => ascii "-" ++ x.text
  | .inc x => x.text ++ ascii " + 1"
  | .dec x => x.text ++ ascii " - 1"
  | .binary x op y => x.text ++ ascii " " ++ op.text ++ ascii " " ++ y.text

def usesMemory : Expr → Bool
  | .zero | .one | .negOne => false
  | .reg x | .not x | .neg x | .inc x | .dec x => x == .m
  | .binary x _ y => x == .m || y == .m

end Expr

/-- The text of a compute instruction from the texts of its parts: the targets before ` = `, the
jump, if it has a text, after `; `. -/
def computeText (targets : List Bytes) (expr : Bytes) (jump : Option Bytes) : Bytes :=
  (if targets.isEmpty then [] else Bytes.join (ascii ", ") targets ++ ascii " = ") ++ expr ++
    match jump with
    | some word => ascii "; " ++ word
    | none => []

/-- The text of the part after the expression: a jump that is never taken is not written. -/
def Jump.text? (jump : Jump) : Option Bytes := if jump = .never then none else some jump.text

end HackMachine
