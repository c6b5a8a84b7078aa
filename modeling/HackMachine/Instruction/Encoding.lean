import HackMachine.Instruction.Basic

/-! # Instruction words

An address instruction is a word with bit 15 clear: it loads itself into `A`.  A compute instruction
is `111a cccc ccdd djjj`: the source of the second input, the six switches of the unit, the targets
`A`, `D`, `*A`, and the signs on which it jumps.

* `Expr.operation` — the switches that make the unit compute an expression.  The unit only adds and
  conjoins, so each catalog entry is built from two's-complement identities, with `~v = -v - 1`.
* `Expr.normalize` — operands of a commutative operator in the order of the inputs.
* `encodeCompute`, `encodeAddress` — the words.
* `Word.control` and its neighbours — the fields of a word.
-/

namespace HackMachine

structure Operation where
  control : Control
  /-- The second input is the memory cell rather than `A`. -/
  memory : Bool
  deriving DecidableEq, Repr, Inhabited

namespace Control

def complement (c : Control) (x : Bool) : Control :=
  if x then { c with negateX := true } else { c with negateY := true }

/-- Makes an input all ones, which is -1: zeroed, then complemented. -/
def allOnes (c : Control) (x : Bool) : Control :=
  (if x then { c with zeroX := true } else { c with zeroY := true }).complement x

end Control

namespace Expr

/-- The switches for an expression whose operands stand in the order of the inputs. -/
def control : Expr → Control
  -- 0 + 0
  | .zero => { zeroX := true, zeroY := true, add := true }
  -- ~(-1 + -1)
  | .one => (Control.allOnes { add := true, negateOut := true } true).allOnes false
  -- -1 + 0
  | .negOne => Control.allOnes { zeroY := true, add := true } true
  -- v & -1
  | .reg v => Control.allOnes {} !v.drivesX
  -- ~(v & -1)
  | .not v => Control.allOnes { negateOut := true } !v.drivesX
  -- ~(v + -1) = -v
  | .neg v => Control.allOnes { add := true, negateOut := true } !v.drivesX
  -- ~(~v + -1) = v + 1
  | .inc v => (Control.allOnes { add := true, negateOut := true } !v.drivesX).complement v.drivesX
  -- v + -1
  | .dec v => Control.allOnes { add := true } !v.drivesX
  | .binary x op _ =>
    match op with
    | .add => { add := true }
    | .and => {}
    -- ~(~x & ~y)
    | .or => { negateX := true, negateY := true, negateOut := true }
    -- ~(~x + y); the minuend keeps its source position
    | .sub => Control.complement { add := true, negateOut := true } x.drivesX

def operation (e : Expr) : Operation := ⟨e.control, e.usesMemory⟩

/-- The operands of a commutative operator in the order of the inputs: `D` first.  Subtraction keeps
the source order. -/
def normalize : Expr → Expr
  | .binary x op y => if op.commutes && !x.drivesX then .binary y op x else .binary x op y
  | e => e

end Expr

/-- Bits 15 to 13, set in every compute word. -/
def computeMark : Word := flag 15 true ||| flag 14 true ||| flag 13 true

/-- The word of an operation with its targets, without a jump. -/
def encodeOperation (op : Operation) (targets : List Register) : Word :=
  computeMark ||| flag 12 op.memory |||
    (flag 11 op.control.zeroX ||| flag 10 op.control.negateX ||| flag 9 op.control.zeroY |||
      flag 8 op.control.negateY ||| flag 7 op.control.add ||| flag 6 op.control.negateOut) |||
    (flag 5 (targets.contains .a) ||| flag 4 (targets.contains .d) ||| flag 3 (targets.contains .m))

def Jump.bits (jump : Jump) : Word :=
  flag 2 jump.onNegative ||| flag 1 jump.onZero ||| flag 0 jump.onPositive

def encodeCompute (targets : List Register) (expr : Expr) (jump : Jump) : Word :=
  encodeOperation expr.normalize.operation targets ||| jump.bits

def immediateMax : Int := 0x7fff

/-- The word of an address instruction, if the value fits below bit 15. -/
def encodeAddress? (value : Word) : Option Word := if value.msb then none else some value

namespace Word

def isCompute (w : Word) : Bool := w.getLsbD 15

def readsMemory (w : Word) : Bool := w.getLsbD 12

def control (w : Word) : Control := Control.ofBits w 6

def operation (w : Word) : Operation := ⟨Word.control w, Word.readsMemory w⟩

def writesA (w : Word) : Bool := w.getLsbD 5

def writesD (w : Word) : Bool := w.getLsbD 4

def writesM (w : Word) : Bool := w.getLsbD 3

/-- The targets in the order `A`, `D`, `*A`. -/
def targets (w : Word) : List Register :=
  (if writesA w then [.a] else []) ++ (if writesD w then [.d] else []) ++
    (if writesM w then [.m] else [])

def jump (w : Word) : Jump := Jump.ofSigns (w.getLsbD 2) (w.getLsbD 1) (w.getLsbD 0)

end Word

end HackMachine
