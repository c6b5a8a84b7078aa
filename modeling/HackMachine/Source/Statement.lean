import HackMachine.Instruction.Basic
import HackMachine.Source.Position

/-! # Statements of an assembly program

A source line declares a label, loads `A`, or computes.  Each statement keeps the places its parts
were read from, and has a canonical `text`.
-/

namespace HackMachine

inductive Target where
  | value (value : Int)
  | label (name : Bytes)
  deriving DecidableEq, Repr, Inhabited

structure Destination where
  register : Register
  pos : Pos
  deriving DecidableEq, Repr, Inhabited

structure Computation where
  destinations : List Destination
  expr : Expr
  exprPos : Pos
  jump : Jump
  deriving DecidableEq, Repr, Inhabited

def Computation.registers (c : Computation) : List Register := c.destinations.map (·.register)

inductive Statement where
  /-- The name stands for the address of the next instruction. -/
  | label (name : Bytes) (pos : Pos)
  | address (target : Target) (targetPos pos : Pos)
  | compute (computation : Computation) (pos : Pos)
  deriving DecidableEq, Repr, Inhabited

namespace Statement

def pos : Statement → Pos
  | .label _ pos | .address _ _ pos | .compute _ pos => pos

def text : Statement → Bytes
  | .label name _ => name ++ ascii ":"
  | .address (.label name) _ _ => ascii "A := @" ++ name
  | .address (.value value) _ _ => ascii "A := " ++ Numeral.decimal value
  | .compute c _ => computeText (c.registers.map Register.text) c.expr.text c.jump.text?

def isInstruction : Statement → Bool
  | .label _ _ => false
  | _ => true

end Statement

structure Item where
  lineNo : Nat
  line : Bytes
  statement : Statement
  deriving DecidableEq, Repr, Inhabited

def instructions (items : List Item) : List Item := items.filter (·.statement.isInstruction)

end HackMachine
