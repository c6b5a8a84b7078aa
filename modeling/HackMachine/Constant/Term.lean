import HackMachine.Constant.Failure

/-! # Terms and statements of constant expressions

The grammar, from the loosest to the tightest binding: conditional, `or`, `and`, `not`, comparisons,
`|`, `^`, `&`, shifts, sums, products, signs, indexing, attributes and calls.
-/

namespace HackMachine

namespace Constant

inductive Comparison where
  | eq
  | ne
  | lt
  | le
  | gt
  | ge
  deriving DecidableEq, Repr, Inhabited

inductive BinaryOp where
  | or
  | and
  | compare (c : Comparison)
  | isIn
  | notIn
  | bitOr
  | bitXor
  | bitAnd
  | shiftLeft
  | shiftRight
  | add
  | sub
  | mul
  | div
  | floorDiv
  | mod
  deriving DecidableEq, Repr, Inhabited

inductive UnaryOp where
  | plus
  | minus
  | complement
  | not
  deriving DecidableEq, Repr, Inhabited

/-- How tightly an operator binds; `not` has level 2, signs bind tighter than every level. -/
def BinaryOp.level : BinaryOp → Nat
  | .or => 0
  | .and => 1
  | .compare _ | .isIn | .notIn => 3
  | .bitOr => 4
  | .bitXor => 5
  | .bitAnd => 6
  | .shiftLeft | .shiftRight => 7
  | .add | .sub => 8
  | .mul | .div | .floorDiv | .mod => 9

inductive Term where
  | name (name : Bytes)
  | int (value : Int)
  | float (value : Float)
  | text (value : Bytes)
  | list (items : List Term)
  | tuple (items : List Term)
  | unary (op : UnaryOp) (x : Term)
  | binary (op : BinaryOp) (x y : Term)
  | conditional (condition yes no : Term)
  | index (sequence position : Term)
  | attribute (x : Term) (name : Bytes)
  | call (function : Term) (arguments : List Term)
  deriving Inhabited

/-- What an assignment may have on its left side: a name, or patterns for the items of a sequence. -/
inductive Pattern where
  | name (name : Bytes)
  | items (patterns : List Pattern)
  deriving Inhabited

inductive Command where
  | assign (target : Pattern) (value : Term)
  | evaluate (value : Term)
  | pass
  deriving Inhabited

mutual

def Term.pattern? : Term → Option Pattern
  | .name name => some (.name name)
  | .list items | .tuple items => (patternsOf? items).map .items
  | _ => none

def patternsOf? : List Term → Option (List Pattern)
  | [] => some []
  | x :: xs =>
    match x.pattern?, patternsOf? xs with
    | some pattern, some patterns => some (pattern :: patterns)
    | _, _ => none

end

mutual

def Pattern.names : Pattern → List Bytes
  | .name name => [name]
  | .items patterns => patternNames patterns

def patternNames : List Pattern → List Bytes
  | [] => []
  | pattern :: patterns => pattern.names ++ patternNames patterns

end

end Constant

end HackMachine
