import HackMachine.Text.Bytes

/-! # Why a constant expression has no value

One cause for every way in which reading or running a constant expression stops.
-/

namespace HackMachine

namespace Constant

inductive Failure where
  /-- A byte starts no token, or a literal is malformed. -/
  | malformed
  /-- A token stands where the grammar has no place for it. -/
  | unexpected
  | undefinedName (name : Bytes)
  | reassigned (name : Bytes)
  | manyArguments
  /-- A name read before its assignment. -/
  | unassigned (name : Bytes)
  | operandType
  | zeroDivisor
  | shiftCount
  | indexRange
  | argument
  | tooDeep
  | tooLarge
  deriving DecidableEq, Repr, Inhabited

def Failure.message : Failure → Bytes
  | .malformed => ascii "malformed token"
  | .unexpected => ascii "unexpected token"
  | .undefinedName name => ascii "undefined: " ++ name
  | .reassigned name => ascii "cannot reassign " ++ name
  | .manyArguments => ascii "too many arguments in a call"
  | .unassigned name => name ++ ascii " referenced before assignment"
  | .operandType => ascii "operation not defined for these types"
  | .zeroDivisor => ascii "division by zero"
  | .shiftCount => ascii "invalid shift count"
  | .indexRange => ascii "index out of range"
  | .argument => ascii "invalid arguments"
  | .tooDeep => ascii "comparison exceeded maximum depth"
  | .tooLarge => ascii "value too large"

end Constant

end HackMachine
