import HackMachine.Text.Numeral
import HackMachine.Source.Position

/-! # Causes of failure and their reports

`Cause` names everything that can be wrong with a source text or with a running program, and
`Cause.message` is the one place where causes are worded.  A `Diagnostic` is a cause at a position of
a source line.
-/

namespace HackMachine

inductive ConstantFailure where
  | notInteger
  | invalid (reason : Bytes)
  deriving DecidableEq, Repr, Inhabited

inductive Cause where
  | invalidCharacter
  | invalidExpression
  | missingExpression
  | invalidInstruction
  | missingTarget
  | invalidTarget
  | invalidJump
  | labelForm
  | missingValue
  | extraTokens
  | unclosedConstant
  | invalidNumber (text : Bytes)
  | constant (text : Bytes) (failure : ConstantFailure)
  | operandConflict
  | operandData
  | immediateRange (text : Bytes)
  | duplicateTarget (register : Bytes)
  | undefinedLabel (label : Bytes)
  | duplicateLabel (label : Bytes)
  | labelRange (label : Bytes)
  | programCounter
  | memoryAddress
  | programSize
  deriving DecidableEq, Repr, Inhabited

def Cause.message : Cause → Bytes
  | .invalidCharacter => ascii "invalid character"
  | .invalidExpression => ascii "invalid ALU expression"
  | .missingExpression => ascii "ALU expression missing"
  | .invalidInstruction => ascii "instruction invalid"
  | .missingTarget => ascii "assignment target missing"
  | .invalidTarget => ascii "assignment target invalid"
  | .invalidJump => ascii "jump condition invalid"
  | .labelForm => ascii "label syntax"
  | .missingValue => ascii "value missing"
  | .extraTokens => ascii "unexpected tokens at end of line"
  | .unclosedConstant => ascii "$( without closing )"
  | .invalidNumber text => ascii "'" ++ text ++ ascii "' is not a number"
  | .constant text .notInteger => ascii "$(" ++ text ++ ascii ") is not an integer expression"
  | .constant text (.invalid reason) =>
    ascii "$(" ++ text ++ ascii ") is not a valid expression: " ++ reason
  | .operandConflict => ascii "Can't use both A and *A in ALU operation"
  | .operandData => ascii "ALU operation needs D and one of A or *A"
  | .immediateRange text => text ++ ascii " cannot fit in 15-bit immediate"
  | .duplicateTarget register =>
    ascii "Duplicate assignment target, " ++ register ++ ascii " already used"
  | .undefinedLabel label => ascii "Label " ++ label ++ ascii " used but never defined"
  | .duplicateLabel label => ascii "Label " ++ label ++ ascii " already defined"
  | .labelRange label => ascii "Label " ++ label ++ ascii " address cannot fit in 15-bit immediate"
  | .programCounter => ascii "program counter outside of program"
  | .memoryAddress => ascii "memory address outside of RAM"
  | .programSize => ascii "program does not fit in program memory"

structure Diagnostic where
  pos : Pos
  /-- The source line that `pos` speaks of. -/
  line : Bytes
  cause : Cause
  deriving DecidableEq, Repr, Inhabited

namespace Diagnostic

def message (d : Diagnostic) : Bytes :=
  d.cause.message ++ ascii " at line " ++ Numeral.grouped d.pos.line ++ ascii " col " ++
    Numeral.grouped d.pos.start ++ ascii ":" ++ Numeral.grouped d.pos.stop

def caret (d : Diagnostic) : Bytes := d.pos.caret d.line

end Diagnostic

end HackMachine
