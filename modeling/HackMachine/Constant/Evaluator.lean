import HackMachine.Constant.Integer
import HackMachine.Source.Cause

/-! # Constants

A constant expression is a text in a language of its own, which the assembler does not know.  It makes a
program of the text that assigns the expression to `rc`, hands the program to an `Evaluator`, and looks
at what `rc` holds behind the run.  Of the evaluator it takes no more than that a program fails or leaves
global variables, and which of these are integers.  `evaluate` brings the integer into the signed 64-bit
range.
-/

namespace HackMachine

namespace Constant

inductive Global where
  | integer (value : Int)
  | other
  deriving DecidableEq, Repr, Inhabited

/-- Runs programs: the global variables behind a run, or the reason of its failure. -/
class Evaluator where
  run : Bytes → Except Bytes (Bytes → Option Global)

def resultName : Bytes := ascii "rc"

/-- The program of a constant expression. -/
def assignment (text : Bytes) : Bytes := resultName ++ ascii "=" ++ text ++ [Bytes.newline]

inductive Outcome where
  | integer (value : Int)
  | other
  | failed (reason : Bytes)
  deriving DecidableEq, Repr, Inhabited

def outcome [Evaluator] (text : Bytes) : Outcome :=
  match Evaluator.run (assignment text) with
  | .error reason => .failed reason
  | .ok globals =>
    match globals resultName with
    | some (.integer value) => .integer value
    | _ => .other

def evaluate [Evaluator] (text : Bytes) : Except ConstantFailure Int :=
  match outcome text with
  | .integer value => .ok (saturate64 value)
  | .other => .error .notInteger
  | .failed reason => .error (.invalid reason)

theorem evaluate_eq_ok_iff [Evaluator] {text : Bytes} {value : Int} :
    evaluate text = .ok value ↔ ∃ n, outcome text = .integer n ∧ saturate64 n = value := by
  unfold evaluate
  cases outcome text <;> simp

end Constant

end HackMachine
