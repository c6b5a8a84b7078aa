import HackMachine.Instruction.Encoding

/-! # Words as canonical text

`disassemble` writes a word as the instruction it encodes.  A compute word whose switches are no
catalog expression has no source form and shows its switches as `alu(…)`.
-/

namespace HackMachine

namespace Expr

/-- Every expression the machine has a word for, in canonical form. -/
def catalog : List Expr :=
  [.zero, .one, .negOne] ++
    [Register.d, .a, .m].flatMap (fun r => [.reg r, .not r, .neg r, .inc r, .dec r]) ++
    [Register.a, .m].flatMap (fun r =>
      [.binary .d .add r, .binary .d .and r, .binary .d .or r, .binary .d .sub r, .binary r .sub .d])

def ofOperation? (op : Operation) : Option Expr := catalog.find? (·.operation = op)

end Expr

/-- The text of an operation: its catalog expression, or its switches. -/
def Operation.text (op : Operation) : Bytes :=
  match Expr.ofOperation? op with
  | some e => e.text
  | none => ascii "alu(" ++ op.control.text ++ (if op.memory then ascii ", *A" else []) ++ ascii ")"

def disassemble (w : Word) : Bytes :=
  if Word.isCompute w then
    computeText ((Word.targets w).map Register.text) (Word.operation w).text (Word.jump w).text?
  else ascii "A := " ++ Numeral.decimal w.toNat

end HackMachine
