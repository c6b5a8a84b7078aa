import HackMachine.Instruction.Encoding

/-! # What cannot be encoded

Encoding expects checked instructions.  `EncodingFault` names every way in which an unchecked one
has no word, and `message` is its report.
-/

namespace HackMachine

inductive EncodingFault where
  | constant (value : Int)
  | operator (name : Bytes)
  /-- An expression code outside the catalog. -/
  | kind (code : Int)
  | target (code : Int)
  /-- A value with bit 15 set. -/
  | immediate (value : Word)
  /-- A reference to a label that is declared nowhere. -/
  | unlinked (label : Bytes) (line : Int)
  /-- A line that holds no statement at all. -/
  | noStatement (line : Int)
  deriving DecidableEq, Repr, Inhabited

def EncodingFault.message : EncodingFault → Bytes
  | .constant value =>
    ascii "asm: constant " ++ Numeral.decimal value ++ ascii " is not in the ALU catalog"
  | .operator name => ascii "asm: operator " ++ name ++ ascii " is not in the ALU catalog"
  | .kind code =>
    ascii "asm: expression kind " ++ Numeral.decimal code ++ ascii " is not in the ALU catalog"
  | .target code =>
    ascii "runtime error: index out of range [" ++ Numeral.decimal code ++ ascii "]" ++
      (if code < 0 then [] else ascii " with length 3")
  | .immediate value =>
    ascii "asm: immediate 0x" ++ Numeral.digits 16 value.toNat ++ ascii " escaped validation"
  | .unlinked label line =>
    ascii "asm: unable to link label '" ++ label ++ ascii "' at line " ++ Numeral.decimal line
  | .noStatement line =>
    ascii "asm: line " ++ Numeral.decimal line ++ ascii ": unexpected node <nil>"

def encodeAddress (value : Word) : Except EncodingFault Word :=
  match encodeAddress? value with
  | some word => .ok word
  | none => .error (.immediate value)

end HackMachine
