import HackMachine.Instruction.Disassembly
import HackMachine.Source.Cause

/-! # Machine faults

What stops a running machine: the cause, the address it concerns, and the instruction word that was
being executed.  A fault that stops a program also names the source line of the instruction.
-/

namespace HackMachine

structure Fault where
  cause : Cause
  address : Option Word := none
  opcode : Option Word := none
  deriving DecidableEq, Repr, Inhabited

def Word.hex (w : Word) : Bytes := Numeral.padded 16 4 w.toNat

def opcodeReport (w : Word) : Bytes := ascii "bad opcode 0x" ++ w.hex ++ ascii " " ++ disassemble w

namespace Fault

/-- The report: the instruction on a line of its own, then the cause and its address. -/
def message (f : Fault) : Bytes :=
  (match f.opcode with
    | some w => opcodeReport w ++ [Bytes.newline]
    | none => []) ++
  f.cause.message ++
  match f.address with
  | some a => ascii ": 0x" ++ a.hex
  | none => []

def during (f : Fault) (w : Word) : Fault := { f with opcode := some w }

end Fault

structure RuntimeError where
  line : Int
  fault : Fault
  deriving DecidableEq, Repr, Inhabited

def RuntimeError.message (e : RuntimeError) : Bytes :=
  ascii "line " ++ Numeral.grouped e.line ++ ascii " " ++ e.fault.message

end HackMachine
