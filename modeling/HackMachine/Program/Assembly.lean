import HackMachine.Program.Basic
import HackMachine.Program.Validation
import HackMachine.Source.Parsing

/-! # The assembler

`assemble` parses, validates and runs the three label passes.  It gives a complete program or the
first failure.  `assemblyLog` is what a verbose run reports on the way.
-/

namespace HackMachine

inductive AssemblyError where
  | parse (diagnostic : Diagnostic)
  /-- A well-formed statement that the machine cannot execute. -/
  | validation (diagnostic : Diagnostic)
  /-- An instruction without a word, which validation keeps from happening. -/
  | encoding (fault : EncodingFault)
  deriving DecidableEq, Repr, Inhabited

def AssemblyError.message : AssemblyError → Bytes
  | .parse d | .validation d => d.message
  | .encoding fault => fault.message

def resolveLabels (items : List Item) : Except EncodingFault Program := do
  let symbols := index items
  let opcodes ← emit items symbols
  .ok ⟨← link opcodes symbols, symbols⟩

def assemble [Constant.Evaluator] (source : Bytes) : Except AssemblyError Program :=
  match parse source with
  | .error diagnostic => .error (.parse diagnostic)
  | .ok items =>
    match validate items with
    | .error diagnostic => .error (.validation diagnostic)
    | .ok () =>
      match resolveLabels items with
      | .error fault => .error (.encoding fault)
      | .ok program => .ok program

def Item.report (item : Item) : Bytes :=
  Numeral.decimal item.lineNo ++ ascii ": " ++ item.statement.text

def Opcode.report? (op : Opcode) : Option Bytes :=
  op.link.map fun label =>
    Numeral.decimal op.line ++ ascii ": placeholder for '" ++ label ++ ascii "' at " ++
      Numeral.decimal op.ip

/-- What a verbose run reports: every item once all are parsed, and every placeholder once the words
are emitted. -/
def assemblyLog [Constant.Evaluator] (source : Bytes) : List Bytes :=
  match parse source with
  | .error _ => []
  | .ok items =>
    items.map Item.report ++
      match validate items, emit items (index items) with
      | .ok (), .ok opcodes => opcodes.filterMap Opcode.report?
      | _, _ => []

end HackMachine
