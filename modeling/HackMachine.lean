import HackMachine.Main
import HackMachine.Instruction.Coded
import HackMachine.Proofs.Program.Labels
import HackMachine.Proofs.Program.Validity
import HackMachine.Proofs.Program.Violations
import HackMachine.Proofs.Source.Grammar
import HackMachine.Proofs.Source.LineParsing
import HackMachine.Proofs.Source.Columns
import HackMachine.Proofs.Source.Numbers
import HackMachine.Proofs.Source.Lines
import HackMachine.Proofs.Source.Spelling
import HackMachine.Proofs.Program.Resolution
import HackMachine.Proofs.Program.Constants
import HackMachine.Proofs.Program.Disassembly
import HackMachine.Proofs.Instruction.Fields
import HackMachine.Proofs.Instruction.Canonical
import HackMachine.Proofs.Instruction.Arithmetic
import HackMachine.Proofs.Machine.Faults
import HackMachine.Proofs.Machine.Interpreter
import HackMachine.Proofs.Machine.Simulation
import HackMachine.Proofs.Indexed.Checked
import HackMachine.Proofs.Indexed.Lexing
import HackMachine.Proofs.Indexed.Parsing
import HackMachine.Proofs.Indexed.Assembly
import HackMachine.Proofs.Machine.Idle
import HackMachine.Proofs.Source.Relocation
import HackMachine.Proofs.Source.Renumbering
import HackMachine.Proofs.Program.Relocation
import HackMachine.Proofs.Program.Concatenation
import HackMachine.Proofs.Source.CodeLines
import HackMachine.Proofs.Program.Layout
import HackMachine.Proofs.Machine.SourceLines
import HackMachine.Proofs.Machine.BoundedRun
import HackMachine.Proofs.Machine.StraightLine
import HackMachine.Proofs.Machine.History
import HackMachine.Proofs.Program.CanonicalText
import HackMachine.Proofs.Program.Outputs
import HackMachine.Proofs.Program.NormalForm
import HackMachine.Proofs.Source.Spans
import HackMachine.Proofs.Program.NumberFaults
import HackMachine.Proofs.Program.Renaming
import HackMachine.Proofs.Program.Positions
import HackMachine.Proofs.Source.FirstLexeme
import HackMachine.Proofs.Source.Partition
