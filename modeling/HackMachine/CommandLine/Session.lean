import HackMachine.CommandLine.Directory
import HackMachine.CommandLine.Options
import HackMachine.Constant.Evaluation
import HackMachine.Machine.Console
import HackMachine.Text.Table

/-! # A run of the command

`session` is the command as a function: from its arguments and the files around it to what it prints,
the files it leaves and its exit code.  It assembles one source file, writes the words, prints the
listing when asked, and runs the program when asked.
-/

namespace HackMachine

namespace CommandLine

/-- What a run of the command leaves behind. -/
structure Session where
  exit : Nat := 0
  stdout : Bytes := []
  stderr : Bytes := []
  directory : Directory := {}
  deriving DecidableEq, Repr, Inhabited

namespace Session

def print (s : Session) (text : Bytes) : Session := { s with stdout := s.stdout ++ text }

def report (s : Session) (lines : List Bytes) : Session :=
  { s with stderr := s.stderr ++ Bytes.unlines lines }

def fail (s : Session) (message : Bytes) : Session := { s.report [message] with exit := 1 }

end Session

def about (name message : Bytes) : Bytes := name ++ ascii ": " ++ message

/-- The report of a source that does not assemble, with the place marked in its line. -/
def describe (name : Bytes) (error : AssemblyError) : Bytes :=
  match error with
  | .parse d | .validation d => about name d.message ++ [Bytes.newline] ++ d.caret
  | .encoding fault => about name fault.message

/-! ## The state behind a run -/

def shownCells : Nat := 16

def hexCell (w : Word) : Bytes := Numeral.upper w.hex

def registerTable (e : Emulator) (done : Bool) : Table where
  title := Numeral.grouped e.cpu.ticks ++ ascii " ticks, " ++
    (if done then ascii "done" else ascii "running")
  columns :=
    [{ header := ascii "PC", cells := [hexCell e.cpu.pc] },
      { header := ascii "A", cells := [hexCell e.cpu.a] },
      { header := ascii "D", cells := [hexCell e.cpu.d] },
      { header := ascii "LINE", right := true, cells := [Numeral.decimal e.lineNo] }]

def memoryTable (e : Emulator) : Table :=
  let cells := (List.range shownCells).map fun i => (i, e.cpu.ram.getD i 0#16)
  { title := ascii "RAM"
    columns :=
      [{ header := ascii "ADDRESS", right := true, cells := cells.map fun (i, _) => Numeral.decimal i },
        { header := ascii "HEX", cells := cells.map fun (_, w) => hexCell w },
        { header := ascii "SIGNED", right := true,
          cells := cells.map fun (_, w) => Numeral.decimal w.toInt }] }

def dump (e : Emulator) (done : Bool) : Bytes :=
  Bytes.unlines ((registerTable e done).lines ++ (memoryTable e).lines)

/-! ## The run -/

def runProgram (s : Session) (options : Options) (source : Bytes) (program : Program) : Session :=
  let console : Console := { emulator := { program := program }, verbose := options.verbose }
  match console.reset with
  | (_, some fault, log) => (s.report log).fail (about source fault.message)
  | (console, none, log) =>
    let s := s.report log
    match console.runFor [] options.run.toNat with
    | (_, .error error, log) => (s.report log.reverse).fail (about source error.message)
    | (console, .ok done, log) => (s.report log.reverse).print (dump console.emulator done)

/-- Writes the words of a program: to standard output for `-`, else to a file. -/
def writeWords (s : Session) (output : Bytes) (program : Program) : Except Bytes Session :=
  if output == ascii "-" then .ok (s.print program.hackText)
  else
    match s.directory.write output program.hackText with
    | .ok directory => .ok { s with directory := directory }
    | .error message => .error message

def useProgram (s : Session) (options : Options) (source : Bytes) (program : Program) : Session :=
  let output :=
    if options.output.isEmpty then replaceExtension source (ascii ".hack") else options.output
  match writeWords s output program with
  | .error message => s.fail (about output message)
  | .ok s =>
    let s := if options.listing then s.print program.listingText else s
    if options.run > 0 then runProgram s options source program else s

def useSource (s : Session) (options : Options) (source : Bytes) : Session :=
  match s.directory.read source with
  | .error message => s.fail (about source message)
  | .ok text =>
    let s := if options.verbose then s.report (assemblyLog text) else s
    match assemble text with
    | .error error => s.fail (describe source error)
    | .ok program => useProgram s options source program

def commandName : Bytes := ascii "hackasm"

def session (arguments : List Bytes) (directory : Directory) : Session :=
  let s : Session := { directory := directory }
  match parseArguments {} arguments with
  | .error .help => s.report usage
  | .error error => { s.report (error.message :: usage) with exit := 2 }
  | .ok (options, [source]) => useSource s options source
  | .ok (_, operands) =>
    s.fail (about commandName (ascii "expected one source file, got [" ++
      Bytes.join (ascii " ") operands ++ ascii "]"))

end CommandLine

end HackMachine
