import HackMachine.Machine.Emulator
import HackMachine.Program.Assembly

/-! # A machine under observation

A console operates an emulator by single commands and keeps what a verbose machine reports.  The
emulator and its processor each have a verbosity; the processor takes the emulator's over at a reset
or a tick.  Reports never change what the machine does: `emulator_tick` and `emulator_runFor` say that
the emulator moves as it does without them.
-/

namespace HackMachine

structure Console where
  emulator : Emulator := {}
  verbose : Bool := false
  cpuVerbose : Bool := false
  deriving Repr, Inhabited

inductive ConsoleError where
  | fault (fault : Fault)
  | runtime (error : RuntimeError)
  | assembly (error : AssemblyError)
  deriving DecidableEq, Repr, Inhabited

inductive Command where
  | load (words : List Word)
  | resetCpu
  | setA (value : Word)
  | setD (value : Word)
  | setPc (value : Word)
  | peek (address : Word)
  | poke (address value : Word)
  | fetch
  | execute (word : Word)
  /-- Ticks of the bare processor, up to the first fault. -/
  | tickCpu (count : Nat)
  | program (source : Bytes)
  | reset
  /-- Ticks of the emulator, up to the first error. -/
  | tick (count : Nat)
  | run (limit : Int)
  | idle (address : Word)
  | verbose (on : Bool)
  deriving DecidableEq, Repr, Inhabited

inductive Answer where
  | nothing
  | value (value : Word)
  | size (opcodes : Nat)
  /-- For each tick whether the program was done behind it. -/
  | ticked (done : List Bool)
  | ran (done : Bool)
  | idle (yes : Bool)
  deriving DecidableEq, Repr, Inhabited

structure Reply where
  answer : Answer := .nothing
  error : Option ConsoleError := none
  log : List Bytes := []
  deriving DecidableEq, Repr, Inhabited

namespace Console

def cpu (c : Console) : Cpu := c.emulator.cpu

def withCpu (c : Console) (cpu : Cpu) : Console :=
  { c with emulator := { c.emulator with cpu := cpu } }

def reports (on : Bool) (log : Unit → List Bytes) : List Bytes := if on then log () else []

/-! ## The processor -/

def advanceCpu (c : Console) (log : List Bytes) : Console × Option Fault × List Bytes :=
  let ⟨⟨cpu, program⟩, verbose, cpuVerbose⟩ := c
  let (cpu, fault) := cpu.tick
  (⟨⟨cpu, program⟩, verbose, cpuVerbose⟩, fault, log)

/-- One tick of the bare processor, with its reports behind those in `log`, the latest first. -/
def tickCpu (c : Console) (log : List Bytes) : Console × Option Fault × List Bytes :=
  c.advanceCpu ((reports c.cpuVerbose fun _ => c.cpu.tickLog).reverse ++ log)

def tickCpuFor (c : Console) (log : List Bytes) : Nat → Console × Option Fault × List Bytes
  | 0 => (c, none, log)
  | count + 1 =>
    match c.tickCpu log with
    | (c, none, log) => c.tickCpuFor log count
    | stopped => stopped

/-! ## The emulator -/

def reset (c : Console) : Console × Option Fault × List Bytes :=
  let (emulator, fault) := c.emulator.reset
  (⟨emulator, c.verbose, c.verbose⟩, fault,
    reports (c.verbose && fault.isNone) fun _ => Cpu.resetLog)

def idleReport (address : Word) : Bytes := ascii "emulator: idle at " ++ address.hex

def advance (c : Console) (log : List Bytes) : Console × Except RuntimeError Bool × List Bytes :=
  let ⟨emulator, verbose, _⟩ := c
  let (emulator, result) := emulator.tick
  let stopped :=
    match result with
    | .ok true => verbose && !emulator.cpu.outside
    | _ => false
  let log := if stopped then idleReport emulator.cpu.pc :: log else log
  (⟨emulator, verbose, verbose⟩, result, log)

def tick (c : Console) (log : List Bytes) : Console × Except RuntimeError Bool × List Bytes :=
  c.advance ((reports c.verbose fun _ => c.cpu.tickLog).reverse ++ log)

/-- Ticks of the emulator, up to the first error, with the results in `done`, the latest first. -/
def tickFor (c : Console) (log : List Bytes) (done : List Bool) :
    Nat → Console × List Bool × Option RuntimeError × List Bytes
  | 0 => (c, done.reverse, none, log)
  | count + 1 =>
    match c.tick log with
    | (c, .ok finished, log) => c.tickFor log (finished :: done) count
    | (c, .error error, log) => (c, (false :: done).reverse, some error, log)

def runFor (c : Console) (log : List Bytes) :
    Nat → Console × Except RuntimeError Bool × List Bytes
  | 0 => (c, .ok false, log)
  | limit + 1 =>
    match c.tick log with
    | (c, .ok false, log) => c.runFor log limit
    | stopped => stopped

/-- A run of the program: at most `limit` ticks when that is positive, else as many as `fuel`.  There
is no result when the fuel ends first. -/
def run (c : Console) (fuel : Nat) (limit : Int) :
    Console × Option (Except RuntimeError Bool) × List Bytes :=
  if limit > 0 then
    let (c, result, log) := c.runFor [] limit.toNat
    (c, some result, log)
  else
    match c.runFor [] fuel with
    | (c, .ok false, log) => (c, none, log)
    | (c, result, log) => (c, some result, log)

/-! ## Reports leave the machine alone -/

/-- A tick under observation takes the emulator where its own tick does. -/
theorem emulator_tick (c : Console) (log : List Bytes) :
    ((c.tick log).1.emulator, (c.tick log).2.1) = c.emulator.tick := rfl

theorem emulator_runFor (c : Console) (log : List Bytes) (limit : Nat) :
    ((c.runFor log limit).1.emulator, (c.runFor log limit).2.1) = c.emulator.runFor limit := by
  induction limit generalizing c log with
  | zero => rfl
  | succ limit ih =>
    have step := emulator_tick c log
    rw [runFor, Emulator.runFor, ← step]
    rcases c.tick log with ⟨behind, result, reports⟩
    rcases result with error | done
    · rfl
    · cases done with
      | false => exact ih behind reports
      | true => rfl

/-! ## Commands -/

def replyFault (fault : Option Fault) (log : List Bytes) : Reply :=
  { error := fault.map .fault, log := log }

def replyRead : Except Fault Word → Reply
  | .ok value => { answer := .value value }
  | .error fault => { answer := .value 0#16, error := some (.fault fault) }

/-- Carries out a command; `fuel` bounds the ticks of a run without a limit. -/
def perform [Constant.Evaluator] (fuel : Nat) (c : Console) : Command → Console × Reply
  | .load words =>
    let (cpu, fault) := c.cpu.load words
    (c.withCpu cpu, replyFault fault [])
  | .resetCpu => (c.withCpu c.cpu.reset, { log := reports c.cpuVerbose fun _ => Cpu.resetLog })
  | .setA value => (c.withCpu { c.cpu with a := value }, {})
  | .setD value => (c.withCpu { c.cpu with d := value }, {})
  | .setPc value => (c.withCpu { c.cpu with pc := value }, {})
  | .peek address => (c, replyRead (c.cpu.peek address))
  | .poke address value =>
    let (cpu, fault) := c.cpu.poke address value
    (c.withCpu cpu, replyFault fault [])
  | .fetch => (c, replyRead c.cpu.fetch)
  | .execute word =>
    let log := reports c.cpuVerbose fun _ => c.cpu.executeLog word
    let (cpu, fault) := c.cpu.execute word
    (c.withCpu cpu, replyFault fault log)
  | .tickCpu count =>
    let (c, fault, log) := c.tickCpuFor [] count
    (c, replyFault fault log.reverse)
  | .program source =>
    match assemble source with
    | .ok program =>
      ({ c with emulator := { c.emulator with program := program } },
        { answer := .size program.opcodes.length })
    | .error error => (c, { error := some (.assembly error) })
  | .reset =>
    let (c, fault, log) := c.reset
    (c, replyFault fault log)
  | .tick count =>
    let (c, done, error, log) := c.tickFor [] [] count
    (c, { answer := .ticked done, error := error.map .runtime, log := log.reverse })
  | .run limit =>
    match c.run fuel limit with
    | (c, none, log) => (c, { log := log.reverse })
    | (c, some (.ok done), log) => (c, { answer := .ran done, log := log.reverse })
    | (c, some (.error error), log) =>
      (c, { answer := .ran false, error := some (.runtime error), log := log.reverse })
  | .idle address => (c, { answer := .idle (c.emulator.idle address) })
  | .verbose on => ({ c with verbose := on }, {})

end Console

end HackMachine
