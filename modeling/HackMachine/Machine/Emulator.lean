import HackMachine.Machine.Cpu
import HackMachine.Program.Basic

/-! # The emulator

An emulator runs an assembled program on a processor.  The program is done once the program counter
leaves it or reaches its closing loop: an instruction that loads its own address, followed by an
unconditional jump that writes nothing.
-/

namespace HackMachine

structure Emulator where
  cpu : Cpu := Cpu.new ramSize
  program : Program := {}
  deriving DecidableEq, Repr, Inhabited

namespace Emulator

def reset (e : Emulator) : Emulator × Option Fault :=
  match e.cpu.load e.program.words with
  | (cpu, some fault) => ({ e with cpu := cpu }, some fault)
  | (cpu, none) => ({ e with cpu := cpu.reset }, none)

/-- The source line of the instruction at the program counter, zero outside of the program. -/
def lineNo (e : Emulator) : Int := e.program.lineAt e.cpu.pc.toNat

def idleJump (word : Word) : Bool :=
  Word.isCompute word && (Word.targets word).isEmpty && (Word.jump word == .always)

/-- Whether a closing loop starts at an address. -/
def idle (e : Emulator) (ip : Word) : Bool :=
  decide (ip.toNat + 1 < e.cpu.rom.size) &&
    match e.cpu.rom[ip.toNat]?, e.cpu.rom[(ip + 1#16).toNat]? with
    | some load, some jump => load == ip && idleJump jump
    | _, _ => false

/-- One instruction of the program: whether the program is done, or its runtime error. -/
def tick (e : Emulator) : Emulator × Except RuntimeError Bool :=
  if e.cpu.outside then (e, .ok true)
  else
    let pc := e.cpu.pc
    let program := e.program
    match e.cpu.tick with
    | (cpu, some fault) => (⟨cpu, program⟩, .error ⟨program.lineAt pc.toNat, fault⟩)
    | (cpu, none) =>
      let behind : Emulator := ⟨cpu, program⟩
      let done := behind.cpu.outside || behind.idle behind.cpu.pc
      (behind, .ok done)

def runFor (e : Emulator) : Nat → Emulator × Except RuntimeError Bool
  | 0 => (e, .ok false)
  | limit + 1 =>
    match e.tick with
    | (e, .ok false) => e.runFor limit
    | (e, result) => (e, result)

/-- Runs the program: at most `limit` ticks when that is positive, else without a bound of its own,
in which case `fuel` stands for the ticks one is willing to wait.  There is no result when the fuel
ends first. -/
def run (e : Emulator) (fuel : Nat) (limit : Int) : Emulator × Option (Except RuntimeError Bool) :=
  if limit > 0 then
    let (e, result) := e.runFor limit.toNat
    (e, some result)
  else
    match e.runFor fuel with
    | (e, .ok false) => (e, none)
    | (e, result) => (e, some result)

end Emulator

end HackMachine
