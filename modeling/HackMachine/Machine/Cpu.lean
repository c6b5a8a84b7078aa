import HackMachine.Machine.Fault

/-! # The processor

The processor has an address register, a data register, a program counter, a data memory and a program
memory.  `execute` runs one instruction word, `tick` the word at the program counter.  Every operation
gives the state behind it, and the fault if there is one.
-/

namespace HackMachine

def ramSize : Nat := 16 * 1024

/-- The size of the program memory: the reach of a 15-bit address. -/
def romSize : Nat := 32 * 1024

structure Cpu where
  a : Word := 0#16
  d : Word := 0#16
  pc : Word := 0#16
  ram : Array Word
  rom : Array Word := #[]
  /-- The instructions executed since the last reset.  The count has no bound here: a signed one of 64
  bits would wrap behind 2^63 instructions, which no run gets to. -/
  ticks : Nat := 0
  deriving DecidableEq, Repr, Inhabited

namespace Cpu

def new (size : Nat) : Cpu := { ram := Array.replicate size 0#16 }

def text (cpu : Cpu) : Bytes :=
  let hex (w : Word) : Bytes := Numeral.upper w.hex
  ascii "pc:" ++ hex cpu.pc ++ ascii " a:" ++ hex cpu.a ++ ascii " d:" ++ hex cpu.d ++
    ascii " ticks:" ++ Numeral.decimal cpu.ticks

/-- Puts a program into the program memory, if it fits. -/
def load (cpu : Cpu) (words : List Word) : Cpu × Option Fault :=
  if words.length > romSize then (cpu, some { cause := .programSize })
  else ({ cpu with rom := words.toArray }, none)

/-- Clears the registers and the tick counter; the memories stay. -/
def reset (cpu : Cpu) : Cpu := { cpu with a := 0#16, d := 0#16, pc := 0#16, ticks := 0 }

def peek (cpu : Cpu) (address : Word) : Except Fault Word :=
  match cpu.ram[address.toNat]? with
  | some value => .ok value
  | none => .error { cause := .memoryAddress, address := address }

def poke (cpu : Cpu) (address value : Word) : Cpu × Option Fault :=
  if address.toNat < cpu.ram.size then
    ({ cpu with ram := cpu.ram.setIfInBounds address.toNat value }, none)
  else (cpu, some { cause := .memoryAddress, address := address })

def fetch (cpu : Cpu) : Except Fault Word :=
  match cpu.rom[cpu.pc.toNat]? with
  | some word => .ok word
  | none => .error { cause := .programCounter, address := cpu.pc }

def outside (cpu : Cpu) : Bool := cpu.pc.toNat ≥ cpu.rom.size

/-- The second input of the unit for a compute word: `A`, or the memory cell. -/
def operand (cpu : Cpu) (word : Word) : Except Fault Word :=
  if Word.readsMemory word then cpu.peek cpu.a else .ok cpu.a

/-- Stores a result in the registers that a compute word names, and moves on: to the old `A` when the
jump is taken, else to the next instruction. -/
def finish (cpu : Cpu) (word out : Word) (status : Status) : Cpu :=
  { cpu with
    a := if Word.writesA word then out else cpu.a
    d := if Word.writesD word then out else cpu.d
    pc := if (Word.jump word).taken status then cpu.a else cpu.pc + 1 }

def execute (cpu : Cpu) (word : Word) : Cpu × Option Fault :=
  if Word.isCompute word then
    match cpu.operand word with
    | .error fault => (cpu, some (fault.during word))
    | .ok y =>
      let (out, status) := (Word.control word).compute cpu.d y
      if Word.writesM word then
        match cpu.poke cpu.a out with
        | (cpu, some fault) => (cpu, some (fault.during word))
        | (cpu, none) => (cpu.finish word out status, none)
      else (cpu.finish word out status, none)
  else ({ cpu with a := word, pc := cpu.pc + 1 }, none)

def tick (cpu : Cpu) : Cpu × Option Fault :=
  match cpu.fetch with
  | .error fault => (cpu, some fault)
  | .ok word =>
    match cpu.execute word with
    | (cpu, some fault) => (cpu, some fault)
    | (cpu, none) => ({ cpu with ticks := cpu.ticks + 1 }, none)

def nonzero (cpu : Cpu) : List (Nat × Word) :=
  (cpu.ram.toList.zipIdx.filter (·.1 != 0#16)).map fun (value, address) => (address, value)

/-! ## Reports of a verbose processor -/

def resetLog : List Bytes := [ascii "cpu: reset"]

/-- The reports of executing a word: the instruction before it runs, and for a computation that
succeeds the state behind it. -/
def executeLog (cpu : Cpu) (word : Word) : List Bytes :=
  (cpu.pc.hex ++ ascii ": " ++ disassemble word) ::
    if Word.isCompute word then
      match cpu.operand word, cpu.execute word with
      | .ok y, (behind, none) =>
        let out := ((Word.control word).compute cpu.d y).1
        [ascii "cpu: " ++ behind.text ++ ascii " out:" ++ Numeral.upper out.hex]
      | _, _ => []
    else []

def tickLog (cpu : Cpu) : List Bytes :=
  match cpu.fetch with
  | .ok word => cpu.executeLog word
  | .error _ => []

end Cpu

end HackMachine
