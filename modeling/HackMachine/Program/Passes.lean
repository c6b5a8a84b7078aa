import HackMachine.Instruction.Fault
import HackMachine.Program.Symbols
import HackMachine.Source.Statement

/-! # The three label passes

* `index` records the address of every label;
* `emit` encodes every instruction, and leaves a placeholder where a reference comes before the
  declaration of its label;
* `link` puts the addresses into the placeholders.
-/

namespace HackMachine

structure Opcode where
  line : Int
  ip : Int
  text : Bytes
  word : Word
  /-- The label whose address is still missing. -/
  link : Option Bytes
  deriving DecidableEq, Repr, Inhabited

/-! ## Addresses of labels -/

def indexStep (state : Symbols × Nat) (item : Item) : Symbols × Nat :=
  match item.statement with
  | .label name _ => (state.1.set name state.2, state.2)
  | _ => (state.1, state.2 + 1)

/-- For each label the number of instructions before its declaration; the last declaration counts. -/
def index (items : List Item) : Symbols := (items.foldl indexStep ([], 0)).1

/-! ## Words -/

def lowWord (n : Int) : Word := BitVec.ofInt 16 n

structure Emission where
  known : List Bytes := []
  /-- The opcodes so far, the latest first. -/
  opcodes : List Opcode := []
  next : Nat := 0
  deriving Repr, Inhabited

/-- The word of an instruction, or the label that it waits for. -/
def instructionWord (symbols : Symbols) (known : List Bytes) :
    Statement → Except EncodingFault (Word × Option Bytes)
  | .address (.value value) _ _ => do .ok (← encodeAddress (lowWord value), none)
  | .address (.label name) _ _ =>
    if known.contains name then do
      .ok (← encodeAddress (lowWord ((symbols.find? name).getD 0)), none)
    else .ok (0#16, some name)
  | .compute c _ => .ok (encodeCompute c.registers c.expr c.jump, none)
  | .label _ _ => .ok (0#16, none)

def Emission.step (symbols : Symbols) (e : Emission) (item : Item) :
    Except EncodingFault Emission :=
  match item.statement with
  | .label name _ => .ok { e with known := name :: e.known }
  | statement => do
    let (word, link) ← instructionWord symbols e.known statement
    let opcode : Opcode := ⟨item.lineNo, e.next, statement.text, word, link⟩
    .ok { e with opcodes := opcode :: e.opcodes, next := e.next + 1 }

/-- The opcodes of a program, with placeholders for later labels. -/
def emit (items : List Item) (symbols : Symbols) : Except EncodingFault (List Opcode) := do
  let emission ← items.foldlM (Emission.step symbols) {}
  .ok emission.opcodes.reverse

/-! ## Placeholders -/

def Opcode.resolve (symbols : Symbols) (opcode : Opcode) : Except EncodingFault Opcode :=
  match opcode.link with
  | none => .ok opcode
  | some label =>
    match symbols.find? label with
    | none => .error (.unlinked label opcode.line)
    | some address => do .ok { opcode with word := ← encodeAddress (lowWord address), link := none }

def link (opcodes : List Opcode) (symbols : Symbols) : Except EncodingFault (List Opcode) :=
  opcodes.mapM (Opcode.resolve symbols)

end HackMachine
