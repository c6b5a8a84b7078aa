import HackMachine.Program.Passes
import HackMachine.Text.Utf8

/-! # Assembled programs and their outputs

A program is its opcodes and its symbol table.  `hackText` is one binary word a line; `listingText`
adds the source text, the address and the labels of each instruction.
-/

namespace HackMachine

structure Program where
  opcodes : List Opcode := []
  symbols : Symbols := []
  deriving DecidableEq, Repr, Inhabited

def Word.binary (w : Word) : Bytes := Numeral.padded 2 16 w.toNat

namespace Program

def words (p : Program) : List Word := p.opcodes.map (·.word)

def codes (p : Program) : List (Int × Word) := p.opcodes.map fun op => (op.ip, op.word)

def binary (p : Program) : List Bytes := p.words.map Word.binary

/-- Where the opcodes below an address end, among those from `low` up to `high`: a binary search, for
opcodes in the order of their addresses. -/
def search (opcodes : Array Opcode) (ip : Int) (low high : Nat) : Nat :=
  if low < high then
    let middle := (low + high) / 2
    if (opcodes[middle]?).any (·.ip < ip) then search opcodes ip (middle + 1) high
    else search opcodes ip low middle
  else low
termination_by high - low

def at? (p : Program) (ip : Int) : Option Opcode :=
  let opcodes := p.opcodes.toArray
  (opcodes[search opcodes ip 0 opcodes.size]?).filter (·.ip == ip)

def labels (p : Program) (ip : Int) : List Bytes := p.symbols.namesAt ip

/-- The source line of an instruction address, zero where there is no instruction. -/
def lineAt (p : Program) (ip : Int) : Int :=
  match p.at? ip with
  | some opcode => opcode.line
  | none => 0

def hackText (p : Program) : Bytes := Bytes.unlines p.binary

def listingLine (p : Program) (op : Opcode) : Bytes :=
  op.word.binary ++ ascii "  " ++ Bytes.padRight 24 op.text ++ ascii "; " ++
    Bytes.padLeft 4 (byte ' ') (Numeral.decimal op.ip) ++
    (p.labels op.ip).flatMap (fun name => ascii " (" ++ name ++ ascii ")")

def listingText (p : Program) : Bytes := Bytes.unlines (p.opcodes.map p.listingLine)

end Program

structure Written where
  accepted : Bytes
  failed : Bool
  deriving DecidableEq, Repr, Inhabited

/-- A text written where only `room` bytes fit: all that fits is accepted. -/
def writeLimited (room : Nat) (text : Bytes) : Written := ⟨text.take room, text.length > room⟩

end HackMachine
