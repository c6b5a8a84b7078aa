import HackMachine.Instruction.Encoding
import HackMachine.Program.Symbols
import HackMachine.Source.Cause
import HackMachine.Source.Statement

/-! # Checking a parsed program

`validate` walks the items once and gives the first violation of a rule that the machine imposes:
a constant fits its 15 bits, a computation writes each register once and takes `D` and one of `A`,
`*A` as the operands of a binary operator, a label is declared once.  References are checked behind
the walk, so a label may be used before its declaration.
-/

namespace HackMachine

/-- A label reference that awaits the end of the walk. -/
structure Reference where
  label : Bytes
  pos : Pos
  line : Bytes
  deriving DecidableEq, Repr, Inhabited

/-- The first destination whose register stands in `seen` or before it. -/
def repeatedDestination? (seen : List Register) : List Destination → Option Destination
  | [] => none
  | d :: rest =>
    if seen.contains d.register then some d else repeatedDestination? (d.register :: seen) rest

def operandFault? : Expr → Option Cause
  | .binary x _ y =>
    if x != .d && y != .d && x != y then some .operandConflict
    else if x == y then some .operandData
    else none
  | _ => none

def computationFault? (c : Computation) : Option (Pos × Cause) :=
  match repeatedDestination? [] c.destinations with
  | some d => some (d.pos, .duplicateTarget d.register.text)
  | none => (operandFault? c.expr).map (c.exprPos, ·)

structure Walk where
  declared : Symbols := []
  /-- The references met so far, the latest first. -/
  references : List Reference := []
  address : Nat := 0
  deriving Repr, Inhabited

def Walk.step (w : Walk) (item : Item) : Except Diagnostic Walk :=
  match item.statement with
  | .label name pos =>
    if (w.declared.find? name).isSome then .error ⟨pos, item.line, .duplicateLabel name⟩
    else .ok { w with declared := (name, (w.address : Int)) :: w.declared }
  | .address (.label name) targetPos _ =>
    .ok { w with
      references := ⟨name, targetPos, item.line⟩ :: w.references, address := w.address + 1 }
  | .address (.value value) targetPos _ =>
    if value < 0 || value > immediateMax then
      .error ⟨targetPos, item.line, .immediateRange (targetPos.slice item.line)⟩
    else .ok { w with address := w.address + 1 }
  | .compute c _ =>
    match computationFault? c with
    | some (pos, cause) => .error ⟨pos, item.line, cause⟩
    | none => .ok { w with address := w.address + 1 }

/-- A reference must name a declared label with an address that fits. -/
def Reference.check (declared : Symbols) (r : Reference) : Except Diagnostic Unit :=
  match declared.find? r.label with
  | none => .error ⟨r.pos, r.line, .undefinedLabel r.label⟩
  | some address =>
    if address > immediateMax then .error ⟨r.pos, r.line, .labelRange r.label⟩ else .ok ()

def validate (items : List Item) : Except Diagnostic Unit := do
  let walk ← items.foldlM Walk.step {}
  walk.references.reverse.forM (Reference.check walk.declared)

end HackMachine
