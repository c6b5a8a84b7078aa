import HackMachine.Instruction.Fault

/-! # Instructions by numeric code

Tools exchange registers, operators, jumps and expressions as numbers.  A number may stand for
nothing; then its name shows the number itself, and an expression may have no operation.

* `registerName`, `operatorName`, `jumpName` — the name of a code;
* `CodedExpr` — an expression as five numbers, of which its kind selects the ones that count;
* `CodedExpr.expr` — the catalog expression meant, or the fault.
-/

namespace HackMachine

namespace Coded

def unknownName (type : String) (code : Int) : Bytes :=
  ascii type ++ ascii "(" ++ Numeral.decimal code ++ ascii ")"

def codeAt? {α : Type} (entries : List α) (code : Int) : Option α :=
  if code < 0 then none else entries[code.toNat]?

def registers : List Register := [.a, .d, .m]

def operators : List Operator := [.add, .sub, .and, .or]

def jumps : List Jump := [.never, .gt, .eq, .ge, .lt, .ne, .le, .always]

def registerName (code : Int) : Bytes :=
  match codeAt? registers code with
  | some r => r.text
  | none => unknownName "Register" code

def operatorName (code : Int) : Bytes :=
  match codeAt? operators code with
  | some op => op.text
  | none => unknownName "Operator" code

def jumpName (code : Int) : Bytes :=
  match codeAt? jumps code with
  | some jump => jump.text
  | none => unknownName "Jump" code

def isRegister (code : Int) : Bool := (codeAt? registers code).isSome

/-- The register a code selects.  A code that stands for none drives the second input without
reading memory, as `A` does. -/
def register (code : Int) : Register := (codeAt? registers code).getD .a

def ofRegister : Register → Int
  | .a => 0
  | .d => 1
  | .m => 2

def ofOperator : Operator → Int
  | .add => 0
  | .sub => 1
  | .and => 2
  | .or => 3

def ofJump (jump : Jump) : Int := jump.bits.toNat

end Coded

structure CodedExpr where
  kind : Int
  const : Int
  x : Int
  op : Int
  y : Int
  deriving DecidableEq, Repr, Inhabited

namespace CodedExpr

/-- The canonical spelling, with the numbers of codes that stand for nothing. -/
def text (e : CodedExpr) : Bytes :=
  let x := Coded.registerName e.x
  match e.kind with
  | 0 => Numeral.decimal e.const
  | 1 => x
  | 2 => ascii "!" ++ x
  | 3 => ascii "-" ++ x
  | 4 => x ++ ascii " + 1"
  | 5 => x ++ ascii " - 1"
  | 6 => x ++ ascii " " ++ Coded.operatorName e.op ++ ascii " " ++ Coded.registerName e.y
  | kind => Coded.unknownName "ExprKind" kind

def expr (e : CodedExpr) : Except EncodingFault Expr :=
  let x := Coded.register e.x
  match e.kind with
  | 0 =>
    match e.const with
    | 0 => .ok .zero
    | 1 => .ok .one
    | -1 => .ok .negOne
    | value => .error (.constant value)
  | 1 => .ok (.reg x)
  | 2 => .ok (.not x)
  | 3 => .ok (.neg x)
  | 4 => .ok (.inc x)
  | 5 => .ok (.dec x)
  | 6 =>
    match Coded.codeAt? Coded.operators e.op with
    | some op => .ok (.binary x op (Coded.register e.y))
    | none => .error (.operator (Coded.operatorName e.op))
  | kind => .error (.kind kind)

def operation (e : CodedExpr) : Except EncodingFault Operation := e.expr.map Expr.operation

/-- The operands of a commutative operator in the order of the inputs; every operator but
subtraction counts as commutative. -/
def normalize (e : CodedExpr) : CodedExpr :=
  if e.kind == 6 && e.op != 1 && e.x != 1 then { e with x := e.y, y := e.x } else e

/-- The codes of an expression; numbers that its kind does not use are zero, except that `- 1`
keeps the code of its operator. -/
def ofExpr : Expr → CodedExpr
  | .zero => ⟨0, 0, 0, 0, 0⟩
  | .one => ⟨0, 1, 0, 0, 0⟩
  | .negOne => ⟨0, -1, 0, 0, 0⟩
  | .reg x => ⟨1, 0, Coded.ofRegister x, 0, 0⟩
  | .not x => ⟨2, 0, Coded.ofRegister x, 0, 0⟩
  | .neg x => ⟨3, 0, Coded.ofRegister x, 0, 0⟩
  | .inc x => ⟨4, 0, Coded.ofRegister x, 0, 0⟩
  | .dec x => ⟨5, 0, Coded.ofRegister x, Coded.ofOperator .sub, 0⟩
  | .binary x op y => ⟨6, 0, Coded.ofRegister x, Coded.ofOperator op, Coded.ofRegister y⟩

end CodedExpr

structure CodedCompute where
  targets : List Int
  expr : CodedExpr
  jump : Int
  deriving DecidableEq, Repr, Inhabited

namespace CodedCompute

def text (c : CodedCompute) : Bytes :=
  computeText (c.targets.map Coded.registerName) c.expr.text
    (if c.jump == 0 then none else some (Coded.jumpName c.jump))

/-- The word: a jump code is joined in bit by bit, also where it reaches beyond its field, and every
target must be a register. -/
def encode (c : CodedCompute) : Except EncodingFault Word :=
  match c.expr.normalize.operation, c.targets.find? fun code => !Coded.isRegister code with
  | .error fault, _ => .error fault
  | .ok _, some code => .error (.target code)
  | .ok op, none =>
    .ok (encodeOperation op (c.targets.map Coded.register) ||| BitVec.ofInt 16 c.jump)

end CodedCompute

end HackMachine
