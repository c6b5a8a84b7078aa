import HackMachine.Constant.Evaluator
import HackMachine.Constant.Reading
import HackMachine.Constant.Value

/-! # A language for constants

The evaluator of the command.  A program is a line of statements with semicolons between them.  Names are
resolved before anything runs: each must be built in or assigned somewhere, none may be assigned twice,
and no call may have more than 255 arguments.  Results about assembly hold for any evaluator, not for
this one alone.
-/

namespace HackMachine

namespace Constant

abbrev Bindings := List (Bytes × Value)

def predeclared : Bindings :=
  [(ascii "None", .absent), (ascii "True", .bool true), (ascii "False", .bool false),
    (ascii "len", .builtin .len), (ascii "abs", .builtin .abs), (ascii "min", .builtin .min),
    (ascii "max", .builtin .max), (ascii "int", .builtin .int)]

/-! ## Names -/

mutual

def Term.names : Term → List Bytes
  | .name name => [name]
  | .int _ | .float _ | .text _ => []
  | .list items | .tuple items => namesOfAll items
  | .unary _ x => x.names
  | .binary _ x y => x.names ++ y.names
  | .conditional c x y => c.names ++ x.names ++ y.names
  | .index x i => x.names ++ i.names
  | .attribute x _ => x.names
  | .call f arguments => f.names ++ namesOfAll arguments

def namesOfAll : List Term → List Bytes
  | [] => []
  | x :: xs => x.names ++ namesOfAll xs

end

mutual

def Term.widestCall : Term → Nat
  | .name _ | .int _ | .float _ | .text _ => 0
  | .list items | .tuple items => widestCallOfAll items
  | .unary _ x | .attribute x _ => x.widestCall
  | .binary _ x y | .index x y => max x.widestCall y.widestCall
  | .conditional c x y => max c.widestCall (max x.widestCall y.widestCall)
  | .call f arguments => max arguments.length (max f.widestCall (widestCallOfAll arguments))

def widestCallOfAll : List Term → Nat
  | [] => 0
  | x :: xs => max x.widestCall (widestCallOfAll xs)

end

def Command.targets : Command → List Bytes
  | .assign target _ => target.names
  | .evaluate _ | .pass => []

def Command.names : Command → List Bytes
  | .assign _ value | .evaluate value => value.names
  | .pass => []

def Command.widestCall : Command → Nat
  | .assign _ value | .evaluate value => value.widestCall
  | .pass => 0

def argumentLimit : Nat := 255

def duplicate? : List Bytes → Option Bytes
  | [] => none
  | name :: names => if names.contains name then some name else duplicate? names

/-- Refuses names without a meaning, second assignments and calls with too many arguments. -/
def resolve (commands : List Command) : Except Failure Unit :=
  let assigned := commands.flatMap Command.targets
  let known (name : Bytes) : Bool := assigned.contains name || (predeclared.lookup name).isSome
  match duplicate? assigned, (commands.flatMap Command.names).find? (!known ·) with
  | some name, _ => .error (.reassigned name)
  | none, some name => .error (.undefinedName name)
  | none, none =>
    if commands.any (argumentLimit < Command.widestCall ·) then .error .manyArguments else .ok ()

/-! ## Running -/

/-- The value of a name: assigned names hide the predeclared ones. -/
def lookup (assigned : List Bytes) (bindings : Bindings) (name : Bytes) : Except Failure Value :=
  let found := if assigned.contains name then bindings.lookup name else predeclared.lookup name
  match found with
  | some value => .ok value
  | none => .error (.unassigned name)

mutual

/-- The value of a term. `or`, `and` and the conditional run only the operands they need. -/
def Term.eval (read : Bytes → Except Failure Value) : Term → Except Failure Value
  | .name name => read name
  | .int value => .ok (.int value)
  | .float value => .ok (.float value)
  | .text value => .ok (.text value)
  | .list items => (evalAll read items).map .list
  | .tuple items => (evalAll read items).map .tuple
  | .unary op x => do applyUnary op (← x.eval read)
  | .binary op x y => do
    let value ← x.eval read
    if (op = .or && value.truth) || (op = .and && !value.truth) then .ok value
    else applyBinary op value (← y.eval read)
  | .conditional condition x y => do
    if (← condition.eval read).truth then x.eval read else y.eval read
  | .index x i => do
    let sequence ← x.eval read
    elementAt sequence (← i.eval read)
  | .attribute x _ => do
    let _ ← x.eval read
    .error .operandType
  | .call f arguments => do
    match ← f.eval read with
    | .builtin function => applyBuiltin function (← evalAll read arguments)
    | _ => .error .operandType

def evalAll (read : Bytes → Except Failure Value) : List Term → Except Failure (List Value)
  | [] => .ok []
  | x :: xs => do
    let value ← x.eval read
    let values ← evalAll read xs
    .ok (value :: values)

end

mutual

def Pattern.bind (bindings : Bindings) : Pattern → Value → Except Failure Bindings
  | .name name, value => .ok ((name, value) :: bindings)
  | .items patterns, .list values | .items patterns, .tuple values =>
    bindAll bindings patterns values
  | .items _, _ => .error .operandType

def bindAll (bindings : Bindings) : List Pattern → List Value → Except Failure Bindings
  | [], [] => .ok bindings
  | pattern :: patterns, value :: values => do
    bindAll (← pattern.bind bindings value) patterns values
  | _, _ => .error .operandType

end

def Command.run (assigned : List Bytes) (bindings : Bindings) :
    Command → Except Failure Bindings
  | .assign target term => do target.bind bindings (← term.eval (lookup assigned bindings))
  | .evaluate term => do
    let _ ← term.eval (lookup assigned bindings)
    .ok bindings
  | .pass => .ok bindings

def runAll (commands : List Command) : Except Failure Bindings :=
  commands.foldlM (Command.run (commands.flatMap Command.targets)) []

def runProgram (program : Bytes) : Except Failure Bindings := do
  let commands ← readCommands (← scan (Utf8.mend (unifyLines program)))
  resolve commands
  runAll commands

def Value.global : Value → Global
  | .int value => .integer value
  | _ => .other

instance : Evaluator where
  run program :=
    match runProgram program with
    | .ok bindings => .ok fun name => (bindings.lookup name).map Value.global
    | .error failure => .error failure.message

end Constant

end HackMachine
