import HackMachine.Constant.BinaryFraction
import HackMachine.Constant.Integer
import HackMachine.Constant.Term
import HackMachine.Constant.Token

/-! # Values of constant expressions

Integers of any size, floating-point numbers, texts, truth values, lists, tuples, the absent value
and the built-in functions, with the operators on them:

* `truth` — which values count as true;
* `compareAt` — equality of any two values, order of values of one kind;
* `applyUnary`, `applyBinary`, `elementAt` — operators and indexing;
* `applyBuiltin` — calls.
-/

namespace HackMachine

namespace Constant

open Numeral (isDigitOf valueOf)

inductive Builtin where
  | len
  | abs
  | min
  | max
  | int
  deriving DecidableEq, Repr, Inhabited

inductive Value where
  | absent
  | bool (value : Bool)
  | int (value : Int)
  | float (value : Float)
  | text (value : Bytes)
  | list (items : List Value)
  | tuple (items : List Value)
  | builtin (function : Builtin)
  deriving Inhabited

namespace Value

/-- Zero, the empty sequences, falsehood and the absent value are false; all else is true. -/
def truth : Value → Bool
  | .absent => false
  | .bool value => value
  | .int value => value != 0
  | .float value => value != 0.0
  | .text value => !value.isEmpty
  | .list items | .tuple items => !items.isEmpty
  | .builtin _ => true

def toFloat : Value → Except Failure Float
  | .int n =>
    let f := Float.ofInt n
    if f.isFinite then .ok f else .error .tooLarge
  | .float f => .ok f
  | _ => .error .operandType

end Value

/-! ## Comparison -/

def Comparison.holds : Comparison → Ordering → Bool
  | .eq, o => o == .eq
  | .ne, o => o != .eq
  | .lt, o => o == .lt
  | .le, o => o != .gt
  | .gt, o => o == .gt
  | .ge, o => o != .lt

/-- A comparison of values without an order: only equality is defined. -/
def Comparison.onEquality (c : Comparison) (equal : Bool) : Except Failure Bool :=
  match c with
  | .eq => .ok equal
  | .ne => .ok !equal
  | _ => .error .operandType

/-- Sequences compare by their first unequal items, then by length. -/
def compareItems (element : Comparison → Value → Value → Except Failure Bool) (c : Comparison) :
    List Value → List Value → Except Failure Bool
  | x :: xs, y :: ys => do
    if ← element .eq x y then compareItems element c xs ys
    else
      match c with
      | .eq => .ok false
      | .ne => .ok true
      | _ => element c x y
  | xs, ys => .ok (c.holds (compare xs.length ys.length))

/-- Sequences of different lengths are unequal whatever they hold. -/
def compareSequences (element : Comparison → Value → Value → Except Failure Bool) (c : Comparison)
    (xs ys : List Value) : Except Failure Bool :=
  if xs.length != ys.length && (c == .eq || c == .ne) then .ok (c == .ne)
  else compareItems element c xs ys

def orderBool (x y : Bool) : Ordering := compare x.toNat y.toNat

def orderText : Bytes → Bytes → Ordering
  | [], [] => .eq
  | [], _ :: _ => .lt
  | _ :: _, [] => .gt
  | x :: xs, y :: ys => if x < y then .lt else if y < x then .gt else orderText xs ys

def compareAt : Nat → Comparison → Value → Value → Except Failure Bool
  | 0, _, _, _ => .error .tooDeep
  | depth + 1, c, x, y =>
    match x, y with
    | .int m, .int n => .ok (c.holds (compare m n))
    | .float f, .float g => .ok (c.holds (compareFloat f g))
    | .int n, .float f => .ok (c.holds (compareMixed n f))
    | .float f, .int n => .ok (c.holds (compareMixed n f).swap)
    | .text s, .text t => .ok (c.holds (orderText s t))
    | .bool p, .bool q => .ok (c.holds (orderBool p q))
    | .list xs, .list ys => compareSequences (compareAt depth) c xs ys
    | .tuple xs, .tuple ys => compareSequences (compareAt depth) c xs ys
    | .absent, .absent => c.onEquality true
    | .builtin f, .builtin g => c.onEquality (f = g)
    | _, _ => c.onEquality false

def compareValues (c : Comparison) (x y : Value) : Except Failure Bool := compareAt 10 c x y

/-! ## Operators -/

def occursIn (needle : Bytes) : Bytes → Bool
  | [] => needle.isEmpty
  | b :: rest => needle.isPrefixOf (b :: rest) || occursIn needle rest

def memberOf (x : Value) : List Value → Except Failure Bool
  | [] => .ok false
  | item :: items => do if ← compareValues .eq item x then .ok true else memberOf x items

def contains (x sequence : Value) : Except Failure Bool :=
  match x, sequence with
  | _, .list items | _, .tuple items => memberOf x items
  | .text needle, .text whole => .ok (occursIn needle whole)
  | _, _ => .error .operandType

/-- An operator on numbers: by the integers when both are, else by floating-point numbers. -/
def onNumbers (onInt : Int → Int → Except Failure Value)
    (onFloat : Float → Float → Except Failure Value) (x y : Value) : Except Failure Value :=
  match x, y with
  | .int m, .int n => onInt m n
  | _, _ => do onFloat (← x.toFloat) (← y.toFloat)

def onBits (op : Int → Int → Int) : Value → Value → Except Failure Value
  | .int m, .int n => .ok (.int (op m n))
  | _, _ => .error .operandType

def copiesOnto {α : Type} (items rest : List α) : Nat → List α
  | 0 => rest
  | count + 1 => copiesOnto items (items ++ rest) count

/-- A sequence repeated; a negative count repeats it no time, and any count keeps it empty. -/
def repeated {α : Type} (items : List α) (count : Int) : Except Failure (List α) :=
  if items.isEmpty then .ok []
  else if !fits32 count then .error .tooLarge
  else if items.length * count.toNat ≥ 0x40000000 then .error .tooLarge
  else .ok (copiesOnto items [] count.toNat)

def product (x y : Value) : Except Failure Value :=
  match x, y with
  | .text s, .int n | .int n, .text s => (repeated s n).map .text
  | .list items, .int n | .int n, .list items => (repeated items n).map .list
  | .tuple items, .int n | .int n, .tuple items => (repeated items n).map .tuple
  | _, _ => onNumbers (fun m n => .ok (.int (m * n))) (fun f g => .ok (.float (f * g))) x y

def sum (x y : Value) : Except Failure Value :=
  match x, y with
  | .text s, .text t => .ok (.text (s ++ t))
  | .list xs, .list ys => .ok (.list (xs ++ ys))
  | .tuple xs, .tuple ys => .ok (.tuple (xs ++ ys))
  | _, _ => onNumbers (fun m n => .ok (.int (m + n))) (fun f g => .ok (.float (f + g))) x y

def quotient (onInt : Int → Int → Value) (onFloat : Float → Float → Float) (x y : Value) :
    Except Failure Value :=
  onNumbers (fun m n => if n == 0 then .error .zeroDivisor else .ok (onInt m n))
    (fun f g => if g == 0.0 then .error .zeroDivisor else .ok (.float (onFloat f g))) x y

/-- A shift of an integer by a count that is not negative; to the left it stays below 512. -/
def shift (left : Bool) : Value → Value → Except Failure Value
  | .int n, .int count =>
    if !fits32 count || count < 0 || (left && count ≥ 512) then .error .shiftCount
    else .ok (.int (if left then timesPowerOfTwo n count.toNat else n >>> count.toNat))
  | _, _ => .error .operandType

def applyBinary (op : BinaryOp) (x y : Value) : Except Failure Value :=
  match op with
  | .or => .ok (if x.truth then x else y)
  | .and => .ok (if x.truth then y else x)
  | .compare c => (compareValues c x y).map .bool
  | .isIn => (contains x y).map .bool
  | .notIn => (contains x y).map (.bool !·)
  | .bitOr => onBits bitOr x y
  | .bitXor => onBits bitXor x y
  | .bitAnd => onBits bitAnd x y
  | .shiftLeft => shift true x y
  | .shiftRight => shift false x y
  | .add => sum x y
  | .sub => onNumbers (fun m n => .ok (.int (m - n))) (fun f g => .ok (.float (f - g))) x y
  | .mul => product x y
  | .div => do
    let f ← x.toFloat
    let g ← y.toFloat
    if g == 0.0 then .error .zeroDivisor else .ok (.float (f / g))
  | .floorDiv => quotient (fun m n => .int (m.fdiv n)) (fun f g => (f / g).floor) x y
  | .mod => quotient (fun m n => .int (m.fmod n)) floorMod x y

def applyUnary (op : UnaryOp) (x : Value) : Except Failure Value :=
  match op, x with
  | .not, _ => .ok (.bool !x.truth)
  | .plus, .int _ | .plus, .float _ => .ok x
  | .minus, .int n => .ok (.int (-n))
  | .minus, .float f => .ok (.float (-f))
  | .complement, .int n => .ok (.int (-n - 1))
  | _, _ => .error .operandType

/-- The item at a position; a negative one counts from the end. -/
def itemAt {α : Type} (items : List α) (position : Int) : Except Failure α :=
  let i := if position < 0 then position + items.length else position
  if !fits32 position || i < 0 then .error .indexRange
  else
    match items[i.toNat]? with
    | some item => .ok item
    | none => .error .indexRange

def elementAt : Value → Value → Except Failure Value
  | .text s, .int i => (itemAt s i).map fun b => .text [b]
  | .list items, .int i | .tuple items, .int i => itemAt items i
  | _, _ => .error .operandType

/-! ## Built-in functions -/

/-- The integer a numeral of a base stands for, with an optional sign and the base's own letter; base
zero takes the base from the letter, and ten without one. -/
def parseInteger? (base : Nat) (text : Bytes) : Option Int :=
  let negative := text.head? == some (byte '-')
  let body := if negative || text.head? == some (byte '+') then text.drop 1 else text
  let letter := ((body.drop 1).head?.map Bytes.toLower).getD 0
  let marked :=
    if body.head? == some (byte '0') && body.length > 2 then
      if letter == byte 'x' then 16 else if letter == byte 'o' then 8
      else if letter == byte 'b' then 2 else 0
    else 0
  let zeros := base == 0 && marked == 0 && body.length > 1 && body.head? == some (byte '0')
  let chosen := if base != 0 then base else if marked != 0 then marked else 10
  let digits := if marked != 0 && marked == chosen then body.drop 2 else body
  if digits.isEmpty || !digits.all (isDigitOf chosen) then none
  else if zeros && digits.any (· != byte '0') then none
  else some (if negative then -(valueOf chosen digits : Int) else valueOf chosen digits)

/-- The extreme of values: a later value replaces an earlier one only when it is beyond it. -/
def extreme (c : Comparison) (best : Value) : List Value → Except Failure Value
  | [] => .ok best
  | x :: xs => do if ← compareValues c x best then extreme c x xs else extreme c best xs

def extremeOf (c : Comparison) : List Value → Except Failure Value
  | [.list (x :: xs)] | [.tuple (x :: xs)] => extreme c x xs
  | x :: y :: rest => extreme c x (y :: rest)
  | _ => .error .argument

def toInteger : List Value → Except Failure Value
  | [.int n] => .ok (.int n)
  | [.bool b] => .ok (.int b.toNat)
  | [.float f] => if f.isFinite then .ok (.int (BinaryFraction.ofFloat f).truncate) else .error .tooLarge
  | [.text s] =>
    match parseInteger? 10 s with
    | some n => .ok (.int n)
    | none => .error .argument
  | [.text s, .int base] =>
    if base != 0 && (base < 2 || base > 36) then .error .argument
    else
      match parseInteger? base.toNat s with
      | some n => .ok (.int n)
      | none => .error .argument
  | _ => .error .argument

def applyBuiltin (function : Builtin) (arguments : List Value) : Except Failure Value :=
  match function, arguments with
  | .len, [.text s] => .ok (.int s.length)
  | .len, [.list items] | .len, [.tuple items] => .ok (.int items.length)
  | .abs, [.int n] => .ok (.int n.natAbs)
  | .abs, [.float f] => .ok (.float f.abs)
  | .min, _ => extremeOf .lt arguments
  | .max, _ => extremeOf .gt arguments
  | .int, _ => toInteger arguments
  | _, _ => .error .argument

end Constant

end HackMachine
