import HackMachine.Text.Numeral
import HackMachine.Word

/-! # The arithmetic-logic unit

The unit has two 16-bit inputs.  Each may be zeroed and then complemented; the two are combined by
addition modulo 2^16 or by bitwise conjunction; the result may be complemented again.  Six switches
select all of that, and every operation of the machine is one setting of them.
-/

namespace HackMachine

structure Control where
  zeroX : Bool := false
  negateX : Bool := false
  zeroY : Bool := false
  negateY : Bool := false
  add : Bool := false
  negateOut : Bool := false
  deriving DecidableEq, Repr, Inhabited

structure Status where
  zero : Bool
  negative : Bool
  deriving DecidableEq, Repr, Inhabited

namespace Control

/-- The switches as a 6-bit field, `zeroX` being its bit 5. -/
def bits (c : Control) : BitVec 6 :=
  flag 5 c.zeroX ||| flag 4 c.negateX ||| flag 3 c.zeroY ||| flag 2 c.negateY |||
    flag 1 c.add ||| flag 0 c.negateOut

/-- The switches read from the six bits of `field` that start at bit `low`. -/
def ofBits {width : Nat} (field : BitVec width) (low : Nat) : Control where
  zeroX := field.getLsbD (low + 5)
  negateX := field.getLsbD (low + 4)
  zeroY := field.getLsbD (low + 3)
  negateY := field.getLsbD (low + 2)
  add := field.getLsbD (low + 1)
  negateOut := field.getLsbD low

def text (c : Control) : Bytes := Numeral.padded 2 6 c.bits.toNat

def condition (zero negate : Bool) (v : Word) : Word :=
  let w := if zero then 0#16 else v
  if negate then ~~~w else w

def result (c : Control) (x y : Word) : Word :=
  let x := condition c.zeroX c.negateX x
  let y := condition c.zeroY c.negateY y
  let out := if c.add then x + y else x &&& y
  if c.negateOut then ~~~out else out

end Control

def Status.of (out : Word) : Status where
  zero := out == 0#16
  negative := out.msb

def Control.compute (c : Control) (x y : Word) : Word × Status :=
  let out := c.result x y
  (out, Status.of out)

end HackMachine
