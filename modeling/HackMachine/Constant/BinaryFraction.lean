import HackMachine.Constant.Integer

/-! # Floating-point numbers as exact fractions

A finite floating-point number is `mantissa * 2 ^ exponent`.  Comparison with integers, truncation and
remainder are exact on that form.
-/

namespace HackMachine

namespace Constant

/-- The number `mantissa * 2 ^ exponent`. -/
structure BinaryFraction where
  mantissa : Int
  exponent : Int
  deriving DecidableEq, Repr, Inhabited

namespace BinaryFraction

def ofFloat (f : Float) : BinaryFraction :=
  let bits : Nat := f.toBits.toNat
  let fraction : Nat := bits % 0x10000000000000
  let scale : Nat := bits / 0x10000000000000 % 0x800
  let magnitude : Nat := if scale == 0 then fraction else fraction + 0x10000000000000
  let exponent : Int := if scale == 0 then -1074 else (scale : Int) - 1075
  ⟨if bits ≥ 0x8000000000000000 then -(magnitude : Int) else magnitude, exponent⟩

/-- The mantissa at a smaller exponent. -/
def scaled (d : BinaryFraction) (exponent : Int) : Int :=
  timesPowerOfTwo d.mantissa (d.exponent - exponent).toNat

def compareInt (n : Int) (d : BinaryFraction) : Ordering :=
  let exponent := min d.exponent 0
  compare (BinaryFraction.scaled ⟨n, 0⟩ exponent) (d.scaled exponent)

def truncate (d : BinaryFraction) : Int :=
  if d.exponent ≥ 0 then d.scaled 0 else d.mantissa.tdiv (timesPowerOfTwo 1 d.exponent.natAbs)

def remainder (x y : BinaryFraction) : BinaryFraction :=
  let exponent := min x.exponent y.exponent
  ⟨(x.scaled exponent).tmod (y.scaled exponent), exponent⟩

def toFloat (d : BinaryFraction) : Float := (Float.ofInt d.mantissa).scaleB d.exponent

end BinaryFraction

/-- The order of two floating-point numbers, with what is not a number above all others. -/
def compareFloat (x y : Float) : Ordering :=
  if x < y then .lt
  else if y < x then .gt
  else if x == y then .eq
  else if x == x then .lt
  else if y == y then .gt
  else .eq

def compareMixed (n : Int) (f : Float) : Ordering :=
  if f.isNaN then .lt
  else if f.isInf then (if f > 0 then .lt else .gt)
  else BinaryFraction.compareInt n (.ofFloat f)

def floorMod (x y : Float) : Float :=
  let r :=
    if x.isFinite && y.isFinite then (BinaryFraction.remainder (.ofFloat x) (.ofFloat y)).toFloat
    else if x.isFinite && y.isInf then x
    else 0.0 / 0.0
  if (decide (x < 0) != decide (y < 0)) && r != 0 then r + y else r

end Constant

end HackMachine
