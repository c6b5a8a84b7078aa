import HackMachine.Text.Bytes

/-! # Numbers as text

Positional numerals in any base, and the forms in which reports print them:

* `decimal` — an integer in base ten, with a minus sign when it is negative;
* `grouped` — the same with a comma between groups of three digits;
* `padded` — a natural number in a base, brought to a width by leading zeros;
* `valueOf` — the number that digits of a base stand for.
-/

namespace HackMachine

namespace Numeral

def digit (value : Nat) : UInt8 :=
  if value < 10 then byte '0' + value.toUInt8 else byte 'a' + (value - 10).toUInt8

def digits (base n : Nat) : Bytes :=
  if _h : n < base ∨ base < 2 then [digit n]
  else digits base (n / base) ++ [digit (n % base)]
termination_by n
decreasing_by exact Nat.div_lt_self (by omega) (by omega)

def sign (n : Int) : Bytes := if n < 0 then ascii "-" else []

def decimal (n : Int) : Bytes := sign n ++ digits 10 n.natAbs

/-- A comma after every third byte that has more behind it. -/
def commas : Bytes → Bytes
  | a :: b :: c :: d :: rest => a :: b :: c :: byte ',' :: commas (d :: rest)
  | short => short

def grouped (n : Int) : Bytes := sign n ++ (commas (digits 10 n.natAbs).reverse).reverse

def padded (base width n : Nat) : Bytes := Bytes.padLeft width (byte '0') (digits base n)

def upper (text : Bytes) : Bytes :=
  text.map fun b => if byte 'a' ≤ b && b ≤ byte 'z' then b - 32 else b

/-! ## Reading -/

def digitValue? (b : UInt8) : Option Nat :=
  if byte '0' ≤ b && b ≤ byte '9' then some (b - byte '0').toNat
  else if byte 'a' ≤ b && b ≤ byte 'z' then some ((b - byte 'a').toNat + 10)
  else if byte 'A' ≤ b && b ≤ byte 'Z' then some ((b - byte 'A').toNat + 10)
  else none

def isDigitOf (base : Nat) (b : UInt8) : Bool :=
  match digitValue? b with
  | some value => value < base
  | none => false

def valueOf (base : Nat) (digits : Bytes) : Nat :=
  digits.foldl (fun value b => value * base + (digitValue? b).getD 0) 0

end Numeral

end HackMachine
