import HackMachine.Text.Numeral

/-! # Number words

A number word is decimal, or hexadecimal behind `0x`.  It is read from the left with 64 bits, so a
word that overflows them stands for a value beyond every immediate whatever follows; `maxNumber` is
the largest value given.
-/

namespace HackMachine

def maxNumber : Nat := 0x7fffffffffffffff

/-- The value of digits behind those that gave `value`; `none` for a byte that is no digit. -/
def numberFrom (base value : Nat) : Bytes → Option Nat
  | [] => some (min value maxNumber)
  | b :: rest =>
    match Numeral.digitValue? b with
    | none => none
    | some digit =>
      if digit ≥ base then none
      else if value * base + digit ≥ 0x10000000000000000 then some maxNumber
      else numberFrom base (value * base + digit) rest

def numberOf (base : Nat) (digits : Bytes) : Option Nat :=
  if digits.isEmpty then none else numberFrom base 0 digits

def parseNumber? (text : Bytes) : Option Nat :=
  match text with
  | zero :: letter :: digits =>
    if zero == byte '0' && (letter == byte 'x' || letter == byte 'X') then numberOf 16 digits
    else numberOf 10 text
  | _ => numberOf 10 text

end HackMachine
