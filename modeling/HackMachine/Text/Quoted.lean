import HackMachine.Text.Numeral
import HackMachine.Text.Printable
import HackMachine.Text.Utf8

/-! # Quoted texts

A text in double quotes shows every byte of it in printable characters: quotes, backslashes and the
common control characters have escapes of their own, other bytes of ASCII and malformed bytes are
written in two hexadecimal digits, and code points that cannot be printed in four or eight.
-/

namespace HackMachine

namespace Quoted

def escapes : List (UInt8 × String) :=
  [(34, "\\\""), (92, "\\\\"), (7, "\\a"), (8, "\\b"), (12, "\\f"), (10, "\\n"), (13, "\\r"),
    (9, "\\t"), (11, "\\v")]

def escapedPoint (point : Nat) : Bytes :=
  if point < 0x10000 then ascii "\\u" ++ Numeral.padded 16 4 point
  else ascii "\\U" ++ Numeral.padded 16 8 point

/-- How the code point at the head of a text is written, and how many bytes behind its first byte
belong to it. -/
def written (b : UInt8) (rest : Bytes) : Bytes × Nat :=
  match escapes.lookup b with
  | some text => (ascii text, 0)
  | none =>
    if 32 ≤ b && b < 127 then ([b], 0)
    else
      match if b < 128 then none else Utf8.following b rest with
      | some n =>
        let point := Utf8.point b (rest.take n)
        (if Printable.contains point then b :: rest.take n else escapedPoint point, n)
      | none => (ascii "\\x" ++ Numeral.padded 16 2 b.toNat, 0)

/-- The written form of a text behind `skip` bytes of a code point already written. -/
def bodyFrom (skip : Nat) : Bytes → Bytes
  | [] => []
  | b :: rest =>
    match skip with
    | n + 1 => bodyFrom n rest
    | 0 => (written b rest).1 ++ bodyFrom (written b rest).2 rest

end Quoted

def Bytes.quoted (text : Bytes) : Bytes := [34] ++ Quoted.bodyFrom 0 text ++ [34]

end HackMachine
