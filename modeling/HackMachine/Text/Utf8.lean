import HackMachine.Text.Bytes

/-! # Code points of a byte text

A text may hold malformed bytes: a byte that starts no well-formed sequence stands for itself alone.

* `Utf8.count` — the number of code points, with one for each malformed byte;
* `Utf8.point` — the code point that a leading byte starts;
* `Utf8.mend` — the text with a replacement character for each malformed byte.
-/

namespace HackMachine

namespace Utf8

def isTail (b : UInt8) : Bool := 0x80 ≤ b && b ≤ 0xBF

/-- The second bytes that may follow a leading byte of three or four bytes: overlong forms,
surrogates and code points above 10FFFF are shut out here. -/
def secondRange (lead : UInt8) : UInt8 × UInt8 :=
  if lead == 0xE0 then (0xA0, 0xBF)
  else if lead == 0xED then (0x80, 0x9F)
  else if lead == 0xF0 then (0x90, 0xBF)
  else if lead == 0xF4 then (0x80, 0x8F)
  else (0x80, 0xBF)

/-- How many bytes follow `lead` in its code point; `none` where `lead` and `rest` start no
well-formed sequence. -/
def following (lead : UInt8) (rest : Bytes) : Option Nat :=
  let second (b : UInt8) : Bool := (secondRange lead).1 ≤ b && b ≤ (secondRange lead).2
  if lead < 0x80 then some 0
  else if 0xC2 ≤ lead && lead ≤ 0xDF then
    match rest with
    | b :: _ => if isTail b then some 1 else none
    | _ => none
  else if 0xE0 ≤ lead && lead ≤ 0xEF then
    match rest with
    | b :: c :: _ => if second b && isTail c then some 2 else none
    | _ => none
  else if 0xF0 ≤ lead && lead ≤ 0xF4 then
    match rest with
    | b :: c :: d :: _ => if second b && isTail c && isTail d then some 3 else none
    | _ => none
  else none

def point (lead : UInt8) (tail : Bytes) : Nat :=
  let payload (b : UInt8) : Nat := b.toNat % 64
  match tail with
  | [] => lead.toNat
  | [b] => lead.toNat % 32 * 0x40 + payload b
  | [b, c] => lead.toNat % 16 * 0x1000 + payload b * 0x40 + payload c
  | b :: c :: d :: _ => lead.toNat % 8 * 0x40000 + payload b * 0x1000 + payload c * 0x40 + payload d

/-- The number of code points, after `skip` bytes that belong to one already counted. -/
def countFrom (skip : Nat) : Bytes → Nat
  | [] => 0
  | b :: rest =>
    match skip with
    | n + 1 => countFrom n rest
    | 0 => countFrom ((following b rest).getD 0) rest + 1

def count (text : Bytes) : Nat := countFrom 0 text

def replacement : Bytes := [0xEF, 0xBF, 0xBD]

/-- The text behind `skip` bytes of a code point, with `mended` in reverse before it. -/
def mendFrom (skip : Nat) (mended : Bytes) : Bytes → Bytes
  | [] => mended.reverse
  | b :: rest =>
    match skip with
    | n + 1 => mendFrom n (b :: mended) rest
    | 0 =>
      match following b rest with
      | some n => mendFrom n (b :: mended) rest
      | none => mendFrom 0 (replacement.reverse ++ mended) rest

def mend (text : Bytes) : Bytes := mendFrom 0 [] text

def validFrom (skip : Nat) : Bytes → Bool
  | [] => true
  | b :: rest =>
    match skip with
    | n + 1 => validFrom n rest
    | 0 =>
      match following b rest with
      | some n => validFrom n rest
      | none => false

def isValid (text : Bytes) : Bool := validFrom 0 text

end Utf8

/-- A text brought to at least `width` code points by spaces behind it. -/
def Bytes.padRight (width : Nat) (text : Bytes) : Bytes :=
  text ++ Bytes.fill (width - Utf8.count text) (byte ' ')

end HackMachine
