/-! # Machine words

A word has sixteen bits, bit 15 being the most significant.  `flag` places one bit; the fields of an
instruction word are read and written bit by bit, so a field that was placed is the field that is
read back.
-/

namespace HackMachine

abbrev Word := BitVec 16

/-- The bits with bit `index` equal to `set` and all others clear. -/
def flag {width : Nat} (index : Nat) (set : Bool) : BitVec width :=
  if set then BitVec.twoPow width index else 0

theorem getLsbD_flag {width : Nat} (index : Nat) (set : Bool) (i : Nat) :
    (flag index set : BitVec width).getLsbD i = (set && decide (i < width) && decide (index = i)) := by
  cases set <;> simp [flag, BitVec.getLsbD_twoPow]
  by_cases h : i < width <;> by_cases e : index = i <;> simp [h, e]

end HackMachine
