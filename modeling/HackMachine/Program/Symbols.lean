import HackMachine.Text.Bytes

/-! # Symbol tables

A symbol table maps label names to instruction addresses.  A name has one address: setting it again
replaces the earlier one.
-/

namespace HackMachine

abbrev Symbols := List (Bytes × Int)

/-- The order of names, byte by byte. -/
def Bytes.le (a b : Bytes) : Bool := decide (a ≤ b)

namespace Symbols

def set (symbols : Symbols) (name : Bytes) (address : Int) : Symbols :=
  (name, address) :: symbols.filter (·.1 != name)

def find? (symbols : Symbols) (name : Bytes) : Option Int := List.lookup name symbols

def sorted (symbols : Symbols) : Symbols := symbols.mergeSort fun a b => a.1.le b.1

def namesAt (symbols : Symbols) (address : Int) : List Bytes :=
  ((symbols.filter (·.2 == address)).map (·.1)).mergeSort Bytes.le

end Symbols

end HackMachine
