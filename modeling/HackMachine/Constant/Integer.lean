/-! # Bitwise operations on unbounded integers

An integer stands for its two's-complement form with the sign bit repeated without end.  `-(n + 1)`
has the complemented bits of `n`, so each operation reduces to one on natural numbers.
-/

namespace HackMachine

namespace Constant

def bitAnd : Int → Int → Int
  | .ofNat m, .ofNat n => .ofNat (m &&& n)
  | .ofNat m, .negSucc n => .ofNat (m ^^^ (m &&& n))
  | .negSucc m, .ofNat n => .ofNat (n ^^^ (n &&& m))
  | .negSucc m, .negSucc n => .negSucc (m ||| n)

def bitOr : Int → Int → Int
  | .ofNat m, .ofNat n => .ofNat (m ||| n)
  | .ofNat m, .negSucc n => .negSucc (n ^^^ (n &&& m))
  | .negSucc m, .ofNat n => .negSucc (m ^^^ (m &&& n))
  | .negSucc m, .negSucc n => .negSucc (m &&& n)

def bitXor : Int → Int → Int
  | .ofNat m, .ofNat n => .ofNat (m ^^^ n)
  | .ofNat m, .negSucc n => .negSucc (m ^^^ n)
  | .negSucc m, .ofNat n => .negSucc (m ^^^ n)
  | .negSucc m, .negSucc n => .ofNat (m ^^^ n)

def timesPowerOfTwo (n : Int) (exponent : Nat) : Int := n * (Nat.pow 2 exponent : Nat)

/-- Whether an integer lies in the signed 32-bit range, as counts and indexes must. -/
def fits32 (n : Int) : Bool := -0x80000000 ≤ n && n < 0x80000000

/-- The nearest integer in the signed 64-bit range. -/
def saturate64 (n : Int) : Int := max (-0x8000000000000000) (min n 0x7fffffffffffffff)

end Constant

end HackMachine
