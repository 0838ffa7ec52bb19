import SqlDialects.Number.Shortest

/-!
# The value of a JSON number

An integer that fits in 64 bits with its sign is read exactly. Any other number is read in double
precision and in steps: its leading digits, as many as fit in 64 bits, are taken as a number, which
is multiplied or divided by a power of ten. Every step rounds, so the result need not be the double
precision number that is nearest to the text.
-/

namespace SqlDialects.Json

open Number (Binary64)

inductive Numeral where
  | integer (n : Int)
  | double (x : Binary64)

namespace Numeral

/-! ## Double precision -/

/-- Puts digits behind a number as long as it fits in 64 bits. The others are left. -/
def takeDigits (n : Nat) : List Char → Nat × List Char
  | [] => (n, [])
  | c :: rest =>
    let next := 10 * n + Number.digitValue c
    if next < Number.wordBound then takeDigits next rest else (n, c :: rest)

/-- The greatest power of ten in double precision. -/
def greatestPower : Nat := 308

/-- A power of ten, rounded to double precision. -/
def powerOfTen (n : Nat) : Nat := Binary64.nearestNatural (Number.tenTo n)

/-- `significand * 10 ^ exponent`, if that is finite. A division by more than the greatest power of
ten takes two steps, and after two of the greatest nothing is left of 64 bits. -/
def ofParts? (isNegative : Bool) (significand : Nat) (exponent : Int) : Option Binary64 :=
  let x := Binary64.ofRatio isNegative significand 1
  if significand = 0 then some x
  else if exponent > greatestPower then none
  else if 0 ≤ exponent then
    some (x.scaled (powerOfTen exponent.toNat) 1) |>.filter (·.isFinite)
  else
    let places := exponent.natAbs
    if places ≤ greatestPower then some (x.scaled 1 (powerOfTen places))
    else
      let left := min (places - greatestPower) greatestPower
      some ((x.scaled 1 (powerOfTen greatestPower)).scaled 1 (powerOfTen left))

/-- Digits that are left of the whole part count as zeros, those of the fraction as nothing. -/
def ofWritten? (isNegative : Bool) (w : Binary64.Written) : Option Binary64 :=
  let (whole, wholeLeft) := takeDigits 0 w.whole
  let (significand, fractionLeft) := takeDigits whole w.fraction
  let places := w.fraction.length - fractionLeft.length
  ofParts? isNegative significand (w.exponent + wholeLeft.length - places)

/-! ## Numbers -/

/-- Zero has a sign in double precision only. -/
def ofWhole (isNegative : Bool) (n : Nat) : Numeral :=
  if isNegative then
    if 0 < n ∧ n ≤ Number.signedBound then .integer (-n) else .double (Binary64.ofRatio true n 1)
  else if n < Number.signedBound then .integer n else .double (Binary64.ofRatio false n 1)

def magnitude? (isNegative : Bool) (cs : List Char) : Option Numeral :=
  match (Number.ofDigits? cs).filter (· < Number.wordBound) with
  | some n => some (ofWhole isNegative n)
  | none => (Binary64.written? cs >>= ofWritten? isNegative).map .double

/-- Nothing for a number that is too great. -/
def ofLiteral? (literal : String) : Option Numeral :=
  match literal.toList with
  | '-' :: cs => magnitude? true cs
  | cs => magnitude? false cs

/-! ## Reading it as something else -/

def text : Numeral → String
  | integer n => toString n
  | double x => x.text

def isZero : Numeral → Bool
  | integer n => n == 0
  | double x => x.sameValue (.finite false 0 0)

/-- The nearest natural number of 64 bits, the greater one of two. -/
def rounded : Binary64 → Nat
  | .finite false significand exponent =>
    let doubled := 2 * significand * Number.twoTo exponent + Number.twoTo 1074
    min (Number.wordBound - 1) (doubled / Number.twoTo 1075)
  | _ => 0

/-- An integer has to be one already, any other number is rounded. -/
def natural? : Numeral → Option Nat
  | integer n => if 0 ≤ n then some n.toNat else none
  | double x => some (rounded x)

end Numeral

end SqlDialects.Json
