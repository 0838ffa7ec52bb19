/-! # Reading natural numbers -/

namespace SqlDialects.Number

/-! ## Bounds and scales -/

/-- The natural numbers below it have 64 bits. -/
def wordBound : Nat := 18446744073709551616

/-- The integers below it, down to its negative, have 64 bits with their sign. -/
def signedBound : Nat := 9223372036854775808

def twoTo (n : Nat) : Nat := Nat.pow 2 n

def tenTo (n : Nat) : Nat := Nat.pow 10 n

/-! ## Digits -/

def digitValue (c : Char) : Nat := c.toNat - '0'.toNat

/-- The value of a row of digits. -/
def ofDigits (cs : List Char) : Nat := cs.foldl (fun n c => 10 * n + digitValue c) 0

def ofDigits? (cs : List Char) : Option Nat :=
  if cs ≠ [] ∧ cs.all Char.isDigit then some (ofDigits cs) else none

/-- A plus sign may stand in front of the digits. -/
def natural? (cs : List Char) : Option Nat :=
  match cs with
  | '+' :: digits => ofDigits? digits
  | digits => ofDigits? digits

def naturalBelow? (bound : Nat) (cs : List Char) : Option Nat :=
  (natural? cs).filter (· < bound)

/-- A minus sign may stand there too. -/
def integer? (cs : List Char) : Option Int :=
  match cs with
  | '-' :: digits => (ofDigits? digits).map fun n => -(n : Int)
  | cs => (natural? cs).map fun n => (n : Int)

end SqlDialects.Number
