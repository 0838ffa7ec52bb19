import SqlDialects.Number.Natural

/-!
# Double precision numbers

A finite number is a significand below 2^53 times a power of two that is at least 2^-1074. The
exponent is kept from its least value, so that it is a natural number. Decimal text is rounded to
the nearest number, and half way between two to the one with an even significand.
-/

namespace SqlDialects.Number

inductive Binary64 where
  | nan
  | infinite (isNegative : Bool)
  /-- The value is `significand * 2 ^ (exponent - 1074)`, with the sign. -/
  | finite (isNegative : Bool) (significand exponent : Nat)
  deriving DecidableEq, Repr

namespace Binary64

def isFinite : Binary64 → Bool
  | finite _ _ _ => true
  | _ => false

/-- Equal as numbers: not-a-number differs from itself, and zero has no sign. -/
def sameValue : Binary64 → Binary64 → Bool
  | finite s m e, finite s' m' e' => m == m' && ((m == 0) || (s == s' && e == e'))
  | infinite s, infinite s' => s == s'
  | _, _ => false

/-! ## Rounding -/

/-- The natural number nearest to a ratio, the even one of two. -/
def roundRatio (num den : Nat) : Nat :=
  let q := num / den
  let r := 2 * (num % den)
  if r < den then q else if r = den then q + q % 2 else q + 1

/-- The ratio over `2 ^ (exponent - 1074)`, rounded. -/
def significandAt (num den exponent : Nat) : Nat :=
  if exponent ≤ 1074 then roundRatio (num * twoTo (1074 - exponent)) den
  else roundRatio num (den * twoTo (exponent - 1074))

/-- The exponent at which the ratio has 53 binary digits, or the least one. -/
def exponentFor (num den : Nat) : Nat :=
  let guess := (num.log2 + 1074) - (den.log2 + 52)
  let scaled := if guess ≤ 1074 then num * twoTo (1074 - guess) / den
    else num / (den * twoTo (guess - 1074))
  if scaled < twoTo 52 then guess - 1 else guess

def ofRatio (isNegative : Bool) (num den : Nat) : Binary64 :=
  if num = 0 then finite isNegative 0 0
  else
    let exponent := exponentFor num den
    let significand := significandAt num den exponent
    let (significand, exponent) :=
      if significand = twoTo 53 then (twoTo 52, exponent + 1) else (significand, exponent)
    if exponent > 2045 then infinite isNegative else finite isNegative significand exponent

/-! ## Scaling -/

/-- Times a ratio, rounded. -/
def scaled (num den : Nat) : Binary64 → Binary64
  | finite isNegative significand exponent =>
    ofRatio isNegative (significand * twoTo exponent * num) (den * twoTo 1074)
  | x => x

/-- The nearest natural number with 53 significant binary digits. -/
def nearestNatural (n : Nat) : Nat :=
  let unit := twoTo (n.log2 - 52)
  roundRatio n unit * unit

/-! ## Decimal text -/

/-- Far outside of this range of magnitudes a number is infinite or zero. -/
def decimalRange : Int := 400

/-- `digits * 10 ^ exponent`, where `count` is the number of digits. -/
def ofDecimal (isNegative : Bool) (digits count : Nat) (exponent : Int) : Binary64 :=
  if digits = 0 then finite isNegative 0 0
  else if exponent + count > decimalRange then infinite isNegative
  else if exponent + count < -decimalRange then finite isNegative 0 0
  else if 0 ≤ exponent then ofRatio isNegative (digits * tenTo exponent.toNat) 1
  else ofRatio isNegative digits (tenTo (-exponent).toNat)

/-- The exponent of a decimal, after its letter. -/
def exponent? (cs : List Char) : Option Int :=
  match cs with
  | [] => some 0
  | c :: rest => if c = 'e' ∨ c = 'E' then integer? rest else none

/-- A decimal as it is written: the digits on both sides of the point, and the exponent. -/
structure Written where
  whole : List Char
  fraction : List Char
  exponent : Int

/-- The point and either side of it may be missing. -/
def written? (cs : List Char) : Option Written :=
  let whole := cs.takeWhile Char.isDigit
  let (fraction, rest) :=
    match cs.dropWhile Char.isDigit with
    | '.' :: more => (more.takeWhile Char.isDigit, more.dropWhile Char.isDigit)
    | more => ([], more)
  if (whole ++ fraction).isEmpty then none
  else (exponent? rest).map fun exponent => { whole, fraction, exponent }

def unsigned? (isNegative : Bool) (cs : List Char) : Option Binary64 :=
  (written? cs).map fun w =>
    let significant := (w.whole ++ w.fraction).dropWhile (· == '0')
    ofDecimal isNegative (ofDigits significant) significant.length (w.exponent - w.fraction.length)

def magnitude? (isNegative : Bool) (cs : List Char) : Option Binary64 :=
  let small := cs.map Char.toLower
  if small = "nan".toList then some nan
  else if small = "inf".toList ∨ small = "infinity".toList then some (infinite isNegative)
  else unsigned? isNegative cs

def ofText? (s : String) : Option Binary64 :=
  match s.toList with
  | '-' :: cs => magnitude? true cs
  | '+' :: cs => magnitude? false cs
  | cs => magnitude? false cs

end Binary64

end SqlDialects.Number
