import SqlDialects.Number.Binary64

/-!
# The shortest decimal of a double precision number

Among the decimals that read back as the number, the text has one with the fewest digits, and of
those the nearest. It is written without an exponent.
-/

namespace SqlDialects.Number

/-- `digits * 10 ^ exponent`. -/
structure Decimal where
  digits : Nat
  exponent : Int
  deriving DecidableEq, Repr

namespace Shortest

/-- A positive number in quarters of its last binary place, with the decimals that read back as
it. The ends of that interval belong to it where the significand is even. -/
structure Interval where
  low : Nat
  value : Nat
  high : Nat
  isClosed : Bool
  /-- The quarter is `2 ^ (exponent - 1076)`. -/
  exponent : Nat

/-- Below a power of two the neighbours lie closer. -/
def interval (significand exponent : Nat) : Interval :=
  { low := 4 * significand - (if significand = twoTo 52 ∧ 0 < exponent then 1 else 2)
    value := 4 * significand
    high := 4 * significand + 2
    isClosed := significand % 2 = 0
    exponent }

/-- Scales quarters to multiples of `1 / grid` of a decimal place. -/
def scale (exponent : Nat) (place : Int) : Nat := twoTo (exponent - 1076) * tenTo (-place).toNat

def grid (exponent : Nat) (place : Int) : Nat := twoTo (1076 - exponent) * tenTo place.toNat

def holds (i : Interval) (place : Int) (digits : Nat) : Bool :=
  let point := digits * grid i.exponent place
  let low := i.low * scale i.exponent place
  let high := i.high * scale i.exponent place
  if i.isClosed then low ≤ point && point ≤ high else low < point && point < high

/-- The decimal of a place in the interval that is nearest to the value, the upper one of two. -/
def nearest? (i : Interval) (place : Int) : Option Decimal :=
  let value := i.value * scale i.exponent place
  let unit := grid i.exponent place
  let below := value / unit
  let isUpperNearer := unit ≤ 2 * (value % unit)
  match holds i place below, holds i place (below + 1) with
  | false, false => none
  | true, false => some ⟨below, place⟩
  | false, true => some ⟨below + 1, place⟩
  | true, true => some ⟨if isUpperNearer then below + 1 else below, place⟩

/-- The power of ten just above the value: it has so many digits before the point, or so many
zeros behind it if negative. -/
def magnitude (i : Interval) : Int :=
  let scaled := i.value * scale i.exponent (-343) / grid i.exponent (-343)
  (Nat.toDigits 10 scaled).length - 343

/-- Tries one more digit at a time. Seventeen are always enough. -/
def search (i : Interval) (top : Int) (used : Nat) : Nat → Decimal
  | 0 => ⟨0, 0⟩
  | left + 1 =>
    match nearest? i (top - (used + 1)) with
    | some decimal => decimal
    | none => search i top (used + 1) left

def decimal (significand exponent : Nat) : Decimal :=
  let i := interval significand exponent
  search i (magnitude i) 0 17

end Shortest

/-! ## Text -/

namespace Decimal

/-- Zeros before or behind the digits stand in for an exponent. -/
def text (d : Decimal) : String :=
  let digits := Nat.toDigits 10 d.digits
  if 0 ≤ d.exponent then String.ofList (digits ++ List.replicate d.exponent.toNat '0')
  else
    let places := (-d.exponent).toNat
    let padded := List.replicate (places + 1 - digits.length) '0' ++ digits
    let whole := padded.take (padded.length - places)
    let fraction := (padded.drop (padded.length - places)).reverse.dropWhile (· == '0')
    if fraction.isEmpty then String.ofList whole
    else String.ofList (whole ++ '.' :: fraction.reverse)

end Decimal

namespace Binary64

def text : Binary64 → String
  | nan => "NaN"
  | infinite false => "inf"
  | infinite true => "-inf"
  | finite isNegative significand exponent =>
    (if isNegative then "-" else "") ++
      (if significand = 0 then "0" else (Shortest.decimal significand exponent).text)

/-- A numeric literal always has a point. -/
def literal? (x : Binary64) : Option String :=
  if x.isFinite then
    some (if x.text.toList.contains '.' then x.text else x.text ++ ".0")
  else none

end Binary64

end SqlDialects.Number
