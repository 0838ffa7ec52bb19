import SqlDialects.Json.Numeral
import SqlDialects.Settings.OfJson

/-!
# Free reading

Settings that do not come as JSON alone are read freely: a text can stand for a number or for yes
and no, a number for a text, and a name for itself in any case of the letters.
-/

namespace SqlDialects.Settings.Free

open Json (Numeral Value)

/-- Words for yes and no, in any case of the letters. -/
def word? (text : String) : Option Bool :=
  if ["1", "true", "on", "yes"].contains (Text.lower text) then some true
  else if ["0", "false", "off", "no"].contains (Text.lower text) then some false
  else none

def text? : Value → Option String
  | .string content => content
  | .boolean b => some (if b then "true" else "false")
  | .number literal => (Numeral.ofLiteral? literal).map (·.text)
  | _ => none

def boolean? : Value → Option Bool
  | .boolean b => some b
  | .number literal => (Numeral.ofLiteral? literal).map (!·.isZero)
  | .string content => content >>= word?
  | _ => none

def textNatural? (text : String) : Option Nat :=
  match Text.lower text with
  | "true" | "on" | "yes" => some 1
  | "false" | "off" | "no" => some 0
  | _ => Number.naturalBelow? Number.wordBound text.toList

def natural? : Value → Option Nat
  | .boolean b => some (if b then 1 else 0)
  | .number literal => Numeral.ofLiteral? literal >>= Numeral.natural?
  | .string content => content >>= textNatural?
  | _ => none

def nameIn? : List (Option String × Value) → Option String
  | [(name, _)] => name
  | _ => none

def reading : Reading :=
  { text?, boolean?, natural?, nameIn?, spelling := Text.lower, allowsMore := true }

end SqlDialects.Settings.Free
