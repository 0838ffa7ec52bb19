/-! # Placeholders of bind parameters -/

namespace SqlDialects

inductive PlaceholderStyle where
  /-- `?`. -/
  | jdbc
  /-- `?1`, `?2`. -/
  | numbered
  /-- `$1`, `$2`. -/
  | dollar
  deriving DecidableEq, Repr

namespace PlaceholderStyle

def all : List PlaceholderStyle := [jdbc, numbered, dollar]

def name : PlaceholderStyle → String
  | jdbc => "jdbc"
  | numbered => "numbered"
  | dollar => "dollar"

def ofName? (name : String) : Option PlaceholderStyle := all.find? (·.name == name)

/-- The first parameter has position one. -/
def placeholder (position : Nat) : PlaceholderStyle → String
  | jdbc => "?"
  | numbered => "?" ++ toString position
  | dollar => "$" ++ toString position

end PlaceholderStyle

end SqlDialects
