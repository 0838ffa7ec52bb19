import SqlDialects.Number.Natural
import SqlDialects.Text.Blank
import SqlDialects.Text.Case

/-!
# Keys of settings

A key leads through tables and lists to a value: `functions[0].name` is the name of the first
function. Names stand behind points, indices in brackets. Capitals in a name count as small letters.
-/

namespace SqlDialects.Settings

/-- A step from a table or a list to one of its values. -/
inductive Step where
  | member (name : String)
  /-- Below zero it counts from the end. -/
  | item (index : Int)
  deriving DecidableEq, Repr

namespace Step

def isNameChar (c : Char) : Bool := c.isAlphanum || c == ' ' || c == '_' || c == '-'

def isGap (c : Char) : Bool := c == ' ' || c == '\t'

def withoutGaps (cs : List Char) : List Char :=
  ((cs.dropWhile isGap).reverse.dropWhile isGap).reverse

/-- Digits, with a minus sign or none. -/
def signed? : List Char → Option Int
  | '-' :: digits => (Number.ofDigits? digits).map fun n => -(n : Int)
  | digits => (Number.ofDigits? digits).map fun n => (n : Int)

/-- An index of 64 bits, and the bracket behind it. -/
def item? (cs : List Char) : Option Step :=
  if cs.getLast? = some ']' then
    (signed? (withoutGaps cs.dropLast)).filter (fun n =>
      -(Number.signedBound : Int) ≤ n && n < Number.signedBound) |>.map .item
  else none

/-- What stands between two points: a name and its indices. -/
def ofField? (field : List Char) : Option (List Step) :=
  match Text.fields '[' field with
  | name :: indices =>
    if !name.isEmpty && name.all isNameChar then do
      return .member (Text.lower (String.ofList name)) :: (← indices.mapM item?)
    else none
  | [] => none

end Step

/-- The steps of a key, if it is well formed. -/
def steps? (key : String) : Option (List Step) :=
  ((Text.fields '.' key.toList).mapM Step.ofField?).map List.flatten

end SqlDialects.Settings
