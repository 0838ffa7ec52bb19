import SqlDialects.Text.Blank

/-! # Attribute paths -/

namespace SqlDialects.Entity

/-- A variable and the properties that lead away from it, such as `p.address.city`. -/
structure Path where
  start : String
  properties : List String
  deriving DecidableEq, Repr

namespace Path

/-- The points separate names, and blanks around a name do not count. -/
def ofText (text : String) : Path :=
  let names := (Text.fields '.' text.toList).map fun name => String.ofList (Text.trimmed name)
  ⟨names.headD "", names.tail⟩

def text (path : Path) : String := String.intercalate "." (path.start :: path.properties)

end Path

end SqlDialects.Entity
