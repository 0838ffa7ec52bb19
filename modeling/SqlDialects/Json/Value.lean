/-! # JSON values -/

namespace SqlDialects.Json

/-- A value as it is written. A text with half of a surrogate pair has no content. -/
inductive Value where
  | null
  | boolean (value : Bool)
  | number (literal : String)
  | string (content : Option String)
  | list (items : List Value)
  /-- All members, also those with the same name. -/
  | table (members : List (Option String × Value))

namespace Value

mutual

/-- How many lists and tables stand in each other. -/
def depth : Value → Nat
  | list items => listDepth items + 1
  | table members => membersDepth members + 1
  | _ => 0

def listDepth : List Value → Nat
  | [] => 0
  | item :: rest => max item.depth (listDepth rest)

def membersDepth : List (Option String × Value) → Nat
  | [] => 0
  | (_, value) :: rest => max value.depth (membersDepth rest)

end

end Value

end SqlDialects.Json
