import SqlDialects.Settings.Free
import SqlDialects.Settings.Tree

/-!
# Settings from several sources

The variables of the environment are put over a settings file, and what comes out of that over the
defaults.
-/

namespace SqlDialects.Settings

open Json (Numeral Value)

/-! ## Files -/

/-- The last member of a name counts. -/
def lastMembers : List (Option String × Value) → List (Option String × Value)
  | [] => []
  | (name, v) :: rest =>
    if rest.any fun member => member.1 == name then lastMembers rest
    else (name, v) :: lastMembers rest

mutual

/-- The value without repeated members, if all its texts and numbers have a meaning. -/
def plain? : Value → Option Value
  | .string content => content.map fun text => .string (some text)
  | .number literal => (Numeral.ofLiteral? literal).map fun _ => .number literal
  | .list items => (plainItems? items).map .list
  | .table members => (plainMembers? members).map fun members => .table (lastMembers members)
  | .null => some .null
  | .boolean b => some (.boolean b)

def plainItems? : List Value → Option (List Value)
  | [] => some []
  | v :: rest => do return (← plain? v) :: (← plainItems? rest)

def plainMembers? : List (Option String × Value) → Option (List (Option String × Value))
  | [] => some []
  | (some name, v) :: rest => do return (some name, ← plain? v) :: (← plainMembers? rest)
  | (none, _) :: _ => none

end

/-- Files nest no deeper than this. -/
def greatestDepth : Nat := 127

/-- The members of a settings file. -/
def fileMembers? (text : String) : Option (List (Option String × Value)) := do
  let v ← Value.ofText? text
  if v.depth ≤ greatestDepth then
    match ← plain? v with
    | .table members => some members
    | _ => none
  else none

/-! ## Variables -/

def variableStart : List Char := "ormdialect__".toList

/-- A double underscore stands for a point. -/
def pointed : List Char → List Char
  | '_' :: '_' :: rest => '.' :: pointed rest
  | c :: rest => c :: pointed rest
  | [] => []

/-- The key and the value of a variable, if it is one of the settings. -/
def ofVariable? (name value : String) : Option (Option String × Value) :=
  let key := (Text.lower name).toList
  if variableStart.isPrefixOf key then
    some (String.ofList (pointed (key.drop variableStart.length)), .string (some value))
  else none

/-! ## Loading -/

/-- What stands below every file. -/
def defaultLayer : Value :=
  .table [(some "product", .string (some "postgresql")),
    (some "bind_mode", .string (some "parameterized")), (some "quote_identifiers", .boolean false)]

/-- The members of a file, if there is one. -/
def fileEntries? : Option String → Option (List (Option String × Value))
  | none => some []
  | some text => fileMembers? text

/-- Settings from a file, if there is one, and from variables with their names and values. -/
def load (file : Option String) (environment : List (String × String)) :
    Except SettingsError Settings :=
  let joined := do
    let entries ← fileEntries? file
    let entries := entries ++ environment.filterMap fun (name, value) => ofVariable? name value
    let given := entries.foldl put emptyTable
    Free.reading.settings? ((membersOf given).foldl put defaultLayer)
  match joined with
  | some settings => .ok settings
  | none => .error .source

end SqlDialects.Settings
