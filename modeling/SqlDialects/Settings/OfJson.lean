import SqlDialects.Json.Parser
import SqlDialects.Settings.Basic

/-!
# Settings from a JSON value

The shape of settings is the same for all sources. What counts as a text, a number or a name is
not: JSON settings are read to the letter, other sources freely.
-/

namespace SqlDialects.Settings

open Json (Value)

/-- How the leaves of settings are read. -/
structure Reading where
  text? : Value → Option String
  boolean? : Value → Option Bool
  natural? : Value → Option Nat
  /-- The name in a table with one member, for a value that is chosen by name. -/
  nameIn? : List (Option String × Value) → Option String
  /-- The spelling under which such a name is looked up. -/
  spelling : String → String
  /-- A list may be longer than the fields it stands for. -/
  allowsMore : Bool

namespace Reading

variable {α : Type}

def optional (read : Value → Option α) : Value → Option (Option α)
  | .null => some none
  | v => (read v).map some

def list (read : Value → Option α) : Value → Option (List α)
  | .list items => items.mapM read
  | _ => none

/-- One of some names, as a text or as the name of a member. -/
def choice (r : Reading) (ofName? : String → Option α) : Value → Option α
  | .string content => (content.map r.spelling) >>= ofName?
  | .table members => ((r.nameIn? members).map r.spelling) >>= ofName?
  | _ => none

/-- The values of fields, which stand under their names or in their order. -/
def fields (r : Reading) (names : List String) : Value → Option (List (String × Value))
  | .list items =>
    if items.length ≤ names.length || r.allowsMore then some (names.zip items) else none
  | .table members => do
    let members ← members.mapM fun (name, v) => name.map fun name => (name, v)
    let known := (members.map (·.1)).filter names.contains
    if known.Nodup then some members else none
  | _ => none

def required (values : List (String × Value)) (name : String) (read : Value → Option α) :
    Option α :=
  values.lookup name >>= read

def orElse (values : List (String × Value)) (name : String) (read : Value → Option α)
    (default : α) : Option α :=
  match values.lookup name with
  | some v => read v
  | none => some default

/-! ## Settings -/

def columnType? (r : Reading) (v : Value) : Option ColumnTypeOverride := do
  let values ← r.fields ["code", "max_length", "template"] v
  let code ← required values "code" (r.choice SqlType.ofName?)
  let maxLength ← orElse values "max_length" (optional r.natural?) none
  let template ← required values "template" r.text?
  return { code, maxLength, template }

def function? (r : Reading) (v : Value) : Option FunctionOverride := do
  let values ← r.fields ["name", "pattern", "result_type"] v
  let name ← required values "name" r.text?
  let pattern ← required values "pattern" r.text?
  let resultType ← orElse values "result_type" (optional (r.choice SqlType.ofName?)) none
  return { name, pattern, resultType }

/-- The last member of a name counts. -/
def capabilities? (r : Reading) : Value → Option (SortedMap String Bool)
  | .table members => do
    return .ofList (← members.mapM fun (name, v) => do return (← name, ← r.boolean? v))
  | _ => none

def settings? (r : Reading) (v : Value) : Option Settings := do
  let default : Settings := {}
  let values ← r.fields
    ["product", "version", "placeholder_style", "bind_mode", "quote_identifiers", "column_types",
      "functions", "capabilities"] v
  let product ← orElse values "product" r.text? default.product
  let version ← orElse values "version" (optional r.text?) default.version
  let placeholderStyle ← orElse values "placeholder_style"
    (optional (r.choice PlaceholderStyle.ofName?)) default.placeholderStyle
  let bindMode ← orElse values "bind_mode" (r.choice Sql.BindMode.ofName?) default.bindMode
  let quotesIdentifiers ← orElse values "quote_identifiers" r.boolean? default.quotesIdentifiers
  let columnTypes ← orElse values "column_types" (list r.columnType?) default.columnTypes
  let functions ← orElse values "functions" (list r.function?) default.functions
  let capabilities ← orElse values "capabilities" r.capabilities? default.capabilities
  return { product, version, placeholderStyle, bindMode, quotesIdentifiers, columnTypes, functions,
           capabilities }

end Reading

/-! ## To the letter -/

namespace Strict

def text? : Value → Option String
  | .string content => content
  | _ => none

def boolean? : Value → Option Bool
  | .boolean b => some b
  | _ => none

/-- A number of 64 bits in digits alone. -/
def natural? : Value → Option Nat
  | .number literal => (Number.ofDigits? literal.toList).filter (· < Number.wordBound)
  | _ => none

def nameIn? : List (Option String × Value) → Option String
  | [(name, .null)] => name
  | _ => none

def reading : Reading :=
  { text?, boolean?, natural?, nameIn?, spelling := id, allowsMore := false }

end Strict

def ofJson (text : String) : Except SettingsError Settings :=
  match Value.ofText? text >>= Strict.reading.settings? with
  | some settings => .ok settings
  | none => .error .json

end SqlDialects.Settings
