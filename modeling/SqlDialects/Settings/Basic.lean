import SqlDialects.Dialect.Resolve
import SqlDialects.Sql.Translation

/-!
# Settings

A product, a version, and what is put over the product's dialect. Whatever is not given has the
value of the product.
-/

namespace SqlDialects

structure ColumnTypeOverride where
  code : SqlType
  maxLength : Option Nat := none
  template : String
  deriving DecidableEq, Repr

/-- A function that is written by a pattern. -/
structure FunctionOverride where
  name : String
  pattern : String
  resultType : Option SqlType := none
  deriving DecidableEq, Repr

structure Settings where
  product : String := "postgresql"
  version : Option String := none
  placeholderStyle : Option PlaceholderStyle := none
  bindMode : Sql.BindMode := .parameterized
  quotesIdentifiers : Bool := false
  columnTypes : List ColumnTypeOverride := []
  functions : List FunctionOverride := []
  /-- By name, with the value that a capability gets at every version. -/
  capabilities : SortedMap String Bool := {}

inductive SettingsError where
  /-- The text is not JSON, or not that of settings. -/
  | json
  /-- A settings file or an environment variable cannot be used. -/
  | source
  | dialect (error : DialectError)
  | invalid (key reason : String)
  deriving DecidableEq, Repr

def SettingsError.message : SettingsError → String
  | json => "Invalid settings JSON"
  | source => "Failed to load settings"
  | dialect error => error.message
  | invalid key reason => "Invalid value for '" ++ key ++ "': " ++ reason

namespace Settings

/-! ## The dialect -/

def ofDialect {α : Type} (result : Except DialectError α) : Except SettingsError α :=
  result.mapError .dialect

def version? (settings : Settings) (product : Product) : Except DialectError Version :=
  match settings.version with
  | none => .ok product.defaultVersion
  | some text =>
    match Version.ofText? text with
    | some version => .ok version
    | none => .error (.invalidVersion text)

def functionTemplate (override : FunctionOverride) : Except SettingsError FunctionTemplate :=
  if Text.isAllBlank override.name then
    .error (.invalid "functions.name" "function name must not be empty")
  else .ok (.pattern override.name override.pattern override.resultType)

def capabilityGate (entry : String × Bool) : Except SettingsError (Capability × Gate) :=
  match Capability.ofName? entry.1 with
  | some capability => .ok (capability, .ofBool entry.2)
  | none => .error (.invalid ("capabilities." ++ entry.1) "unknown capability")

def withPlaceholders (d : Dialect) : Option PlaceholderStyle → Dialect
  | some style => { d with rules := { d.rules with placeholderStyle := style } }
  | none => d

/-- The dialect of the product with the overrides over it, each kind in its order. -/
def resolve (settings : Settings) : Except SettingsError Dialect := do
  let product ← ofDialect (Product.ofName settings.product)
  let version ← ofDialect (settings.version? product)
  let templates ← settings.functions.mapM functionTemplate
  let gates ← settings.capabilities.toList.mapM capabilityGate
  let d := withPlaceholders (Dialect.ofProduct product version) settings.placeholderStyle
  let types := settings.columnTypes.map fun o => (o.code, o.maxLength, o.template)
  return ((d.declare types).offer templates).allow gates

def translationConfig (settings : Settings) (d : Dialect) : Sql.TranslationConfig :=
  { Sql.TranslationConfig.ofDialect d with
    bindMode := settings.bindMode, quotesIdentifiers := settings.quotesIdentifiers }

end Settings

end SqlDialects
