import SqlDialects.Sql.Fragment.OfStatement

/-!
# The text of a statement

The last step numbers the bind parameters in the order of the text, writes their placeholders and
quotes the names if asked to.
-/

namespace SqlDialects.Sql

inductive BindMode where
  /-- The placeholders of the dialect. -/
  | parameterized
  /-- Markers such as `:name`, for people to read. -/
  | placeholder
  deriving DecidableEq, Repr

namespace BindMode

def all : List BindMode := [parameterized, placeholder]

def name : BindMode → String
  | parameterized => "parameterized"
  | placeholder => "placeholder"

def ofName? (name : String) : Option BindMode := all.find? (·.name == name)

end BindMode

structure TranslationConfig where
  bindMode : BindMode := .parameterized
  placeholderStyle : PlaceholderStyle
  quotesIdentifiers : Bool := false
  deriving DecidableEq, Repr

namespace TranslationConfig

def ofDialect (d : Dialect) : TranslationConfig :=
  { placeholderStyle := d.rules.placeholderStyle }

def placeholder (config : TranslationConfig) (position : Nat) (parameter : BindParameter) :
    String :=
  match config.bindMode with
  | .parameterized => config.placeholderStyle.placeholder position
  | .placeholder => parameter.source.marker

end TranslationConfig

/-- A bind parameter of a text. The first one has position one. -/
structure SqlParameter where
  position : Nat
  placeholder : String
  source : ParameterSource
  sqlType : Option SqlType
  deriving DecidableEq, Repr

structure Translation where
  sql : String
  /-- In the order of their placeholders. -/
  parameters : List SqlParameter
  /-- In order, and each table once. -/
  tables : List String
  warnings : List TranslationWarning
  deriving DecidableEq, Repr

/-! ## Writing -/

namespace Translation

/-- The bind parameters of the pieces, counted from a position on. -/
def parametersFrom (config : TranslationConfig) (position : Nat) : List Piece → List SqlParameter
  | [] => []
  | .parameter p :: rest =>
    ⟨position, config.placeholder position p, p.source, p.sqlType⟩ ::
      parametersFrom config (position + 1) rest
  | _ :: rest => parametersFrom config position rest

def textsFrom (d : Dialect) (config : TranslationConfig) (position : Nat) :
    List Piece → List String
  | [] => []
  | .text text :: rest => text :: textsFrom d config position rest
  | .name name :: rest =>
    d.identifier config.quotesIdentifiers name :: textsFrom d config position rest
  | .string content :: rest => Text.literal content :: textsFrom d config position rest
  | .parameter p :: rest =>
    config.placeholder position p :: textsFrom d config (position + 1) rest

/-- In order, and without repetition. -/
def distinct (names : List String) : List String :=
  (SortedMap.ofList (names.map fun name => (name, ()))).keys

def ofFragment (d : Dialect) (config : TranslationConfig) (fragment : Fragment) : Translation :=
  { sql := String.join (textsFrom d config 1 fragment.pieces)
    parameters := parametersFrom config 1 fragment.pieces
    tables := distinct fragment.tables
    warnings := fragment.warnings }

end Translation

/-- A statement in the SQL of a dialect, or why the dialect has none. -/
def Statement.translate (statement : Statement) (d : Dialect) (config : TranslationConfig) :
    Except DialectError Translation := do
  return .ofFragment d config (← statement.render d)

end SqlDialects.Sql
