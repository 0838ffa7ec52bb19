import SqlDialects.Entity.Lowering.Tree
import SqlDialects.Schema.Script
import SqlDialects.Settings.Layers

/-!
# A report on a dialect

Its capabilities, the schema of two small entities, and a query over them.
-/

namespace SqlDialects

/-- What a run prints. -/
structure Report where
  exitCode : Nat := 0
  output : List String := []
  errors : List String := []
  deriving DecidableEq, Repr

namespace Report

/-! ## The sample -/

def person : Mapping.Entity :=
  { Mapping.Entity.ofName "Person" with
    idGeneration := .identity
    attributes :=
      [{ (Mapping.Attribute.ofType "name" .varchar).notNull with length := some 100 },
        .ofType "active" .boolean]
    toOne := [.ofTarget "address" "Address"] }

def address : Mapping.Entity :=
  { Mapping.Entity.ofName "Address" with attributes := [.ofType "city" .varchar] }

def model : Mapping.Model := .ofList [person, address]

def path (text : String) : Entity.Expression := .path (.ofText text)

def query : Entity.QuerySpec :=
  { select := [{ expression := path "p.name" }, { expression := path "a.city" }]
    roots := [⟨"Person", "p", [⟨.left, .ofText "p.address", "a"⟩]⟩]
    condition := some (.all [.holds (path "p.active"),
      .compare (.call "length" [path "p.name"]) .greater
        (.parameter { source := .named "min_length" })])
    orderBy := [{ expression := path "p.name" }]
    limit := some (.literal (.integer 10)) }

def statement : Entity.Statement := .select (.spec query) (some ⟨.write, .noWait⟩)

/-! ## Sections -/

def capabilityWidth : Nat := 48

def padded (name : String) : String :=
  name ++ String.ofList (List.replicate (capabilityWidth - name.length) ' ')

def capabilityLines (d : Dialect) : List String :=
  Capability.all.map fun c => "  " ++ padded c.name ++ " " ++ toString (d.supports c)

def schemaPart (d : Dialect) : Report :=
  match Schema.create d model with
  | .ok statements => { output := statements.map fun s => "  " ++ s.text d false ++ ";" }
  | .error e => { errors := ["  DDL error: " ++ e.message] }

def parameterLine (p : Sql.SqlParameter) : String :=
  "  Param " ++ toString p.position ++ ": " ++ p.placeholder ++ " <- " ++ p.source.text

def translate (d : Dialect) (config : Sql.TranslationConfig) :
    Except DialectError Sql.Translation := do
  (← statement.lower d model).translate d config

def queryPart (d : Dialect) (config : Sql.TranslationConfig) : Report :=
  match translate d config with
  | .ok translation =>
    { output := ("  SQL: " ++ translation.sql) :: translation.parameters.map parameterLine ++
        translation.warnings.map fun w => "  Warning: " ++ w.message }
  | .error e => { errors := ["  Translation error: " ++ e.message] }

/-! ## The whole -/

def ofDialect (d : Dialect) (config : Sql.TranslationConfig) : Report :=
  let schema := schemaPart d
  let query := queryPart d config
  { output := ["=== " ++ d.name ++ " ===", "", "--- Capabilities ---"] ++ capabilityLines d ++
      ["", "--- Schema ---"] ++ schema.output ++ ["", "--- Query ---"] ++ query.output
    errors := schema.errors ++ query.errors }

def failed (subject : String) (error : SettingsError) : Report :=
  { exitCode := 1, errors := [subject ++ " error: " ++ error.message] }

/-- The first argument is a product, the second a version. -/
def withArguments (settings : Settings) : List String → Settings
  | [] => settings
  | [product] => { settings with product }
  | product :: version :: _ => { settings with product, version := some version }

/-- The report for some arguments and variables of the environment. -/
def run (arguments : List String) (environment : List (String × String)) : Report :=
  match Settings.load none environment with
  | .error e => failed "Settings" e
  | .ok loaded =>
    let settings := withArguments loaded arguments
    match settings.resolve with
    | .error e => failed "Dialect" e
    | .ok d => ofDialect d (settings.translationConfig d)

end Report

end SqlDialects
