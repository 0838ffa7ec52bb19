import SqlDialects.ColumnType
import SqlDialects.Dialect.IdentityColumn
import SqlDialects.Dialect.RowLimit
import SqlDialects.Dialect.Rules
import SqlDialects.Dialect.SequenceSupport
import SqlDialects.Dialect.TemporaryTable
import SqlDialects.Function.Registry
import SqlDialects.Product
import SqlDialects.Text.Quoted

/-! # Dialects -/

namespace SqlDialects

/-- All that is known of the SQL of one product at one version. -/
structure Dialect where
  product : Product
  profile : CapabilityProfile
  columnTypes : ColumnTypeRegistry
  functions : FunctionRegistry
  rowLimit : RowLimit
  identity : IdentityColumn
  sequence : SequenceSupport
  temporaryTable : TemporaryTable
  rules : DialectRules

namespace Dialect

def version (d : Dialect) : Version := d.profile.version

/-- Product and version, such as `Ingres 9.2`. -/
def name (d : Dialect) : String := d.product.displayName ++ " " ++ d.version.text

/-! ## Making a dialect -/

def allow (d : Dialect) (gates : List (Capability × Gate)) : Dialect :=
  { d with profile := d.profile.setAll gates }

def declare (d : Dialect) (types : List (SqlType × Option Nat × String)) : Dialect :=
  { d with columnTypes := d.columnTypes.registerAll types }

def offer (d : Dialect) (templates : List FunctionTemplate) : Dialect :=
  { d with functions := d.functions.registerAll templates }

/-! ## Capabilities -/

def supports (d : Dialect) (capability : Capability) : Bool := d.profile.supports capability

def minimumVersion (d : Dialect) (capability : Capability) : Option Version :=
  d.profile.minimumVersion capability

def unsupported (d : Dialect) (construct : String) (minimum : Option Version := none) :
    DialectError :=
  .unsupportedConstruct d.name construct minimum

/-- The failure that names the version from which a capability is there. -/
def lacks (d : Dialect) (capability : Capability) (construct : String) : DialectError :=
  d.unsupported construct (d.minimumVersion capability)

def require (d : Dialect) (capability : Capability) (construct : String) :
    Except DialectError Unit :=
  if d.supports capability then .ok () else .error (d.lacks capability construct)

/-! ## Types and functions -/

def defaultPrecision (d : Dialect) : SqlType → Nat
  | .timestamp | .timestampWithTimeZone | .time => d.rules.defaultTimestampPrecision
  | _ => d.rules.defaultPrecision

/-- The column type for a type code. A number that is not given takes its default. -/
def columnType (d : Dialect) (code : SqlType) (length precision scale : Option Nat) :
    Except DialectError String :=
  let size : ColumnSize :=
    ⟨length.getD d.rules.defaultLength, precision.getD (d.defaultPrecision code),
      scale.getD d.rules.defaultScale⟩
  match d.columnTypes.get code size with
  | some type => .ok type
  | none => .error (.unsupportedType d.name code size.length)

def function (d : Dialect) (name : String) : Except DialectError FunctionTemplate :=
  match d.functions.get? name with
  | some template => .ok template
  | none => .error (.unknownFunction d.name name)

/-! ## Spelling -/

def quoteIdentifier (d : Dialect) (name : String) : String :=
  Text.delimited d.rules.openQuote d.rules.closeQuote name

/-- A name in a statement, quoted if that is asked for. -/
def identifier (d : Dialect) (isQuoted : Bool) (name : String) : String :=
  if isQuoted then d.quoteIdentifier name else name

def booleanLiteral (d : Dialect) (value : Bool) : String :=
  if d.supports .nativeBoolean then (if value then "true" else "false")
  else (if value then "1" else "0")

/-- Empty where locks are not written as a clause. -/
def forUpdateClause (d : Dialect) : String :=
  match d.rules.lockSyntax with
  | .clause => d.rules.forUpdate
  | _ => ""

def currentTimestampSelect (d : Dialect) : Except DialectError String := do
  d.require .currentTimestampSelection "current timestamp selection"
  match d.rules.currentTimestampSelect with
  | some select => .ok select
  | none => .error (d.unsupported "current timestamp selection")

/-! ## Time -/

def extractField (d : Dialect) (unit : TemporalUnit) : String :=
  (d.rules.extractFields unit).getD unit.extractField

def timestampAdd (d : Dialect) (unit : TemporalUnit) : Except DialectError String :=
  match d.rules.timestampArithmetic.add? unit with
  | some pattern => .ok pattern
  | none => .error (d.unsupported ("timestampadd(" ++ unit.durationField ++ ")"))

def timestampDiff (d : Dialect) (unit : TemporalUnit) : Except DialectError String :=
  match d.rules.timestampArithmetic.diff? unit with
  | some pattern => .ok pattern
  | none => .error (d.unsupported ("timestampdiff(" ++ unit.durationField ++ ")"))

end Dialect

end SqlDialects
