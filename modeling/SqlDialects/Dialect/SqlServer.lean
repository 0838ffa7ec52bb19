import SqlDialects.Dialect.Basic
import SqlDialects.Function.Family

/-! # Microsoft SQL Server -/

namespace SqlDialects.SqlServer

/-- The release of 2012. -/
def v11 : Version := ⟨11, 0, 0⟩

def gates : List (Capability × Gate) :=
  [(.nativeBoolean, .never), (.rowValueConstructorSyntax, .never), (.nullsOrdering, .never),
    (.tupleDistinctCounts, .never), (.fetchClause, .since v11), (.lockNoWait, .always),
    (.lockSkipLocked, .always), (.currentTimestampSelection, .always), (.sequences, .since v11),
    (.pooledSequences, .since v11), (.identityColumns, .always),
    (.ifExistsBeforeTableName, .since ⟨13, 0, 0⟩),
    (.readCommittedCausesWritersToBlockReaders, .always),
    (.repeatableReadCausesReadersToBlockWriters, .always)]

def maxVarcharLength : Nat := 8000

def maxNVarcharLength : Nat := 4000

def columnTypes (version : Version) : List (SqlType × Option Nat × String) :=
  [(.boolean, none, "bit"), (.tinyInt, none, "smallint"), (.double, none, "float"),
    (.varchar, some maxVarcharLength, "varchar($l)"), (.varchar, none, "varchar(max)"),
    (.nVarchar, some maxNVarcharLength, "nvarchar($l)"), (.nVarchar, none, "nvarchar(max)"),
    (.varbinary, some maxVarcharLength, "varbinary($l)"), (.varbinary, none, "varbinary(max)"),
    (.longVarchar, none, "varchar(max)"), (.longNVarchar, none, "nvarchar(max)"),
    (.longVarbinary, none, "varbinary(max)"), (.blob, none, "varbinary(max)"),
    (.clob, none, "varchar(max)"), (.nClob, none, "nvarchar(max)"),
    (.uuid, none, "uniqueidentifier")] ++
  (if version.isSince ⟨10, 0, 0⟩ then
    [(.timestamp, none, "datetime2($p)"), (.timestampWithTimeZone, none, "datetimeoffset($p)")]
  else
    [(.date, none, "datetime"), (.time, none, "datetime"), (.timestamp, none, "datetime"),
      (.timestampWithTimeZone, none, "datetime")])

def functions (version : Version) : List FunctionTemplate :=
  [if version.isSince v11 then FunctionFamily.call "concat" 2 none (some .varchar)
      else .joined "concat" "+" 1 (some .varchar),
    .named "length" "len" 1 (some 1) (some .integer),
    FunctionFamily.call "substring" 3 (some 3) (some .varchar),
    FunctionFamily.call "ascii" 1 (some 1) (some .integer),
    FunctionFamily.call "char" 1 (some 1) (some .char),
    FunctionFamily.call "soundex" 1 (some 1) (some .varchar),
    FunctionFamily.call "rand" 0 (some 1) (some .double),
    FunctionFamily.call "replicate" 2 (some 2) (some .varchar),
    .named "repeat" "replicate" 2 (some 2) (some .varchar),
    .pattern "mod" "(?1%?2)" (some .integer),
    .pattern "position" "charindex(?1,?2)" (some .integer),
    .binaryTernary "locate" "charindex(?1,?2)" "charindex(?1,?2,?3)" (some .integer),
    .pattern "extract" "datepart(?1,?2)" (some .integer),
    .pattern "current_date" "convert(date, getdate())" (some .date),
    .pattern "format" "format(?1,?2)" (some .varchar),
    .pattern "bitand" "(?1&?2)" (some .integer), .pattern "bitor" "(?1|?2)" (some .integer),
    .pattern "bitxor" "(?1^?2)" (some .integer), .pattern "bitnot" "(~?1)" (some .integer)]

def rowLimit (version : Version) : RowLimit :=
  if version.isSince v11 then .offsetFetch true true else .top (some v11)

def sequence (version : Version) : SequenceSupport :=
  if version.isSince v11 then .supported .nextValueFor true else .unsupported

def rules (version : Version) (base : DialectRules) : DialectRules :=
  { base with
    openQuote := '['
    closeQuote := ']'
    lockSyntax := .tableHint "updlock, rowlock" "holdlock, rowlock"
    noWait := ", nowait"
    skipLocked := ", readpast"
    selectGuid := some "select newid()"
    currentTimestampSelect := some "select current_timestamp"
    querySequences := if version.isSince v11 then some "select name from sys.sequences"
      else base.querySequences
    preferredBooleanType := .bit
    timeZoneSupport := if version.isSince ⟨10, 0, 0⟩ then .native else .none
    timestampArithmetic := .patterns "dateadd(?1,?2,?3)" "datediff(?1,?2,?3)"
    extractFields := base.extractFields.setAll
      [(.dayOfWeek, "weekday"), (.dayOfYear, "dayofyear"), (.nanosecond, "nanosecond")] }

def layer (base : Dialect) : Dialect :=
  { ((base.allow gates).declare (columnTypes base.version)).offer (functions base.version) with
    rowLimit := rowLimit base.version
    identity := .generated "identity not null" (some "select scope_identity()")
    sequence := sequence base.version
    temporaryTable := .forConnection "create table" "#"
    rules := rules base.version base.rules }

end SqlDialects.SqlServer
