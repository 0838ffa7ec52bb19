import SqlDialects.Dialect.Basic
import SqlDialects.Function.Family

/-! # Ingres -/

namespace SqlDialects.Ingres

def gates : List (Capability × Gate) :=
  [(.nativeBoolean, .since ⟨10, 0, 0⟩), (.unionAll, .since ⟨9, 3, 0⟩),
    (.unionInSubquery, .never), (.subqueryInSelect, .since ⟨10, 0, 0⟩),
    (.orderByInSubquery, .never), (.subselectAsInPredicateLhs, .never),
    (.tupleDistinctCounts, .never), (.rowValueConstructorSyntax, .never),
    (.nullsOrdering, .never), (.expectedLobUsagePattern, .never),
    (.fetchClause, .since ⟨9, 3, 0⟩), (.currentTimestampSelection, .since ⟨9, 3, 0⟩),
    (.sequences, .always), (.pooledSequences, .since ⟨9, 3, 0⟩),
    (.identityColumns, .since ⟨9, 3, 0⟩),
    (.readCommittedCausesWritersToBlockReaders, .since ⟨9, 3, 0⟩),
    (.repeatableReadCausesReadersToBlockWriters, .since ⟨9, 3, 0⟩)]

/-- The greatest length of a column that is no large object. -/
def maxInlineLength : Nat := 32000

def columnTypes (version : Version) : List (SqlType × Option Nat × String) :=
  [(.bit, none, "tinyint"),
    (.boolean, none, if version.isBefore ⟨10, 0, 0⟩ then "tinyint" else "boolean"),
    (.real, none, "real"), (.float, none, "float"), (.double, none, "float"),
    (.numeric, none, "decimal($p, $s)"), (.decimal, none, "decimal($p, $s)"),
    (.varbinary, some maxInlineLength, "varbyte($l)"), (.varbinary, none, "long byte($l)"),
    (.longVarbinary, none, "long byte"), (.varchar, some maxInlineLength, "varchar($l)"),
    (.varchar, none, "long varchar($l)"), (.longVarchar, none, "long varchar"),
    (.nVarchar, some maxInlineLength, "nvarchar($l)"), (.nVarchar, none, "long nvarchar($l)"),
    (.longNVarchar, none, "long nvarchar"), (.timestamp, none, "timestamp($p)"),
    (.timestampWithTimeZone, none, "timestamp($p) with time zone")] ++
  -- Up to 9.2 a `date` holds a time of day too.
  (if version.isSince ⟨9, 3, 0⟩ then [(.date, none, "ansidate")] else [])

/-- Columns of fixed length have no large form. -/
def fixedTypes : List (SqlType × String) :=
  [(.binary, "byte($l)"), (.char, "char($l)"), (.nChar, "nchar($l)")]

def functions : List FunctionTemplate :=
  FunctionFamily.log ++ FunctionFamily.rand ++ FunctionFamily.soundex ++
    FunctionFamily.octetLength ++ FunctionFamily.bitLength "octet_length(hex(?1))*4" ++
    FunctionFamily.repeatText ++ FunctionFamily.trim ++ FunctionFamily.trunc ++
    FunctionFamily.truncate ++ FunctionFamily.initcap ++ FunctionFamily.yearMonthDay ++
    FunctionFamily.hourMinuteSecond ++ FunctionFamily.dayOfWeekMonthYear ++
    FunctionFamily.weekQuarter ++ FunctionFamily.lastDay ++ FunctionFamily.concatOperator ++
    FunctionFamily.substr ++ FunctionFamily.monthsBetween ++ FunctionFamily.substring ++
    FunctionFamily.ascii ++ FunctionFamily.char ++ FunctionFamily.sysdate ++
    FunctionFamily.position ++ FunctionFamily.format ++ FunctionFamily.dateTrunc ++
    FunctionFamily.bitwise ++
    [.binaryTernary "locate" "position(?1 in ?2)"
        "(position(?1 in substring(?2 from ?3))+(?3)-1)" (some .integer),
      .pattern "extract" "date_part('?1',?2)" (some .integer),
      FunctionFamily.call "squeeze" 1 (some 1) (some .varchar)]

def rowLimit (version : Version) : RowLimit :=
  if version.isBefore ⟨9, 3, 0⟩ then .first (some ⟨9, 3, 0⟩) else .offsetFetch false false

def identity (version : Version) : IdentityColumn :=
  if version.isSince ⟨10, 0, 0⟩ then
    .generated "generated by default as identity" (some "select last_identity()")
  else if version.isSince ⟨9, 3, 0⟩ then
    .generated "not null generated by default as identity" (some "select last_identity()")
  else .unsupported

def properties (version : Version) : List (String × String) :=
  (if version.isBefore ⟨10, 0, 0⟩ then [("query.substitutions", "true=1,false=0")] else []) ++
    [("use_get_generated_keys", "false")]

def rules (version : Version) (base : DialectRules) : DialectRules :=
  { base with
    lockSyntax := .omitted
    forUpdate := ""
    nullColumn := " with null"
    lowercaseFunction := "lowercase"
    selectGuid := some "select uuid_to_char(uuid_create())"
    currentTimestampSelect := some "select current_timestamp"
    querySequences := some (if version.isBefore ⟨9, 3, 0⟩ then "select seq_name from iisequence"
      else "select seq_name from iisequences")
    datetimeFormat := .mySql
    timeZoneSupport := .native
    dropConstraints := false
    defaultPrecision := 39
    preferredBooleanType := if version.isBefore ⟨10, 0, 0⟩ then .tinyInt else .boolean
    timestampArithmetic := .patterns "timestampadd(?1,?2,?3)" "timestampdiff(?1,?2,?3)"
    extractFields := base.extractFields.setAll
      [(.dayOfMonth, "day"), (.dayOfYear, "doy"), (.dayOfWeek, "dow"), (.week, "iso_week")]
    defaultProperties := (properties version).foldl (fun m p => m.insert p.1 p.2)
      base.defaultProperties }

def declareFixed (registry : ColumnTypeRegistry) : ColumnTypeRegistry :=
  fixedTypes.foldl
    (fun r t => (r.unregister t.1).register t.1 (some maxInlineLength) t.2) registry

def layer (base : Dialect) : Dialect :=
  let d := ((base.allow gates).declare (columnTypes base.version)).offer functions
  { d with
    columnTypes := declareFixed d.columnTypes
    rowLimit := rowLimit base.version
    identity := identity base.version
    sequence := .supported .nextValueFor (base.version.isSince ⟨9, 3, 0⟩)
    temporaryTable := .forSessions "declare global temporary table"
      (some "on commit preserve rows with norecovery") "session."
    rules := rules base.version base.rules }

end SqlDialects.Ingres
