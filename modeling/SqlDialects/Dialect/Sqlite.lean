import SqlDialects.Dialect.Basic
import SqlDialects.Function.Family

/-! # SQLite -/

namespace SqlDialects.Sqlite

/-- A constraint cannot be added to a table that is there. -/
def gates : List (Capability × Gate) :=
  [(.nativeBoolean, .since ⟨3, 23, 0⟩), (.rowValueConstructorSyntax, .since ⟨3, 15, 0⟩),
    (.nullsOrdering, .since ⟨3, 30, 0⟩), (.tupleDistinctCounts, .never),
    (.currentTimestampSelection, .always), (.identityColumns, .always),
    (.ifExistsBeforeTableName, .always), (.expectedLobUsagePattern, .never),
    (.foreignKeyConstraints, .never)]

def columnTypes : List (SqlType × Option Nat × String) :=
  [(.double, none, "double"), (.float, none, "float"), (.longVarchar, none, "text"),
    (.longNVarchar, none, "text"), (.binary, none, "blob"), (.varbinary, none, "blob"),
    (.longVarbinary, none, "blob"), (.clob, none, "text"), (.nClob, none, "text"),
    (.timestamp, none, "timestamp"), (.timestampWithTimeZone, none, "timestamp")]

def functions : List FunctionTemplate :=
  FunctionFamily.trim ++ FunctionFamily.substr ++ FunctionFamily.concatOperator ++
    [FunctionFamily.call "random" 0 (some 0) (some .bigInt),
      FunctionFamily.call "char" 1 none (some .varchar),
      FunctionFamily.call "round" 1 (some 2),
      .pattern "mod" "(?1%?2)" (some .integer),
      .pattern "position" "instr(?2,?1)" (some .integer),
      .binaryTernary "locate" "instr(?2,?1)"
        "(case instr(substr(?2,?3),?1) when 0 then 0 else instr(substr(?2,?3),?1)+(?3)-1 end)"
        (some .integer),
      .pattern "format" "strftime(?2,?1)" (some .varchar),
      .pattern "bitand" "(?1&?2)" (some .integer), .pattern "bitor" "(?1|?2)" (some .integer),
      .pattern "bitnot" "(~?1)" (some .integer)]

def strftime (specifier : String) : String :=
  "cast(strftime('" ++ specifier ++ "',?2) as integer)"

/-- Rows are not locked: a writer locks the whole database file. -/
def rules (base : DialectRules) : DialectRules :=
  { base with
    placeholderStyle := .numbered
    lockSyntax := .omitted
    forUpdate := ""
    selectGuid := some "select lower(hex(randomblob(16)))"
    currentTimestampSelect := some "select current_timestamp"
    datetimeFormat := .sqlite
    timestampArithmetic := .julianDay
    extractPatterns := base.extractPatterns.setAll
      [(.year, strftime "%Y"), (.month, strftime "%m"), (.day, strftime "%d"),
        (.dayOfMonth, strftime "%d"), (.dayOfYear, strftime "%j"), (.week, strftime "%W"),
        (.hour, strftime "%H"), (.minute, strftime "%M"), (.second, strftime "%S"),
        (.epoch, strftime "%s"), (.dayOfWeek, "(" ++ strftime "%w" ++ "+1)"),
        (.quarter, "((" ++ strftime "%m" ++ "+2)/3)")] }

def layer (base : Dialect) : Dialect :=
  { ((base.allow gates).declare columnTypes).offer functions with
    rowLimit := .limitOffset (some "-1")
    identity := .rowId
    sequence := .unsupported
    temporaryTable := .forConnection "create temporary table" ""
    rules := rules base.rules }

end SqlDialects.Sqlite
