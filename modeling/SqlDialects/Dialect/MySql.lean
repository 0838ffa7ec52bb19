import SqlDialects.Dialect.Basic
import SqlDialects.Function.Family

/-! # MySQL and MariaDB -/

namespace SqlDialects.MySql

def gates : List (Capability × Gate) :=
  [(.nullsOrdering, .never), (.lockNoWait, .since ⟨8, 0, 0⟩), (.lockSkipLocked, .since ⟨8, 0, 0⟩),
    (.currentTimestampSelection, .always), (.identityColumns, .always),
    (.ifExistsBeforeTableName, .always)]

def maxVarcharLength : Nat := 65535

def columnTypes : List (SqlType × Option Nat × String) :=
  [(.boolean, none, "bit"), (.double, none, "double precision"),
    (.timestamp, none, "datetime($p)"), (.timestampWithTimeZone, none, "timestamp($p)"),
    (.nChar, none, "char($l)"), (.varchar, some maxVarcharLength, "varchar($l)"),
    (.varchar, none, "longtext"), (.nVarchar, some maxVarcharLength, "varchar($l)"),
    (.nVarchar, none, "longtext"), (.varbinary, some maxVarcharLength, "varbinary($l)"),
    (.varbinary, none, "longblob"), (.longVarchar, none, "longtext"),
    (.longNVarchar, none, "longtext"), (.longVarbinary, none, "longblob"),
    (.blob, none, "longblob"), (.clob, none, "longtext"), (.nClob, none, "longtext"),
    (.uuid, none, "binary(16)")]

def functions : List FunctionTemplate :=
  FunctionFamily.log ++ FunctionFamily.rand ++ FunctionFamily.soundex ++
    FunctionFamily.octetLength ++ FunctionFamily.repeatText ++ FunctionFamily.trim ++
    FunctionFamily.truncate ++ FunctionFamily.yearMonthDay ++ FunctionFamily.hourMinuteSecond ++
    FunctionFamily.dayOfWeekMonthYear ++ FunctionFamily.weekQuarter ++ FunctionFamily.lastDay ++
    FunctionFamily.substr ++ FunctionFamily.ascii ++ FunctionFamily.position ++
    FunctionFamily.format ++
    [FunctionFamily.call "concat" 1 none (some .varchar),
      FunctionFamily.call "locate" 2 (some 3) (some .integer),
      FunctionFamily.call "bit_length" 1 (some 1) (some .integer),
      FunctionFamily.call "char" 1 none (some .char),
      .pattern "bitand" "(?1&?2)" (some .integer), .pattern "bitor" "(?1|?2)" (some .integer),
      .pattern "bitxor" "(?1^?2)" (some .integer), .pattern "bitnot" "(~?1)" (some .integer)]

def rules (version : Version) (base : DialectRules) : DialectRules :=
  { base with
    openQuote := '\x60'
    closeQuote := '\x60'
    forShare := if version.isBefore ⟨8, 0, 0⟩ then " lock in share mode" else base.forShare
    selectGuid := some "select uuid()"
    currentTimestampSelect := some "select now()"
    datetimeFormat := .mySql
    timeZoneSupport := .normalize
    preferredBooleanType := .bit
    timestampArithmetic := .patterns "timestampadd(?1, ?2, ?3)" "timestampdiff(?1, ?2, ?3)"
    extractPatterns := base.extractPatterns.setAll
      [(.dayOfWeek, "dayofweek(?2)"), (.dayOfMonth, "dayofmonth(?2)"),
        (.dayOfYear, "dayofyear(?2)"), (.week, "weekofyear(?2)"),
        (.epoch, "unix_timestamp(?2)")] }

def layer (base : Dialect) : Dialect :=
  { ((base.allow gates).declare columnTypes).offer functions with
    rowLimit := .limitOffset (some "18446744073709551615")
    identity := .generated "not null auto_increment" (some "select last_insert_id()")
    sequence := .unsupported
    temporaryTable := .forConnection "create temporary table if not exists" ""
    rules := rules base.version base.rules }

end SqlDialects.MySql
