import SqlDialects.Dialect.Basic
import SqlDialects.Function.Family

/-! # PostgreSQL -/

namespace SqlDialects.PostgreSql

def gates : List (Capability × Gate) :=
  [(.lockNoWait, .since ⟨8, 1, 0⟩), (.lockSkipLocked, .since ⟨9, 5, 0⟩),
    (.currentTimestampSelection, .always), (.sequences, .always), (.pooledSequences, .always),
    (.identityColumns, .always), (.ifExistsBeforeTableName, .always),
    (.caseInsensitiveLike, .always)]

def columnTypes : List (SqlType × Option Nat × String) :=
  [(.bit, none, "boolean"), (.tinyInt, none, "smallint"), (.float, none, "float($p)"),
    (.double, none, "float8"), (.nChar, none, "char($l)"), (.nVarchar, none, "varchar($l)"),
    (.longVarchar, none, "text"), (.longNVarchar, none, "text"), (.binary, none, "bytea"),
    (.varbinary, none, "bytea"), (.longVarbinary, none, "bytea"), (.blob, none, "bytea"),
    (.clob, none, "text"), (.nClob, none, "text"), (.uuid, none, "uuid")]

def functions : List FunctionTemplate :=
  FunctionFamily.log ++ FunctionFamily.repeatText ++ FunctionFamily.trim ++
    FunctionFamily.trunc ++ FunctionFamily.initcap ++ FunctionFamily.concatOperator ++
    FunctionFamily.substr ++ FunctionFamily.ascii ++ FunctionFamily.char ++
    FunctionFamily.position ++ FunctionFamily.dateTrunc ++ FunctionFamily.octetLength ++
    [FunctionFamily.call "random" 0 (some 0) (some .double),
      FunctionFamily.call "bit_length" 1 (some 1) (some .integer),
      .binaryTernary "locate" "position(?1 in ?2)"
        "(position(?1 in substring(?2 from ?3))+(?3)-1)" (some .integer),
      .pattern "format" "to_char(?1,?2)" (some .varchar),
      .pattern "bitand" "(?1&?2)" (some .integer), .pattern "bitor" "(?1|?2)" (some .integer),
      .pattern "bitxor" "(?1#?2)" (some .integer), .pattern "bitnot" "(~?1)" (some .integer)]

def identity (version : Version) : IdentityColumn :=
  if version.isSince ⟨10, 0, 0⟩ then
    .generated "generated by default as identity" (some "select lastval()")
  else .serial (some "select lastval()")

def rules (base : DialectRules) : DialectRules :=
  { base with
    placeholderStyle := .dollar
    selectGuid := some "select gen_random_uuid()"
    currentTimestampSelect := some "select now()"
    querySequences := some "select relname from pg_catalog.pg_class where relkind = 'S'"
    datetimeFormat := .postgres
    timeZoneSupport := .normalize
    timestampArithmetic := .interval
    extractFields := base.extractFields.set .dayOfYear "doy"
    -- `dow` counts from zero on Sunday.
    extractPatterns := base.extractPatterns.set .dayOfWeek "(extract(dow from ?2)+1)" }

def layer (base : Dialect) : Dialect :=
  { ((base.allow gates).declare columnTypes).offer functions with
    rowLimit := .limitOffset none
    identity := identity base.version
    sequence := .supported .nextval true
    temporaryTable :=
      { TemporaryTable.forConnection "create temporary table" "" with
        createOptions := some "on commit drop" }
    rules := rules base.rules }

end SqlDialects.PostgreSql
