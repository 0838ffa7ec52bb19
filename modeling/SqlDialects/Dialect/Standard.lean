import SqlDialects.Dialect.Basic
import SqlDialects.Function.Family

/-! # The dialect that products start from -/

namespace SqlDialects.Standard

def capabilities : List Capability :=
  [.unionAll, .unionInSubquery, .subqueryInSelect, .orderByInSubquery,
    .subselectAsInPredicateLhs, .tupleDistinctCounts, .rowValueConstructorSyntax, .nullsOrdering,
    .nativeBoolean, .fetchClause, .foreignKeyConstraints, .expectedLobUsagePattern]

def columnTypes : List (SqlType × Option Nat × String) :=
  [(.bit, none, "bit"), (.boolean, none, "boolean"), (.tinyInt, none, "tinyint"),
    (.smallInt, none, "smallint"), (.integer, none, "integer"), (.bigInt, none, "bigint"),
    (.real, none, "real"), (.float, none, "float($p)"), (.double, none, "double precision"),
    (.numeric, none, "numeric($p,$s)"), (.decimal, none, "decimal($p,$s)"),
    (.char, none, "char($l)"), (.varchar, none, "varchar($l)"),
    (.longVarchar, none, "varchar($l)"), (.nChar, none, "nchar($l)"),
    (.nVarchar, none, "nvarchar($l)"), (.longNVarchar, none, "nvarchar($l)"),
    (.binary, none, "binary($l)"), (.varbinary, none, "varbinary($l)"),
    (.longVarbinary, none, "varbinary($l)"), (.date, none, "date"), (.time, none, "time"),
    (.timestamp, none, "timestamp($p)"),
    (.timestampWithTimeZone, none, "timestamp($p) with time zone"), (.blob, none, "blob"),
    (.clob, none, "clob"), (.nClob, none, "nclob"), (.uuid, none, "char(36)")]

def dialect (product : Product) (version : Version) : Dialect :=
  { product
    profile := ({ version } : CapabilityProfile).setAll (capabilities.map fun c => (c, .always))
    columnTypes := ({} : ColumnTypeRegistry).registerAll columnTypes
    functions := ({} : FunctionRegistry).registerAll FunctionFamily.standard
    rowLimit := .offsetFetch true false
    identity := .unsupported
    sequence := .unsupported
    temporaryTable := .forConnection "create local temporary table" ""
    rules := {} }

end SqlDialects.Standard
