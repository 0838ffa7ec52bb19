import SqlDialects.Sql.Translation

/-!
# The text around the placeholders

A translation is a list of texts with the placeholders between them. The texts come from the
statement and the dialect, and only the placeholders from the bind mode and the placeholder style.
-/

namespace SqlDialects.Sql

/-- A bind parameter without its placeholder. -/
def SqlParameter.bound (p : SqlParameter) : Nat × ParameterSource × Option SqlType :=
  (p.position, p.source, p.sqlType)

end SqlDialects.Sql
