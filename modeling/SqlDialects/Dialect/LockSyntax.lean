/-! # Where row locks are written -/

namespace SqlDialects

/-- Where a lock on the rows of a query is written. -/
inductive LockSyntax where
  /-- A clause at the end of the query. -/
  | clause
  /-- A hint behind the locked table, with one text for each lock mode. -/
  | tableHint (update share : String)
  /-- Rows are locked through cursors, and nothing is written. -/
  | omitted
  deriving DecidableEq, Repr

end SqlDialects
