import SqlDialects.Version

/-! # Limits on the rows of a query -/

namespace SqlDialects

/-- How a product writes a row limit and an offset. -/
inductive RowLimit where
  | unsupported
  /-- `select first n`, for a literal number of rows and no offset. Errors name `offsetSince`. -/
  | first (offsetSince : Option Version)
  /-- `select top (n)`, without an offset. -/
  | top (offsetSince : Option Version)
  /-- `limit n offset m`; `allRows` stands for a limit where only an offset is given. -/
  | limitOffset (allRows : Option String)
  /-- `offset m rows fetch next n rows only`. -/
  | offsetFetch (rowsKeyword : Bool) (requiresOrderBy : Bool)
  deriving DecidableEq, Repr

namespace RowLimit

def name : RowLimit → String
  | unsupported => "unsupported"
  | first _ => "first"
  | top _ => "top"
  | limitOffset _ => "limit_offset"
  | offsetFetch _ _ => "offset_fetch"

def supportsLimit : RowLimit → Bool
  | unsupported => false
  | _ => true

def supportsOffset : RowLimit → Bool
  | limitOffset _ | offsetFetch _ _ => true
  | _ => false

/-- The number of rows may be any expression. -/
def supportsVariableLimit : RowLimit → Bool
  | unsupported | first _ => false
  | _ => true

/-- The limit stands right behind `select`. -/
def leads : RowLimit → Bool
  | first _ | top _ => true
  | _ => false

def offsetSince : RowLimit → Option Version
  | first version | top version => version
  | _ => none

end RowLimit

end SqlDialects
