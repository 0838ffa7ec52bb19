import SqlDialects.Dialect.Ingres
import SqlDialects.Dialect.MySql
import SqlDialects.Dialect.PostgreSql
import SqlDialects.Dialect.SqlServer
import SqlDialects.Dialect.Sqlite
import SqlDialects.Dialect.Standard

/-!
# From a product and a version to a dialect

A product's dialect is the standard one with the product's own layer over it.
-/

namespace SqlDialects

def Product.layer : Product → Dialect → Dialect
  | ingres => Ingres.layer
  | postgreSql => PostgreSql.layer
  | mySql => MySql.layer
  | sqlite => Sqlite.layer
  | sqlServer => SqlServer.layer

namespace Dialect

def ofProduct (product : Product) (version : Version) : Dialect :=
  product.layer (Standard.dialect product version)

def resolve (productName : String) (version : Version) : Except DialectError Dialect := do
  let product ← Product.ofName productName
  return ofProduct product version

def ofConnection (info : ConnectionInfo) : Except DialectError Dialect :=
  resolve info.productName info.version

end Dialect

/-! ## A slot for one dialect -/

/-- Holds the first dialect that is resolved and gives it out from then on. -/
structure DialectCell where
  stored : Option Dialect := none

/-- A failure leaves the slot empty. -/
def DialectCell.getOrResolve (cell : DialectCell) (info : ConnectionInfo) :
    Except DialectError (Dialect × DialectCell) :=
  match cell.stored with
  | some dialect => .ok (dialect, cell)
  | none => do
    let dialect ← Dialect.ofConnection info
    return (dialect, ⟨some dialect⟩)

end SqlDialects
