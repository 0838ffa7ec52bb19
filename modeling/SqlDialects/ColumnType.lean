import SqlDialects.SortedMap
import SqlDialects.SqlType
import SqlDialects.Template

/-!
# Column types

What a product writes for a type code. A code can have one template for each bound on the length
and one more for lengths above all bounds.
-/

namespace SqlDialects

/-- The numbers that go into a template. -/
structure ColumnSize where
  length : Nat
  precision : Nat := 0
  scale : Nat := 0
  deriving DecidableEq, Repr

namespace ColumnSize

/-- What a token stands for; an argument mark has no meaning in a column type. -/
def write (size : ColumnSize) (token : Template.Token) : List Char :=
  match token.kind with
  | .length => (toString size.length).toList
  | .precision => (toString size.precision).toList
  | .scale => (toString size.scale).toList
  | _ => token.chars

end ColumnSize

/-- A template such as `decimal($p, $s)`. -/
structure ColumnTemplate where
  source : String
  deriving DecidableEq, Repr

def ColumnTemplate.render (template : ColumnTemplate) (size : ColumnSize) : String :=
  String.ofList ((Template.tokens template.source).flatMap size.write)

/-! ## The templates of one code -/

structure ColumnBuckets where
  /-- By the greatest length that the template is for. -/
  sized : SortedMap Nat ColumnTemplate := {}
  unrestricted : Option ColumnTemplate := none

namespace ColumnBuckets

def register (buckets : ColumnBuckets) (maxLength : Option Nat) (template : ColumnTemplate) :
    ColumnBuckets :=
  match maxLength with
  | some bound => { buckets with sized := buckets.sized.insert bound template }
  | none => { buckets with unrestricted := some template }

/-- The template with the smallest bound that the length keeps, else the unrestricted one. -/
def lookup (buckets : ColumnBuckets) (length : Nat) : Option ColumnTemplate :=
  match buckets.sized.toList.find? fun entry => length ≤ entry.1 with
  | some entry => some entry.2
  | none => buckets.unrestricted

def entries (buckets : ColumnBuckets) : List (Option Nat × ColumnTemplate) :=
  buckets.sized.toList.map (fun entry => (some entry.1, entry.2)) ++
    (buckets.unrestricted.map fun template => (none, template)).toList

end ColumnBuckets

/-! ## Registry -/

structure ColumnTypeRegistry where
  buckets : SqlType → ColumnBuckets := fun _ => {}

namespace ColumnTypeRegistry

def update (registry : ColumnTypeRegistry) (code : SqlType) (buckets : ColumnBuckets) :
    ColumnTypeRegistry :=
  ⟨fun c => if c = code then buckets else registry.buckets c⟩

def register (registry : ColumnTypeRegistry) (code : SqlType) (maxLength : Option Nat)
    (template : String) : ColumnTypeRegistry :=
  registry.update code ((registry.buckets code).register maxLength ⟨template⟩)

def registerAll (registry : ColumnTypeRegistry) (types : List (SqlType × Option Nat × String)) :
    ColumnTypeRegistry :=
  types.foldl (fun r t => r.register t.1 t.2.1 t.2.2) registry

/-- Forgets every template of a code. -/
def unregister (registry : ColumnTypeRegistry) (code : SqlType) : ColumnTypeRegistry :=
  registry.update code {}

def lookup (registry : ColumnTypeRegistry) (code : SqlType) (length : Nat) :
    Option ColumnTemplate :=
  (registry.buckets code).lookup length

def get (registry : ColumnTypeRegistry) (code : SqlType) (size : ColumnSize) : Option String :=
  (registry.lookup code size.length).map (·.render size)

/-- All registrations, by code, then by bound, the unrestricted one last. -/
def entries (registry : ColumnTypeRegistry) : List (SqlType × Option Nat × String) :=
  SqlType.all.flatMap fun code =>
    (registry.buckets code).entries.map fun entry => (code, entry.1, entry.2.source)

def contains (registry : ColumnTypeRegistry) (code : SqlType) : Bool :=
  !(registry.buckets code).entries.isEmpty

end ColumnTypeRegistry

end SqlDialects
