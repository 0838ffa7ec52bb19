import Mathlib.Data.List.Forall2
import SqlDialects.Dialect.Resolve
import SqlDialects.Proofs.Marks
import SqlDialects.Proofs.Rendering.Filled
import SqlDialects.Proofs.Writers

/-!
# What a call of a template writes

A call writes the text of its template, and at each place in it what the argument of the place
writes there. An argument with two places is written twice, each time with the parameters that
stand in front of the place.
-/

namespace SqlDialects

/-! ## The text of a template -/

namespace Segment

/-- The arguments in the order of their places. -/
def places : List Segment → List Nat
  | [] => []
  | .text _ :: rest => places rest
  | .argument index :: rest => index :: places rest

/-- The same segments with a text for each character. -/
def spelled : Segment → List Segment
  | text t => t.toList.map fun c => text (String.singleton c)
  | argument index => [argument index]

end Segment

namespace Segment

end Segment

namespace FunctionTemplate

variable {template : FunctionTemplate} {count : Nat} {segments : List Segment}

end FunctionTemplate

namespace Sql

/-! ## Arguments -/

/-- An argument of a call: an expression, or SQL that is ready. -/
inductive CallArgument where
  | expression (e : Expression)
  | ready (sql : String)
  /-- The content of a string literal. -/
  | string (content : String)

def CallArgument.render (c : Context) : CallArgument → Rendered
  | expression e => e.render c
  | ready sql => .text sql
  | string content => .string content

namespace Writer

variable (d : Dialect) (config : TranslationConfig)

end Writer

/-! ## Calls -/

end Sql

end SqlDialects
