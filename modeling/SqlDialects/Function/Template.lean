import SqlDialects.Error
import SqlDialects.SortedMap
import SqlDialects.Template
import SqlDialects.Text.Case

/-!
# Function templates

How a portable function is called on one product. A call is first expanded into segments, text and
argument places in the order of the text; each use of a template then fills the places in its own
way. An argument that a pattern mentions twice has two places.
-/

namespace SqlDialects

/-- A part of an expanded call. Places count from zero. -/
inductive Segment where
  | text (text : String)
  | argument (index : Nat)
  deriving DecidableEq, Repr

namespace Segment

/-- The segments of a list of arguments with a text between neighbours. -/
def separated (separator : String) : Nat → List Segment
  | 0 => []
  | 1 => [argument 0]
  | n + 2 => separated separator (n + 1) ++ [text separator, argument (n + 1)]

/-- Fills a place with its argument; a place without one fails. -/
def fill {α : Type} (ofText : String → α) (missing : Nat → DialectError)
    (arguments : List (Except DialectError α)) : Segment → Except DialectError α
  | text t => .ok (ofText t)
  | argument index =>
    match arguments[index]? with
    | some value => value
    | none => .error (missing index)

end Segment

/-! ## Patterns -/

/-- A call pattern such as `position(?1 in ?2)`. -/
structure Pattern where
  source : String
  deriving DecidableEq, Repr

namespace Pattern

def segment (token : Template.Token) : Segment :=
  match token.kind with
  | .argument n => .argument (n - 1)
  | _ => .text token.text

def segments (pattern : Pattern) : List Segment := (Template.tokens pattern.source).map segment

def argumentNumber (token : Template.Token) : Nat :=
  match token.kind with
  | .argument n => n
  | _ => 0

/-- The greatest argument number in the pattern. -/
def arity (pattern : Pattern) : Nat :=
  ((Template.tokens pattern.source).map argumentNumber).foldl max 0

end Pattern

/-! ## Templates -/

inductive FunctionRendering where
  /-- One pattern for each number of arguments. -/
  | patterns (byCount : SortedMap Nat Pattern)
  /-- `name(a, b)`. -/
  | named (sqlName : String)
  /-- `(a || b)`. -/
  | joined (operator : String)

structure FunctionTemplate where
  name : String
  minArgs : Nat
  maxArgs : Option Nat
  rendering : FunctionRendering
  /-- Absent where the result has the type of the arguments. -/
  resultType : Option SqlType := none

namespace FunctionTemplate

/-- A pattern takes as many arguments as its greatest argument number. -/
def pattern (name : String) (source : String) (resultType : Option SqlType := none) :
    FunctionTemplate :=
  let arity := Pattern.arity ⟨source⟩
  { name := Text.lower name, minArgs := arity, maxArgs := some arity, resultType
    rendering := .patterns (.ofList [(arity, ⟨source⟩)]) }

/-- One pattern for two arguments and one for three. -/
def binaryTernary (name : String) (binary ternary : String)
    (resultType : Option SqlType := none) : FunctionTemplate :=
  { name := Text.lower name, minArgs := 2, maxArgs := some 3, resultType
    rendering := .patterns (.ofList [(2, ⟨binary⟩), (3, ⟨ternary⟩)]) }

def named (name sqlName : String) (minArgs : Nat) (maxArgs : Option Nat)
    (resultType : Option SqlType := none) : FunctionTemplate :=
  { name := Text.lower name, minArgs, maxArgs, resultType, rendering := .named sqlName }

def joined (name operator : String) (minArgs : Nat) (resultType : Option SqlType := none) :
    FunctionTemplate :=
  { name := Text.lower name, minArgs, maxArgs := none, resultType, rendering := .joined operator }

def accepts (template : FunctionTemplate) (count : Nat) : Bool :=
  template.minArgs ≤ count && template.maxArgs.all (count ≤ ·)

/-- Patterns take exactly the counts that they are registered for. -/
def takes (template : FunctionTemplate) (count : Nat) : Bool :=
  match template.rendering with
  | .patterns byCount => byCount.contains count
  | _ => template.accepts count

def arityError (template : FunctionTemplate) (count : Nat) : DialectError :=
  .functionArity template.name template.minArgs template.maxArgs count

def checkArity (template : FunctionTemplate) (count : Nat) : Except DialectError Unit :=
  if template.takes count then .ok () else .error (template.arityError count)

/-- The segments of a call with so many arguments. -/
def expand (template : FunctionTemplate) (count : Nat) : Except DialectError (List Segment) := do
  template.checkArity count
  match template.rendering with
  | .patterns byCount =>
    match byCount.get? count with
    | some pattern => .ok pattern.segments
    | none => .error (template.arityError count)
  | .named sqlName => .ok (.text (sqlName ++ "(") :: Segment.separated ", " count ++ [.text ")"])
  | .joined operator => .ok (.text "(" :: Segment.separated operator count ++ [.text ")"])

/-- A call whose arguments are SQL already. -/
def render (template : FunctionTemplate) (arguments : List String) :
    Except DialectError String := do
  let segments ← template.expand arguments.length
  let missing index := DialectError.malformedTree ("missing argument ?" ++ toString (index + 1))
  let pieces ← segments.mapM (Segment.fill id missing (arguments.map .ok))
  return String.join pieces

end FunctionTemplate

end SqlDialects
