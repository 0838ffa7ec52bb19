import SqlDialects.Error
import SqlDialects.Sql.Atom

/-!
# Fragments of a statement

What a dialect makes of a tree before the last step of writing. Placeholders have no position yet
and names no quotes, so that a fragment means the same wherever it stands. Fragments are put
together in the order of the text.
-/

namespace SqlDialects.Sql

inductive Piece where
  | text (text : String)
  /-- The name of a table or column, which the writer may quote. -/
  | name (name : String)
  /-- The content of a string literal. -/
  | string (content : String)
  | parameter (parameter : BindParameter)
  deriving DecidableEq, Repr

structure Fragment where
  pieces : List Piece := []
  /-- The tables that the statement touches, as often as they are named. -/
  tables : List String := []
  warnings : List TranslationWarning := []
  deriving DecidableEq, Repr

namespace Fragment

def append (f g : Fragment) : Fragment :=
  ⟨f.pieces ++ g.pieces, f.tables ++ g.tables, f.warnings ++ g.warnings⟩

instance : Append Fragment := ⟨append⟩

def ofText (text : String) : Fragment := { pieces := [.text text] }

def join (fragments : List Fragment) : Fragment := fragments.foldr append {}

end Fragment

/-! ## Rendering -/

/-- A fragment, or why the dialect has none. -/
abbrev Rendered := Except DialectError Fragment

namespace Rendered

def empty : Rendered := .ok {}

def text (text : String) : Rendered := .ok (.ofText text)

def name (name : String) : Rendered := .ok { pieces := [.name name] }

def string (content : String) : Rendered := .ok { pieces := [.string content] }

def parameter (parameter : BindParameter) : Rendered := .ok { pieces := [.parameter parameter] }

/-- A table, which from then on counts as touched. -/
def table (table : String) : Rendered := .ok { pieces := [.name table], tables := [table] }

def warning (warning : TranslationWarning) : Rendered := .ok { warnings := [warning] }

def malformed (reason : String) : Rendered := .error (.malformedTree reason)

/-- One part after the other. The first part that fails gives the failure of the whole. -/
def concat : List Rendered → Rendered
  | [] => empty
  | part :: rest => do
    let first ← part
    let others ← concat rest
    return first ++ others

/-- The parts with a text between neighbours. -/
def separated (separator : String) : List Rendered → Rendered
  | [] => empty
  | [part] => part
  | part :: next :: rest => concat [part, text separator, separated separator (next :: rest)]

/-- Text in front of a part, where there is one. -/
def clause (keyword : String) : Option Rendered → Rendered
  | some part => concat [text keyword, part]
  | none => empty

def parenthesized (part : Rendered) : Rendered := concat [text "(", part, text ")"]

def textIf (condition : Bool) (text : String) : Rendered :=
  if condition then Rendered.text text else empty

end Rendered

end SqlDialects.Sql
