import SqlDialects.Proofs.Rendering.Layout
import SqlDialects.Sql.Translation

/-!
# Writing one fragment after another

A translation can be made step by step, by a writer that goes through the pieces of a fragment and
keeps the parameters that it has met. What a fragment adds to the text depends on what was written
before it only through the parameters.
-/

namespace SqlDialects.Sql

/-- What has been written so far. -/
structure Writer where
  sql : String := ""
  parameters : List SqlParameter := []
  tables : List String := []
  warnings : List TranslationWarning := []

namespace Writer

/-- The second writer has started where the first one stopped. -/
def append (w v : Writer) : Writer :=
  ⟨w.sql ++ v.sql, w.parameters ++ v.parameters, w.tables ++ v.tables, w.warnings ++ v.warnings⟩

instance : Append Writer := ⟨append⟩

theorem append_def (w v : Writer) : w ++ v =
    ⟨w.sql ++ v.sql, w.parameters ++ v.parameters, w.tables ++ v.tables,
      w.warnings ++ v.warnings⟩ := rfl

def translation (w : Writer) : Translation :=
  ⟨w.sql, w.parameters, Translation.distinct w.tables, w.warnings⟩

variable (d : Dialect) (config : TranslationConfig)

/-- Writes one piece. A parameter gets the next position. -/
def put (w : Writer) : Piece → Writer
  | .text text => { w with sql := w.sql ++ text }
  | .name name => { w with sql := w.sql ++ d.identifier config.quotesIdentifiers name }
  | .string content => { w with sql := w.sql ++ Text.literal content }
  | .parameter p =>
    let position := w.parameters.length + 1
    let placeholder := config.placeholder position p
    { w with
      sql := w.sql ++ placeholder
      parameters := w.parameters ++ [⟨position, placeholder, p.source, p.sqlType⟩] }

/-- Writes the pieces of a fragment in order. -/
def write (w : Writer) (f : Fragment) : Writer :=
  let written := f.pieces.foldl (put d config) w
  { written with tables := w.tables ++ f.tables, warnings := w.warnings ++ f.warnings }

variable {d config}

/-! ## Pieces -/

end Writer

end SqlDialects.Sql
