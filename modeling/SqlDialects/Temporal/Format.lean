/-!
# Datetime formats

A portable pattern such as `yyyy-MM-dd` is a row of items. Letters are fields, one field for each
run of a letter; text between apostrophes and every other character stand for themselves. Each
product has its own way to write the items.
-/

namespace SqlDialects

inductive FormatItem where
  | literal (c : Char)
  /-- So many of one letter in a row. -/
  | field (letter : Char) (count : Nat)
  deriving DecidableEq, Repr

namespace FormatItem

/-- One more letter in front of the field that its neighbour starts. -/
def lengthen : List FormatItem → List FormatItem
  | field letter count :: rest => field letter (count + 1) :: rest
  | items => items

/-- Reads on inside or outside of apostrophes. A text without its second apostrophe runs on to the
end. -/
def read (isQuoted : Bool) : List Char → List FormatItem
  | [] => []
  | c :: rest =>
    if c = '\x27' then read (!isQuoted) rest
    else if isQuoted || !c.isAlpha then literal c :: read isQuoted rest
    else if rest.head? = some c then lengthen (read isQuoted rest)
    else field c 1 :: read isQuoted rest

def ofPattern (pattern : String) : List FormatItem := read false pattern.toList

end FormatItem

/-! ## Styles -/

inductive DatetimeFormat where
  /-- The specifiers of `date_format`. -/
  | mySql
  /-- The patterns of `to_char`. -/
  | postgres
  /-- The specifiers of `strftime`. -/
  | sqlite
  /-- The portable pattern as it is. -/
  | passThrough
  deriving DecidableEq, Repr

namespace DatetimeFormat

def all : List DatetimeFormat := [mySql, postgres, sqlite, passThrough]

def name : DatetimeFormat → String
  | mySql => "mysql"
  | postgres => "postgres"
  | sqlite => "sqlite"
  | passThrough => "pass_through"

def ofName? (name : String) : Option DatetimeFormat := all.find? (·.name == name)

def mySqlField? : Char → Nat → Option String
  | 'y', 4 | 'Y', 4 => some "%Y"
  | 'y', 2 | 'Y', 2 => some "%y"
  | 'M', 4 => some "%M"
  | 'M', 3 => some "%b"
  | 'M', 2 => some "%m"
  | 'M', 1 => some "%c"
  | 'd', 2 => some "%d"
  | 'd', 1 => some "%e"
  | 'D', 3 => some "%j"
  | 'H', 2 => some "%H"
  | 'H', 1 => some "%k"
  | 'h', 2 => some "%h"
  | 'h', 1 => some "%l"
  | 'm', 2 => some "%i"
  | 's', 2 => some "%s"
  | 'S', 3 | 'S', 6 => some "%f"
  | 'a', 1 => some "%p"
  | 'E', 4 => some "%W"
  | 'E', 3 | 'E', 2 | 'E', 1 => some "%a"
  | _, _ => none

def postgresField? : Char → Nat → Option String
  | 'y', 4 | 'Y', 4 => some "YYYY"
  | 'y', 2 | 'Y', 2 => some "YY"
  | 'M', 4 => some "FMMonth"
  | 'M', 3 => some "Mon"
  | 'M', 2 => some "MM"
  | 'M', 1 => some "FMMM"
  | 'd', 2 => some "DD"
  | 'd', 1 => some "FMDD"
  | 'D', 3 => some "DDD"
  | 'H', 2 => some "HH24"
  | 'h', 2 => some "HH12"
  | 'm', 2 => some "MI"
  | 's', 2 => some "SS"
  | 'S', 3 => some "MS"
  | 'S', 6 => some "US"
  | 'a', 1 => some "AM"
  | 'E', 4 => some "FMDay"
  | 'E', 3 | 'E', 2 | 'E', 1 => some "Dy"
  | _, _ => none

def sqliteField? : Char → Nat → Option String
  | 'y', 4 | 'Y', 4 => some "%Y"
  | 'M', 2 => some "%m"
  | 'd', 2 => some "%d"
  | 'D', 3 => some "%j"
  | 'H', 2 => some "%H"
  | 'm', 2 => some "%M"
  | 's', 2 => some "%S"
  | 'S', 3 => some "%f"
  | _, _ => none

def field? (letter : Char) (count : Nat) : DatetimeFormat → Option String
  | mySql => mySqlField? letter count
  | postgres => postgresField? letter count
  | sqlite => sqliteField? letter count
  | passThrough => none

/-- A percent sign is written twice among specifiers, a letter in quotes among patterns. -/
def writeLiteral (c : Char) : DatetimeFormat → List Char
  | mySql | sqlite => if c = '%' then ['%', '%'] else [c]
  | postgres => if c.isAlpha then ['"', c, '"'] else [c]
  | passThrough => [c]

/-- The letters of an unknown field stand for themselves. -/
def writeItem (style : DatetimeFormat) : FormatItem → List Char
  | .literal c => style.writeLiteral c
  | .field letter count =>
    match style.field? letter count with
    | some specifier => specifier.toList
    | none => (List.replicate count letter).flatMap style.writeLiteral

def write (style : DatetimeFormat) (pattern : String) : String :=
  match style with
  | passThrough => pattern
  | _ => String.ofList ((FormatItem.ofPattern pattern).flatMap style.writeItem)

end DatetimeFormat

end SqlDialects
