import SqlDialects.Capability
import SqlDialects.Dialect.LockSyntax
import SqlDialects.Dialect.Placeholder
import SqlDialects.SortedMap
import SqlDialects.SqlType
import SqlDialects.Temporal.Arithmetic
import SqlDialects.Temporal.Format

/-! # Spelling rules of a product -/

namespace SqlDialects

/-- A text for some of the units. -/
abbrev UnitTexts := TemporalUnit → Option String

namespace UnitTexts

def none : UnitTexts := fun _ => Option.none

def set (texts : UnitTexts) (unit : TemporalUnit) (text : String) : UnitTexts :=
  fun u => if u = unit then some text else texts u

def setAll (texts : UnitTexts) (pairs : List (TemporalUnit × String)) : UnitTexts :=
  pairs.foldl (fun t p => t.set p.1 p.2) texts

end UnitTexts

/-- What a product spells in its own way. The defaults are those of the standard. -/
structure DialectRules where
  openQuote : Char := '"'
  closeQuote : Char := '"'
  placeholderStyle : PlaceholderStyle := .jdbc
  lockSyntax : LockSyntax := .clause
  forUpdate : String := " for update"
  forShare : String := " for share"
  noWait : String := " nowait"
  skipLocked : String := " skip locked"
  /-- Follows the definition of a column that may be null. -/
  nullColumn : String := ""
  lowercaseFunction : String := "lower"
  selectGuid : Option String := none
  currentTimestampSelect : Option String := none
  querySequences : Option String := none
  /-- Field names of `extract` that are not the usual ones. -/
  extractFields : UnitTexts := .none
  /-- Patterns that take the place of `extract`: `?1` is the field, `?2` the value. -/
  extractPatterns : UnitTexts := .none
  timestampArithmetic : TimestampArithmetic :=
    .patterns "timestampadd(?1, ?2, ?3)" "timestampdiff(?1, ?2, ?3)"
  datetimeFormat : DatetimeFormat := .passThrough
  timeZoneSupport : TimeZoneSupport := .none
  /-- Constraints are dropped ahead of their tables. -/
  dropConstraints : Bool := true
  preferredBooleanType : SqlType := .boolean
  defaultLength : Nat := 255
  defaultPrecision : Nat := 38
  defaultScale : Nat := 2
  defaultTimestampPrecision : Nat := 6
  defaultProperties : SortedMap String String := {}

end SqlDialects
