import SqlDialects.Temporal.Unit

/-!
# Timestamp arithmetic

Patterns for moving a timestamp and for the time between two. In both `?1` is the unit. `?2` is
the amount or the start, `?3` the timestamp or the end.
-/

namespace SqlDialects

inductive TimestampArithmetic where
  /-- One pattern for all units. -/
  | patterns (add diff : String)
  /-- Sums with `interval` literals. -/
  | interval
  /-- Modifiers of `datetime` and differences of `julianday`. -/
  | julianDay
  deriving DecidableEq, Repr

namespace TimestampArithmetic

def addInterval? : TemporalUnit → Option String
  | .nanosecond => none
  | .quarter => some "(?3 + (?2) * interval '3 month')"
  | _ => some "(?3 + (?2) * interval '1 ?1')"

def addJulian? : TemporalUnit → Option String
  | .week => some "datetime(?3, ((?2) * 7) || ' day')"
  | .quarter => some "datetime(?3, ((?2) * 3) || ' month')"
  | .nanosecond | .epoch => none
  | _ => some "datetime(?3, (?2) || ' ?1')"

def add? (unit : TemporalUnit) : TimestampArithmetic → Option String
  | patterns add _ => some add
  | interval => addInterval? unit
  | julianDay => addJulian? unit

/-- Whole seconds between the timestamps, divided by the seconds of a unit. -/
def secondsBetween (scale : String) : String :=
  "trunc(extract(epoch from (?3 - ?2))" ++ scale ++ ")"

/-- Days between the timestamps, scaled and cut to an integer. -/
def daysBetween (scale : String) : String :=
  "cast((julianday(?3) - julianday(?2))" ++ scale ++ " as integer)"

def diffInterval? : TemporalUnit → Option String
  | .year => some "extract(year from age(?3, ?2))"
  | .month =>
    some "(extract(year from age(?3, ?2)) * 12 + extract(month from age(?3, ?2)))"
  | .week => some (secondsBetween " / 604800")
  | .day | .dayOfMonth | .dayOfWeek | .dayOfYear => some (secondsBetween " / 86400")
  | .hour => some (secondsBetween " / 3600")
  | .minute => some (secondsBetween " / 60")
  | .second | .epoch => some (secondsBetween "")
  | .quarter | .nanosecond => none

def diffJulian? : TemporalUnit → Option String
  | .week => some (daysBetween " / 7")
  | .day | .dayOfMonth | .dayOfWeek | .dayOfYear => some (daysBetween "")
  | .hour => some (daysBetween " * 24")
  | .minute => some (daysBetween " * 1440")
  | .second | .epoch => some (daysBetween " * 86400")
  | .year | .quarter | .month | .nanosecond => none

def diff? (unit : TemporalUnit) : TimestampArithmetic → Option String
  | patterns _ diff => some diff
  | interval => diffInterval? unit
  | julianDay => diffJulian? unit

end TimestampArithmetic

end SqlDialects
