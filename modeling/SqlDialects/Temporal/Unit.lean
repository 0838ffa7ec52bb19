/-! # Units of time -/

namespace SqlDialects

inductive TemporalUnit where
  | year
  | quarter
  | month
  | week
  | day
  | dayOfMonth
  | dayOfWeek
  | dayOfYear
  | hour
  | minute
  | second
  | nanosecond
  /-- Seconds since the start of 1970. -/
  | epoch
  deriving DecidableEq, Repr

namespace TemporalUnit

def all : List TemporalUnit :=
  [year, quarter, month, week, day, dayOfMonth, dayOfWeek, dayOfYear, hour, minute, second,
    nanosecond, epoch]

def name : TemporalUnit → String
  | year => "year"
  | quarter => "quarter"
  | month => "month"
  | week => "week"
  | day => "day"
  | dayOfMonth => "day_of_month"
  | dayOfWeek => "day_of_week"
  | dayOfYear => "day_of_year"
  | hour => "hour"
  | minute => "minute"
  | second => "second"
  | nanosecond => "nanosecond"
  | epoch => "epoch"

def ofName? (name : String) : Option TemporalUnit := all.find? (·.name == name)

/-- The field that most products read with `extract`. -/
def extractField : TemporalUnit → String
  | dayOfMonth => "day"
  | u => u.name

/-- The unit in which timestamp arithmetic counts. -/
def durationField : TemporalUnit → String
  | dayOfMonth | dayOfWeek | dayOfYear => "day"
  | epoch => "second"
  | u => u.name

end TemporalUnit

end SqlDialects
