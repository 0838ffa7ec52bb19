import SqlDialects.Function.Template

/-!
# Families of functions

Templates that several products share, in the groups in which products have them.
-/

namespace SqlDialects.FunctionFamily

/-- A function that is called by its own name. -/
def call (name : String) (minArgs : Nat) (maxArgs : Option Nat)
    (resultType : Option SqlType := none) : FunctionTemplate :=
  .named name name minArgs maxArgs resultType

/-- Functions of one argument with one result type. -/
def unary (names : List String) (resultType : SqlType) : List FunctionTemplate :=
  names.map fun name => call name 1 (some 1) (some resultType)

/-- Functions that every product spells the same way. -/
def standard : List FunctionTemplate :=
  unary ["lower", "upper"] .varchar ++ unary ["length"] .integer ++
    [call "abs" 1 (some 1), call "mod" 2 (some 2) (some .integer),
      call "sqrt" 1 (some 1) (some .double), call "coalesce" 1 none, call "nullif" 2 (some 2),
      .pattern "current_date" "current_date" (some .date),
      .pattern "current_time" "current_time" (some .time),
      .pattern "current_timestamp" "current_timestamp" (some .timestamp)]

def log : List FunctionTemplate :=
  [call "log" 2 (some 2) (some .double), call "ln" 1 (some 1) (some .double)]

def rand : List FunctionTemplate := [call "rand" 0 (some 1) (some .double)]

def soundex : List FunctionTemplate := unary ["soundex"] .varchar

def octetLength : List FunctionTemplate := unary ["octet_length"] .integer

def bitLength (source : String) : List FunctionTemplate :=
  [.pattern "bit_length" source (some .integer)]

def repeatText : List FunctionTemplate := [call "repeat" 2 (some 2) (some .varchar)]

/-- Trimming at one end, of a given character if there is a second argument. -/
def trim : List FunctionTemplate :=
  ["ltrim", "rtrim"].map fun name => call name 1 (some 2) (some .varchar)

def trunc : List FunctionTemplate := [call "trunc" 1 (some 2)]

def truncate : List FunctionTemplate := [call "truncate" 1 (some 2)]

def initcap : List FunctionTemplate := unary ["initcap"] .varchar

def yearMonthDay : List FunctionTemplate := unary ["year", "month", "day"] .integer

def hourMinuteSecond : List FunctionTemplate := unary ["hour", "minute", "second"] .integer

def dayOfWeekMonthYear : List FunctionTemplate :=
  unary ["dayofweek", "dayofmonth", "dayofyear"] .integer

def weekQuarter : List FunctionTemplate := unary ["week", "quarter"] .integer

def lastDay : List FunctionTemplate := unary ["last_day"] .date

def concatOperator : List FunctionTemplate := [.joined "concat" "||" 1 (some .varchar)]

def substr : List FunctionTemplate := [call "substr" 2 (some 3) (some .varchar)]

/-- `substring` under the name `substr`. -/
def substring : List FunctionTemplate :=
  [.named "substring" "substr" 2 (some 3) (some .varchar)]

def monthsBetween : List FunctionTemplate := [call "months_between" 2 (some 2) (some .double)]

def ascii : List FunctionTemplate := unary ["ascii"] .integer

/-- `chr`, also under the name `char`. -/
def char : List FunctionTemplate :=
  [call "chr" 1 (some 1) (some .char), .named "char" "chr" 1 (some 1) (some .char)]

def sysdate : List FunctionTemplate := [.pattern "sysdate" "sysdate" (some .timestamp)]

def position : List FunctionTemplate :=
  [.pattern "position" "position(?1 in ?2)" (some .integer)]

def dateTrunc : List FunctionTemplate :=
  [.pattern "date_trunc" "date_trunc('?1',?2)" (some .timestamp)]

/-- Formatting through `date_format`. -/
def format : List FunctionTemplate := [.pattern "format" "date_format(?1,?2)" (some .varchar)]

def bitwise : List FunctionTemplate :=
  (["bitand", "bitor", "bitxor"].map fun name => call name 2 (some 2) (some .integer)) ++
    unary ["bitnot"] .integer

/-- The families without a parameter, by name. -/
def named? (name : String) : Option (List FunctionTemplate) :=
  [("standard", standard), ("log", log), ("rand", rand), ("soundex", soundex),
    ("octet_length", octetLength), ("repeat", repeatText), ("trim2", trim), ("trunc", trunc),
    ("truncate", truncate), ("initcap", initcap), ("year_month_day", yearMonthDay),
    ("hour_minute_second", hourMinuteSecond), ("dayofweek_month_year", dayOfWeekMonthYear),
    ("week_quarter", weekQuarter), ("last_day", lastDay),
    ("concat_pipe_operator", concatOperator), ("substr", substr),
    ("months_between", monthsBetween), ("substring_substr", substring), ("ascii", ascii),
    ("char_chr", char), ("sysdate", sysdate), ("position", position), ("date_trunc", dateTrunc),
    ("format_date_format", format), ("bitand_or_xor_not", bitwise)].lookup name

end SqlDialects.FunctionFamily
