import SqlDialects.SqlType
import SqlDialects.Version

/-! # Failures and warnings -/

namespace SqlDialects

/-- Why a dialect cannot be found, or cannot say what was asked of it. -/
inductive DialectError where
  | unsupportedType (dialect : String) (code : SqlType) (length : Nat)
  | unsupportedConstruct (dialect : String) (construct : String) (minimum : Option Version)
  | functionArity (function : String) (min : Nat) (max : Option Nat) (actual : Nat)
  | unknownFunction (dialect : String) (function : String)
  | unknownProduct (name : String)
  | unknownEntity (name : String)
  | unknownAttribute (entity : String) (property : String)
  | invalidVersion (text : String)
  /-- The tree breaks a rule that its maker should have kept. -/
  | malformedTree (reason : String)
  deriving DecidableEq, Repr

namespace DialectError

/-- How many arguments a function takes, in words. -/
def arityText (min : Nat) : Option Nat → String
  | some max =>
    if max = min then "exactly " ++ toString min ++ " argument(s)"
    else "between " ++ toString min ++ " and " ++ toString max ++ " arguments"
  | none => "at least " ++ toString min ++ " argument(s)"

def minimumText : Option Version → String
  | some version => " (requires version " ++ version.text ++ " or later)"
  | none => ""

def message : DialectError → String
  | unsupportedType dialect code length =>
    "No column type mapping for " ++ code.label ++ " (length " ++ toString length ++ ") on "
      ++ dialect
  | unsupportedConstruct dialect construct minimum =>
    construct ++ " is not supported on " ++ dialect ++ minimumText minimum
  | functionArity function min max actual =>
    "Function '" ++ function ++ "' expects " ++ arityText min max ++ " but was called with "
      ++ toString actual
  | unknownFunction dialect function =>
    "Function '" ++ function ++ "' is not available on " ++ dialect
  | unknownProduct name => "Unknown database product: " ++ name
  | unknownEntity name => "Unknown entity: " ++ name
  | unknownAttribute entity property =>
    "Unknown attribute '" ++ property ++ "' on entity '" ++ entity ++ "'"
  | invalidVersion text => "Invalid database version: " ++ text
  | malformedTree reason => "Malformed tree (internal error): " ++ reason

/-- A fault of the caller's program rather than of its input. -/
def isInternal : DialectError → Bool
  | malformedTree _ => true
  | _ => false

end DialectError

/-- What a translation leaves out without failing. -/
inductive TranslationWarning where
  /-- The dialect locks rows through cursors only. -/
  | lockClauseOmitted (dialect : String)
  /-- The lock waits, although the statement asks for something else. -/
  | lockOptionIgnored (dialect : String) (option : String)
  | subqueryOrderByRemoved
  deriving DecidableEq, Repr

def TranslationWarning.message : TranslationWarning → String
  | lockClauseOmitted dialect => dialect ++ " restricts FOR UPDATE to cursors; lock clause omitted"
  | lockOptionIgnored dialect option =>
    dialect ++ " does not support " ++ option ++ "; rendered a plain lock"
  | subqueryOrderByRemoved => "ORDER BY removed from a subquery without pagination"

end SqlDialects
