import SqlDialects.Json.Token
import SqlDialects.Json.Value

/-!
# Reading JSON

The depth of the reader is bounded by a number. Every call but the first reads a token or follows
one that does, so twice the number of tokens is enough.
-/

namespace SqlDialects.Json

mutual

def value : Nat → List Token → Option (Value × List Token)
  | n + 1, token :: rest =>
    match token with
    | .null => some (.null, rest)
    | .boolean b => some (.boolean b, rest)
    | .number literal => some (.number literal, rest)
    | .string content => some (.string content, rest)
    | .openList => (elements n rest).map fun (items, rest) => (.list items, rest)
    | .openTable => (members n rest).map fun (members, rest) => (.table members, rest)
    | _ => none
  | _, _ => none

/-- What stands between the brackets of a list, and the second bracket. -/
def elements : Nat → List Token → Option (List Value × List Token)
  | _, .closeList :: rest => some ([], rest)
  | n, rest => moreElements n rest

def moreElements : Nat → List Token → Option (List Value × List Token)
  | n + 1, tokens => do
    let (first, rest) ← value n tokens
    match rest with
    | .comma :: rest =>
      let (others, rest) ← moreElements n rest
      return (first :: others, rest)
    | .closeList :: rest => return ([first], rest)
    | _ => none
  | 0, _ => none

def members : Nat → List Token → Option (List (Option String × Value) × List Token)
  | _, .closeTable :: rest => some ([], rest)
  | n, rest => moreMembers n rest

def moreMembers : Nat → List Token → Option (List (Option String × Value) × List Token)
  | n + 1, .string name :: .colon :: tokens => do
    let (first, rest) ← value n tokens
    match rest with
    | .comma :: rest =>
      let (others, rest) ← moreMembers n rest
      return ((name, first) :: others, rest)
    | .closeTable :: rest => return ([(name, first)], rest)
    | _ => none
  | _, _ => none

end

/-- A text that is one value and nothing more. -/
def Value.ofText? (s : String) : Option Value := do
  let tokens ← tokens? s
  match ← value (2 * tokens.length + 1) tokens with
  | (v, []) => some v
  | _ => none

end SqlDialects.Json
