import SqlDialects.Number.Natural

/-!
# JSON tokens

An automaton reads one character at a time. Numbers and the names of constants are words, which
end where a character comes that belongs to no word.
-/

namespace SqlDialects.Json

inductive Token where
  | openList
  | closeList
  | openTable
  | closeTable
  | comma
  | colon
  | null
  | boolean (value : Bool)
  | number (literal : String)
  | string (content : Option String)
  deriving DecidableEq, Repr

/-! ## Words -/

def isWordChar (c : Char) : Bool := c.isAlphanum || c == '-' || c == '+' || c == '.'

/-- At least one digit and nothing else. -/
def isDigits (cs : List Char) : Bool := !cs.isEmpty && cs.all Char.isDigit

def isExponent : List Char → Bool
  | [] => true
  | e :: '-' :: digits | e :: '+' :: digits => e.toLower == 'e' && isDigits digits
  | e :: digits => e.toLower == 'e' && isDigits digits

def isFraction : List Char → Bool
  | '.' :: rest =>
    isDigits (rest.takeWhile Char.isDigit) && isExponent (rest.dropWhile Char.isDigit)
  | rest => isExponent rest

/-- A zero in front of other digits is not allowed. -/
def isMagnitude : List Char → Bool
  | '0' :: rest => isFraction rest
  | cs => isDigits (cs.takeWhile Char.isDigit) && isFraction (cs.dropWhile Char.isDigit)

def isNumber : List Char → Bool
  | '-' :: rest => isMagnitude rest
  | cs => isMagnitude cs

def Token.ofWord? (word : List Char) : Option Token :=
  let text := String.ofList word
  if text = "null" then some .null
  else if text = "true" then some (.boolean true)
  else if text = "false" then some (.boolean false)
  else if isNumber word then some (.number text)
  else none

/-! ## Texts -/

def isHighSurrogate (n : Nat) : Bool := 0xD800 ≤ n && n < 0xDC00

def isLowSurrogate (n : Nat) : Bool := 0xDC00 ≤ n && n < 0xE000

/-- The characters of some code points, where a pair of surrogates is one character. -/
def charsOfUnits? : List Nat → Option (List Char)
  | [] => some []
  | high :: low :: rest =>
    if isHighSurrogate high && isLowSurrogate low then
      (charsOfUnits? rest).map
        (Char.ofNat (0x10000 + (high - 0xD800) * 0x400 + (low - 0xDC00)) :: ·)
    else if isHighSurrogate high || isLowSurrogate high then none
    else (charsOfUnits? (low :: rest)).map (Char.ofNat high :: ·)
  | [unit] => if isHighSurrogate unit || isLowSurrogate unit then none else some [Char.ofNat unit]

/-- What a letter stands for behind a backslash. -/
def escaped? : Char → Option Char
  | '"' => some '"'
  | '\\' => some '\\'
  | '/' => some '/'
  | 'b' => some '\x08'
  | 'f' => some '\x0c'
  | 'n' => some '\n'
  | 'r' => some '\r'
  | 't' => some '\t'
  | _ => none

def hexValue? (c : Char) : Option Nat :=
  if c.isDigit then some (Number.digitValue c)
  else if 'a' ≤ c.toLower ∧ c.toLower ≤ 'f' then some (c.toLower.toNat - 'a'.toNat + 10)
  else none

/-! ## The automaton -/

/-- What has been read of the token at hand, the last character first. -/
inductive Mode where
  | outside
  | word (read : List Char)
  | string (read : List Nat)
  /-- Behind a backslash. -/
  | escape (read : List Nat)
  /-- Behind so many of the four digits of a code point. -/
  | codePoint (read : List Nat) (count value : Nat)

def Token.ofUnits (units : List Nat) : Token :=
  .string ((charsOfUnits? units).map String.ofList)

def isSpace (c : Char) : Bool := c == ' ' || c == '\n' || c == '\t' || c == '\r'

/-- The character that starts a token, or is one. -/
def start : Char → Option (List Token × Mode)
  | '[' => some ([.openList], .outside)
  | ']' => some ([.closeList], .outside)
  | '\x7b' => some ([.openTable], .outside)
  | '\x7d' => some ([.closeTable], .outside)
  | ',' => some ([.comma], .outside)
  | ':' => some ([.colon], .outside)
  | '"' => some ([], .string [])
  | c =>
    if isSpace c then some ([], .outside)
    else if isWordChar c then some ([], .word [c])
    else none

/-- The tokens that end with a character, and what comes then. -/
def step : Mode → Char → Option (List Token × Mode)
  | .outside, c => start c
  | .word read, c =>
    if isWordChar c then some ([], .word (c :: read))
    else do
      let token ← Token.ofWord? read.reverse
      let (tokens, mode) ← start c
      return (token :: tokens, mode)
  | .string read, c =>
    if c = '"' then some ([.ofUnits read.reverse], .outside)
    else if c = '\\' then some ([], .escape read)
    else if c < ' ' then none
    else some ([], .string (c.toNat :: read))
  | .escape read, c =>
    if c = 'u' then some ([], .codePoint read 0 0)
    else (escaped? c).map fun e => ([], .string (e.toNat :: read))
  | .codePoint read count value, c =>
    (hexValue? c).map fun digit =>
      let value := value * 16 + digit
      ([], if count = 3 then .string (value :: read) else .codePoint read (count + 1) value)

def tokensFrom : Mode → List Char → Option (List Token)
  | .outside, [] => some []
  | .word read, [] => (Token.ofWord? read.reverse).map fun token => [token]
  | _, [] => none
  | mode, c :: rest => do
    let (tokens, next) ← step mode c
    return tokens ++ (← tokensFrom next rest)

def tokens? (s : String) : Option (List Token) := tokensFrom .outside s.toList

end SqlDialects.Json
