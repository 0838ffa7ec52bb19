import SqlDialects.Number.Natural

/-!
# Templates

A template is text with marks in it. `?1`, `?2` and so on stand for the arguments of a function,
`$l`, `$p` and `$s` for the length, precision and scale of a column. Each reader of a template
keeps the marks it has no use for as they are.
-/

namespace SqlDialects.Template

/-! ## Lexemes -/

inductive Lexeme where
  | run (chars : List Char)
  | argument (digits : List Char)
  | length
  | precision
  | scale
  | question
  | dollar
  deriving DecidableEq, Repr

/-- A run of no characters is no lexeme. -/
def withRun (chars : List Char) (rest : List Lexeme) : List Lexeme :=
  if chars.isEmpty then rest else .run chars :: rest

/-- A question mark takes the digits that follow it. -/
def pushQuestion : List Lexeme → List Lexeme
  | .run chars :: rest =>
    if (chars.takeWhile Char.isDigit).isEmpty then .question :: .run chars :: rest
    else .argument (chars.takeWhile Char.isDigit) :: withRun (chars.dropWhile Char.isDigit) rest
  | rest => .question :: rest

/-- A dollar sign takes the letter that follows it, if that names a size. -/
def pushDollar : List Lexeme → List Lexeme
  | .run ('l' :: chars) :: rest => .length :: withRun chars rest
  | .run ('p' :: chars) :: rest => .precision :: withRun chars rest
  | .run ('s' :: chars) :: rest => .scale :: withRun chars rest
  | rest => .dollar :: rest

def pushPlain (c : Char) : List Lexeme → List Lexeme
  | .run chars :: rest => .run (c :: chars) :: rest
  | rest => .run [c] :: rest

def push (c : Char) (rest : List Lexeme) : List Lexeme :=
  if c = '?' then pushQuestion rest else if c = '$' then pushDollar rest else pushPlain c rest

/-- Read from the right, so that a mark meets the run behind it. -/
def lexemes (source : List Char) : List Lexeme := source.foldr push []

/-! ## Tokens -/

inductive TokenKind where
  | argument (n : Nat)
  | length
  | precision
  | scale
  | text
  | question
  | dollar
  deriving DecidableEq, Repr

namespace TokenKind

/-- Text and lone marks, which every reader copies. -/
def isText : TokenKind → Bool
  | text | question | dollar => true
  | _ => false

def label : TokenKind → String
  | argument n => "?" ++ toString n
  | length => "$l"
  | precision => "$p"
  | scale => "$s"
  | text => "text"
  | question => "?"
  | dollar => "$"

end TokenKind

structure Token where
  kind : TokenKind
  chars : List Char
  deriving DecidableEq, Repr

namespace Token

def text (t : Token) : String := String.ofList t.chars

def isText (t : Token) : Bool := t.kind.isText

/-- Argument numbers are machine words. -/
def argumentBound : Nat := Number.wordBound

/-- An argument number of zero, or one that is no machine word, makes its lexeme plain text. -/
def ofLexeme : Lexeme → Token
  | .run chars => ⟨.text, chars⟩
  | .argument digits =>
    let n := Number.ofDigits digits
    ⟨if 0 < n ∧ n < argumentBound then .argument n else .text, '?' :: digits⟩
  | .length => ⟨.length, ['$', 'l']⟩
  | .precision => ⟨.precision, ['$', 'p']⟩
  | .scale => ⟨.scale, ['$', 's']⟩
  | .question => ⟨.question, ['?']⟩
  | .dollar => ⟨.dollar, ['$']⟩

/-- Joins a text token to the one behind it. -/
def pushMerged (t : Token) (rest : List Token) : List Token :=
  if t.isText then
    match rest with
    | ⟨.text, chars⟩ :: more => ⟨.text, t.chars ++ chars⟩ :: more
    | _ => ⟨.text, t.chars⟩ :: rest
  else t :: rest

def utf8Size (t : Token) : Nat := t.chars.foldl (fun size c => size + c.utf8Size) 0

end Token

/-- One token for each lexeme. -/
def rawTokens (source : String) : List Token := (lexemes source.toList).map Token.ofLexeme

/-- No two text tokens are neighbours. -/
def tokens (source : String) : List Token := (rawTokens source).foldr Token.pushMerged []

/-- Each token with the byte offsets of its start and end. -/
def spans (start : Nat) : List Token → List (Token × Nat × Nat)
  | [] => []
  | t :: rest => (t, start, start + t.utf8Size) :: spans (start + t.utf8Size) rest

end SqlDialects.Template
