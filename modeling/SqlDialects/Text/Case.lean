import SqlDialects.Text.CaseTable

/-!
# Small letters

Names are compared in small letters. `lower` is the full Unicode mapping, `foldAscii` touches only
`A` to `Z`.
-/

namespace SqlDialects.Text

def inRuns (runs : List CaseTable.Run) (c : Char) : Bool := runs.any fun r => r.Contains c.toNat

def isAscii (c : Char) : Bool := c.toNat < 128

def isUpper (c : Char) : Bool :=
  if isAscii c then c.isUpper else inRuns CaseTable.uppercase c

def isLower (c : Char) : Bool :=
  if isAscii c then c.isLower else inRuns CaseTable.lowercase c

def isCased (c : Char) : Bool :=
  isUpper c || isLower c || inRuns CaseTable.titlecase c

def isCaseIgnorable (c : Char) : Bool := inRuns CaseTable.caseIgnorable c

/-- The small form of one character by itself. Only a capital I with a dot has two letters. -/
def lowerChar (c : Char) : List Char :=
  if isAscii c then [c.toLower]
  else if c.toNat = 0x130 then ['i', '\u0307']
  else match CaseTable.shifts.find? fun s => s.run.Contains c.toNat with
    | some s => [Char.ofNat (c.toNat + s.distance).toNat]
    | none => [c]

/-- The nearest character that is not case-ignorable is a letter with case. -/
def meetsCased (cs : List Char) : Bool :=
  match cs.dropWhile isCaseIgnorable with
  | c :: _ => isCased c
  | [] => false

/-- `before` is read backwards. A capital sigma at the end of a word gets the final form. -/
def lowerAfter (before : List Char) : List Char → List Char
  | [] => []
  | c :: rest =>
    (if c = 'Σ' then [if meetsCased before && !meetsCased rest then 'ς' else 'σ'] else lowerChar c)
      ++ lowerAfter (c :: before) rest

def lower (s : String) : String := String.ofList (lowerAfter [] s.toList)

def foldAscii (s : String) : List Char := s.toList.map Char.toLower

/-- Equal but for the case of the letters `A` to `Z`. -/
def sameName (a b : String) : Bool := foldAscii a == foldAscii b

/-! ## Snake case -/

/-- What stands before the next character of a name. -/
inductive WordPosition where
  | boundary
  | capital
  | inside

/-- A word starts at a capital after a small letter, and at the last capital of a row of them. -/
def startsWord (position : WordPosition) (rest : List Char) : Bool :=
  match position with
  | .boundary => false
  | .inside => true
  | .capital => rest.head?.any isLower

def snakeFrom : WordPosition → List Char → List Char
  | _, [] => []
  | position, c :: rest =>
    if c = '_' then '_' :: snakeFrom .boundary rest
    else if isUpper c then
      (if startsWord position rest then ['_'] else []) ++ lowerChar c ++ snakeFrom .capital rest
    else lowerChar c ++ snakeFrom .inside rest

/-- `OrderLine` becomes `order_line`, `HTTPApi` becomes `http_api`. -/
def snakeCase (s : String) : String := String.ofList (snakeFrom .boundary s.toList)

end SqlDialects.Text
