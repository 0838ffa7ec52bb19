/-!
# Quoted text

Between its quotes a text is written as it is, except that a closing quote inside is written twice.
-/

namespace SqlDialects.Text

namespace Quoted

/-- Every `close` is written twice. -/
def doubled (close : Char) : List Char → List Char
  | [] => []
  | c :: rest => if c = close then close :: close :: doubled close rest else c :: doubled close rest

def enclosed (opening close : Char) (cs : List Char) : List Char :=
  opening :: (doubled close cs ++ [close])

end Quoted

/-- An SQL string literal. -/
def literal (s : String) : String :=
  String.ofList (Quoted.enclosed '\x27' '\x27' s.toList)

/-- A delimited identifier. -/
def delimited (opening close : Char) (name : String) : String :=
  String.ofList (Quoted.enclosed opening close name.toList)

end SqlDialects.Text
