import SqlDialects.Number.Natural
import SqlDialects.Text.Blank

/-! # Versions of a database product -/

namespace SqlDialects

structure Version where
  major : UInt16
  minor : UInt16 := 0
  micro : UInt16 := 0
  deriving DecidableEq, Repr

namespace Version

/-- The versions are ordered as their ranks are: by major, then minor, then micro number. -/
def rank (v : Version) : Nat := (v.major.toNat * 65536 + v.minor.toNat) * 65536 + v.micro.toNat

def isBefore (v w : Version) : Bool := v.rank < w.rank

def isSince (v w : Version) : Bool := w.rank ≤ v.rank

instance : Ord Version := ⟨fun v w => compare v.rank w.rank⟩

/-! ## Text -/

/-- A micro number of zero is left out. -/
def text (v : Version) : String :=
  let head := toString v.major.toNat ++ "." ++ toString v.minor.toNat
  if v.micro = 0 then head else head ++ "." ++ toString v.micro.toNat

instance : ToString Version := ⟨text⟩

def component? (cs : List Char) : Option UInt16 :=
  (Number.naturalBelow? 65536 cs).map UInt16.ofNat

/-- One to three numbers with points between them, and blanks around the whole. -/
def ofText? (s : String) : Option Version :=
  match (Text.fields '.' (Text.trimmed s.toList)).mapM component? with
  | some [major] => some { major }
  | some [major, minor] => some { major, minor }
  | some [major, minor, micro] => some { major, minor, micro }
  | _ => none

end Version

end SqlDialects
