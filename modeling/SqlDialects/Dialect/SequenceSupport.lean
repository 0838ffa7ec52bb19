/-! # Sequences -/

namespace SqlDialects

/-- How an expression asks a sequence for its next value. -/
inductive NextValue where
  /-- `next value for s`. -/
  | nextValueFor
  /-- `nextval('s')`. -/
  | nextval
  deriving DecidableEq, Repr

inductive SequenceSupport where
  | unsupported
  /-- A pooled sequence hands out blocks of values. -/
  | supported (next : NextValue) (pooled : Bool)
  deriving DecidableEq, Repr

namespace SequenceSupport

def isSupported : SequenceSupport → Bool
  | unsupported => false
  | supported _ _ => true

def isPooled : SequenceSupport → Bool
  | supported _ pooled => pooled
  | unsupported => false

def creation (name : String) (start increment : Int) : String :=
  "create sequence " ++ name ++ " start with " ++ toString start ++ " increment by "
    ++ toString increment

def removal (name : String) : String := "drop sequence " ++ name

def create? (name : String) (start increment : Int) : SequenceSupport → Option String
  | unsupported => none
  | supported _ _ => some (creation name start increment)

def drop? (name : String) : SequenceSupport → Option String
  | unsupported => none
  | supported _ _ => some (removal name)

def next? (name : String) : SequenceSupport → Option String
  | unsupported => none
  | supported .nextValueFor _ => some ("next value for " ++ name)
  | supported .nextval _ => some ("nextval('" ++ name ++ "')")

def selectNext? (name : String) (support : SequenceSupport) : Option String :=
  (support.next? name).map ("select " ++ ·)

end SequenceSupport

end SqlDialects
