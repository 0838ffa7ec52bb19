/-!
# Finite maps in key order

A list of pairs with increasing keys. Inserting at a key that is there replaces its value, so the
last write wins.
-/

namespace SqlDialects

/-- The pairs, smallest key first. -/
structure SortedMap (κ ν : Type) where
  toList : List (κ × ν) := []

namespace SortedMap

variable {κ ν : Type}

def insertInto [Ord κ] (k : κ) (v : ν) : List (κ × ν) → List (κ × ν)
  | [] => [(k, v)]
  | (k', v') :: rest =>
    match compare k k' with
    | .lt => (k, v) :: (k', v') :: rest
    | .eq => (k, v) :: rest
    | .gt => (k', v') :: insertInto k v rest

def empty : SortedMap κ ν := ⟨[]⟩

def insert [Ord κ] (m : SortedMap κ ν) (k : κ) (v : ν) : SortedMap κ ν := ⟨insertInto k v m.toList⟩

def get? [BEq κ] (m : SortedMap κ ν) (k : κ) : Option ν := m.toList.lookup k

def erase [BEq κ] (m : SortedMap κ ν) (k : κ) : SortedMap κ ν :=
  ⟨m.toList.filter fun p => !(p.1 == k)⟩

def contains [BEq κ] (m : SortedMap κ ν) (k : κ) : Bool := (m.get? k).isSome

def keys (m : SortedMap κ ν) : List κ := m.toList.map (·.1)

def values (m : SortedMap κ ν) : List ν := m.toList.map (·.2)

def size (m : SortedMap κ ν) : Nat := m.toList.length

def ofList [Ord κ] (pairs : List (κ × ν)) : SortedMap κ ν :=
  pairs.foldl (fun m p => m.insert p.1 p.2) empty

end SortedMap

end SqlDialects
