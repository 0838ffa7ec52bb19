import SqlDialects.Json.Value
import SqlDialects.Settings.Key
import SqlDialects.Text.Case

/-!
# Trees of settings

What several sources say is joined to one tree before it is read. Tables are joined member by
member, with their names in small letters, and any other value takes the place of the one before.
-/

namespace SqlDialects.Settings

open Json (Value)

/-! ## Joining tables -/

/-- Sets the value of a name, in the place where the name is. -/
def setMember (name : Option String) (v : Value) :
    List (Option String × Value) → List (Option String × Value)
  | [] => [(name, v)]
  | (other, w) :: rest =>
    if other = name then (name, v) :: rest else (other, w) :: setMember name v rest

def membersOf : Value → List (Option String × Value)
  | .table members => members
  | _ => []

/-- What stands where nothing has been set. -/
def emptyTable : Value := .table []

mutual

/-- Puts a value over the one that is there. Only the members of a table change what is there
member by member. -/
def layer (there : Option Value) : Value → Value
  | .table members => layerMembers (there.getD emptyTable) members
  | v => v

def layerMembers (there : Value) : List (Option String × Value) → Value
  | [] => there
  | (name, v) :: rest =>
    let key := name.map Text.lower
    let members := membersOf there
    layerMembers (.table (setMember key (layer (members.lookup key) v) members)) rest

end

/-! ## Values under keys -/

def itemsOf : Value → List Value
  | .list items => items
  | _ => []

def position (length : Nat) (index : Int) : Nat :=
  if 0 ≤ index then index.toNat else length - index.natAbs

def nextOf (there : Value) : Step → Value
  | .member name => ((membersOf there).lookup (some name)).getD .null
  | .item index => (itemsOf there).getD (position (itemsOf there).length index) .null

/-- A list is filled up to the item. -/
def withNext (there v : Value) : Step → Value
  | .member name => .table (setMember (some name) v (membersOf there))
  | .item index =>
    let items := itemsOf there
    let n := position items.length index
    .list ((items ++ List.replicate (n + 1 - items.length) Value.null).set n v)

/-- Puts a value at the end of some steps, and makes the tables and lists that are missing on the
way. Only where the last step is a name, tables are joined. -/
def putAt (v : Value) : List Step → Value → Value
  | [], _ => v
  | [.member name], there => layerMembers there [(some name, v)]
  | step :: rest, there => withNext there (putAt v rest (nextOf there step)) step

/-- Puts a value under its key. A key that is not well formed is a name as it stands. -/
def put (there : Value) (entry : Option String × Value) : Value :=
  let key := entry.1.getD ""
  putAt entry.2 ((steps? key).getD [.member key]) there

end SqlDialects.Settings
