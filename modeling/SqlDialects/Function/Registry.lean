import SqlDialects.Function.Template

/-! # Function registries -/

namespace SqlDialects

/-- Function templates by name. Letter case makes no difference in a name. -/
structure FunctionRegistry where
  templates : SortedMap String FunctionTemplate := {}

namespace FunctionRegistry

def register (registry : FunctionRegistry) (template : FunctionTemplate) : FunctionRegistry :=
  ⟨registry.templates.insert template.name template⟩

def registerAll (registry : FunctionRegistry) (templates : List FunctionTemplate) :
    FunctionRegistry :=
  templates.foldl register registry

def unregister (registry : FunctionRegistry) (name : String) : FunctionRegistry :=
  ⟨registry.templates.erase (Text.lower name)⟩

def get? (registry : FunctionRegistry) (name : String) : Option FunctionTemplate :=
  registry.templates.get? (Text.lower name)

def contains (registry : FunctionRegistry) (name : String) : Bool := (registry.get? name).isSome

def names (registry : FunctionRegistry) : List String := registry.templates.keys

def toList (registry : FunctionRegistry) : List FunctionTemplate := registry.templates.values

def size (registry : FunctionRegistry) : Nat := registry.templates.size

end FunctionRegistry

end SqlDialects
