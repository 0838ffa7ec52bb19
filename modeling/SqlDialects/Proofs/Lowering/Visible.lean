import SqlDialects.Mapping.Model
import SqlDialects.Proofs.Lowering.Occurrences

/-!
# Visible variables

A node sees the variables of the queries around it and those of its own query. What a statement
over entities has to keep to is said of each node with the variables that it sees, and so is where
its joins can hang.
-/

namespace SqlDialects.Entity

/-! ## Variables -/

/-- A variable stands for an entity, and belongs to one of the tables of its query. -/
structure Variable where
  entity : Mapping.Entity
  item : Nat
  deriving DecidableEq, Repr

/-- The variables of a query, the latest first, and the number of its tables. -/
structure Frame where
  bindings : List (String × Variable) := []
  tables : Nat := 0
  deriving DecidableEq, Repr

/-- The variable of the target of an update or delete. -/
def Frame.ofTarget (name : String) (entity : Mapping.Entity) : Frame := ⟨[(name, ⟨entity, 0⟩)], 1⟩

/-- The innermost variable of the name, and how many queries further out it is bound. -/
def findVariable (name : String) : List Frame → Option (Nat × Variable)
  | [] => none
  | frame :: outer =>
    match frame.bindings.lookup name with
    | some found => some (0, found)
    | none => (findVariable name outer).map fun found => (found.1 + 1, found.2)

/-- Each variable belongs to a table that its query has. -/
def Frame.IsSound (frame : Frame) : Prop :=
  ∀ entry ∈ frame.bindings, entry.2.item < frame.tables

theorem exists_frame_of_findVariable {name : String} {frames : List Frame} {depth : Nat}
    {v : Variable} (hs : ∀ frame ∈ frames, frame.IsSound)
    (h : findVariable name frames = some (depth, v)) :
    ∃ frame, frames[depth]? = some frame ∧ v.item < frame.tables := by
  induction frames generalizing depth with
  | nil => cases h
  | cons frame outer ih =>
    obtain ⟨hframe, houter⟩ := List.forall_mem_cons.1 hs
    unfold findVariable at h
    split at h
    · next found hlookup =>
      obtain ⟨rfl, rfl⟩ := Prod.mk.inj (Option.some.inj h)
      obtain ⟨front, back, hlist, -⟩ := List.lookup_eq_some_iff.1 hlookup
      exact ⟨frame, rfl, hframe (name, found) (by simp [hlist])⟩
    · obtain ⟨⟨further, v⟩, hfind, h⟩ := Option.map_eq_some_iff.1 h
      obtain ⟨rfl, rfl⟩ := Prod.mk.inj h
      exact ih houter hfind

/-! ## Paths -/

/-- The names lead along associations from one entity to another. -/
def Reaches (model : Mapping.Model) : Mapping.Entity → List String → Mapping.Entity → Prop
  | entity, [], reached => entity = reached
  | entity, name :: rest, reached => ∃ association target,
    entity.property name = .ok (.toOne association) ∧
    model.entity association.target = .ok target ∧ Reaches model target rest reached

/-- None of the names is that of a basic attribute. Nothing is asked of what follows a collection,
or a name that is not known. -/
def Leads (model : Mapping.Model) : Mapping.Entity → List String → Prop
  | _, [] => True
  | entity, name :: rest => ∀ property, entity.property name = .ok property →
    match property with
    | .basic _ => False
    | .toOne association => ∀ target, model.entity association.target = .ok target →
      Leads model target rest
    | .toMany _ => True

section

variable {model : Mapping.Model} {entity reached reached' : Mapping.Entity}
  {names names' : List String}

theorem Reaches.leads_append (h : Reaches model entity names reached)
    (hl : Leads model reached names') : Leads model entity (names ++ names') := by
  induction names generalizing entity with
  | nil =>
    obtain rfl : entity = reached := h
    exact hl
  | cons name rest ih =>
    obtain ⟨association, target, hp, ht, h⟩ := h
    intro property hproperty
    obtain rfl := Except.ok.inj (hp.symm.trans hproperty)
    intro target' ht'
    obtain rfl := Except.ok.inj (ht.symm.trans ht')
    exact ih h

theorem Leads.of_append (h : Leads model entity (names ++ names')) : Leads model entity names := by
  induction names generalizing entity with
  | nil => trivial
  | cons name rest ih =>
    intro property hproperty
    have hstep := h property hproperty
    cases property with
    | basic value => exact hstep
    | toOne association => exact fun target ht => ih (hstep target ht)
    | toMany collection => trivial

theorem Reaches.leads (h : Reaches model entity names reached) : Leads model entity names := by
  simpa using h.leads_append (show Leads model reached [] from trivial)

theorem Reaches.unique (h : Reaches model entity names reached)
    (h' : Reaches model entity names reached') : reached = reached' := by
  induction names generalizing entity with
  | nil => exact Eq.trans (Eq.symm h) h'
  | cons name rest ih =>
    obtain ⟨association, target, hp, ht, h⟩ := h
    obtain ⟨association', target', hp', ht', h'⟩ := h'
    obtain rfl : association = association' := by simpa [hp] using hp'
    obtain rfl := Except.ok.inj (ht.symm.trans ht')
    exact ih h h'

end

/-- The variable of the path is visible, and its inner steps are associations. -/
def Path.IsWellFormed (model : Mapping.Model) (frames : List Frame) (path : Path) : Prop :=
  ∃ depth start, findVariable path.start frames = some (depth, start) ∧
    Leads model start.entity path.properties.dropLast

/-- The path has a last step, which is a collection. -/
def Path.EndsInCollection (model : Mapping.Model) (frames : List Frame) (path : Path) : Prop :=
  ∃ name, path.properties.getLast? = some name ∧
    ∀ depth start reached property, findVariable path.start frames = some (depth, start) →
      Reaches model start.entity path.properties.dropLast reached →
        reached.property name = .ok property → ∃ collection, property = .toMany collection

/-- It is enough to look at the property that the path does lead to. -/
theorem Path.endsInCollection_iff {model : Mapping.Model} {frames : List Frame} {path : Path}
    {name : String} {depth : Nat} {start : Variable} {reached : Mapping.Entity}
    {property : Mapping.Property} (hlast : path.properties.getLast? = some name)
    (hfind : findVariable path.start frames = some (depth, start))
    (hr : Reaches model start.entity path.properties.dropLast reached)
    (hproperty : reached.property name = .ok property) :
    path.EndsInCollection model frames ↔ ∃ collection, property = .toMany collection := by
  constructor
  · rintro ⟨name', hlast', hends⟩
    obtain rfl := Option.some.inj (hlast.symm.trans hlast')
    exact hends depth start reached property hfind hr hproperty
  · intro hcollection
    refine ⟨name, hlast, fun depth' start' reached' property' hfind' hr' hproperty' => ?_⟩
    obtain ⟨rfl, rfl⟩ := Prod.mk.inj (Option.some.inj (hfind.symm.trans hfind'))
    obtain rfl := hr.unique hr'
    obtain rfl := Except.ok.inj (hproperty.symm.trans hproperty')
    exact hcollection

/-! ## Roots and joins -/

/-- What binds a variable of a query. -/
inductive Source where
  | root (entity aliasName : String)
  | join (join : PathJoin)

def Root.sources (root : Root) : List Source :=
  .root root.entity root.aliasName :: root.joins.map .join

def QuerySpec.sources (spec : QuerySpec) : List Source := spec.roots.flatMap Root.sources

/-- The entity at the other end of a property, if it is known. -/
def target? (model : Mapping.Model) : Mapping.Property → Option Mapping.Entity
  | .basic _ => none
  | .toOne association => (model.entity association.target).toOption
  | .toMany collection => (model.entity collection.element).toOption

namespace Source

/-- The variables of a query with the one of the source, if its entity is known. A join takes its
variable to the table of the variable that it starts at. -/
def declare? (model : Mapping.Model) (outer : List Frame) (frame : Frame) : Source → Option Frame
  | root entity aliasName => do
    let entity ← (model.entity entity).toOption
    return ⟨(aliasName, ⟨entity, frame.tables⟩) :: frame.bindings, frame.tables + 1⟩
  | join ⟨_, ⟨start, [name]⟩, aliasName⟩ => do
    let (_, found) ← findVariable start (frame :: outer)
    let entity ← target? model (← (found.entity.property name).toOption)
    return { frame with bindings := (aliasName, ⟨entity, found.item⟩) :: frame.bindings }
  | join _ => none

/-- A join goes over one association of a visible variable. -/
def IsWellFormed (outer : List Frame) (frame : Frame) : Source → Prop
  | root _ _ => True
  | join along => ∃ name depth start, along.path.properties = [name] ∧
    findVariable along.path.start (frame :: outer) = some (depth, start) ∧
    ∀ value, start.entity.property name ≠ .ok (.basic value)

/-- The query of the join has a table with the number that the variable's table has in its own
query. -/
def Reaches (outer : List Frame) (frame : Frame) : Source → Prop
  | root _ _ => True
  | join along => ∀ depth start,
    findVariable along.path.start (frame :: outer) = some (depth, start) →
      start.item < frame.tables

section

variable {outer : List Frame} {frame : Frame} {along : PathJoin} {name : String} {depth : Nat}
  {start : Variable}

theorem isWellFormed_join_iff (hname : along.path.properties = [name])
    (hfind : findVariable along.path.start (frame :: outer) = some (depth, start)) :
    (join along).IsWellFormed outer frame ↔
      ∀ value, start.entity.property name ≠ .ok (.basic value) := by
  constructor
  · rintro ⟨_, _, _, hname', hfind', hbasic⟩
    obtain ⟨rfl, -⟩ := List.cons.inj (hname.symm.trans hname')
    obtain ⟨-, rfl⟩ := Prod.mk.inj (Option.some.inj (hfind.symm.trans hfind'))
    exact hbasic
  · intro hbasic
    exact ⟨name, depth, start, hname, hfind, hbasic⟩

theorem reaches_join_iff
    (hfind : findVariable along.path.start (frame :: outer) = some (depth, start)) :
    (join along).Reaches outer frame ↔ start.item < frame.tables := by
  constructor
  · intro h
    exact h depth start hfind
  · intro h depth' start' hfind'
    obtain ⟨-, rfl⟩ := Prod.mk.inj (Option.some.inj (hfind.symm.trans hfind'))
    exact h

theorem declare?_join {model : Mapping.Model} {property : Mapping.Property}
    {target : Mapping.Entity} (hname : along.path.properties = [name])
    (hfind : findVariable along.path.start (frame :: outer) = some (depth, start))
    (hproperty : start.entity.property name = .ok property)
    (htarget : target? model property = some target) :
    (join along).declare? model outer frame =
      some { frame with bindings := (along.aliasName, ⟨target, start.item⟩) :: frame.bindings } := by
  obtain ⟨kind, ⟨variableName, properties⟩, aliasName⟩ := along
  obtain rfl : properties = [name] := hname
  simp [declare?, show findVariable variableName (frame :: outer) = _ from hfind, hproperty,
    htarget, Except.toOption]

end

end Source

section

variable (model : Mapping.Model) (outer : List Frame)

/-- The variables of a query, if the entities of all its sources are known. -/
def declareAll? : Frame → List Source → Option Frame
  | frame, [] => some frame
  | frame, source :: rest => do declareAll? (← source.declare? model outer frame) rest

/-- The property holds of each source with the variables that are bound before it. -/
def EachSource (P : Frame → Source → Prop) : Frame → List Source → Prop
  | _, [] => True
  | frame, source :: rest => P frame source ∧
    ∀ next, source.declare? model outer frame = some next → EachSource P next rest

end

section

variable {model : Mapping.Model} {outer : List Frame} {P Q : Frame → Source → Prop}

theorem eachSource_append {frame : Frame} {front back : List Source} :
    EachSource model outer P frame (front ++ back) ↔ EachSource model outer P frame front ∧
      ∀ next, declareAll? model outer frame front = some next →
        EachSource model outer P next back := by
  induction front generalizing frame with
  | nil => simp [EachSource, declareAll?]
  | cons source rest ih =>
    simp only [List.cons_append, EachSource, ih, declareAll?, Option.bind_eq_bind,
      Option.bind_eq_some_iff]
    grind

theorem declareAll?_append {frame : Frame} {front back : List Source} :
    declareAll? model outer frame (front ++ back) =
      (declareAll? model outer frame front).bind (declareAll? model outer · back) := by
  induction front generalizing frame with
  | nil => rfl
  | cons source rest ih =>
    simp only [List.cons_append, declareAll?, ih]
    cases source.declare? model outer frame <;> rfl

/-- Joins bring no table of their own into the numbering. -/
theorem tables_eq_of_declareAll? {frame last : Frame} {joins : List PathJoin}
    (h : declareAll? model outer frame (joins.map .join) = some last) :
    last.tables = frame.tables := by
  induction joins generalizing frame with
  | nil => exact congrArg Frame.tables (Option.some.inj h).symm
  | cons join rest ih =>
    obtain ⟨next, hnext, h⟩ := Option.bind_eq_some_iff.1 h
    rw [ih h]
    unfold Source.declare? at hnext
    split at hnext
    · cases ‹Source.join join = _›
    · obtain ⟨found, -, hnext⟩ := Option.bind_eq_some_iff.1 hnext
      obtain ⟨property, -, hnext⟩ := Option.bind_eq_some_iff.1 hnext
      obtain ⟨entity, -, hnext⟩ := Option.bind_eq_some_iff.1 hnext
      rw [← Option.some.inj hnext]
    · cases hnext

theorem eachSource_and {frame : Frame} {sources : List Source} :
    EachSource model outer (fun frame source => P frame source ∧ Q frame source) frame sources ↔
      EachSource model outer P frame sources ∧ EachSource model outer Q frame sources := by
  induction sources generalizing frame with
  | nil => simp [EachSource]
  | cons source rest ih =>
    simp only [EachSource, ih]
    grind

end

/-! ## Trees -/

namespace Node

/-- The frames that the children of a node see. -/
def inside? (model : Mapping.Model) (frames : List Frame) : Node → Option (List Frame)
  | query (.spec spec) => (declareAll? model frames {} spec.sources).map (· :: frames)
  | _ => some frames

/-- The property holds of a node and of all nodes below it, each with the frames that it sees. -/
inductive Throughout (model : Mapping.Model) (P : List Frame → Node → Prop) :
    List Frame → Node → Prop
  | node {frames : List Frame} {n : Node} (here : P frames n)
      (below : ∀ inner, n.inside? model frames = some inner →
        ∀ m ∈ n.children, Throughout model P inner m) : Throughout model P frames n

/-- The rules for a node, whatever stands below it. -/
def IsWellFormed (model : Mapping.Model) (frames : List Frame) : Node → Prop
  | expression (.path path) => path.IsWellFormed model frames
  | expression (.size path) =>
    path.IsWellFormed model frames ∧ path.EndsInCollection model frames
  | query (.spec spec) => spec.roots ≠ [] ∧
    EachSource model frames (Source.IsWellFormed frames) {} spec.sources
  | _ => True

/-- The joins of a query find a table to hang on. -/
def JoinsReach (model : Mapping.Model) (frames : List Frame) : Node → Prop
  | query (.spec spec) => EachSource model frames (Source.Reaches frames) {} spec.sources
  | _ => True

variable {model : Mapping.Model} {P Q : List Frame → Node → Prop} {frames : List Frame} {n : Node}

theorem throughout_iff : n.Throughout model P frames ↔ P frames n ∧
    ∀ inner, n.inside? model frames = some inner →
      ∀ m ∈ n.children, m.Throughout model P inner := by
  constructor
  · rintro ⟨here, below⟩
    exact ⟨here, below⟩
  · rintro ⟨here, below⟩
    exact .node here below

theorem throughout_expression {e : Expression} :
    (expression e).Throughout model P frames ↔ P frames (.expression e) ∧
      ∀ m ∈ e.children, m.Throughout model P frames :=
  throughout_iff.trans (by simp [inside?, children])

theorem throughout_condition {p : Condition} :
    (condition p).Throughout model P frames ↔ P frames (.condition p) ∧
      ∀ m ∈ p.children, m.Throughout model P frames :=
  throughout_iff.trans (by simp [inside?, children])

theorem throughout_and :
    n.Throughout model (fun frames n => P frames n ∧ Q frames n) frames ↔
      n.Throughout model P frames ∧ n.Throughout model Q frames := by
  constructor
  · intro h
    induction h with
    | node here below ih =>
      exact ⟨.node here.1 fun inner hi m hm => (ih inner hi m hm).1,
        .node here.2 fun inner hi m hm => (ih inner hi m hm).2⟩
  · rintro ⟨hp, hq⟩
    induction hp with
    | node here below ih =>
      obtain ⟨here', below'⟩ := throughout_iff.1 hq
      exact .node ⟨here, here'⟩ fun inner hi m hm => ih inner hi m hm (below' inner hi m hm)

end Node

namespace Statement

/-- What the nodes of a statement see outside of its queries: the target of an update or delete. -/
def frames? (model : Mapping.Model) : Statement → Option (List Frame)
  | select _ _ => some []
  | update entity aliasName _ _ | delete entity aliasName _ =>
    (model.entity entity).toOption.map fun target => [.ofTarget aliasName target]

def Throughout (model : Mapping.Model) (P : List Frame → Node → Prop) (statement : Statement) :
    Prop :=
  ∀ frames, statement.frames? model = some frames →
    ∀ n ∈ statement.children, n.Throughout model P frames

/-- Queries have roots, variables are visible where they are used, explicit joins go over one
association, inner steps are associations and sizes are those of collections. -/
def IsWellFormed (model : Mapping.Model) (statement : Statement) : Prop :=
  statement.Throughout model (Node.IsWellFormed model)

/-- The query of each explicit join has a table with the number that the table of the variable has
in its own query. -/
def JoinsReach (model : Mapping.Model) (statement : Statement) : Prop :=
  statement.Throughout model (Node.JoinsReach model)

end Statement

end SqlDialects.Entity
