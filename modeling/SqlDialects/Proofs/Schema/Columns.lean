import SqlDialects.Proofs.Schema.Declarations
import SqlDialects.Proofs.Schema.Names

/-!
# Where the columns of a table come from

The columns of a table are those of the entity itself, and one for each collection whose elements
refer to their owner by it. Such a column is left out if an association has it already, but not if
the id, an attribute or another collection does. A column that refers to an entity has the type of
its id. That of an association is never unique, those of collections are if the id is.
-/

namespace SqlDialects.Schema

open Mapping

variable {d : Dialect} {model : Model} {entity : Entity} {statement : Statement}
  {statements : List Statement}

/-! ## Columns for collections -/

/-- The column by which the elements of a collection refer to their owner, if it belongs to the
table of the entity and no association has it. -/
def ownerColumn? (entity : Entity) (collection : ToMany) : Option String :=
  match collection.storage with
  | .foreignKey column =>
    if Text.sameName collection.element entity.name && !entity.declaresForeignKey column then
      some column
    else none
  | .joinTable _ _ _ => none

/-- The columns that collections bring to the table of an entity, each with the owner. -/
def ownerColumns (model : Model) (entity : Entity) : List (Entity × String) :=
  model.entities.flatMap fun owner =>
    owner.toMany.filterMap fun collection => (ownerColumn? entity collection).map (owner, ·)

theorem ownerKey?_eq_map (entity owner : Entity) (collection : ToMany) :
    ownerKey? entity owner collection = (ownerColumn? entity collection).map fun column =>
      { owner.id.withColumn column with isNullable := true } := by
  unfold ownerKey? ownerColumn?
  cases collection.storage with
  | foreignKey column =>
    dsimp only
    split <;> rfl
  | joinTable => rfl

theorem ownerKeys_eq_map (model : Model) (entity : Entity) :
    ownerKeys model entity = (ownerColumns model entity).map fun p =>
      { p.1.id.withColumn p.2 with isNullable := true } := by
  rw [ownerKeys, ownerColumns, List.map_flatMap]
  refine List.flatMap_congr fun owner _ => ?_
  rw [List.map_filterMap]
  refine congrArg (List.filterMap · _) (funext fun collection => ?_)
  rw [ownerKey?_eq_map, Option.map_map]
  rfl

theorem declaresForeignKey_of_mem_ownerColumns {p : Entity × String}
    (h : p ∈ ownerColumns model entity) : entity.declaresForeignKey p.2 = false := by
  obtain ⟨owner, -, h⟩ := List.mem_flatMap.1 h
  obtain ⟨collection, -, h⟩ := List.mem_filterMap.1 h
  obtain ⟨column, hcolumn, rfl⟩ := Option.map_eq_some_iff.1 h
  unfold ownerColumn? at hcolumn
  split at hcolumn
  · split at hcolumn
    · next hadded =>
      cases hcolumn
      simpa using (Bool.and_eq_true_iff.1 hadded).2
    · cases hcolumn
  · cases hcolumn

/-! ## Columns that are declared once -/

/-- What two columns have in common if a database takes them for one: their names, in quotes as
they are and without quotes in any case of `A` to `Z`. -/
def columnKey (isQuoted : Bool) (name : String) : List Char :=
  if isQuoted then name.toList else Text.foldAscii name

/-- The columns of the entity itself. -/
def ownColumns (entity : Entity) : List String :=
  entity.id.column :: entity.attributes.map (·.column) ++ entity.toOne.map (·.column)

/-- No two columns of a table are the same. -/
structure DeclaredOnce (isQuoted : Bool) (model : Model) (entity : Entity) : Prop where
  own : ((ownColumns entity).map (columnKey isQuoted)).Nodup
  /-- No two collections bring the same column. -/
  added : ((ownerColumns model entity).map fun p => columnKey isQuoted p.2).Nodup
  /-- No collection brings the column of the id or of an attribute. -/
  apart : ∀ p ∈ ownerColumns model entity, ∀ column ∈
    entity.id.column :: entity.attributes.map (·.column),
      columnKey isQuoted column ≠ columnKey isQuoted p.2

theorem sameName_of_columnKey {isQuoted : Bool} {a b : String}
    (h : columnKey isQuoted a = columnKey isQuoted b) : Text.sameName a b = true := by
  unfold columnKey at h
  split at h
  · rw [String.toList_inj.1 h]
    exact beq_self_eq_true _
  · exact beq_iff_eq.2 h

/-- A column of an association is not brought by a collection as well. -/
theorem columnKey_association_ne {isQuoted : Bool} {p : Entity × String}
    (h : p ∈ ownerColumns model entity) {association : ToOne} (ha : association ∈ entity.toOne) :
    columnKey isQuoted association.column ≠ columnKey isQuoted p.2 := by
  intro heq
  have hdeclared : entity.declaresForeignKey p.2 = true :=
    List.any_eq_true.2 ⟨association, ha, sameName_of_columnKey heq⟩
  rw [declaresForeignKey_of_mem_ownerColumns h] at hdeclared
  cases hdeclared

theorem tableColumns_eq_append (model : Model) (entity : Entity) :
    tableColumns model entity = ownColumns entity ++ (ownerColumns model entity).map Prod.snd := by
  rw [tableColumns, ownColumns, ownerKeys_eq_map, List.map_map]
  rfl

/-- The columns that a table declares are different exactly if those of the entity are, and those
that collections bring differ among themselves and from the id and the attributes. -/
theorem table_declares_nodup_iff (h : table d model entity = .ok statement) (isQuoted : Bool) :
    (statement.declared.map fun place => columnKey isQuoted place.2).Nodup ↔
      DeclaredOnce isQuoted model entity := by
  rw [(table_columns h).1, tableColumns_eq_append, List.map_map]
  change (List.map (columnKey isQuoted) _).Nodup ↔ _
  rw [List.map_append, List.map_map, List.nodup_append]
  constructor
  · rintro ⟨hown, hadded, hdisjoint⟩
    refine ⟨hown, hadded, fun p hp column hcolumn => ?_⟩
    exact hdisjoint _ (List.mem_map_of_mem (List.mem_append_left _ hcolumn)) _
      (List.mem_map_of_mem hp)
  · rintro ⟨hown, hadded, hapart⟩
    refine ⟨hown, hadded, List.forall_mem_map.2 fun column hcolumn => ?_⟩
    refine List.forall_mem_map.2 fun p hp => ?_
    rcases List.mem_append.1 hcolumn with hcolumn | hcolumn
    · exact hapart p hp column hcolumn
    · obtain ⟨association, ha, rfl⟩ := List.mem_map.1 hcolumn
      exact columnKey_association_ne hp ha

def favouringPerson : Entity :=
  { Entity.ofName "Person" with
      toMany := [⟨"tags", "Tag", .foreignKey "person_id"⟩,
        ⟨"favourites", "Tag", .foreignKey "person_id"⟩] }

/-- Persons have tags in two collections, and a tag refers to its person by one column. -/
def favouritesModel : Model := .ofList [favouringPerson, .ofName "Tag"]

theorem favourites_declared_twice : ∃ statement,
    table (.ofProduct .postgreSql ⟨16, 0, 0⟩) favouritesModel (.ofName "Tag") = .ok statement ∧
      ((ownColumns (.ofName "Tag")).map (columnKey false)).Nodup ∧
      ¬ (statement.declared.map fun place => columnKey false place.2).Nodup := by
  obtain ⟨statement, htable⟩ : ∃ statement, table (.ofProduct .postgreSql ⟨16, 0, 0⟩)
      favouritesModel (.ofName "Tag") = .ok statement := exists_eq_ok (by decide +kernel)
  refine ⟨statement, htable, by decide +kernel, fun hnodup => ?_⟩
  have honce := (table_declares_nodup_iff htable false).1 hnodup
  exact absurd honce.added (by decide +kernel)

/-! ## What each column is declared as -/

/-- Why a row refers to an entity. -/
inductive Role where
  | association (isOptional : Bool)
  /-- An element refers to the owner of its collection. -/
  | collection
  /-- A row of a join table refers to its owner or its element. -/
  | link
  deriving DecidableEq, Repr

namespace Role

def isNullable : Role → Bool
  | .association isOptional => isOptional
  | .collection => true
  | .link => false

/-- The column is declared unique if the id that it refers to is. -/
def keepsUnique : Role → Bool
  | .association _ => false
  | .collection | .link => true

end Role

/-- What a column is for. -/
inductive Source where
  | id (entity : Entity)
  | basic (a : Attribute)
  /-- An entity that is not in the model has no id. -/
  | reference (role : Role) (column : String) (target : Option Entity)
  deriving DecidableEq

namespace Source

/-- The column of a reference has the type of the id that it refers to. -/
def Declares (d : Dialect) : Source → Column → Prop
  | .id entity, column => idColumn d entity = .ok column
  | .basic a, column => Column.ofAttribute d a = .ok column
  | .reference role name target, column => ∃ entity sqlType, target = some entity ∧
      typeName d entity.id = .ok sqlType ∧
      column = .plain name sqlType role.isNullable (role.keepsUnique && entity.id.isUnique)

/-- The column of a reference has the type of the id that it refers to, and many rows may refer to
the same. -/
def AllowsMany (d : Dialect) : Source → Column → Prop
  | .id _, _ | .basic _, _ => True
  | .reference role name target, column => ∃ entity sqlType, target = some entity ∧
      typeName d entity.id = .ok sqlType ∧ column = .plain name sqlType role.isNullable false

/-- The id is not unique, or its flag is not kept. -/
def HasPlainId : Source → Prop
  | .id _ | .basic _ => True
  | .reference role _ target => role.keepsUnique = true → ∀ entity ∈ target,
      entity.id.isUnique = false

theorem Declares.allowsMany_iff {source : Source} {column : Column}
    (h : source.Declares d column) : source.AllowsMany d column ↔ source.HasPlainId := by
  cases source with
  | id => exact Iff.rfl
  | basic => exact Iff.rfl
  | reference role name target =>
    obtain ⟨entity, sqlType, rfl, htype, rfl⟩ := h
    constructor
    · rintro ⟨_, _, ⟨⟩, -, heq⟩ hkeeps _ ⟨⟩
      have hunique := (Column.plain.inj heq).2.2.2
      simpa [hkeeps] using hunique
    · intro hplain
      refine ⟨entity, sqlType, rfl, htype, ?_⟩
      cases hkeeps : role.keepsUnique with
      | false => rfl
      | true => rw [hplain hkeeps entity rfl]; rfl

end Source

/-- The columns of the table of an entity. -/
def entitySources (model : Model) (entity : Entity) : List Source :=
  .id entity :: entity.attributes.map .basic ++
    entity.toOne.map (fun a =>
      .reference (.association a.isOptional) a.column (model.entity? a.target)) ++
    (ownerColumns model entity).map fun p => .reference .collection p.2 (some p.1)

/-- The table of a collection, if it has one. -/
def linkSources (model : Model) (owner : Entity) (collection : ToMany) :
    List (String × List Source) :=
  match collection.storage with
  | .joinTable table ownerColumn elementColumn =>
    [(table, [.reference .link ownerColumn (some owner),
      .reference .link elementColumn (model.entity? collection.element)])]
  | .foreignKey _ => []

/-- The tables of a model with their columns. -/
def tableSources (model : Model) : List (String × List Source) :=
  model.entities.map (fun entity => (entity.table, entitySources model entity)) ++
    model.entities.flatMap fun owner => owner.toMany.flatMap (linkSources model owner)

/-- The table that a statement creates, with its columns. -/
def Statement.created? : Statement → Option (String × List Column)
  | createTable name columns _ => some (name, columns)
  | _ => none

def createdTables (statements : List Statement) : List (String × List Column) :=
  statements.filterMap Statement.created?

/-- A created table has the name and, one by one, the columns of a table of the model. -/
def AreColumns (related : Source → Column → Prop) (sources : String × List Source)
    (created : String × List Column) : Prop :=
  sources.1 = created.1 ∧ List.Forall₂ related sources.2 created.2

theorem createdTables_append (statements statements' : List Statement) :
    createdTables (statements ++ statements') =
      createdTables statements ++ createdTables statements' :=
  List.filterMap_append

theorem declares_reference {role : Role} {a : Attribute} {name : String} {target : Entity}
    {column : Column} (h : Column.ofAttribute d a = .ok column)
    (ha : a = { target.id.withColumn name with
      isNullable := role.isNullable, isUnique := role.keepsUnique && target.id.isUnique }) :
    (Source.reference role name (some target)).Declares d column := by
  subst ha
  obtain ⟨sqlType, htype, h⟩ := bind_eq_ok_iff.1 h
  cases h
  exact ⟨target, sqlType, rfl, htype, rfl⟩

theorem declares_association {association : ToOne} {column : Column}
    (h : associationColumn d model association = .ok column) :
    (Source.reference (.association association.isOptional) association.column
      (model.entity? association.target)).Declares d column := by
  obtain ⟨target, htarget, h⟩ := bind_eq_ok_iff.1 h
  rw [entity?_of_entity htarget]
  exact declares_reference h rfl

theorem table_areColumns (h : table d model entity = .ok statement) :
    ∃ created, statement.created? = some created ∧
      AreColumns (Source.Declares d) (entity.table, entitySources model entity) created := by
  simp only [table, bind_eq_ok_iff] at h
  obtain ⟨id, hid, attributes, ha, associations, hs, owners, ho, h⟩ := h
  cases h
  rw [ownerKeys_eq_map] at ho
  have hown : List.Forall₂ (Source.Declares d) (.id entity :: entity.attributes.map .basic)
      (id :: attributes) := .cons hid (List.forall₂_map_left_iff.2 (forall₂_of_mapM ha))
  have hassociations : List.Forall₂ (Source.Declares d) (entity.toOne.map fun a =>
      .reference (.association a.isOptional) a.column (model.entity? a.target)) associations :=
    List.forall₂_map_left_iff.2 ((forall₂_of_mapM hs).imp fun _ _ => declares_association)
  have howners : List.Forall₂ (Source.Declares d) ((ownerColumns model entity).map fun p =>
      .reference .collection p.2 (some p.1)) owners :=
    List.forall₂_map_left_iff.2 ((List.forall₂_map_left_iff.1 (forall₂_of_mapM ho)).imp
      fun _ _ hcolumn => declares_reference hcolumn rfl)
  exact ⟨_, rfl, rfl, List.rel_append (List.rel_append hown hassociations) howners⟩

theorem joinTable?_areColumns {collection : ToMany} {part : Option Statement}
    (h : joinTable? d model entity collection = .ok part) :
    List.Forall₂ (AreColumns (Source.Declares d)) (linkSources model entity collection)
      (createdTables part.toList) := by
  unfold joinTable? at h
  unfold linkSources
  split at h
  · next hstorage =>
    cases h
    rw [hstorage]
    exact .nil
  · next hstorage =>
    simp only [bind_eq_ok_iff] at h
    obtain ⟨element, helement, ownerKey, ho, elementKey, he, h⟩ := h
    cases h
    rw [hstorage, entity?_of_entity helement]
    refine .cons ⟨rfl, .cons ?_ (.cons ?_ .nil)⟩ .nil
    · exact declares_reference ho rfl
    · exact declares_reference he rfl

theorem joinTables_areColumns (h : joinTables d model entity = .ok statements) :
    List.Forall₂ (AreColumns (Source.Declares d)) (entity.toMany.flatMap (linkSources model entity))
      (createdTables statements) := by
  simp only [joinTables, bind_eq_ok_iff] at h
  obtain ⟨parts, hparts, h⟩ := h
  cases h
  rw [createdTables, List.filterMap_flatMap]
  exact List.rel_flatMap (forall₂_of_mapM hparts) fun _ _ => joinTable?_areColumns

theorem created?_sequenceCreation (h : sequenceCreation d entity = .ok statements) :
    ∀ s ∈ statements, s.created? = none := by
  unfold sequenceCreation createSequence at h
  split at h
  · split at h
    · cases h
      exact List.forall_mem_singleton.2 rfl
    · cases h
  · cases h
    exact nofun

/-- The tables that a schema creates are those of the entities and the collections, and each column
is what its source says. -/
theorem create_areColumns (h : create d model = .ok statements) :
    List.Forall₂ (AreColumns (Source.Declares d)) (tableSources model)
      (createdTables statements) := by
  simp only [create, bind_eq_ok_iff] at h
  obtain ⟨sequences, hsequences, tables, htables, joins, hjoins, keys, hkeys, h⟩ := h
  cases h
  have hs : createdTables sequences.flatten = [] := by
    refine List.filterMap_eq_nil_iff.2 fun s hs => ?_
    obtain ⟨part, hpart, hs⟩ := List.mem_flatten.1 hs
    obtain ⟨entity, -, hpart⟩ := (mem_iff_of_mapM hsequences).1 hpart
    exact created?_sequenceCreation hpart s hs
  have hk : createdTables keys.flatten = [] := by
    refine List.filterMap_eq_nil_iff.2 fun s hs => ?_
    obtain ⟨-, _, -, key, -, rfl⟩ := (mem_keys_iff hkeys).1 hs
    rfl
  have hi : createdTables (model.entities.flatMap indexes) = [] := by
    refine List.filterMap_eq_nil_iff.2 fun s hs => ?_
    obtain ⟨entity, -, hs⟩ := List.mem_flatMap.1 hs
    obtain ⟨association, -, rfl⟩ := List.mem_map.1 hs
    rfl
  have ht : List.Forall₂ (AreColumns (Source.Declares d))
      (model.entities.map fun entity => (entity.table, entitySources model entity))
      (createdTables tables) := by
    rw [← List.filterMap_eq_map]
    refine List.rel_filterMap (fun entity statement htable => ?_) (forall₂_of_mapM htables)
    obtain ⟨created, hcreated, hcolumns⟩ := table_areColumns htable
    rw [hcreated]
    exact .some hcolumns
  have hj : List.Forall₂ (AreColumns (Source.Declares d))
      (model.entities.flatMap fun owner => owner.toMany.flatMap (linkSources model owner))
      (createdTables joins.flatten) := by
    rw [createdTables, List.filterMap_flatten, ← List.flatMap_def]
    exact List.rel_flatMap (forall₂_of_mapM hjoins) fun _ _ => joinTables_areColumns
  rw [createdTables_append, createdTables_append, createdTables_append, createdTables_append, hs,
    hk, hi, List.append_nil, List.append_nil, List.nil_append]
  exact List.rel_append ht hj

/-- What holds of related pairs exactly if it holds of their first parts. -/
theorem forall₂_iff_of_forall₂ {α β : Type} {r s : α → β → Prop} {p : α → Prop} {as : List α}
    {bs : List β} (h : List.Forall₂ r as bs) (hs : ∀ a b, r a b → (s a b ↔ p a)) :
    List.Forall₂ s as bs ↔ ∀ a ∈ as, p a := by
  induction h with
  | nil => simp
  | cons hr _ ih => rw [List.forall₂_cons, List.forall_mem_cons, hs _ _ hr, ih]

/-- In a schema that is created, each column for an association, a collection or a link of a join
table has the type of the id that it refers to. Many rows may refer to the same id, except where
the id is unique by itself and a collection or a join table refers to it. -/
theorem create_allowsMany_iff (h : create d model = .ok statements) :
    List.Forall₂ (AreColumns (Source.Declares d)) (tableSources model)
      (createdTables statements) ∧
    (List.Forall₂ (AreColumns (Source.AllowsMany d)) (tableSources model)
        (createdTables statements) ↔
      ∀ sources ∈ tableSources model, ∀ source ∈ sources.2, source.HasPlainId) := by
  have hdeclares := create_areColumns h
  refine ⟨hdeclares, forall₂_iff_of_forall₂ hdeclares ?_⟩
  rintro sources created ⟨hname, hcolumns⟩
  rw [AreColumns, and_iff_right hname]
  exact forall₂_iff_of_forall₂ hcolumns fun _ _ => Source.Declares.allowsMany_iff

def numberedPerson : Entity :=
  { Entity.ofName "Person" with
      id := { (Attribute.ofType "id" .bigInt).notNull with isUnique := true }
      toMany := [⟨"tags", "Tag", .foreignKey "person_id"⟩] }

/-- Persons have tags, and the id of a person is declared unique. -/
def numberedModel : Model := .ofList [numberedPerson, .ofName "Tag"]

theorem numbered_not_allowsMany : ∃ statements,
    create (.ofProduct .postgreSql ⟨16, 0, 0⟩) numberedModel = .ok statements ∧
      ¬ List.Forall₂ (AreColumns (Source.AllowsMany (.ofProduct .postgreSql ⟨16, 0, 0⟩)))
        (tableSources numberedModel) (createdTables statements) := by
  obtain ⟨statements, hcreate⟩ : ∃ statements,
      create (.ofProduct .postgreSql ⟨16, 0, 0⟩) numberedModel = .ok statements :=
    exists_eq_ok (by decide +kernel)
  refine ⟨statements, hcreate, fun hmany => ?_⟩
  have hplain := (create_allowsMany_iff hcreate).2.1 hmany
  have hperson : numberedPerson.id.isUnique = false :=
    hplain ("tag", entitySources numberedModel (.ofName "Tag")) (by decide +kernel)
      (.reference .collection "person_id" (some numberedPerson)) (by decide +kernel) rfl _ rfl
  exact absurd hperson (by decide)

end SqlDialects.Schema
