import SqlDialects.Proofs.Schema.Reversal

/-!
# Columns that a schema declares

The statement for a table declares its columns. Primary keys, foreign keys and indexes name columns
that are declared by then, except where a collection spells its element with another case of letters
beyond `A` to `Z` than the element has: the element is found, but its table is not given the column.
-/

namespace SqlDialects.Schema

open Mapping

/-! ## Columns of statements -/

namespace Statement

/-- The columns that a statement declares, each with its table. -/
def declared : Statement → List (String × String)
  | createTable name columns _ => columns.map fun column => (name, column.name)
  | _ => []

/-- The columns that a statement relies on, each with its table. -/
def mentioned : Statement → List (String × String)
  | createTable name _ key => key.map fun column => (name, column)
  | addForeignKey key => [(key.table, key.column), (key.targetTable, key.targetColumn)]
  | createIndex table column => [(table, column)]
  | _ => []

end Statement

def declaredBy (statements : List Statement) : List (String × String) :=
  statements.flatMap Statement.declared

/-- A statement relies on what it declares itself or a statement before it. -/
def DeclaredFirst (statements : List Statement) : Prop :=
  ∀ before statement after, statements = before ++ statement :: after →
    statement.mentioned ⊆ declaredBy (before ++ [statement])

theorem declaredBy_append (statements statements' : List Statement) :
    declaredBy (statements ++ statements') = declaredBy statements ++ declaredBy statements' :=
  List.flatMap_append

theorem declaredBy_singleton (statement : Statement) :
    declaredBy [statement] = statement.declared :=
  List.append_nil _

theorem declaredBy_flatten (parts : List (List Statement)) :
    declaredBy parts.flatten = (parts.map declaredBy).flatten := by
  rw [declaredBy, List.flatMap_def, List.map_flatten, List.flatten_flatten, List.map_map]
  rfl

/-- Statements that stand for themselves come first, and those that declare nothing after them. -/
theorem declaredFirst_append_iff {statements users : List Statement}
    (hs : ∀ s ∈ statements, s.mentioned ⊆ s.declared) (hu : ∀ s ∈ users, s.declared = []) :
    DeclaredFirst (statements ++ users) ↔ ∀ s ∈ users, s.mentioned ⊆ declaredBy statements := by
  have hnone {part : List Statement} (h : part ⊆ users) : declaredBy part = [] :=
    List.flatMap_eq_nil_iff.2 fun s hp => hu s (h hp)
  constructor
  · intro h s hmem
    obtain ⟨before, after, heq⟩ := List.append_of_mem hmem
    have hsub := h (statements ++ before) s after (by rw [heq, List.append_assoc])
    have hpart : before ++ [s] ⊆ users := by simp [heq]
    rwa [List.append_assoc, declaredBy_append, hnone hpart, List.append_nil] at hsub
  · intro h before statement after heq
    rcases List.append_eq_append_iff.1 heq with ⟨part, rfl, hpart⟩ | ⟨part, hpart, hrest⟩
    · have hmem : statement ∈ users := by simp [hpart]
      rw [List.append_assoc, declaredBy_append]
      exact List.subset_append_of_subset_left _ (h statement hmem)
    · cases part with
      | nil =>
        obtain rfl : statements = before := by simpa using hpart
        obtain rfl : statement :: after = users := hrest
        rw [declaredBy_append]
        exact List.subset_append_of_subset_left _ (h statement List.mem_cons_self)
      | cons first rest =>
        obtain ⟨rfl, -⟩ := List.cons.inj hrest
        have hself : statement.mentioned ⊆ statement.declared := hs statement (by simp [hpart])
        rw [declaredBy_append, declaredBy_singleton]
        exact List.subset_append_of_subset_right _ hself

/-! ## Columns of a model -/

/-- The columns of the table of an entity. -/
def tableColumns (model : Model) (entity : Entity) : List String :=
  entity.id.column :: entity.attributes.map (·.column) ++ entity.toOne.map (·.column) ++
    (ownerKeys model entity).map (·.column)

/-- The columns of the table of a collection, if it has one. -/
def linkColumns (collection : ToMany) : List (String × String) :=
  match collection.storage with
  | .joinTable table ownerColumn elementColumn => [(table, ownerColumn), (table, elementColumn)]
  | .foreignKey _ => []

def declaredColumns (model : Model) : List (String × String) :=
  model.entities.flatMap (fun entity => (tableColumns model entity).map (entity.table, ·)) ++
    model.entities.flatMap fun entity => entity.toMany.flatMap linkColumns

variable {d : Dialect} {model : Model} {entity : Entity} {statements : List Statement}

theorem mem_declaredColumns {column : String} (he : entity ∈ model.entities)
    (h : column ∈ tableColumns model entity) : (entity.table, column) ∈ declaredColumns model :=
  List.mem_append_left _ (List.mem_flatMap.2 ⟨entity, he, List.mem_map_of_mem h⟩)

theorem mem_declaredColumns_link {collection : ToMany} {place : String × String}
    (he : entity ∈ model.entities) (hc : collection ∈ entity.toMany)
    (h : place ∈ linkColumns collection) : place ∈ declaredColumns model :=
  List.mem_append_right _ (List.mem_flatMap.2 ⟨entity, he, List.mem_flatMap.2 ⟨collection, hc, h⟩⟩)

/-- The elements of a collection have the column for it, if no association of theirs has it and
their name is spelled like in the collection. -/
theorem mem_tableColumns_owner {owner : Entity} {collection : ToMany} {column : String}
    (ho : owner ∈ model.entities) (hc : collection ∈ owner.toMany)
    (hs : collection.storage = .foreignKey column)
    (hn : Text.sameName collection.element entity.name = true)
    (hd : entity.declaresForeignKey column = false) : column ∈ tableColumns model entity := by
  have hkey : ownerKey? entity owner collection =
      some { owner.id.withColumn column with isNullable := true } := by
    simp [ownerKey?, hs, hn, hd]
  refine List.mem_append_right _ (List.mem_map.2
    ⟨{ owner.id.withColumn column with isNullable := true }, ?_, rfl⟩)
  exact List.mem_flatMap.2 ⟨owner, ho, List.mem_filterMap.2 ⟨collection, hc, hkey⟩⟩

/-! ## What the statements for tables declare -/

theorem name_ofAttribute {a : Attribute} {column : Column}
    (h : Column.ofAttribute d a = .ok column) : a.column = column.name := by
  obtain ⟨_, -, h⟩ := bind_eq_ok_iff.1 h
  cases h
  rfl

theorem name_idColumn {column : Column} (h : idColumn d entity = .ok column) :
    entity.id.column = column.name := by
  unfold idColumn at h
  split at h
  · obtain ⟨_, -, h⟩ := bind_eq_ok_iff.1 h
    split at h <;> cases h
    rfl
  · exact name_ofAttribute h

theorem name_associationColumn {association : ToOne} {column : Column}
    (h : associationColumn d model association = .ok column) :
    association.column = column.name := by
  obtain ⟨_, -, h⟩ := bind_eq_ok_iff.1 h
  exact name_ofAttribute h

theorem table_columns {statement : Statement} (h : table d model entity = .ok statement) :
    statement.declared = (tableColumns model entity).map (entity.table, ·) ∧
      statement.mentioned ⊆ statement.declared := by
  simp only [table, bind_eq_ok_iff] at h
  obtain ⟨id, hid, attributes, ha, associations, hs, owners, ho, h⟩ := h
  cases h
  have hdeclared : Statement.declared (.createTable entity.table
      (id :: attributes ++ associations ++ owners) (primaryKey d entity)) =
        (tableColumns model entity).map (entity.table, ·) := by
    have hnames : (id :: attributes ++ associations ++ owners).map Column.name =
        tableColumns model entity := by
      rw [tableColumns, ← map_eq_map_of_mapM ha fun _ _ => name_ofAttribute,
        ← map_eq_map_of_mapM hs fun _ _ => name_associationColumn,
        ← map_eq_map_of_mapM ho fun _ _ => name_ofAttribute, name_idColumn hid]
      simp
    rw [← hnames, List.map_map]
    rfl
  refine ⟨hdeclared, ?_⟩
  rw [hdeclared]
  have hkey : primaryKey d entity ⊆ tableColumns model entity := by
    unfold primaryKey
    split <;> simp [tableColumns]
  exact List.map_subset _ hkey

theorem joinTable?_columns {collection : ToMany} {part : Option Statement}
    (h : joinTable? d model entity collection = .ok part) :
    linkColumns collection = declaredBy part.toList ∧
      ∀ s ∈ part.toList, s.mentioned ⊆ s.declared := by
  unfold joinTable? at h
  unfold linkColumns
  split at h
  · next hstorage =>
    cases h
    simp [hstorage, declaredBy]
  · next hstorage =>
    simp only [bind_eq_ok_iff] at h
    obtain ⟨_, -, ownerKey, ho, elementKey, he, h⟩ := h
    cases h
    have ho : _ = ownerKey.name := name_ofAttribute ho
    have he : _ = elementKey.name := name_ofAttribute he
    simp [hstorage, declaredBy, Statement.declared, Statement.mentioned, ← ho, ← he,
      Attribute.withColumn, Attribute.notNull]

theorem joinTables_columns (h : joinTables d model entity = .ok statements) :
    entity.toMany.flatMap linkColumns = declaredBy statements ∧
      ∀ s ∈ statements, s.mentioned ⊆ s.declared := by
  simp only [joinTables, bind_eq_ok_iff] at h
  obtain ⟨parts, hparts, h⟩ := h
  cases h
  constructor
  · rw [List.flatMap_def, ← map_eq_map_of_mapM hparts fun _ _ hp => (joinTable?_columns hp).1,
      List.flatMap_def, declaredBy_flatten, List.map_map]
    rfl
  · intro s hs
    obtain ⟨part, hpart, hs⟩ := List.mem_flatMap.1 hs
    obtain ⟨collection, -, hpart⟩ := (mem_iff_of_mapM hparts).1 hpart
    exact (joinTable?_columns hpart).2 s hs

theorem sequenceCreation_columns (h : sequenceCreation d entity = .ok statements) :
    ∀ s ∈ statements, s.declared = [] ∧ s.mentioned = [] := by
  unfold sequenceCreation createSequence at h
  split at h
  · split at h
    · cases h
      exact List.forall_mem_singleton.2 ⟨rfl, rfl⟩
    · cases h
  · cases h
    exact nofun

/-! ## What keys rely on -/

theorem mem_foreignKeys (h : foreignKeys d model entity = .ok statements) {s : Statement} :
    s ∈ statements ↔ d.supports .foreignKeyConstraints = true ∧
      ∃ key, IsKey model entity key ∧ s = .addForeignKey key := by
  unfold foreignKeys at h
  split at h
  · next hd =>
    simp only [bind_eq_ok_iff] at h
    obtain ⟨associations, ha, collections, hc, h⟩ := h
    cases h
    have hcollected (key : ForeignKey) : key ∈ collections.flatten ↔
        ∃ collection ∈ entity.toMany, ∃ keys,
          collectionKeys model entity collection = .ok keys ∧ key ∈ keys := by
      simp only [List.mem_flatten, mem_iff_of_mapM hc]
      grind
    simp only [hd, List.mem_map, List.mem_append, mem_iff_of_mapM ha, hcollected, IsKey]
    grind
  · next hd =>
    cases h
    simp [hd]

/-- The column that a key refers to is the id of an entity. -/
theorem IsKey.target_mem {key : ForeignKey} (he : entity ∈ model.entities)
    (h : IsKey model entity key) : (key.targetTable, key.targetColumn) ∈ declaredColumns model := by
  have hid {table column : String} {target : Entity} (ht : target ∈ model.entities)
      (hkey : key = .toEntity table column target) :
      (key.targetTable, key.targetColumn) ∈ declaredColumns model := by
    rw [hkey]
    exact mem_declaredColumns ht (by simp [tableColumns, ForeignKey.toEntity])
  obtain ⟨association, -, hkey⟩ | ⟨collection, -, keys, hkeys, hkey⟩ := h
  · obtain ⟨target, htarget, hkey⟩ := bind_eq_ok_iff.1 hkey
    exact hid (mem_entities htarget) (Except.ok.inj hkey).symm
  · obtain ⟨element, helement, hstored⟩ := collectionKeys_eq_ok hkeys
    split at hstored
    · rw [hstored, List.mem_pair] at hkey
      rcases hkey with hkey | hkey
      · exact hid he hkey
      · exact hid (mem_entities helement) hkey
    · rw [hstored] at hkey
      split at hkey
      · cases hkey
      · exact hid he (List.mem_singleton.1 hkey)

/-- The elements of each collection that has a column in their table do have that column, also if
the collection spells their name with another case of letters beyond `A` to `Z`. -/
def FindsElements (model : Model) : Prop :=
  ∀ owner ∈ model.entities, ∀ collection ∈ owner.toMany, ∀ column element,
    collection.storage = .foreignKey column → model.entity collection.element = .ok element →
      element.declaresForeignKey column = false →
        Text.sameName collection.element element.name = false →
          (element.table, column) ∈ declaredColumns model

/-- The column of a key is declared, or it is one of a collection that finds its elements under
another spelling. -/
theorem IsKey.column_mem {key : ForeignKey} (he : entity ∈ model.entities)
    (h : IsKey model entity key) (hf : FindsElements model) :
    (key.table, key.column) ∈ declaredColumns model := by
  obtain ⟨association, ha, hkey⟩ | ⟨collection, hc, keys, hkeys, hkey⟩ := h
  · obtain ⟨htable, hcolumn⟩ := Prod.mk.inj (associationKey_eq_ok hkey)
    rw [htable, hcolumn]
    refine mem_declaredColumns he (List.mem_append_left _ (List.mem_append_right _ ?_))
    exact List.mem_map_of_mem ha
  · obtain ⟨element, helement, hstored⟩ := collectionKeys_eq_ok hkeys
    split at hstored
    · next hstorage =>
      refine mem_declaredColumns_link he hc ?_
      rw [hstored, List.mem_pair] at hkey
      rcases hkey with rfl | rfl <;> simp [linkColumns, hstorage, ForeignKey.toEntity]
    · next column hstorage =>
      rw [hstored] at hkey
      split at hkey
      · cases hkey
      · next hdeclared =>
        obtain rfl := List.mem_singleton.1 hkey
        rw [Bool.not_eq_true] at hdeclared
        cases hname : Text.sameName collection.element element.name with
        | true =>
          exact mem_declaredColumns (mem_entities helement)
            (mem_tableColumns_owner he hc hstorage hname hdeclared)
        | false => exact hf entity he collection hc column element hstorage helement hdeclared hname

theorem findsElements_of_keys (h : ∀ entity ∈ model.entities, ∀ key, IsKey model entity key →
    (key.table, key.column) ∈ declaredColumns model) : FindsElements model := by
  intro owner ho collection hc column element hstorage helement hdeclared _
  refine h owner ho (.toEntity element.table column owner) (.inr ⟨collection, hc, _, ?_,
    List.mem_singleton_self _⟩)
  simp [collectionKeys, helement, hstorage, hdeclared, bind, Except.bind, pure, Except.pure]

/-! ## What a schema declares -/

section

variable {sequences joins keys : List (List Statement)} {tables : List Statement} {s : Statement}

theorem sequences_columns (h : model.entities.mapM (sequenceCreation d) = .ok sequences)
    (hs : s ∈ sequences.flatten) : s.declared = [] ∧ s.mentioned = [] := by
  obtain ⟨part, hpart, hs⟩ := List.mem_flatten.1 hs
  obtain ⟨entity, -, hpart⟩ := (mem_iff_of_mapM h).1 hpart
  exact sequenceCreation_columns hpart s hs

theorem mem_keys_iff (h : model.entities.mapM (foreignKeys d model) = .ok keys) :
    s ∈ keys.flatten ↔ d.supports .foreignKeyConstraints = true ∧
      ∃ entity ∈ model.entities, ∃ key, IsKey model entity key ∧ s = .addForeignKey key := by
  rw [List.mem_flatten]
  constructor
  · rintro ⟨part, hpart, hs⟩
    obtain ⟨entity, he, hpart⟩ := (mem_iff_of_mapM h).1 hpart
    exact ((mem_foreignKeys hpart).1 hs).imp_right fun hkey => ⟨entity, he, hkey⟩
  · rintro ⟨hd, entity, he, hkey⟩
    obtain ⟨part, hpart⟩ := exists_ok_of_mapM h he
    exact ⟨part, (mem_iff_of_mapM h).2 ⟨entity, he, hpart⟩, (mem_foreignKeys hpart).2 ⟨hd, hkey⟩⟩

theorem indexes_columns (hs : s ∈ model.entities.flatMap indexes) :
    s.declared = [] ∧ s.mentioned ⊆ declaredColumns model := by
  obtain ⟨entity, he, hs⟩ := List.mem_flatMap.1 hs
  obtain ⟨association, ha, rfl⟩ := List.mem_map.1 hs
  have hcolumn : association.column ∈ tableColumns model entity :=
    List.mem_append_left _ (List.mem_append_right _ (List.mem_map_of_mem ha))
  exact ⟨rfl, List.cons_subset.2 ⟨mem_declaredColumns he hcolumn, List.nil_subset _⟩⟩

theorem declaredBy_tables (hsequences : model.entities.mapM (sequenceCreation d) = .ok sequences)
    (htables : model.entities.mapM (table d model) = .ok tables)
    (hjoins : model.entities.mapM (joinTables d model) = .ok joins) :
    declaredBy (sequences.flatten ++ tables ++ joins.flatten) = declaredColumns model := by
  have hnone : declaredBy sequences.flatten = [] :=
    List.flatMap_eq_nil_iff.2 fun s hs => (sequences_columns hsequences hs).1
  have ht : declaredBy tables = model.entities.flatMap fun entity =>
      (tableColumns model entity).map (entity.table, ·) := by
    rw [declaredBy, List.flatMap_def, List.flatMap_def,
      map_eq_map_of_mapM htables fun _ _ h => (table_columns h).1.symm]
  have hj : declaredBy joins.flatten =
      model.entities.flatMap fun entity => entity.toMany.flatMap linkColumns := by
    rw [declaredBy_flatten, List.flatMap_def,
      map_eq_map_of_mapM hjoins fun _ _ h => (joinTables_columns h).1]
  rw [declaredBy_append, declaredBy_append, hnone, ht, hj, List.nil_append, declaredColumns]

/-- Primary keys are of columns of the same table. -/
theorem mentioned_subset_declared
    (hsequences : model.entities.mapM (sequenceCreation d) = .ok sequences)
    (htables : model.entities.mapM (table d model) = .ok tables)
    (hjoins : model.entities.mapM (joinTables d model) = .ok joins)
    (hs : s ∈ sequences.flatten ++ tables ++ joins.flatten) : s.mentioned ⊆ s.declared := by
  simp only [List.mem_append, List.mem_flatten] at hs
  rcases hs with (⟨part, hpart, hs⟩ | hs) | ⟨part, hpart, hs⟩
  · rw [(sequences_columns hsequences (List.mem_flatten.2 ⟨part, hpart, hs⟩)).2]
    exact List.nil_subset _
  · obtain ⟨entity, -, htable⟩ := (mem_iff_of_mapM htables).1 hs
    exact (table_columns htable).2
  · obtain ⟨entity, -, hpart⟩ := (mem_iff_of_mapM hjoins).1 hpart
    exact (joinTables_columns hpart).2 s hs

end

/-- Where keys are added, a schema declares every column before it relies on it exactly if the
elements of the collections have their columns. Where none are added, it always does. -/
theorem declaredFirst_create_iff (h : create d model = .ok statements) :
    DeclaredFirst statements ↔
      (d.supports .foreignKeyConstraints = true → FindsElements model) := by
  simp only [create, bind_eq_ok_iff] at h
  obtain ⟨sequences, hsequences, tables, htables, joins, hjoins, keys, hkeys, h⟩ := h
  cases h
  have husers (s : Statement) (hs : s ∈ keys.flatten ++ model.entities.flatMap indexes) :
      s.declared = [] := by
    rcases List.mem_append.1 hs with hs | hs
    · obtain ⟨-, _, -, key, -, rfl⟩ := (mem_keys_iff hkeys).1 hs
      rfl
    · exact (indexes_columns hs).1
  rw [List.append_assoc, declaredFirst_append_iff
    (fun _ hs => mentioned_subset_declared hsequences htables hjoins hs) husers,
    declaredBy_tables hsequences htables hjoins]
  constructor
  · intro h hd
    apply findsElements_of_keys
    intro entity he key hk
    have hmem : Statement.addForeignKey key ∈ keys.flatten :=
      (mem_keys_iff hkeys).2 ⟨hd, entity, he, key, hk, rfl⟩
    exact h _ (List.mem_append_left _ hmem) (List.mem_cons_self)
  · intro h s hs
    rcases List.mem_append.1 hs with hs | hs
    · obtain ⟨hd, entity, he, key, hk, rfl⟩ := (mem_keys_iff hkeys).1 hs
      exact List.cons_subset.2 ⟨hk.column_mem he (h hd),
        List.cons_subset.2 ⟨hk.target_mem he, List.nil_subset _⟩⟩
    · exact (indexes_columns hs).2

/-! ## An element under another spelling -/

def schoolPerson : Entity :=
  { Entity.ofName "Person" with toMany := [⟨"schools", "école", .foreignKey "person_id"⟩] }

/-- Persons have schools, whose entity is spelled with a capital that is not one of `A` to `Z`. -/
def schoolModel : Model := .ofList [schoolPerson, .ofName "École"]

theorem not_declaredFirst_schoolModel :
    ∃ statements, create (.ofProduct .postgreSql ⟨16, 0, 0⟩) schoolModel = .ok statements ∧
      ¬ DeclaredFirst statements := by
  obtain ⟨statements, hcreate⟩ : ∃ statements,
      create (.ofProduct .postgreSql ⟨16, 0, 0⟩) schoolModel = .ok statements :=
    exists_eq_ok (by decide +kernel)
  refine ⟨statements, hcreate, fun hfirst => ?_⟩
  have hfinds := (declaredFirst_create_iff hcreate).1 hfirst (by decide)
  have hcolumn : ("école", "person_id") ∈ declaredColumns schoolModel :=
    hfinds schoolPerson (by decide +kernel) _ (List.mem_singleton_self _) "person_id"
      (.ofName "École") rfl (by decide +kernel) (by decide) (by decide)
  exact absurd hcolumn (by decide +kernel)

end SqlDialects.Schema
