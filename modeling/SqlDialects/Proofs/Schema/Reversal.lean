import SqlDialects.Dialect.Resolve
import SqlDialects.Proofs.Literals.Phases
import SqlDialects.Proofs.Schema.Catalog
import SqlDialects.Schema.Script

/-!
# Schemas made and dropped again

A catalog runs the statements for a whole schema and then those that drop it. Which models this
works for depends on the order of their tables, because only the keys of associations are dropped
before the tables are.
-/

namespace SqlDialects.Schema

open Mapping Catalog

/-! ## Names in a model -/

def entityTables (model : Model) : List String := model.entities.map (·.table)

def joinTableNames (entity : Entity) : List String :=
  entity.toMany.filterMap fun collection =>
    match collection.storage with
    | .joinTable name _ _ => some name
    | .foreignKey _ => none

/-- In the order in which they are dropped. -/
def tableNames (model : Model) : List String :=
  model.entities.flatMap joinTableNames ++ entityTables model

def sequenceNames (entity : Entity) : List String :=
  match entity.idGeneration with
  | .sequence name _ _ => [name]
  | _ => []

/-- The table of each association, and its column there. -/
def associationColumns (model : Model) : List (String × String) :=
  model.entities.flatMap fun entity => entity.toOne.map fun a => (entity.table, a.column)

theorem mem_entities {model : Model} {name : String} {entity : Entity}
    (h : model.entity name = .ok entity) : entity ∈ model.entities := by
  unfold Model.entity at h
  split at h
  · next found hfound =>
    rw [← Except.ok.inj h]
    exact List.mem_map_of_mem (SortedMap.mem_of_get? hfound)
  · cases h

theorem mem_joinTableNames {entity : Entity} {name : String} :
    name ∈ joinTableNames entity ↔ ∃ collection ∈ entity.toMany, ∃ ownerColumn elementColumn,
      collection.storage = .joinTable name ownerColumn elementColumn := by
  unfold joinTableNames
  rw [List.mem_filterMap]
  grind

theorem mem_sequenceNames {entity : Entity} {name : String} :
    name ∈ sequenceNames entity ↔
      ∃ start increment, entity.idGeneration = .sequence name start increment := by
  unfold sequenceNames
  grind

/-- The keys of an entity are those of its associations and of its collections. -/
def IsKey (model : Model) (entity : Entity) (key : ForeignKey) : Prop :=
  (∃ association ∈ entity.toOne, associationKey model entity association = .ok key) ∨
    ∃ collection ∈ entity.toMany, ∃ keys,
      collectionKeys model entity collection = .ok keys ∧ key ∈ keys

/-! ## Outcomes of a list -/

section outcomes

variable {ε α β : Type} {f : α → Except ε β} {as : List α} {bs : List β}

theorem bind_eq_ok_iff {x : Except ε α} {b : β} :
    x >>= f = .ok b ↔ ∃ a, x = .ok a ∧ f a = .ok b := by
  cases x <;> simp [bind, Except.bind]

theorem bind_eq_error_iff {x : Except ε α} {e : ε} :
    x >>= f = .error e ↔ x = .error e ∨ ∃ a, x = .ok a ∧ f a = .error e := by
  cases x <;> simp [bind, Except.bind]

theorem exists_eq_ok {x : Except ε α} (h : x.toOption.isSome = true) : ∃ a, x = .ok a := by
  cases x with
  | error => cases h
  | ok a => exact ⟨a, rfl⟩

theorem map_eq_of_mapM (h : as.mapM f = .ok bs) : as.map f = bs.map .ok := by
  induction as generalizing bs with
  | nil =>
    cases h
    rfl
  | cons a rest ih =>
    rw [List.mapM_cons, bind_eq_ok_iff] at h
    obtain ⟨b, hb, h⟩ := h
    obtain ⟨bs', hbs', h⟩ := bind_eq_ok_iff.1 h
    cases h
    rw [List.map_cons, List.map_cons, hb, ih hbs']

theorem forall₂_of_mapM (h : as.mapM f = .ok bs) :
    List.Forall₂ (fun a b => f a = .ok b) as bs := by
  have heq : List.Forall₂ Eq (as.map f) (bs.map .ok) := by
    rw [List.forall₂_eq_eq_eq]
    exact map_eq_of_mapM h
  rwa [List.forall₂_map_left_iff, List.forall₂_map_right_iff] at heq

/-- What is known of each outcome is known of them all. -/
theorem map_eq_map_of_mapM {γ : Type} {g : α → γ} {g' : β → γ} (h : as.mapM f = .ok bs)
    (hf : ∀ a b, f a = .ok b → g a = g' b) : bs.map g' = as.map g := by
  have heq : List.Forall₂ Eq (as.map g) (bs.map g') := by
    rw [List.forall₂_map_left_iff, List.forall₂_map_right_iff]
    exact (forall₂_of_mapM h).imp hf
  rw [List.forall₂_eq_eq_eq] at heq
  exact heq.symm

theorem eq_map_of_mapM {g : α → β} (h : as.mapM f = .ok bs) (hf : ∀ a b, f a = .ok b → g a = b) :
    bs = as.map g := by
  have hmap : bs.map id = as.map g := map_eq_map_of_mapM h hf
  rwa [List.map_id] at hmap

theorem mem_iff_of_mapM (h : as.mapM f = .ok bs) {b : β} : b ∈ bs ↔ ∃ a ∈ as, f a = .ok b := by
  rw [← List.mem_map, map_eq_of_mapM h, List.mem_map_of_injective fun _ _ => Except.ok.inj]

theorem exists_ok_of_mapM (h : as.mapM f = .ok bs) {a : α} (ha : a ∈ as) : ∃ b, f a = .ok b := by
  have hmem : f a ∈ bs.map .ok := map_eq_of_mapM h ▸ List.mem_map_of_mem ha
  obtain ⟨b, -, hb⟩ := List.mem_map.1 hmem
  exact ⟨b, hb.symm⟩

theorem exists_error_of_mapM {e : ε} (h : as.mapM f = .error e) : ∃ a ∈ as, f a = .error e := by
  induction as with
  | nil => cases h
  | cons a rest ih =>
    rw [List.mapM_cons, bind_eq_error_iff] at h
    rcases h with h | ⟨b, -, h⟩
    · exact ⟨a, List.mem_cons_self, h⟩
    · rcases bind_eq_error_iff.1 h with h | ⟨bs, -, h⟩
      · obtain ⟨a', ha', herror⟩ := ih h
        exact ⟨a', List.mem_cons_of_mem _ ha', herror⟩
      · cases h

end outcomes

variable {d : Dialect} {model : Model} {entity : Entity} {statements : List Statement}

/-- What the statements for each thing of a list make, together. -/
theorem makes_of_mapM {α β : Type} {f : α → Except DialectError β} {g : β → List Statement}
    {as : List α} {bs : List β} {made : α → Set Thing} (h : as.mapM f = .ok bs)
    (hf : ∀ a b, f a = .ok b → Makes (g b) (made a)) :
    Makes (bs.flatMap g) {thing | ∃ a ∈ as, thing ∈ made a} := by
  rw [List.flatMap_def]
  exact .flatten (List.forall₂_map_right_iff.2 ((forall₂_of_mapM h).imp hf))

/-! ## What is made for an entity -/

theorem sequenceCreation_makes (h : sequenceCreation d entity = .ok statements) :
    Makes statements {thing | ∃ name ∈ sequenceNames entity, thing = .sequence name} := by
  unfold sequenceCreation createSequence at h
  split at h
  · next name start increment hgeneration =>
    split at h
    · cases h
      exact (Makes.createSequence _ _ _).congr fun thing => by simp [sequenceNames, hgeneration]
    · cases h
  · next hgeneration =>
    cases h
    refine Makes.nil.congr fun thing => ?_
    simp only [Set.mem_empty_iff_false, Set.mem_ofPred_eq, mem_sequenceNames, false_iff]
    rintro ⟨name, ⟨start, increment, hsequence⟩, -⟩
    exact hgeneration _ _ _ hsequence

theorem table_makes {statement : Statement} (h : table d model entity = .ok statement) :
    Makes [statement] {.table entity.table} := by
  simp only [table, bind_eq_ok_iff] at h
  obtain ⟨_, -, _, -, _, -, _, -, h⟩ := h
  cases h
  exact .createTable _ _ _

theorem joinTable?_makes {collection : ToMany} {statement? : Option Statement}
    (h : joinTable? d model entity collection = .ok statement?) :
    Makes statement?.toList {thing | ∃ name ownerColumn elementColumn,
      collection.storage = .joinTable name ownerColumn elementColumn ∧ thing = .table name} := by
  unfold joinTable? at h
  split at h
  · next hstorage =>
    cases h
    exact Makes.nil.congr fun thing => by simp [hstorage]
  · next name _ _ hstorage =>
    simp only [bind_eq_ok_iff] at h
    obtain ⟨_, -, _, -, _, -, h⟩ := h
    cases h
    exact (Makes.createTable _ _ _).congr fun thing => by simp [hstorage]

theorem joinTables_makes (h : joinTables d model entity = .ok statements) :
    Makes statements {thing | ∃ name ∈ joinTableNames entity, thing = .table name} := by
  simp only [joinTables, bind_eq_ok_iff] at h
  obtain ⟨parts, hparts, h⟩ := h
  cases h
  refine (makes_of_mapM hparts fun _ _ => joinTable?_makes).congr fun thing => ?_
  simp only [Set.mem_ofPred_eq, mem_joinTableNames]
  grind

theorem foreignKeys_makes (hd : d.supports .foreignKeyConstraints = true)
    (h : foreignKeys d model entity = .ok statements) :
    Makes statements {thing | ∃ key, IsKey model entity key ∧ thing = .key key} := by
  simp only [foreignKeys, hd, if_true, bind_eq_ok_iff] at h
  obtain ⟨associations, hassociations, collections, hcollections, h⟩ := h
  cases h
  refine (Makes.map Makes.addForeignKey _).congr fun thing => ?_
  have hcollected (key : ForeignKey) : key ∈ collections.flatten ↔
      ∃ collection ∈ entity.toMany, ∃ keys,
        collectionKeys model entity collection = .ok keys ∧ key ∈ keys := by
    simp only [List.mem_flatten, mem_iff_of_mapM hcollections]
    grind
  simp only [Set.mem_ofPred_eq, Set.mem_singleton_iff, List.mem_append,
    mem_iff_of_mapM hassociations, hcollected, IsKey]

theorem indexes_makes (entity : Entity) : Makes (indexes entity) ∅ :=
  (Makes.map (fun a : ToOne => .createIndex entity.table a.column) entity.toOne).congr (by simp)

/-! ## What is made for a model -/

/-- The things of a schema. -/
def IsMade (model : Model) : Thing → Prop
  | .table name => name ∈ tableNames model
  | .key key => ∃ entity ∈ model.entities, IsKey model entity key
  | .sequence name => name ∈ model.entities.flatMap sequenceNames

theorem create_makes (hd : d.supports .foreignKeyConstraints = true)
    (h : create d model = .ok statements) : Makes statements {thing | IsMade model thing} := by
  simp only [create, bind_eq_ok_iff] at h
  obtain ⟨sequences, hsequences, tables, htables, joins, hjoins, keys, hkeys, h⟩ := h
  cases h
  have hmade := ((((makes_of_mapM hsequences fun _ _ => sequenceCreation_makes).append
    (makes_of_mapM htables fun _ _ => table_makes)).append
    (makes_of_mapM hjoins fun _ _ => joinTables_makes)).append
    (makes_of_mapM hkeys fun _ _ => foreignKeys_makes hd)).append
    (Makes.flatMap indexes_makes model.entities)
  simp only [List.flatMap_id', List.flatMap_singleton'] at hmade
  refine hmade.congr fun thing => ?_
  cases thing with
  | table name =>
    simp [IsMade, tableNames, entityTables]
    grind
  | key => simp [IsMade]
  | sequence => simp [IsMade]

/-! ## What is dropped -/

theorem sequenceRemoval_eq (h : sequenceRemoval d entity = .ok statements) :
    (sequenceNames entity).map .dropSequence = statements := by
  unfold sequenceRemoval dropSequence at h
  unfold sequenceNames
  cases hgeneration : entity.idGeneration with
  | assigned | identity =>
    rw [hgeneration] at h
    exact Except.ok.inj h
  | sequence name start increment =>
    simp only [hgeneration] at h
    split at h
    · exact Except.ok.inj h
    · cases h

theorem joinTableDrops_eq :
    joinTableDrops = fun entity => (joinTableNames entity).map .dropTable := by
  funext entity
  unfold joinTableDrops joinTableNames
  rw [List.map_filterMap]
  refine List.filterMap_congr fun collection _ => ?_
  cases collection.storage <;> rfl

/-- Keys of associations are dropped first where keys outlive their tables. -/
theorem drop_eq_append (h : drop d model = .ok statements) :
    statements = (if d.rules.dropConstraints && d.supports .foreignKeyConstraints then
        associationColumns model else []).map (fun p => .dropForeignKey p.1 p.2) ++
      (tableNames model).map .dropTable ++
      (model.entities.flatMap sequenceNames).map .dropSequence := by
  simp only [drop, bind_eq_ok_iff] at h
  obtain ⟨sequences, hsequences, h⟩ := h
  have hremoved : sequences.flatten =
      (model.entities.flatMap sequenceNames).map .dropSequence := by
    rw [eq_map_of_mapM hsequences fun _ _ => sequenceRemoval_eq, List.map_flatMap, List.flatMap_def]
  cases h
  have hkeys : model.entities.flatMap (foreignKeyDrops d) =
      (if d.rules.dropConstraints && d.supports .foreignKeyConstraints then
        associationColumns model else []).map fun p => .dropForeignKey p.1 p.2 := by
    unfold foreignKeyDrops associationColumns
    split
    · simp only [List.map_flatMap, List.map_map, Function.comp_def]
    · simp
  simp only [hkeys, hremoved, joinTableDrops_eq, tableNames, entityTables, List.map_append,
    List.map_flatMap, List.map_map, Function.comp_def, List.append_assoc]

theorem drop_eq (hd : d.supports .foreignKeyConstraints = true)
    (hr : d.rules.dropConstraints = true) (h : drop d model = .ok statements) :
    statements = (associationColumns model).map (fun p => .dropForeignKey p.1 p.2) ++
      (tableNames model).map .dropTable ++
      (model.entities.flatMap sequenceNames).map .dropSequence := by
  rw [drop_eq_append h, hd, hr]
  rfl

/-! ## Reversal -/

/-- Nothing is named twice. The key of a collection without a table is not dropped unless an
association declares it, so the table of the elements has to go before that of the owner. -/
structure IsReversible (model : Model) : Prop where
  tables : (tableNames model).Nodup
  columns : (associationColumns model).Nodup
  sequences : (model.entities.flatMap sequenceNames).Nodup
  collections {owner element : Entity} {collection : ToMany} {column : String} :
    owner ∈ model.entities → collection ∈ owner.toMany →
      collection.storage = .foreignKey column → model.entity collection.element = .ok element →
        element.declaresForeignKey column = false →
          (entityTables model).idxOf element.table ≤ (entityTables model).idxOf owner.table

theorem table_mem_entityTables (h : entity ∈ model.entities) : entity.table ∈ entityTables model :=
  List.mem_map_of_mem h

theorem entityTables_subset : entityTables model ⊆ tableNames model :=
  List.subset_append_right _ _

theorem associationKey_eq_ok {association : ToOne} {key : ForeignKey}
    (h : associationKey model entity association = .ok key) :
    key.tableAndColumn = (entity.table, association.column) := by
  obtain ⟨target, -, h⟩ := bind_eq_ok_iff.1 h
  cases h
  rfl

theorem collectionKeys_eq_ok {collection : ToMany} {keys : List ForeignKey}
    (h : collectionKeys model entity collection = .ok keys) :
    ∃ element, model.entity collection.element = .ok element ∧
      match collection.storage with
      | .joinTable table ownerColumn elementColumn =>
        keys = [.toEntity table ownerColumn entity, .toEntity table elementColumn element]
      | .foreignKey column =>
        keys = if element.declaresForeignKey column then []
          else [.toEntity element.table column entity] := by
  obtain ⟨element, helement, h⟩ := bind_eq_ok_iff.1 h
  refine ⟨element, helement, ?_⟩
  cases hstorage : collection.storage with
  | joinTable =>
    rw [hstorage] at h
    exact (Except.ok.inj h).symm
  | foreignKey column =>
    simp only [hstorage] at h ⊢
    split at h
    · next hdeclared => rw [if_pos hdeclared, Except.ok.inj h]
    · next hdeclared => rw [if_neg hdeclared, Except.ok.inj h]

/-- What a key is for: an association, a table of a collection, or a collection without one. -/
theorem IsKey.cases {key : ForeignKey} (he : entity ∈ model.entities)
    (h : IsKey model entity key) :
    key.tableAndColumn ∈ associationColumns model ∨
      (key.table ∈ model.entities.flatMap joinTableNames ∧ key.targetTable ∈ entityTables model) ∨
      ∃ collection ∈ entity.toMany, ∃ column element, collection.storage = .foreignKey column ∧
        model.entity collection.element = .ok element ∧
          element.declaresForeignKey column = false ∧
            key = .toEntity element.table column entity := by
  obtain ⟨association, hassociation, hkey⟩ | ⟨collection, hcollection, keys, hkeys, hkey⟩ := h
  · left
    rw [associationKey_eq_ok hkey]
    exact List.mem_flatMap.2 ⟨entity, he, List.mem_map_of_mem hassociation⟩
  obtain ⟨element, helement, hstored⟩ := collectionKeys_eq_ok hkeys
  split at hstored
  · next name ownerColumn elementColumn hstorage =>
    right; left
    have hname : name ∈ model.entities.flatMap joinTableNames :=
      List.mem_flatMap.2 ⟨entity, he, mem_joinTableNames.2 ⟨_, hcollection, _, _, hstorage⟩⟩
    rw [hstored, List.mem_pair] at hkey
    obtain rfl | rfl := hkey
    · exact ⟨hname, table_mem_entityTables he⟩
    · exact ⟨hname, table_mem_entityTables (mem_entities helement)⟩
  · next column hstorage =>
    right; right
    refine ⟨collection, hcollection, column, element, hstorage, helement, ?_⟩
    rw [hstored] at hkey
    split at hkey
    · cases hkey
    · next hdeclared => exact ⟨by simpa using hdeclared, by simpa using hkey⟩

theorem IsKey.table_mem {key : ForeignKey} (he : entity ∈ model.entities)
    (h : IsKey model entity key) : key.table ∈ tableNames model := by
  obtain hcolumn | ⟨hname, -⟩ | ⟨_, _, _, element, -, helement, -, rfl⟩ := h.cases he
  · obtain ⟨entity', he', hcolumn⟩ := List.mem_flatMap.1 hcolumn
    obtain ⟨association, -, hassociation⟩ := List.mem_map.1 hcolumn
    rw [← (Prod.mk.inj hassociation).1]
    exact entityTables_subset (table_mem_entityTables he')
  · exact List.mem_append_left _ hname
  · exact entityTables_subset (table_mem_entityTables (mem_entities helement))

/-- A key that outlives those of the associations. -/
structure IsLeft (model : Model) (key : ForeignKey) : Prop where
  isMade : IsMade model (.key key)
  notMem : key.tableAndColumn ∉ associationColumns model

/-- A table of an entity is not the table of a collection. -/
theorem idxOf_tableNames (h : (tableNames model).Nodup) (he : entity ∈ model.entities) :
    (tableNames model).idxOf entity.table =
      (model.entities.flatMap joinTableNames).length + (entityTables model).idxOf entity.table :=
  List.idxOf_append_of_notMem fun hjoin =>
    List.disjoint_of_nodup_append h hjoin (table_mem_entityTables he)

/-- No association has the column, because no association of the entity has. -/
theorem notMem_associationColumns (h : (tableNames model).Nodup) (he : entity ∈ model.entities)
    {column : String} (hdeclared : entity.declaresForeignKey column = false) :
    (entity.table, column) ∉ associationColumns model := by
  intro hcolumn
  obtain ⟨entity', he', hcolumn⟩ := List.mem_flatMap.1 hcolumn
  obtain ⟨association, hassociation, heq⟩ := List.mem_map.1 hcolumn
  obtain ⟨htable, rfl⟩ := Prod.mk.inj heq
  obtain rfl : entity' = entity :=
    List.inj_on_of_nodup_map h.of_append_right he' he htable
  have hsame := List.any_eq_false.1 hdeclared association hassociation
  exact hsame (by simp [Text.sameName])

theorem isFreed_of_isReversible (h : IsReversible model) {key : ForeignKey}
    (hkey : IsLeft model key) : IsFreed (tableNames model) key := by
  obtain ⟨⟨entity, he, hkey⟩, hleft⟩ := hkey
  intro _
  obtain hcolumn | ⟨htable, htarget⟩ |
    ⟨collection, hcollection, column, element, hstorage, helement, hdeclared, rfl⟩ := hkey.cases he
  · exact absurd hcolumn hleft
  · obtain ⟨target, he', htarget⟩ := List.mem_map.1 htarget
    rw [← htarget, idxOf_tableNames h.tables he', tableNames, List.idxOf_append_of_mem htable]
    exact (List.idxOf_lt_length_of_mem htable).le.trans (Nat.le_add_right _ _)
  · rw [ForeignKey.toEntity, idxOf_tableNames h.tables (mem_entities helement),
      idxOf_tableNames h.tables he]
    exact Nat.add_le_add_left (h.collections he hcollection hstorage helement hdeclared) _

theorem isReversible_of_isFreed (ht : (tableNames model).Nodup)
    (hc : (associationColumns model).Nodup) (hs : (model.entities.flatMap sequenceNames).Nodup)
    (hfreed : ∀ key, IsLeft model key → IsFreed (tableNames model) key) : IsReversible model := by
  refine ⟨ht, hc, hs, ?_⟩
  intro owner element collection column ho hcollection hstorage helement hdeclared
  have hkey : IsLeft model (.toEntity element.table column owner) := by
    refine ⟨⟨owner, ho, .inr ⟨collection, hcollection, _, ?_, List.mem_singleton_self _⟩⟩, ?_⟩
    · simp [collectionKeys, helement, hstorage, hdeclared, bind, Except.bind, pure, Except.pure]
    · exact notMem_associationColumns ht (mem_entities helement) hdeclared
  have hle := hfreed _ hkey (entityTables_subset (table_mem_entityTables ho))
  rw [ForeignKey.toEntity, idxOf_tableNames ht (mem_entities helement), idxOf_tableNames ht ho]
    at hle
  exact Nat.le_of_add_le_add_left hle

/-- In a catalog of what the schema has, the drops do not stop if the model is reversible, and
nothing stays behind. -/
theorem run_drop_eq_some_iff {c c' : Catalog} (hd : d.supports .foreignKeyConstraints = true)
    (hr : d.rules.dropConstraints = true) (h : drop d model = .ok statements)
    (hhas : ∀ thing, c.Has thing ↔ IsMade model thing)
    (hcolumns : associationColumns model ⊆ c.keys.map ForeignKey.tableAndColumn) :
    c.run statements = some c' ↔ IsReversible model ∧ c' = {} := by
  have htables {name : String} : name ∈ c.tables ↔ name ∈ tableNames model := hhas (.table name)
  have hsequences {name : String} :
      name ∈ c.sequences ↔ name ∈ model.entities.flatMap sequenceNames := hhas (.sequence name)
  -- The tables are dropped from here, once the keys of associations are gone.
  let left : Catalog :=
    { c with keys := c.keys.filter fun key => key.tableAndColumn ∉ associationColumns model }
  have hleft (key : ForeignKey) : key ∈ left.keys ↔ IsLeft model key := by
    simp only [left, List.mem_filter, decide_eq_true_eq]
    exact ⟨fun ⟨hkey, hn⟩ => ⟨(hhas (.key key)).1 hkey, hn⟩,
      fun ⟨hkey, hn⟩ => ⟨(hhas (.key key)).2 hkey, hn⟩⟩
  have htable (key : ForeignKey) (hkey : key ∈ left.keys) : key.table ∈ tableNames model := by
    obtain ⟨entity, he, hkey⟩ := ((hleft key).1 hkey).isMade
    exact hkey.table_mem he
  have hclosed : left.IsClosed := fun key hkey => htables.2 (htable key hkey)
  have hempty : { left.without (tableNames model) with
      sequences := c.sequences.filter fun name => name ∉ model.entities.flatMap sequenceNames } =
        ({} : Catalog) := by
    rw [without_eq_of_subset (c := left) (fun _ => htables.1) htable,
      List.filter_eq_nil_iff.2 fun name hname => by simpa using hsequences.1 hname]
  simp only [drop_eq hd hr h, run_append_eq_some_iff, run_dropForeignKeys_eq_some_iff,
    run_dropSequences_eq_some_iff]
  constructor
  · rintro ⟨_, ⟨_, ⟨⟨hc, -⟩, rfl⟩, hrun⟩, ⟨hs, -⟩, rfl⟩
    obtain ⟨⟨ht, -, hfreed⟩, rfl⟩ := hclosed.run_dropTables_eq_some_iff.1 hrun
    exact ⟨isReversible_of_isFreed ht hc hs fun key hkey => hfreed key ((hleft key).2 hkey), hempty⟩
  · rintro ⟨hmodel, rfl⟩
    have hrun := hclosed.run_dropTables_eq_some_iff.2 ⟨⟨hmodel.tables, fun _ => htables.2,
      fun key hkey => isFreed_of_isReversible hmodel ((hleft key).1 hkey)⟩, rfl⟩
    exact ⟨_, ⟨left, ⟨⟨hmodel.columns, hcolumns⟩, rfl⟩, hrun⟩,
      ⟨hmodel.sequences, fun _ => hsequences.2⟩, hempty.symm⟩

/-- The target of an association is an entity of the model if the schema can be made. -/
theorem exists_associationKey (hd : d.supports .foreignKeyConstraints = true)
    (h : create d model = .ok statements) (he : entity ∈ model.entities) {association : ToOne}
    (ha : association ∈ entity.toOne) :
    ∃ key, associationKey model entity association = .ok key := by
  simp only [create, bind_eq_ok_iff] at h
  obtain ⟨_, -, _, -, _, -, _, hkeys, -⟩ := h
  obtain ⟨_, hkeys⟩ := exists_ok_of_mapM hkeys he
  simp only [foreignKeys, hd, if_true, bind_eq_ok_iff] at hkeys
  obtain ⟨_, hassociations, -⟩ := hkeys
  exact exists_ok_of_mapM hassociations ha

/-- Dropping undoes making, and leaves nothing, for the reversible models and no others. -/
theorem run_create_drop_eq_some_iff {created dropped : List Statement} {c : Catalog}
    (hd : d.supports .foreignKeyConstraints = true) (hr : d.rules.dropConstraints = true)
    (hcreate : create d model = .ok created) (hdrop : drop d model = .ok dropped) :
    run {} (created ++ dropped) = some c ↔ IsReversible model ∧ c = {} := by
  obtain ⟨c', hrun, hhas⟩ := create_makes hd hcreate {}
  have hhas' (thing : Thing) : c'.Has thing ↔ IsMade model thing := by
    rw [hhas]
    cases thing <;> simp [Has]
  have hcolumns : associationColumns model ⊆ c'.keys.map ForeignKey.tableAndColumn := by
    intro p hp
    obtain ⟨entity, he, hp⟩ := List.mem_flatMap.1 hp
    obtain ⟨association, ha, rfl⟩ := List.mem_map.1 hp
    obtain ⟨key, hkey⟩ := exists_associationKey hd hcreate he ha
    rw [← associationKey_eq_ok hkey]
    exact List.mem_map_of_mem ((hhas' (.key key)).2 ⟨entity, he, .inl ⟨association, ha, hkey⟩⟩)
  rw [run_append, hrun, Option.bind_some]
  exact run_drop_eq_some_iff hd hr hdrop hhas' hcolumns

/-! ## A collection whose key is not dropped -/

def taggedPerson : Entity :=
  { Entity.ofName "Person" with
    attributes := [.ofType "name" .varchar]
    toMany := [⟨"tags", "Tag", .foreignKey "person_id"⟩] }

def taggedModel : Model := .ofList [taggedPerson, .ofName "Tag"]

/-- The table of the tags comes behind that of the persons, whom the tags refer to. -/
theorem not_isReversible_taggedModel : ¬ IsReversible taggedModel := by
  intro h
  have hle := @IsReversible.collections _ h taggedPerson (.ofName "Tag") ⟨"tags", "Tag", _⟩
    "person_id" (by decide) (by decide) rfl rfl (by decide)
  exact absurd hle (by decide)

theorem taggedModel_run_create_drop : ∃ created dropped,
    create (.ofProduct .postgreSql ⟨16, 0, 0⟩) taggedModel = .ok created ∧
      drop (.ofProduct .postgreSql ⟨16, 0, 0⟩) taggedModel = .ok dropped ∧
        run {} (created ++ dropped) = none := by
  obtain ⟨created, hcreate⟩ : ∃ created,
      create (.ofProduct .postgreSql ⟨16, 0, 0⟩) taggedModel = .ok created :=
    exists_eq_ok (by decide)
  obtain ⟨dropped, hdrop⟩ : ∃ dropped,
      drop (.ofProduct .postgreSql ⟨16, 0, 0⟩) taggedModel = .ok dropped :=
    exists_eq_ok (by decide)
  refine ⟨created, dropped, hcreate, hdrop, ?_⟩
  refine Option.eq_none_iff_forall_not_mem.2 fun c hc => not_isReversible_taggedModel ?_
  exact ((run_create_drop_eq_some_iff (by decide) (by decide) hcreate hdrop).1 hc).1

end SqlDialects.Schema
