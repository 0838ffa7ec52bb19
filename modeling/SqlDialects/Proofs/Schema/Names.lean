import SqlDialects.Proofs.Schema.Reversal

/-!
# The names that a schema gives

Each statement that makes a schema gives a name to what it makes. The names of constraints and
indexes are put together from a table and a column, and two such names can be the same although
their tables are not.
-/

namespace SqlDialects.Schema

open Mapping

/-! ## Names with an underscore in them -/

/-- The second table goes on where the first one ends, and the first column ends like the second:
`(a, b_c)` runs into `(a_b, c)`. -/
def RunsInto (p q : String × String) : Prop :=
  ∃ middle, q.1 = p.1 ++ "_" ++ middle ∧ p.2 = middle ++ "_" ++ q.2

theorem append_cons_eq_iff {α : Type} {x : α} {a b a' b' : List α} :
    a ++ x :: b = a' ++ x :: b' ↔ (a = a' ∧ b = b') ∨
      (∃ m, a' = a ++ x :: m ∧ b = m ++ x :: b') ∨ ∃ m, a = a' ++ x :: m ∧ b' = m ++ x :: b := by
  constructor
  · intro h
    rcases List.append_eq_append_iff.1 h with ⟨m, hm, h⟩ | ⟨m, hm, h⟩
    · cases m with
      | nil => exact .inl ⟨by simpa using hm.symm, (List.cons.inj h).2⟩
      | cons y m =>
        rw [List.cons_append, List.cons.injEq] at h
        obtain ⟨rfl, h⟩ := h
        exact .inr (.inl ⟨m, hm, h⟩)
    · cases m with
      | nil => exact .inl ⟨by simpa using hm, (List.cons.inj h).2.symm⟩
      | cons y m =>
        rw [List.cons_append, List.cons.injEq] at h
        obtain ⟨rfl, h⟩ := h
        exact .inr (.inr ⟨m, hm, h⟩)
  · rintro (⟨rfl, rfl⟩ | ⟨m, rfl, rfl⟩ | ⟨m, rfl, rfl⟩) <;> simp

theorem runsInto_iff {p q : String × String} : RunsInto p q ↔
    ∃ m, q.1.toList = p.1.toList ++ '_' :: m ∧ p.2.toList = m ++ '_' :: q.2.toList := by
  constructor
  · rintro ⟨middle, h, h'⟩
    exact ⟨middle.toList, by simp [h], by simp [h']⟩
  · rintro ⟨m, h, h'⟩
    refine ⟨String.ofList m, ?_, ?_⟩ <;> rw [← String.toList_inj] <;> simp [h, h']

/-- Two names that are put together are the same only if their parts are, or if one runs into the
other. -/
theorem joined_eq_iff {start : String} {p q : String × String} :
    start ++ p.1 ++ "_" ++ p.2 = start ++ q.1 ++ "_" ++ q.2 ↔
      p = q ∨ RunsInto p q ∨ RunsInto q p := by
  have hjoined : start ++ p.1 ++ "_" ++ p.2 = start ++ q.1 ++ "_" ++ q.2 ↔
      p.1.toList ++ '_' :: p.2.toList = q.1.toList ++ '_' :: q.2.toList := by
    rw [← String.toList_inj]
    simp
  rw [hjoined, append_cons_eq_iff, String.toList_inj, String.toList_inj, ← Prod.ext_iff,
    runsInto_iff, runsInto_iff]

example : foreignKeyName "order" "line_item_id" = foreignKeyName "order_line" "item_id" := by decide

/-- Columns of tables whose names do not become the same when they are put together. -/
structure SpelledApart (places : List (String × String)) : Prop where
  nodup : places.Nodup
  apart : ∀ p ∈ places, ∀ q ∈ places, ¬ RunsInto p q

theorem nodup_joined_iff {start : String} {places : List (String × String)} :
    (places.map fun p => start ++ p.1 ++ "_" ++ p.2).Nodup ↔ SpelledApart places := by
  constructor
  · intro h
    have hinj := List.inj_on_of_nodup_map h
    refine ⟨h.of_map, fun p hp q hq hruns => ?_⟩
    obtain rfl := hinj hp hq (joined_eq_iff.2 (.inr (.inl hruns)))
    -- A text is longer than its own end.
    obtain ⟨m, -, hm⟩ := runsInto_iff.1 hruns
    have hlength := congrArg List.length hm
    simp only [List.length_append, List.length_cons] at hlength
    omega
  · intro h
    refine List.Nodup.map_on (fun p hp q hq heq => ?_) h.nodup
    rcases joined_eq_iff.1 heq with heq | hruns | hruns
    · exact heq
    · exact absurd hruns (h.apart p hp q hq)
    · exact absurd hruns (h.apart q hq p hp)

/-! ## What is named -/

/-- A thing of a schema by its sort and its name. -/
inductive Named where
  | sequence (name : String)
  | table (name : String)
  | constraint (name : String)
  | index (name : String)
  deriving DecidableEq, Repr

/-- What a statement makes and gives a name to. -/
def Statement.named? : Statement → Option Named
  | createSequence name _ _ => some (.sequence name)
  | createTable name _ _ => some (.table name)
  | addForeignKey key => some (.constraint (foreignKeyName key.table key.column))
  | createIndex table column => some (.index (indexName table column))
  | dropForeignKey _ _ | dropTable _ | dropSequence _ => none

def named (statements : List Statement) : List Named := statements.filterMap Statement.named?

/-- The columns that have a key for a collection: those of its table, or the one that its elements
have for it, unless an association has that column. -/
def collectionColumns (model : Model) (collection : ToMany) : List (String × String) :=
  match collection.storage, model.entity? collection.element with
  | .joinTable table ownerColumn elementColumn, _ => [(table, ownerColumn), (table, elementColumn)]
  | .foreignKey column, some element =>
    if element.declaresForeignKey column then [] else [(element.table, column)]
  | .foreignKey _, none => []

/-- The columns that refer to another table, as often as a key is added for them. -/
def keyColumns (model : Model) : List (String × String) :=
  model.entities.flatMap fun entity =>
    entity.toOne.map (fun a => (entity.table, a.column)) ++
      entity.toMany.flatMap (collectionColumns model)

variable {d : Dialect} {model : Model} {entity : Entity} {statements : List Statement}

theorem named_append (statements statements' : List Statement) :
    named (statements ++ statements') = named statements ++ named statements' :=
  List.filterMap_append

theorem named_flatten_of_mapM {α : Type} {f : α → Except DialectError (List Statement)}
    {as : List α} {parts : List (List Statement)} {g : α → List Named}
    (h : as.mapM f = .ok parts) (hf : ∀ a part, f a = .ok part → named part = g a) :
    named parts.flatten = as.flatMap g := by
  have hmap : parts.map named = as.map g :=
    map_eq_map_of_mapM h fun a part hp => (hf a part hp).symm
  rw [named, List.filterMap_flatten, List.flatMap_def, ← hmap]
  rfl

theorem entity?_of_entity {name : String} (h : model.entity name = .ok entity) :
    model.entity? name = some entity := by
  unfold Model.entity at h
  split at h
  · next found hfound => rw [hfound, Except.ok.inj h]
  · cases h

/-! ## What the statements of an entity name -/

theorem named_sequenceCreation (h : sequenceCreation d entity = .ok statements) :
    named statements = (sequenceNames entity).map .sequence := by
  unfold sequenceCreation createSequence at h
  unfold sequenceNames
  cases hgeneration : entity.idGeneration with
  | assigned | identity =>
    rw [hgeneration] at h
    cases h
    rfl
  | sequence name start increment =>
    simp only [hgeneration] at h
    split at h
    · cases h
      rfl
    · cases h

theorem named?_table {statement : Statement} (h : table d model entity = .ok statement) :
    statement.named? = some (.table entity.table) := by
  simp only [table, bind_eq_ok_iff] at h
  obtain ⟨_, -, _, -, _, -, _, -, h⟩ := h
  cases h
  rfl

/-- The table of its own that a collection is kept in. -/
def joinTableName? (collection : ToMany) : Option String :=
  match collection.storage with
  | .joinTable name _ _ => some name
  | .foreignKey _ => none

theorem joinTableNames_eq : joinTableNames entity = entity.toMany.filterMap joinTableName? := rfl

theorem named_joinTables (h : joinTables d model entity = .ok statements) :
    named statements = (joinTableNames entity).map .table := by
  simp only [joinTables, bind_eq_ok_iff] at h
  obtain ⟨parts, hparts, h⟩ := h
  cases h
  have hpart (collection : ToMany) (part : Option Statement)
      (h : joinTable? d model entity collection = .ok part) :
      (joinTableName? collection).toList.map .table = named part.toList := by
    unfold joinTable? at h
    split at h
    · next hstorage =>
      cases h
      rw [joinTableName?, hstorage]
      rfl
    · next hstorage =>
      simp only [bind_eq_ok_iff] at h
      obtain ⟨_, -, _, -, _, -, h⟩ := h
      cases h
      rw [joinTableName?, hstorage]
      rfl
  have hmap := map_eq_map_of_mapM hparts hpart
  rw [named, List.flatMap_def, List.filterMap_flatten, List.map_map, joinTableNames_eq,
    List.filterMap_eq_flatMap_toList, List.map_flatMap, List.flatMap_def]
  exact congrArg List.flatten hmap

theorem tableAndColumn_collectionKeys {collection : ToMany} {keys : List ForeignKey}
    (h : collectionKeys model entity collection = .ok keys) :
    keys.map ForeignKey.tableAndColumn = collectionColumns model collection := by
  obtain ⟨element, helement, hstored⟩ := collectionKeys_eq_ok h
  unfold collectionColumns
  rw [entity?_of_entity helement]
  split at hstored
  · next hstorage =>
    rw [hstored, hstorage]
    rfl
  · next hstorage =>
    rw [hstored, hstorage]
    dsimp only
    split <;> rfl

/-- The keys of an entity, with the columns that they are for. -/
theorem foreignKeys_eq_map (h : foreignKeys d model entity = .ok statements) :
    ∃ keys : List ForeignKey, statements = keys.map .addForeignKey ∧
      keys.map ForeignKey.tableAndColumn =
        if d.supports .foreignKeyConstraints then
          entity.toOne.map (fun a => (entity.table, a.column)) ++
            entity.toMany.flatMap (collectionColumns model)
        else [] := by
  unfold foreignKeys at h
  split at h
  · next hd =>
    simp only [bind_eq_ok_iff] at h
    obtain ⟨associations, hassociations, collections, hcollections, h⟩ := h
    cases h
    have ha := map_eq_map_of_mapM hassociations fun _ _ h => (associationKey_eq_ok h).symm
    have hc := map_eq_map_of_mapM hcollections fun _ _ h => (tableAndColumn_collectionKeys h).symm
    refine ⟨_, rfl, ?_⟩
    rw [if_pos hd, List.map_append, ha, List.map_flatten, hc, List.flatMap_def]
  · next hd =>
    cases h
    exact ⟨[], rfl, (if_neg hd).symm⟩

theorem named_foreignKeys (hd : d.supports .foreignKeyConstraints = true)
    (h : foreignKeys d model entity = .ok statements) :
    named statements = (entity.toOne.map (fun a => (entity.table, a.column)) ++
      entity.toMany.flatMap (collectionColumns model)).map
        fun p => .constraint (foreignKeyName p.1 p.2) := by
  obtain ⟨keys, rfl, hkeys⟩ := foreignKeys_eq_map h
  rw [if_pos hd] at hkeys
  rw [named, List.filterMap_map, ← hkeys, List.map_map, ← List.filterMap_eq_map]
  rfl

theorem named_indexes (entity : Entity) : named (indexes entity) =
    (entity.toOne.map fun a => (entity.table, a.column)).map
      fun p => .index (indexName p.1 p.2) := by
  rw [named, indexes, List.filterMap_map, List.map_map, ← List.filterMap_eq_map]
  rfl

/-! ## What a schema names -/

theorem named_create (h : create d model = .ok statements) : named statements =
    (model.entities.flatMap sequenceNames).map .sequence ++ (entityTables model).map .table ++
      (model.entities.flatMap joinTableNames).map .table ++
        (if d.supports .foreignKeyConstraints then keyColumns model else []).map
          (fun p => .constraint (foreignKeyName p.1 p.2)) ++
          (associationColumns model).map fun p => .index (indexName p.1 p.2) := by
  simp only [create, bind_eq_ok_iff] at h
  obtain ⟨sequences, hsequences, tables, htables, joins, hjoins, keys, hkeys, h⟩ := h
  cases h
  have hs := named_flatten_of_mapM hsequences fun _ _ => named_sequenceCreation
  have hj := named_flatten_of_mapM hjoins fun _ _ => named_joinTables
  have ht : named tables = (entityTables model).map .table := by
    have hmap := map_eq_map_of_mapM htables fun _ _ h => (named?_table h).symm
    have hsome := congrArg (List.filterMap id) hmap
    rw [List.filterMap_map, List.filterMap_map] at hsome
    rw [entityTables, List.map_map, ← List.filterMap_eq_map]
    exact hsome
  have hk : named keys.flatten =
      (if d.supports .foreignKeyConstraints then keyColumns model else []).map
        fun p => .constraint (foreignKeyName p.1 p.2) := by
    split
    · next hd =>
      rw [named_flatten_of_mapM hkeys fun _ _ => named_foreignKeys hd, keyColumns,
        List.map_flatMap]
    · next hd =>
      have hnone (entity : Entity) (part : List Statement)
          (h : foreignKeys d model entity = .ok part) : named part = [] := by
        simp only [foreignKeys, hd] at h
        cases h
        rfl
      rw [named_flatten_of_mapM hkeys hnone]
      simp
  have hi : named (model.entities.flatMap indexes) =
      (associationColumns model).map fun p => .index (indexName p.1 p.2) := by
    rw [named, List.filterMap_flatMap, associationColumns, List.map_flatMap]
    exact congrArg (model.entities.flatMap ·) (funext named_indexes)
  rw [named_append, named_append, named_append, named_append, hs, ht, hj, hk, hi,
    List.map_flatMap, List.map_flatMap]

/-- Things of different sorts have different names. -/
theorem nodup_kinds_iff (ss ts ks is : List String) :
    (ss.map Named.sequence ++ ts.map Named.table ++ ks.map Named.constraint ++
      is.map Named.index).Nodup ↔ ss.Nodup ∧ ts.Nodup ∧ ks.Nodup ∧ is.Nodup := by
  have hs : (ss.map Named.sequence).Nodup ↔ ss.Nodup := List.nodup_map_iff fun _ _ => by simp
  have ht : (ts.map Named.table).Nodup ↔ ts.Nodup := List.nodup_map_iff fun _ _ => by simp
  have hk : (ks.map Named.constraint).Nodup ↔ ks.Nodup := List.nodup_map_iff fun _ _ => by simp
  have hi : (is.map Named.index).Nodup ↔ is.Nodup := List.nodup_map_iff fun _ _ => by simp
  simp only [List.nodup_append, hs, ht, hk, hi, List.mem_append, List.mem_map]
  grind

/-- Nothing is mapped twice to the same name. -/
structure NamesOnce (d : Dialect) (model : Model) : Prop where
  sequences : (model.entities.flatMap sequenceNames).Nodup
  tables : (tableNames model).Nodup
  constraints : d.supports .foreignKeyConstraints = true → SpelledApart (keyColumns model)
  indexes : SpelledApart (associationColumns model)

/-- A schema gives each name once exactly if no sequence is of two entities, no table of two
entities or collections, and no two columns with a key, or of associations, are the same or are
spelled alike with their tables. -/
theorem named_create_nodup_iff (h : create d model = .ok statements) :
    (named statements).Nodup ↔ NamesOnce d model := by
  have htables : (tableNames model).Nodup ↔
      (entityTables model ++ model.entities.flatMap joinTableNames).Nodup :=
    List.nodup_append_comm
  have hconstraints : ((if d.supports .foreignKeyConstraints then keyColumns model else []).map
      fun p => foreignKeyName p.1 p.2).Nodup ↔
        (d.supports .foreignKeyConstraints = true → SpelledApart (keyColumns model)) := by
    split
    · next hd =>
      simp only [hd, forall_const]
      exact nodup_joined_iff
    · next hd => simp [hd]
  have hindexes : ((associationColumns model).map fun p => indexName p.1 p.2).Nodup ↔
      SpelledApart (associationColumns model) := nodup_joined_iff
  have hkinds := nodup_kinds_iff (model.entities.flatMap sequenceNames)
    (entityTables model ++ model.entities.flatMap joinTableNames)
    ((if d.supports .foreignKeyConstraints then keyColumns model else []).map
      fun p => foreignKeyName p.1 p.2)
    ((associationColumns model).map fun p => indexName p.1 p.2)
  rw [hconstraints, hindexes, ← htables] at hkinds
  rw [named_create h]
  simp only [List.map_map, Function.comp_def, List.map_append, List.append_assoc] at hkinds ⊢
  rw [hkinds]
  exact ⟨fun ⟨hs, ht, hk, hi⟩ => ⟨hs, ht, hk, hi⟩, fun ⟨hs, ht, hk, hi⟩ => ⟨hs, ht, hk, hi⟩⟩

/-! ## A table of two collections -/

def linkedPerson : Entity :=
  { Entity.ofName "Person" with
    toMany := [⟨"tags", "Tag", .joinTable "person_tag" "person_id" "tag_id"⟩] }

def linkedTag : Entity :=
  { Entity.ofName "Tag" with
    toMany := [⟨"people", "Person", .joinTable "person_tag" "tag_id" "person_id"⟩] }

/-- Persons have tags and tags have people, and one table keeps both. -/
def linkedModel : Model := .ofList [linkedPerson, linkedTag]

/-- The tables of the entities are two, and neither is that of the collections. -/
theorem linkedModel_named_not_nodup :
    (entityTables linkedModel).Nodup ∧
      (∀ name ∈ linkedModel.entities.flatMap joinTableNames, name ∉ entityTables linkedModel) ∧
        ∃ statements, create (.ofProduct .postgreSql ⟨16, 0, 0⟩) linkedModel = .ok statements ∧
          ¬ (named statements).Nodup := by
  refine ⟨by decide, by decide, ?_⟩
  obtain ⟨statements, hcreate⟩ : ∃ statements,
      create (.ofProduct .postgreSql ⟨16, 0, 0⟩) linkedModel = .ok statements :=
    exists_eq_ok (by decide)
  refine ⟨statements, hcreate, fun hnodup => ?_⟩
  have htables := ((named_create_nodup_iff hcreate).1 hnodup).tables
  exact absurd htables (by decide)

end SqlDialects.Schema
