import SqlDialects.Proofs.Counting.Values

/-!
# Databases of a mapping

Where ids and the pairs of a link table are unique and not null, the members of a collection differ
from one another.
-/

namespace SqlDialects

namespace Mapping

theorem Entity.mem_toMany_of_property {entity : Entity} {name : String} {collection : ToMany}
    (h : entity.property name = .ok (.toMany collection)) : collection ∈ entity.toMany := by
  unfold property at h
  split at h
  case h_2 => cases h
  case h_1 p hp =>
    obtain rfl := Except.ok.inj h
    unfold property? at hp
    split at hp
    · cases hp
    split at hp
    · cases hp
    split at hp
    · cases hp
    obtain ⟨found, hfound, he⟩ := Option.map_eq_some_iff.1 hp
    cases he
    exact List.mem_of_find?_eq_some hfound

end Mapping

namespace Sql

open Entity (memberTable)

variable {σ : Type}

/-- The values in these columns are not null, and no two records have the same. -/
structure Table.HasKey (table : Table σ) (columns : List String) : Prop where
  nodup : (table.records.map fun record => columns.map record.cell).Nodup
  isSome : ∀ record ∈ table.records, ∀ column ∈ columns, (record.cell column).isSome

/-- The database holds what the mapping says: ids identify entities, and a link table has no pair of
an owner and an element twice. -/
structure Database.Fits (db : Database σ) (model : Mapping.Model) : Prop where
  ids : ∀ entity, model.Has entity → (db.table entity.table).HasKey [entity.id.column]
  links : ∀ entity, model.Has entity → ∀ collection ∈ entity.toMany,
    ∀ table ownerColumn elementColumn,
      collection.storage = .joinTable table ownerColumn elementColumn →
        (db.table table).HasKey [ownerColumn, elementColumn]

instance [DecidableEq σ] (table : Table σ) (columns : List String) :
    Decidable (table.HasKey columns) :=
  decidable_of_iff ((table.records.map fun record => columns.map record.cell).Nodup ∧
    ∀ record ∈ table.records, ∀ column ∈ columns, (record.cell column).isSome)
    ⟨fun h => ⟨h.1, h.2⟩, fun h => ⟨h.nodup, h.isSome⟩⟩

/-- The pair of columns of a link table. -/
def linkKey? (collection : Mapping.ToMany) : Option (String × List String) :=
  match collection.storage with
  | .joinTable table ownerColumn elementColumn => some (table, [ownerColumn, elementColumn])
  | .foreignKey _ => none

theorem Database.fits_of_entities {db : Database σ} {model : Mapping.Model}
    (h : ∀ entity ∈ model.entities, (db.table entity.table).HasKey [entity.id.column] ∧
      ∀ key ∈ entity.toMany.filterMap linkKey?, (db.table key.1).HasKey key.2) : db.Fits model where
  ids entity he := (h entity (Mapping.Model.mem_entities_of_has he)).1
  links entity he collection hc table ownerColumn elementColumn hs := by
    refine (h entity (Mapping.Model.mem_entities_of_has he)).2 (table, [ownerColumn, elementColumn])
      (List.mem_filterMap.2 ⟨collection, hc, ?_⟩)
    rw [linkKey?, hs]

variable [DecidableEq σ]

theorem Table.cell_of_mem_matching {table : Table σ} {column : String} {value : Option σ}
    {record : Record σ} (h : record ∈ table.matching column value) :
    record ∈ table.records ∧ record.cell column = value := by
  obtain ⟨hmem, he⟩ := List.mem_filter.1 h
  refine ⟨hmem, ?_⟩
  cases hc : record.cell column <;> cases value <;> simp_all [equalCells]

/-- Of the records with one value in a column, a key tells which is which by the rest of it. -/
theorem Table.HasKey.nodup_matching {table : Table σ} {columns : List String}
    {column other : String} (h : table.HasKey columns) (hc : columns ⊆ [column, other])
    (value : Option σ) :
    ((table.matching column value).map (·.cell other)).Nodup := by
  refine (List.Nodup.filter _ (List.Nodup.of_map _ h.nodup)).map_on fun r hr r' hr' he => ?_
  obtain ⟨hr, hv⟩ := cell_of_mem_matching hr
  obtain ⟨hr', hv'⟩ := cell_of_mem_matching hr'
  refine List.inj_on_of_nodup_map h.nodup hr hr' (List.map_congr_left fun c hmem => ?_)
  rcases List.mem_cons.1 (hc hmem) with rfl | hmem
  · rw [hv, hv']
  · obtain rfl := List.mem_singleton.1 hmem
    exact he

variable {db : Database σ} {model : Mapping.Model}

theorem Count.distinct_of_hasKey {k : Count} {columns : List String}
    (h : (db.table k.table).HasKey columns) (hc : columns ⊆ [k.ownerColumn, k.memberColumn])
    (hm : k.memberColumn ∈ columns) : k.Distinct db := fun owner =>
  ⟨h.nodup_matching hc owner, fun _ hr =>
    h.isSome _ (Table.cell_of_mem_matching hr).1 _ hm⟩

/-- The members of a collection of the model differ from one another. -/
theorem Database.Fits.distinct (h : db.Fits model) {entity element : Mapping.Entity} {name : String}
    {collection : Mapping.ToMany} (he : model.Has entity)
    (hp : entity.property name = .ok (.toMany collection)) (hm : model.Has element)
    (aliasName : String) (owner : String × String) :
    (Count.mk (memberTable collection element).1 aliasName (memberTable collection element).2.1
      (memberTable collection element).2.2 owner).Distinct db := by
  cases hs : collection.storage with
  | foreignKey column =>
    simp only [memberTable, hs]
    exact Count.distinct_of_hasKey (h.ids element hm) (List.subset_cons_self _ _)
      (List.mem_singleton.2 rfl)
  | joinTable table ownerColumn elementColumn =>
    simp only [memberTable, hs]
    have hlinks := h.links entity he collection (Mapping.Entity.mem_toMany_of_property hp) _ _ _ hs
    exact Count.distinct_of_hasKey hlinks (List.Subset.refl _)
      (List.mem_cons_of_mem _ (List.mem_singleton.2 rfl))

end Sql

end SqlDialects
