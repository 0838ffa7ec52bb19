import Mathlib.Data.List.Forall2
import Mathlib.Data.List.Nodup
import Mathlib.Data.Set.Insert
import SqlDialects.Schema.Statement

/-!
# Catalogs

What a database knows of a schema while statements make it and drop it. Nothing is dropped that is
not there, and no table that a key of another table refers to. Making a thing is never refused.
-/

namespace SqlDialects

/-! ## Removing by a name -/

section remove

variable {α β : Type} [DecidableEq β] {f : α → β} {as as' : List α} {b : β} {bs : List β}

/-- Without the things of a name, of which there has to be one. -/
def remove? (f : α → β) (b : β) (as : List α) : Option (List α) :=
  if b ∈ as.map f then some (as.filter fun a => f a ≠ b) else none

theorem remove?_eq_some_iff :
    remove? f b as = some as' ↔ b ∈ as.map f ∧ as' = as.filter fun a => f a ≠ b := by
  unfold remove?
  split
  · next h => simp [h, eq_comm]
  · next h => simp [h]

/-- Each name can be removed once. -/
theorem foldlM_remove?_eq_some_iff :
    bs.foldlM (fun as b => remove? f b as) as = some as' ↔
      (bs.Nodup ∧ bs ⊆ as.map f) ∧ as' = as.filter fun a => f a ∉ bs := by
  induction bs generalizing as with
  | nil => simp [eq_comm]
  | cons b rest ih =>
    have hstep : (∃ left, remove? f b as = some left ∧
        rest.foldlM (fun as b => remove? f b as) left = some as') ↔
          b ∈ as.map f ∧ (rest.Nodup ∧ rest ⊆ (as.filter fun a => f a ≠ b).map f) ∧
            as' = (as.filter fun a => f a ≠ b).filter fun a => f a ∉ rest := by
      simp only [remove?_eq_some_iff, ih]
      grind
    have hsubset : rest ⊆ (as.filter fun a => f a ≠ b).map f ↔ b ∉ rest ∧ rest ⊆ as.map f := by
      simp only [List.subset_def, List.mem_map, List.mem_filter, decide_eq_true_eq]
      grind
    have hfilter : ((as.filter fun a => f a ≠ b).filter fun a => f a ∉ rest) =
        as.filter fun a => f a ∉ b :: rest := by
      rw [List.filter_filter]
      refine List.filter_congr fun a _ => ?_
      simp [Bool.and_comm]
    rw [List.foldlM_cons, Option.bind_eq_bind, Option.bind_eq_some_iff, hstep, hsubset, hfilter,
      List.nodup_cons, List.cons_subset]
    grind

end remove

/-! ## Catalogs -/

namespace Schema

/-- A constraint is known by its name on its table. -/
def constraintId (table column : String) : String × String :=
  (table, foreignKeyName table column)

theorem constraintId_inj {table table' column column' : String} :
    constraintId table column = constraintId table' column' ↔
      table = table' ∧ column = column' := by
  refine ⟨fun h => ?_, fun ⟨h, h'⟩ => by rw [h, h']⟩
  obtain ⟨rfl, h⟩ := Prod.mk.inj h
  exact ⟨rfl, by simpa [foreignKeyName, ← String.toList_inj] using h⟩

namespace ForeignKey

def id (key : ForeignKey) : String × String := constraintId key.table key.column

def tableAndColumn (key : ForeignKey) : String × String := (key.table, key.column)

theorem remove?_id (table column : String) (keys : List ForeignKey) :
    remove? id (constraintId table column) keys =
      remove? tableAndColumn (table, column) keys := by
  have hid (key : ForeignKey) :
      key.id = constraintId table column ↔ key.tableAndColumn = (table, column) := by
    rw [id, constraintId_inj, tableAndColumn, Prod.mk.injEq]
  simp only [remove?, List.mem_map, ne_eq, hid]

end ForeignKey

structure Catalog where
  tables : List String := []
  keys : List ForeignKey := []
  sequences : List String := []
  deriving DecidableEq, Repr

namespace Catalog

/-- A key of another table refers to the table. -/
def IsReferred (c : Catalog) (table : String) : Prop :=
  ∃ key ∈ c.keys, key.targetTable = table ∧ key.table ≠ table ∧ key.table ∈ c.tables

instance (c : Catalog) (table : String) : Decidable (c.IsReferred table) :=
  inferInstanceAs (Decidable (∃ key ∈ c.keys, _))

/-- The catalog after a statement, or nothing if it is refused. The keys of a table go with it. -/
def apply (c : Catalog) : Statement → Option Catalog
  | .createSequence name _ _ => some { c with sequences := c.sequences.insert name }
  | .createTable name _ _ => some { c with tables := c.tables.insert name }
  | .addForeignKey key => some { c with keys := c.keys.insert key }
  | .createIndex _ _ => some c
  | .dropForeignKey table column =>
    (remove? ForeignKey.id (constraintId table column) c.keys).map fun keys => { c with keys }
  | .dropTable name =>
    if c.IsReferred name then none
    else (remove? id name c.tables).map fun tables =>
      { c with tables, keys := c.keys.filter fun key => key.table ≠ name }
  | .dropSequence name =>
    (remove? id name c.sequences).map fun sequences => { c with sequences }

def run (c : Catalog) (statements : List Statement) : Option Catalog := statements.foldlM apply c

variable {c c' : Catalog}

theorem run_append (statements statements' : List Statement) :
    c.run (statements ++ statements') = (c.run statements).bind fun c' => c'.run statements' :=
  List.foldlM_append

theorem run_append_eq_some_iff {statements statements' : List Statement} :
    c.run (statements ++ statements') = some c' ↔
      ∃ left, c.run statements = some left ∧ left.run statements' = some c' := by
  rw [run_append, Option.bind_eq_some_iff]

theorem run_cons (statement : Statement) (rest : List Statement) :
    c.run (statement :: rest) = (c.apply statement).bind fun c' => c'.run rest :=
  List.foldlM_cons

theorem run_cons_eq_some_iff {statement : Statement} {rest : List Statement} :
    c.run (statement :: rest) = some c' ↔
      ∃ left, c.apply statement = some left ∧ left.run rest = some c' := by
  rw [run_cons, Option.bind_eq_some_iff]

/-! ## Making -/

inductive Thing where
  | table (name : String)
  | key (key : ForeignKey)
  | sequence (name : String)

def Has (c : Catalog) : Thing → Prop
  | .table name => name ∈ c.tables
  | .key key => key ∈ c.keys
  | .sequence name => name ∈ c.sequences

/-- Nothing is refused. The things are there at the end, with all that was there before. -/
def Makes (statements : List Statement) (things : Set Thing) : Prop :=
  ∀ c : Catalog, ∃ c', c.run statements = some c' ∧
    ∀ thing, c'.Has thing ↔ c.Has thing ∨ thing ∈ things

namespace Makes

variable {statements statements' : List Statement} {things things' : Set Thing}

theorem congr (h : Makes statements things) (heq : ∀ thing, thing ∈ things ↔ thing ∈ things') :
    Makes statements things' := by
  rwa [← Set.ext heq]

theorem nil : Makes [] ∅ := fun c => ⟨c, rfl, by simp⟩

theorem append (h : Makes statements things) (h' : Makes statements' things') :
    Makes (statements ++ statements') (things ∪ things') := by
  intro c
  obtain ⟨left, hleft, hhas⟩ := h c
  obtain ⟨c', hc', hhas'⟩ := h' left
  refine ⟨c', run_append_eq_some_iff.2 ⟨left, hleft, hc'⟩, fun thing => ?_⟩
  rw [hhas', hhas, Set.mem_union, or_assoc]

theorem of_apply {statement : Statement} (h : ∀ c : Catalog, ∃ c', c.apply statement = some c' ∧
    ∀ thing, c'.Has thing ↔ c.Has thing ∨ thing ∈ things) : Makes [statement] things := by
  intro c
  obtain ⟨c', hc', hhas⟩ := h c
  exact ⟨c', run_cons_eq_some_iff.2 ⟨c', hc', rfl⟩, hhas⟩

theorem createSequence (name : String) (start increment : Int) :
    Makes [.createSequence name start increment] {.sequence name} :=
  of_apply fun _ => ⟨_, rfl, fun thing => by cases thing <;> simp [Has, or_comm]⟩

theorem createTable (name : String) (columns : List Column) (key : List String) :
    Makes [.createTable name columns key] {.table name} :=
  of_apply fun _ => ⟨_, rfl, fun thing => by cases thing <;> simp [Has, or_comm]⟩

theorem addForeignKey (key : ForeignKey) : Makes [.addForeignKey key] {.key key} :=
  of_apply fun _ => ⟨_, rfl, fun thing => by cases thing <;> simp [Has, or_comm]⟩

theorem createIndex (table column : String) : Makes [.createIndex table column] ∅ :=
  of_apply fun c => ⟨c, rfl, by simp⟩

theorem flatten {α : Type} {as : List α} {parts : List (List Statement)} {made : α → Set Thing}
    (h : List.Forall₂ (fun a part => Makes part (made a)) as parts) :
    Makes parts.flatten {thing | ∃ a ∈ as, thing ∈ made a} := by
  induction h with
  | nil => simpa using nil
  | cons hpart _ ih =>
    exact (hpart.append ih).congr fun thing => by simp

theorem flatMap {α : Type} {statements : α → List Statement} {made : α → Set Thing}
    (h : ∀ a, Makes (statements a) (made a)) (as : List α) :
    Makes (as.flatMap statements) {thing | ∃ a ∈ as, thing ∈ made a} := by
  rw [List.flatMap_def]
  exact flatten (List.forall₂_map_right_iff.2 (List.forall₂_same.2 fun a _ => h a))

theorem map {α : Type} {statement : α → Statement} {made : α → Set Thing}
    (h : ∀ a, Makes [statement a] (made a)) (as : List α) :
    Makes (as.map statement) {thing | ∃ a ∈ as, thing ∈ made a} := by
  rw [List.map_eq_flatMap]
  exact flatMap h as

end Makes

/-! ## Dropping keys and sequences -/

/-- Steps that change a part only, as steps of the part. -/
theorem foldlM_part {σ τ β : Type} {step : σ → β → Option σ} {partStep : τ → β → Option τ}
    (whole : τ → σ) (h : ∀ t b, step (whole t) b = (partStep t b).map whole) (bs : List β) (t : τ) :
    bs.foldlM step (whole t) = (bs.foldlM partStep t).map whole := by
  induction bs generalizing t with
  | nil => rfl
  | cons b rest ih =>
    rw [List.foldlM_cons, List.foldlM_cons, h]
    cases partStep t b with
    | none => rfl
    | some t' => exact ih t'

theorem run_dropForeignKeys_eq_some_iff {columns : List (String × String)} :
    c.run (columns.map fun p => .dropForeignKey p.1 p.2) = some c' ↔
      (columns.Nodup ∧ columns ⊆ c.keys.map ForeignKey.tableAndColumn) ∧
        c' = { c with keys := c.keys.filter fun key => key.tableAndColumn ∉ columns } := by
  have hpart : c.run (columns.map fun p => .dropForeignKey p.1 p.2) =
      (columns.foldlM (fun keys p => remove? ForeignKey.tableAndColumn p keys) c.keys).map
        fun keys => { c with keys } := by
    rw [run, List.foldlM_map]
    refine foldlM_part (fun keys => { c with keys }) (fun keys p => ?_) columns c.keys
    rw [← ForeignKey.remove?_id]
    rfl
  rw [hpart, Option.map_eq_some_iff]
  simp only [foldlM_remove?_eq_some_iff]
  grind

theorem run_dropSequences_eq_some_iff {names : List String} :
    c.run (names.map .dropSequence) = some c' ↔
      (names.Nodup ∧ names ⊆ c.sequences) ∧
        c' = { c with sequences := c.sequences.filter fun name => name ∉ names } := by
  have hpart : c.run (names.map .dropSequence) =
      (names.foldlM (fun names name => remove? id name names) c.sequences).map
        fun sequences => { c with sequences } := by
    rw [run, List.foldlM_map]
    refine foldlM_part (fun sequences => { c with sequences }) (fun _ _ => ?_) names c.sequences
    rfl
  rw [hpart, Option.map_eq_some_iff]
  simp only [foldlM_remove?_eq_some_iff, List.map_id, id]
  grind

/-! ## Dropping tables -/

/-- Every key is the key of a table that is there. -/
def IsClosed (c : Catalog) : Prop := ∀ key ∈ c.keys, key.table ∈ c.tables

/-- Without some tables and their keys. -/
def without (c : Catalog) (names : List String) : Catalog :=
  { c with
    tables := c.tables.filter fun table => table ∉ names
    keys := c.keys.filter fun key => key.table ∉ names }

theorem without_eq_of_subset {names : List String} (ht : c.tables ⊆ names)
    (hk : ∀ key ∈ c.keys, key.table ∈ names) :
    c.without names = { sequences := c.sequences } := by
  have htables : (c.tables.filter fun table => table ∉ names) = [] :=
    List.filter_eq_nil_iff.2 fun table h => by simpa using ht h
  have hkeys : (c.keys.filter fun key => key.table ∉ names) = [] :=
    List.filter_eq_nil_iff.2 fun key h => by simpa using hk key h
  rw [without, htables, hkeys]

theorem isClosed_without (h : c.IsClosed) (names : List String) : (c.without names).IsClosed := by
  intro key hkey
  simp only [without, List.mem_filter, decide_eq_true_eq] at hkey ⊢
  exact ⟨h key hkey.1, hkey.2⟩

theorem without_without (names names' : List String) :
    (c.without names).without names' = c.without (names ++ names') := by
  simp [without, List.filter_filter, Bool.and_comm]

theorem IsClosed.isReferred_iff (h : c.IsClosed) {name : String} :
    c.IsReferred name ↔ ∃ key ∈ c.keys, key.targetTable = name ∧ key.table ≠ name := by
  unfold IsReferred
  grind [IsClosed]

theorem IsClosed.apply_dropTable_eq_some_iff (h : c.IsClosed) {name : String} :
    c.apply (.dropTable name) = some c' ↔
      (name ∈ c.tables ∧ ∀ key ∈ c.keys, key.targetTable = name → key.table = name) ∧
        c' = c.without [name] := by
  have hleft : c.without [name] =
      { c with
        tables := c.tables.filter fun table => table ≠ name
        keys := c.keys.filter fun key => key.table ≠ name } := by
    simp [without]
  rw [hleft]
  simp only [apply, h.isReferred_iff, Option.ite_none_left_eq_some, Option.map_eq_some_iff,
    remove?_eq_some_iff, List.map_id, id]
  grind


/-- If a table of the names is referred to, the table of the key is not behind it. -/
def IsFreed (names : List String) (key : ForeignKey) : Prop :=
  key.targetTable ∈ names → names.idxOf key.table ≤ names.idxOf key.targetTable

theorem isFreed_cons {name : String} {rest : List String} {key : ForeignKey} :
    IsFreed (name :: rest) key ↔
      (key.targetTable = name → key.table = name) ∧
        (key.targetTable ≠ name → key.table ≠ name → IsFreed rest key) := by
  simp only [IsFreed, List.idxOf_cons, List.mem_cons]
  grind

/-- Tables can be dropped if each is there and freed by the ones before it. -/
theorem IsClosed.run_dropTables_eq_some_iff (h : c.IsClosed) {names : List String} :
    c.run (names.map .dropTable) = some c' ↔
      (names.Nodup ∧ names ⊆ c.tables ∧ ∀ key ∈ c.keys, IsFreed names key) ∧
        c' = c.without names := by
  induction names generalizing c with
  | nil => simp [run, without, IsFreed, eq_comm]
  | cons name rest ih =>
    rw [List.map_cons, run_cons_eq_some_iff]
    have hstep : (∃ left, c.apply (.dropTable name) = some left ∧
        left.run (rest.map .dropTable) = some c') ↔
          (name ∈ c.tables ∧ ∀ key ∈ c.keys, key.targetTable = name → key.table = name) ∧
            (rest.Nodup ∧ rest ⊆ (c.without [name]).tables ∧
              ∀ key ∈ (c.without [name]).keys, IsFreed rest key) ∧
                c' = (c.without [name]).without rest := by
      simp only [h.apply_dropTable_eq_some_iff]
      refine ⟨?_, fun ⟨hname, hrest⟩ => ⟨_, ⟨hname, rfl⟩, (ih (isClosed_without h _)).2 hrest⟩⟩
      rintro ⟨_, ⟨hname, rfl⟩, hrest⟩
      exact ⟨hname, (ih (isClosed_without h _)).1 hrest⟩
    have htables : rest ⊆ (c.without [name]).tables ↔ name ∉ rest ∧ rest ⊆ c.tables := by
      simp only [without, List.subset_def, List.mem_filter, decide_eq_true_eq, List.mem_singleton]
      grind
    have hkeys : (∀ key ∈ (c.without [name]).keys, IsFreed rest key) ↔
        ∀ key ∈ c.keys, key.table ≠ name → IsFreed rest key := by
      simp only [without, List.mem_filter, decide_eq_true_eq, List.mem_singleton, and_imp]
    rw [hstep, htables, hkeys, without_without, List.singleton_append, List.nodup_cons,
      List.cons_subset]
    simp only [isFreed_cons]
    grind

end Catalog

end Schema

end SqlDialects
