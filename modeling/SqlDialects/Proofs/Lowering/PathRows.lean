import SqlDialects.Proofs.Counting.Statements
import SqlDialects.Proofs.Lowering.PathJoins

/-!
# Rows of a query that paths join tables to

The joins of paths are inner ones, also those of paths in inner queries. So a row from which the
path runs into a null is left out of the query that binds its variable, whatever is asked about it.
-/

namespace SqlDialects

open Sql (FromItem Join everyKey)

/-! ## Rows with and without the joins -/

namespace Sql

variable {model : Mapping.Model} {opened tables : List FromItem} {hidden : List String}

/-- The aliases are those of joins that paths have added, with all joins that hang on them, such as
the joins for paths that stand in nested queries only. -/
structure Hides (opened tables : List FromItem) (hidden : List String) : Prop where
  opened : ∀ item ∈ opened, ∀ a ∈ item.names, a ∉ hidden
  inner : ∀ item ∈ tables, ∀ join ∈ item.joins, join.IsHidden hidden → join.kind = .inner
  closed : ∀ item ∈ tables, ∀ join ∈ item.joins, ∀ r ∈ join.reference?,
    r.start ∈ hidden → join.IsHidden hidden

instance (opened tables : List FromItem) (hidden : List String) :
    Decidable (Hides opened tables hidden) :=
  decidable_of_iff ((∀ item ∈ opened, ∀ a ∈ item.names, a ∉ hidden) ∧
    (∀ item ∈ tables, ∀ join ∈ item.joins, join.IsHidden hidden → join.kind = .inner) ∧
    ∀ item ∈ tables, ∀ join ∈ item.joins, ∀ r ∈ join.reference?,
      r.start ∈ hidden → join.IsHidden hidden)
    ⟨fun h => ⟨h.1, h.2.1, h.2.2⟩, fun h => ⟨h.opened, h.inner, h.closed⟩⟩

/-- The table without the joins that are hidden. -/
def FromItem.shown (hidden : List String) (item : FromItem) : FromItem :=
  { item with joins := Join.shown hidden item.joins }

/-- What the hidden joins of a query refer to. -/
def QuerySpec.references (hidden : List String) (spec : QuerySpec) : List Reference :=
  spec.tables.flatMap fun item => Join.references hidden item.joins

theorem Join.shown_append (joins joins' : List Join) :
    Join.shown hidden (joins ++ joins') = Join.shown hidden joins ++ Join.shown hidden joins' :=
  List.filter_append ..

theorem Join.references_append (joins joins' : List Join) :
    Join.references hidden (joins ++ joins') =
      Join.references hidden joins ++ Join.references hidden joins' := by
  simp [Join.references]

theorem Join.shown_eq_self {joins : List Join} (h : ∀ join ∈ joins, ¬ join.IsHidden hidden) :
    Join.shown hidden joins = joins ∧ Join.references hidden joins = [] := by
  refine ⟨List.filter_eq_self.2 (by simpa using h), ?_⟩
  rw [Join.references, List.filter_eq_nil_iff.2 (by simpa using h), List.filterMap_nil]

variable {σ : Type} [DecidableEq σ] {db : Database σ}

omit [DecidableEq σ] in
/-- What a gained join finds can be hidden, in a database that holds what the mapping says. -/
theorem Join.hideable (hfits : db.Fits model) {join : Join}
    (h : (∃ association, join.GoesAlong model association) ∨ join.kind = .left)
    (hinner : join.IsHidden hidden → join.kind = .inner)
    (hclosed : ∀ r ∈ join.reference?, r.start ∈ hidden → join.IsHidden hidden) :
    join.Hideable db hidden := by
  rcases h with ⟨_, _, target, _, -, ht, a, other, rfl⟩ | hkind
  · refine ⟨.inl rfl, fun _ => ⟨rfl, fun r hr => ?_⟩, hclosed⟩
    obtain rfl := Option.some.inj hr
    exact hfits.ids target ⟨_, ht⟩
  · refine ⟨.inr hkind, fun hh => ?_, hclosed⟩
    cases hkind.symm.trans (hinner hh)

theorem FromItem.Gains.led {item item' : FromItem} (h : item.Gains model item')
    (hfits : db.Fits model) (hopened : ∀ a ∈ item.names, a ∉ hidden)
    (hinner : ∀ join ∈ item'.joins, join.IsHidden hidden → join.kind = .inner)
    (hclosed : ∀ join ∈ item'.joins, ∀ r ∈ join.reference?,
      r.start ∈ hidden → join.IsHidden hidden)
    (hnodup : item'.names.Nodup) (outer : Frame σ) :
    Led db hidden (Join.references hidden item'.joins) item'.names
      (Join.frames db item'.joins outer
        [(item'.root.aliasName, (db.table item'.root.table).nullRecord)]
        ((db.table item'.root.table).records.map fun record => [(item'.root.aliasName, record)]))
      (Join.frames db (Join.shown hidden item'.joins) outer
        [(item'.root.aliasName, (db.table item'.root.table).nullRecord)]
        ((db.table item'.root.table).records.map fun record =>
          [(item'.root.aliasName, record)])) := by
  obtain ⟨root', explicit⟩ := item
  obtain ⟨root, all⟩ := item'
  obtain ⟨hroot, joins, hall, hhangs, hkinds⟩ := h
  obtain rfl : root = root' := hroot
  obtain rfl : all = explicit ++ joins := hall
  let nulls : Frame σ := [(root.aliasName, (db.table root.table).nullRecord)]
  let roots := (db.table root.table).records.map fun record => [(root.aliasName, record)]
  have hshown : ∀ join ∈ explicit, ¬ join.IsHidden hidden := fun join hmem =>
    hopened _ (List.mem_cons_of_mem _ (List.mem_map_of_mem hmem))
  obtain ⟨hsame, hnone⟩ := Join.shown_eq_self hshown
  have hstart : Led db hidden [] (root.aliasName :: explicit.map (·.table.aliasName))
      (Join.frames db explicit outer nulls roots) (Join.frames db explicit outer nulls roots) :=
    .start (names_of_mem_joins db rfl fun _ => Frame.names_root) hopened
  have hhideable : ∀ join ∈ joins, join.Hideable db hidden := fun join hmem =>
    Join.hideable hfits (hkinds join hmem) (hinner join (List.mem_append_right _ hmem))
      (hclosed join (List.mem_append_right _ hmem))
  rw [FromItem.names, List.map_append, ← List.cons_append] at hnodup ⊢
  rw [Join.references_append, Join.shown_append, hsame, hnone, Join.frames_append,
    Join.frames_append]
  exact hstart.joins (List.Subset.refl _) hhangs hnodup hhideable

/-- The frames of a query, with the joins of paths and without those that are hidden. -/
theorem led_of_gains {opened tables : List FromItem}
    (h : List.Forall₂ (FromItem.Gains model) opened tables) (hfits : db.Fits model)
    (hh : Hides opened tables hidden) (hnodup : (tables.flatMap FromItem.names).Nodup)
    (outer : Frame σ) :
    Led db hidden (tables.flatMap fun item => Join.references hidden item.joins)
      (tables.flatMap FromItem.names) (FromItem.frames db tables outer)
      (FromItem.frames db (tables.map (FromItem.shown hidden)) outer) := by
  induction h with
  | nil =>
    refine Led.start (fun frame hf => ?_) (by simp)
    obtain rfl := List.mem_singleton.1 hf
    rfl
  | @cons item item' opened tables h _ ih =>
    obtain ⟨ho, hos⟩ := List.forall_mem_cons.1 hh.opened
    obtain ⟨hi, his⟩ := List.forall_mem_cons.1 hh.inner
    obtain ⟨hc, hcs⟩ := List.forall_mem_cons.1 hh.closed
    obtain ⟨hitem, htables, hdisjoint⟩ := List.nodup_append'.1 hnodup
    rw [List.map_cons, FromItem.frames_cons, FromItem.frames_cons, List.flatMap_cons,
      List.flatMap_cons]
    exact (h.led hfits ho hi hc hitem outer).product (ih ⟨hos, his, hcs⟩ htables) hdisjoint

/-- The rows of the tables are those without the hidden joins from which all references lead to a
record, in order, with these records added. So a row that the query keeps is one of those. -/
structure QuerySpec.RowsFollow (db : Database σ) (hidden : List String) (spec : QuerySpec)
    (outer : Frame σ) : Prop where
  frames : List.Forall₂ List.Perm (FromItem.frames db spec.tables outer)
    ((FromItem.frames db (spec.tables.map (FromItem.shown hidden)) outer).filterMap fun frame =>
      (follow db (spec.references hidden) frame).map (frame ++ ·))
  kept : ∀ frame ∈ spec.kept db outer,
    frame.without hidden ∈ FromItem.frames db (spec.tables.map (FromItem.shown hidden)) outer ∧
      follow db (spec.references hidden) (frame.without hidden) = some (frame.only hidden)

theorem rowsFollow_of_led {spec : QuerySpec} {aliases : List String} {outer : Frame σ}
    (h : Led db hidden (spec.references hidden) aliases (FromItem.frames db spec.tables outer)
      (FromItem.frames db (spec.tables.map (FromItem.shown hidden)) outer)) :
    spec.RowsFollow db hidden outer where
  frames := h.perm
  kept frame hk := by
    have hf : frame ∈ FromItem.frames db spec.tables outer := List.mem_of_mem_filter hk
    have hbase := List.mem_map_of_mem (f := Frame.without hidden) hf
    rw [h.kept] at hbase
    exact ⟨List.mem_of_mem_filter hbase, h.followed frame hf⟩

/-! ## Rows in which paths lead to records -/

omit [DecidableEq σ] in
theorem Join.GoesAlong.kind {association : Mapping.ToOne} {join : Join}
    (h : join.GoesAlong model association) : join.kind = .inner := by
  obtain ⟨_, _, _, -, -, _, _, rfl⟩ := h
  rfl

theorem FromItem.Gains.isFound {item item' : FromItem} (h : item.Gains model item')
    (hnodup : item'.names.Nodup) {outer frame : Frame σ}
    (hf : frame ∈ Join.frames db item'.joins outer
      [(item'.root.aliasName, (db.table item'.root.table).nullRecord)]
      ((db.table item'.root.table).records.map fun record =>
        [(item'.root.aliasName, record)])) :
    ∀ join ∈ item'.joins, join.table.aliasName ∉ item.names → join.kind = .inner →
      ∀ r ∈ join.reference?, r.IsFound db frame := by
  obtain ⟨root', explicit⟩ := item
  obtain ⟨root, all⟩ := item'
  obtain ⟨hroot, joins, hall, hhangs, hkinds⟩ := h
  obtain rfl : root = root' := hroot
  obtain rfl : all = explicit ++ joins := hall
  have hnames : ∀ g ∈ Join.frames db explicit outer
      [(root.aliasName, (db.table root.table).nullRecord)]
      ((db.table root.table).records.map fun record => [(root.aliasName, record)]),
        Frame.names g = root.aliasName :: explicit.map (·.table.aliasName) :=
    names_of_mem_joins db rfl fun _ => Frame.names_root
  rw [FromItem.names, List.map_append, ← List.cons_append] at hnodup
  rw [Join.frames_append] at hf
  have hinner : ∀ join ∈ joins, join.kind = .inner ∨ join.kind = .left := by
    intro join hmem
    refine (hkinds join hmem).imp_left ?_
    rintro ⟨association, halong⟩
    exact halong.kind
  obtain ⟨-, hfound⟩ :=
    isFound_of_joins hnames (List.Subset.refl _) hhangs hnodup hinner frame hf
  intro join hmem hnew
  rcases List.mem_append.1 hmem with hmem | hmem
  · exact absurd (List.mem_cons_of_mem _ (List.mem_map_of_mem hmem)) hnew
  · exact hfound join hmem

/-- In each row of a query the joins of paths have found their records. -/
theorem isFound_of_gains {opened tables : List FromItem} {names : List String}
    (h : List.Forall₂ (FromItem.Gains model) opened tables)
    (hn : ∀ item ∈ opened, item.names ⊆ names) (hnodup : (tables.flatMap FromItem.names).Nodup)
    {outer frame : Frame σ} (hf : frame ∈ FromItem.frames db tables outer) :
    ∀ join ∈ Join.shown names (tables.flatMap (·.joins)), join.kind = .inner →
      ∀ r ∈ join.reference?, r.IsFound db frame := by
  induction h generalizing frame with
  | nil => exact nofun
  | @cons item item' opened tables h _ ih =>
    obtain ⟨ho, hos⟩ := List.forall_mem_cons.1 hn
    obtain ⟨hitem, htables, hdisjoint⟩ := List.nodup_append'.1 hnodup
    rw [FromItem.frames_cons] at hf
    obtain ⟨g, hg, g', hg', rfl⟩ := Spread.mem_product.1 hf
    have hg_names : g.names = item'.names :=
      names_of_mem_joins db rfl (fun _ => Frame.names_root) g hg
    intro join hjoin hkind r hr
    obtain ⟨hmem, hnew⟩ := List.mem_filter.1 hjoin
    rw [List.flatMap_cons, List.mem_append] at hmem
    rcases hmem with hmem | hmem
    · have hout : join.table.aliasName ∉ item.names := fun ha => of_decide_eq_true hnew (ho ha)
      exact (h.isFound hitem hg join hmem hout hkind r hr).append g'
    · refine (ih hos htables hg' join (List.mem_filter.2 ⟨hmem, hnew⟩) hkind r hr).append_right ?_
      rw [hg_names, names_of_mem_frames db hg']
      exact hdisjoint

/-- Where names lead along joins of paths, each row has the records that they lead to. -/
theorem Leads.isFound {opened tables : List FromItem} {path : List String} {a : String}
    {references : List Reference}
    (h : List.Forall₂ (FromItem.Gains model) opened tables)
    (hnodup : (tables.flatMap FromItem.names).Nodup)
    (hleads : Leads model (Join.shown (opened.flatMap FromItem.names) (tables.flatMap (·.joins)))
      path a references) {outer frame : Frame σ} (hf : frame ∈ FromItem.frames db tables outer) :
    ∀ r ∈ references, r.IsFound db frame := by
  intro r hr
  obtain ⟨join, hjoin, hjr, association, ha⟩ := hleads.exists_join r hr
  have hnames : ∀ item ∈ opened, item.names ⊆ opened.flatMap FromItem.names :=
    fun item hi _ hmem => List.mem_flatMap.2 ⟨item, hi, hmem⟩
  exact isFound_of_gains h hnames hnodup hf join hjoin ha.kind r hjr

end Sql

/-! ## Statements -/

namespace Entity

variable {d : Dialect} {model : Mapping.Model}

/-- Behind its roots and the joins that it asks for, a query has inner joins along associations for
all paths that start at its variables, also for those that stand in queries inside of it. Each of
its rows has the records to which these paths lead. With any of these joins, and all joins that hang
on them, the rows are those without them from which the joins find records, each once and in order,
and the condition of the query decides about these only. -/
theorem Statement.lower_path_rows {statement : Statement} {lowered : Sql.Statement}
    (h : statement.lower d model = .ok lowered) :
    (∀ spec ∈ lowered.specs everyKey, spec.CountsMembers ∨ ∃ source scope,
      QuerySpec.StandsIn source statement ∧ source.OpensAs d model scope spec) ∧
    ∀ source scope spec, QuerySpec.OpensAs source d model scope spec →
      List.Forall₂ (FromItem.Gains model) scope.tables spec.tables ∧
      source.LeadsPaths model scope spec ∧
      ∀ {σ : Type} [DecidableEq σ] {db : Sql.Database σ} (outer : Sql.Frame σ),
        (∀ path a references, Sql.Leads model (scope.newJoins spec.tables) path a references →
          ∀ frame ∈ FromItem.frames db spec.tables outer, ∀ r ∈ references, r.IsFound db frame) ∧
        ∀ hidden, Sql.Hides scope.tables spec.tables hidden → db.Fits model →
          spec.RowsFollow db hidden outer := by
  constructor
  · intro spec hspec
    refine (Statement.lower_arise h spec hspec).imp_right ?_
    rintro ⟨source, hstands, s, t, hs, hrun⟩
    obtain ⟨u, _, hopens, -⟩ := source.lower_runs (c := { dialect := d, model }) hrun
    obtain ⟨scope, hu, -⟩ := lowerRoots_scopes hopens
    refine ⟨source, scope, hstands, s, t, u, hs, hrun, hopens, ?_⟩
    rw [hu, List.getElem?_cons_zero]
  · intro source scope spec hopens
    obtain ⟨hgains, hnodup, hleads⟩ := hopens.gains
    refine ⟨hgains, hleads, fun outer => ⟨?_, fun hidden hh hfits => ?_⟩⟩
    · intro path a references hpath frame hframe
      exact hpath.isFound hgains hnodup hframe
    · exact Sql.rowsFollow_of_led (Sql.led_of_gains hgains hfits hh hnodup outer)

/-! ## People without an address -/

def addressModel : Mapping.Model :=
  .ofList
    [{ Mapping.Entity.ofName "Person" with
        attributes := [.ofType "name" .varchar]
        toOne := [.ofTarget "address" "Address"] },
      { Mapping.Entity.ofName "Address" with attributes := [.ofType "city" .varchar] },
      { Mapping.Entity.ofName "Tag" with attributes := [.ofType "label" .varchar] }]

/-- Selects the names of people whose city is not the label of a tag. -/
def withoutTag : QuerySpec :=
  { select := [⟨.path ⟨"p", ["name"]⟩, none⟩]
    roots := [⟨"Person", "p", []⟩]
    condition := some (.exists (.spec
      { select := [⟨.literal (.integer 1), none⟩]
        roots := [⟨"Tag", "t", []⟩]
        condition := some (.compare (.path ⟨"t", ["label"]⟩) .equal
          (.path ⟨"p", ["address", "city"]⟩)) }) true) }

/-- Ann has no address, Bob lives in Oslo and Eve in Rome. There is a tag for Oslo. -/
def addressDatabase : Sql.Database (Nat ⊕ String) :=
  { peopleDatabase with
    table
      | "person" =>
        { columns := ["id", "name", "address_id"]
          records :=
            [[("id", some (.inl 1)), ("name", some (.inr "Ann")), ("address_id", none)],
              [("id", some (.inl 2)), ("name", some (.inr "Bob")), ("address_id", some (.inl 1))],
              [("id", some (.inl 3)), ("name", some (.inr "Eve")), ("address_id", some (.inl 2))]] }
      | "address" =>
        { columns := ["id", "city"]
          records :=
            [[("id", some (.inl 1)), ("city", some (.inr "Oslo"))],
              [("id", some (.inl 2)), ("city", some (.inr "Rome"))]] }
      | "tag" =>
        { columns := ["id", "label"]
          records := [[("id", some (.inl 1)), ("label", some (.inr "Oslo"))]] }
      | _ => ⟨[], []⟩ }

theorem addressDatabase_fits : addressDatabase.Fits addressModel :=
  Sql.Database.fits_of_entities (by decide +kernel)

theorem withoutTag_uses : ∃ n ∈ withoutTag.children, n.Uses ⟨"p", ["address", "city"]⟩ := by
  refine ⟨_, QuerySpec.mem_children_iff.2 (.inr (.inr (.inl ⟨_, .inl rfl, rfl⟩))), ?_⟩
  refine .child (List.mem_singleton.2 rfl) (by simp) ?_
  refine .child (QuerySpec.mem_children_iff.2 (.inr (.inr (.inl ⟨_, .inl rfl, rfl⟩)))) ?_ ?_
  · rintro source hsource
    obtain rfl := Query.spec.inj (Node.query.inj hsource)
    decide
  · exact .child (List.mem_cons_of_mem _ (List.mem_singleton.2 rfl)) (by simp) (.here rfl)

theorem joins_addressCity {steps : Nat}
    (h : Path.Joins ⟨"p", ["address", "city"]⟩ addressModel steps) : steps = 1 := by
  have hids : ∀ entity ∈ addressModel.entities, Text.sameName entity.id.name "city" = false := by
    decide +kernel
  rcases h with h | ⟨-, target, last, ht, hlast, hsame⟩
  · exact h
  · obtain rfl : "city" = last := by simpa using hlast
    rw [hids target (Mapping.Model.mem_entities_of_has ht)] at hsame
    cases hsame

/-- Three rows without the join for the inner path become two. -/
theorem withoutTag_rowsFollow : ∃ scope spec,
    withoutTag.OpensAs (Dialect.ofProduct .postgreSql ⟨16, 0, 0⟩) addressModel scope spec ∧
      (∃ a r, Sql.Leads addressModel (scope.newJoins spec.tables) ["address"] a [r]) ∧
      Sql.Hides scope.tables spec.tables ["t2"] ∧ spec.RowsFollow addressDatabase ["t2"] [] ∧
      (FromItem.frames addressDatabase (spec.tables.map (FromItem.shown ["t2"])) []).length = 3 ∧
      (FromItem.frames addressDatabase spec.tables []).length = 2 := by
  let c : LoweringContext :=
    { dialect := Dialect.ofProduct .postgreSql ⟨16, 0, 0⟩, model := addressModel }
  obtain ⟨lowered, h, -⟩ : ∃ lowered, (Statement.select (.spec withoutTag) none).lower
      (Dialect.ofProduct .postgreSql ⟨16, 0, 0⟩) addressModel = .ok lowered ∧
        lowered.aliases everyKey = ["t0", "t2", "t1"] := exists_lowered (by decide +kernel)
  obtain ⟨⟨_, u⟩, hopens, hu⟩ : ∃ r, lowerRoots c 0 withoutTag.roots (LoweringState.enter {}
      (isGrouped withoutTag.select withoutTag.groupBy withoutTag.having)) = .ok r ∧
        r.2.scopes.map Scope.names = [["t0"]] := exists_run (by decide +kernel)
  obtain ⟨⟨spec, t⟩, hrun, hspec⟩ : ∃ r, withoutTag.lower c {} = .ok r ∧
      (decide (Sql.Hides [] r.1.tables ["t2"]),
        (FromItem.frames addressDatabase (r.1.tables.map (FromItem.shown ["t2"])) []).length,
        (FromItem.frames addressDatabase r.1.tables []).length) = (true, 3, 2) :=
    exists_run (by decide +kernel)
  obtain ⟨hhides, hframes⟩ := Prod.mk.inj hspec
  obtain ⟨-, hinner, hclosed⟩ := of_decide_eq_true hhides
  obtain ⟨scope, hscopes, -⟩ := lowerRoots_scopes hopens
  have hopensAs : withoutTag.OpensAs c.dialect c.model scope spec :=
    ⟨{}, t, u, .start, hrun, hopens, by rw [hscopes, List.getElem?_cons_zero]⟩
  have hnames : scope.names = ["t0"] := by simpa [hscopes] using hu
  have hhides : Sql.Hides scope.tables spec.tables ["t2"] := by
    refine ⟨fun item hitem a ha => ?_, hinner, hclosed⟩
    have hmem : a ∈ scope.names := List.mem_flatMap.2 ⟨item, hitem, ha⟩
    rw [hnames, List.mem_singleton] at hmem
    simp [hmem]
  obtain ⟨-, hrows⟩ := Statement.lower_path_rows h
  obtain ⟨-, hleads, hrows⟩ := hrows withoutTag scope spec hopensAs
  obtain ⟨n, hn, huses⟩ := withoutTag_uses
  obtain ⟨binding, steps, references, -, hsteps, hl⟩ := hleads n hn _ huses (by decide)
  obtain rfl := joins_addressCity hsteps
  obtain ⟨r, _, rfl, hstart, hstep, rfl⟩ := hl
  exact ⟨scope, spec, hopensAs, ⟨binding.aliasName, r, r, [], rfl, hstart, hstep, rfl⟩, hhides,
    (hrows []).2 ["t2"] hhides addressDatabase_fits, Prod.mk.inj hframes⟩

/-- The rows of a query of which all joins are left joins. -/
def rowsLoosely (db : Sql.Database (Nat ⊕ String)) :
    Sql.Statement → List (Sql.Value (Nat ⊕ String))
  | .select (.spec spec) _ =>
    let loosened (item : FromItem) : FromItem :=
      { item with joins := item.joins.map fun join => { join with kind := .left } }
    Sql.QuerySpec.rows db { spec with tables := spec.tables.map loosened } []
  | _ => []

/-- No tag has Ann's city, but she is not among the rows. -/
theorem path_join_leaves_out_row : addressDatabase.Fits addressModel ∧ ∃ lowered,
    (Statement.select (.spec withoutTag) none).lower
      (Dialect.ofProduct .postgreSql ⟨16, 0, 0⟩) addressModel = .ok lowered ∧
        rowsIn addressDatabase lowered = [[some (.inr "Eve")]] ∧
        rowsLoosely addressDatabase lowered = [[some (.inr "Ann")], [some (.inr "Eve")]] := by
  obtain ⟨lowered, h, hrows⟩ : ∃ lowered, (Statement.select (.spec withoutTag) none).lower
      (Dialect.ofProduct .postgreSql ⟨16, 0, 0⟩) addressModel = .ok lowered ∧
        rowsIn addressDatabase lowered = [[some (.inr "Eve")]] := exists_lowered (by decide +kernel)
  obtain ⟨lowered', h', hrows'⟩ : ∃ lowered, (Statement.select (.spec withoutTag) none).lower
      (Dialect.ofProduct .postgreSql ⟨16, 0, 0⟩) addressModel = .ok lowered ∧
        rowsLoosely addressDatabase lowered = [[some (.inr "Ann")], [some (.inr "Eve")]] :=
    exists_lowered (by decide +kernel)
  obtain rfl : lowered = lowered' := Except.ok.inj (h.symm.trans h')
  exact ⟨addressDatabase_fits, lowered, h, hrows, hrows'⟩

end Entity

end SqlDialects
