import SqlDialects.Proofs.Counting.Trees
import SqlDialects.Proofs.Lowering.Aliases

/-!
# Counting without subqueries

A dialect without subqueries in the select list counts the members of a collection by a join and
groups by the owners and the other selected values. The rows are those of the query with a subquery
for each count if these keys tell the rows apart. Keys of other tables of the query are not among
them, so that rows of different records may fall together.
-/

namespace SqlDialects.Entity

open Sql (everyKey)

/-- A query that is lowered for a dialect without subqueries in the select list is lowered for the
dialect with them, too. Both return the same rows if the latter tells its rows apart, in all its
queries that count. If these are apart in the queries inside it, a query that counts and leaves no
row out returns the same rows only if it tells them apart. -/
theorem Statement.lower_counts_rows {query : Query} {lock : Option LockOptions} {d : Dialect}
    {model : Mapping.Model} {lowered : Sql.Statement}
    (hd : d.supports .subqueryInSelect = false)
    (h : (Statement.select query lock).lower d model = .ok lowered) {σ : Type} [DecidableEq σ]
    {db : Sql.Database σ} (hfits : db.Fits model) :
    ∃ q q', lowered = .select q lock ∧
      (Statement.select query lock).lower d.withSubqueries model = .ok (.select q' lock) ∧
      ((∀ spec ∈ q'.specs everyKey, spec.CountsApart db) → q.rows db [] = q'.rows db []) ∧
      ∀ spec', q' = .spec spec' → spec'.countedOwners ≠ [] → spec'.IsPlain →
        (∀ spec ∈ (spec'.specs everyKey).tail, spec.CountsApart db) →
          ((q.rows db []).Perm (q'.rows db []) ↔ spec'.Apart db []) := by
  obtain ⟨t, h⟩ := Statement.lower_ok_iff.1 h
  simp only [Statement.lowerIn, Lower.bind_ok_iff, Lower.pure_ok_iff, Prod.mk.injEq] at h
  obtain ⟨q, _, hq, rfl, rfl⟩ := h
  have hc : CountsByJoins db { dialect := d, model } := ⟨hd, hfits⟩
  have htwin : Twin db model [] {} {} :=
    { nextAlias := rfl
      scopes := .nil
      sound := .start
      sound' := .start }
  obtain ⟨q', t', hq', -, -, -, hforms⟩ := (query.lower_mirrors false hc).run htwin hq
  have hforms := hforms _ (List.Subset.refl _)
  refine ⟨q, q', rfl, Statement.lower_ok_iff.2 ⟨t', ?_⟩, fun hapart => ?_, ?_⟩
  · simp only [Statement.lowerIn, Lower.bind_ok_iff, Lower.pure_ok_iff]
    exact ⟨q', t', hq', rfl⟩
  · exact hforms.agrees hapart [] [] fun _ _ => rfl
  · rintro spec' rfl hcounted hplain hspecs
    obtain ⟨spec, outer, counts, rfl, -, hspec⟩ := hforms.spec spec' rfl
    refine hspec.perm_iff_apart ?_ (fun _ _ => rfl) hspecs hplain
    rintro rfl
    exact hcounted (hspec.select.owners rfl)

/-! ## Names and numbers of nicknames -/

def namesAndNicknames (joins : List PathJoin) : Statement :=
  .select (.spec
    { select := [⟨.path ⟨"p", ["name"]⟩, none⟩, ⟨.size ⟨"p", ["nicknames"]⟩, none⟩]
      roots := [⟨"Person", "p", joins⟩] }) none

/-- Two people of the same name. One of them has two nicknames and two tags. -/
def peopleDatabase : Sql.Database (Nat ⊕ String) where
  table
    | "person" =>
      { columns := ["id", "name"]
        records :=
          [[("id", some (.inl 1)), ("name", some (.inr "Ann"))],
            [("id", some (.inl 2)), ("name", some (.inr "Ann"))]] }
    | "nickname" => ⟨["id"], [[("id", some (.inl 1))], [("id", some (.inl 2))]]⟩
    | "person_nicknames" =>
      { columns := ["person_id", "nickname_id"]
        records :=
          [[("person_id", some (.inl 1)), ("nickname_id", some (.inl 1))],
            [("person_id", some (.inl 1)), ("nickname_id", some (.inl 2))]] }
    | "tag" =>
      { columns := ["id", "person_id"]
        records :=
          [[("id", some (.inl 1)), ("person_id", some (.inl 1))],
            [("id", some (.inl 2)), ("person_id", some (.inl 1))]] }
    | _ => ⟨[], []⟩
  literal _ := none
  literal_same _ _ _ := rfl
  parameter _ := none
  number := .inl
  compute _ _ := none
  summary _ _ := none
  compare _ _ _ := none
  like _ _ _ _ := none
  truth _ := none
  order _ _ _ _ := .eq
  rowCount _ := none

theorem peopleDatabase_fits : peopleDatabase.Fits peopleModel :=
  Sql.Database.fits_of_entities (by decide +kernel)

/-- The rows that a statement selects. -/
def rowsIn (db : Sql.Database (Nat ⊕ String)) : Sql.Statement → List (Sql.Value (Nat ⊕ String))
  | .select query _ => query.rows db []
  | _ => []

/-- The statement is a query that counts, and it tells its rows apart. -/
def tellsApart (db : Sql.Database (Nat ⊕ String)) : Sql.Statement → Bool
  | .select (.spec spec) _ =>
    !spec.countedOwners.isEmpty && (decide spec.IsPlain && decide (spec.Apart db [])) &&
      (spec.specs everyKey).tail.all (·.countedOwners.isEmpty)
  | _ => false

/-- Two owners of the same name stay apart. -/
theorem namesAndNicknames_rows_perm : ∃ q q',
    (namesAndNicknames []).lower (Dialect.ofProduct .ingres ⟨9, 2, 0⟩) peopleModel =
      .ok (.select q none) ∧
    (namesAndNicknames []).lower (Dialect.ofProduct .ingres ⟨9, 2, 0⟩).withSubqueries peopleModel =
      .ok (.select q' none) ∧
    q.rows peopleDatabase [] =
      [[some (.inr "Ann"), some (.inl 2)], [some (.inr "Ann"), some (.inl 0)]] ∧
    (q.rows peopleDatabase []).Perm (q'.rows peopleDatabase []) := by
  have hlowered : ∃ lowered, (namesAndNicknames []).lower
      (Dialect.ofProduct .ingres ⟨9, 2, 0⟩) peopleModel = .ok lowered ∧
        rowsIn peopleDatabase lowered =
          [[some (.inr "Ann"), some (.inl 2)], [some (.inr "Ann"), some (.inl 0)]] :=
    exists_lowered (by decide +kernel)
  have hlowered' : ∃ lowered', (namesAndNicknames []).lower
      (Dialect.ofProduct .ingres ⟨9, 2, 0⟩).withSubqueries peopleModel = .ok lowered' ∧
        tellsApart peopleDatabase lowered' = true :=
    exists_lowered (by decide +kernel)
  obtain ⟨lowered, h, hrows⟩ := hlowered
  obtain ⟨lowered', h', happart⟩ := hlowered'
  obtain ⟨q, q', rfl, hq', -, hiff⟩ :=
    Statement.lower_counts_rows (by decide +kernel) h peopleDatabase_fits
  obtain rfl : lowered' = .select q' none := Except.ok.inj (h'.symm.trans hq')
  refine ⟨q, q', h, hq', hrows, ?_⟩
  cases q' with
  | group => simp [tellsApart] at happart
  | spec spec' =>
    simp only [tellsApart, Bool.and_eq_true, Bool.not_eq_true', List.isEmpty_eq_false_iff,
      decide_eq_true_eq, List.all_eq_true, List.isEmpty_iff] at happart
    obtain ⟨⟨hcounted, hplain, hapart⟩, hinner⟩ := happart
    exact (hiff spec' rfl hcounted hplain fun spec hs hc => absurd (hinner spec hs) hc).2 hapart

/-- Beside the tags of the people, whose ids are not among the keys, two rows fall together. -/
theorem namesAndNicknames_rows_fall_together : ∃ lowered lowered',
    (namesAndNicknames [⟨.inner, ⟨"p", ["tags"]⟩, "g"⟩]).lower
      (Dialect.ofProduct .ingres ⟨9, 2, 0⟩) peopleModel = .ok lowered ∧
    (namesAndNicknames [⟨.inner, ⟨"p", ["tags"]⟩, "g"⟩]).lower
      (Dialect.ofProduct .ingres ⟨9, 2, 0⟩).withSubqueries peopleModel = .ok lowered' ∧
    rowsIn peopleDatabase lowered = [[some (.inr "Ann"), some (.inl 2)]] ∧
    rowsIn peopleDatabase lowered' =
      [[some (.inr "Ann"), some (.inl 2)], [some (.inr "Ann"), some (.inl 2)]] := by
  have hlowered : ∃ lowered, (namesAndNicknames [⟨.inner, ⟨"p", ["tags"]⟩, "g"⟩]).lower
      (Dialect.ofProduct .ingres ⟨9, 2, 0⟩) peopleModel = .ok lowered ∧
        rowsIn peopleDatabase lowered = [[some (.inr "Ann"), some (.inl 2)]] :=
    exists_lowered (by decide +kernel)
  have hlowered' : ∃ lowered', (namesAndNicknames [⟨.inner, ⟨"p", ["tags"]⟩, "g"⟩]).lower
      (Dialect.ofProduct .ingres ⟨9, 2, 0⟩).withSubqueries peopleModel = .ok lowered' ∧
        rowsIn peopleDatabase lowered' =
          [[some (.inr "Ann"), some (.inl 2)], [some (.inr "Ann"), some (.inl 2)]] :=
    exists_lowered (by decide +kernel)
  obtain ⟨lowered, h, hrows⟩ := hlowered
  obtain ⟨lowered', h', hrows'⟩ := hlowered'
  exact ⟨lowered, lowered', h, h', hrows, hrows'⟩

end SqlDialects.Entity
