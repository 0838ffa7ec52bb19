import SqlDialects.Proofs.Rendering.Filled

/-!
# What a lock adds to a query

A lock puts one text into the SQL of a query, at its end or behind its first table, and at most one
warning in front of the others. Nothing else of the translation changes.
-/

namespace SqlDialects.Sql

/-! ## Texts of longer rows of pieces -/

namespace Translation

variable (d : Dialect) (config : TranslationConfig) (position : Nat) (pieces added : List Piece)

/-- The pieces behind others are written with the placeholders that follow. -/
theorem textsFrom_append : ∃ next, ∀ added,
    textsFrom d config position (pieces ++ added) =
      textsFrom d config position pieces ++ textsFrom d config next added := by
  induction pieces generalizing position with
  | nil => exact ⟨position, fun _ => rfl⟩
  | cons piece rest ih =>
    cases piece with
    | parameter p =>
      obtain ⟨next, hnext⟩ := ih (position + 1)
      exact ⟨next, fun added => congrArg (_ :: ·) (hnext added)⟩
    | text | name | string =>
      obtain ⟨next, hnext⟩ := ih position
      exact ⟨next, fun added => congrArg (_ :: ·) (hnext added)⟩

/-- A text between other pieces leaves their placeholders as they are. -/
theorem textsFrom_insert (text : String) : ∃ after,
    textsFrom d config position (pieces ++ added) =
      textsFrom d config position pieces ++ after ∧
    textsFrom d config position (pieces ++ .text text :: added) =
      textsFrom d config position pieces ++ text :: after := by
  obtain ⟨next, hnext⟩ := textsFrom_append d config position pieces
  exact ⟨textsFrom d config next added, hnext added, hnext (.text text :: added)⟩

theorem parametersFrom_insert (text : String) :
    parametersFrom config position (pieces ++ .text text :: added) =
      parametersFrom config position (pieces ++ added) := by
  induction pieces generalizing position with
  | nil => rfl
  | cons piece rest ih =>
    cases piece with
    | parameter p => exact congrArg (_ :: ·) (ih (position + 1))
    | text | name | string => exact ih position

end Translation

/-- The SQL of a fragment on its own. -/
def Fragment.sql (d : Dialect) (config : TranslationConfig) (f : Fragment) : String :=
  String.join (Translation.textsFrom d config 1 f.pieces)

namespace Fragment

variable (d : Dialect) (config : TranslationConfig)

theorem sql_append_text (f : Fragment) (text : String) :
    (f ++ ofText text).sql d config = f.sql d config ++ text := by
  obtain ⟨next, hnext⟩ := Translation.textsFrom_append d config 1 f.pieces
  rw [sql, append_pieces, hnext, String.join_append]
  simp [ofText, Translation.textsFrom, sql]

/-- A text between two fragments. -/
theorem sql_insert (f g : Fragment) (text : String) : ∃ after,
    (f ++ g).sql d config = f.sql d config ++ after ∧
      (f ++ (ofText text ++ g)).sql d config = f.sql d config ++ text ++ after := by
  obtain ⟨after, hwithout, hwith⟩ := Translation.textsFrom_insert d config 1 f.pieces g.pieces text
  refine ⟨String.join after, ?_, ?_⟩
  · rw [sql, append_pieces, hwithout, String.join_append, sql]
  · have hpieces : (f ++ (ofText text ++ g)).pieces = f.pieces ++ .text text :: g.pieces := rfl
    rw [sql, hpieces, hwith, String.join_append, String.join_cons, ← String.append_assoc, sql]

end Fragment

/-! ## The place of a hint -/

/-- A query up to its first table, the table included. -/
def QuerySpec.upToTable (c : Context) (body : QuerySpec) (first : TableReference) : Rendered :=
  .concat [.text "select ", c.selectPrefix body.isDistinct (Expression.renderOption c body.limit),
    .separated ", " (SelectItem.renderAll c body.select), .text " from ", Context.table first]

namespace Slot

theorem separated_cons_cons (separator : String) (slot : Slot) (row : List Slot)
    (rows : List (List Slot)) :
    separated separator ((slot :: row) :: rows) = slot :: separated separator (row :: rows) := by
  cases rows <;> rfl

end Slot

namespace Context

open Slot (fill)

variable {c : Context}

/-- The hint of a query has a slot of its own behind the first table. -/
theorem fill_specLayout_of_tables {body : QuerySpec} {first : TableReference} {joins : List Join}
    {rest : List FromItem} (ht : body.tables = ⟨first, joins⟩ :: rest) : ∃ behind, ∀ hint,
      fill c (c.specLayout hint body) =
        (body.upToTable c first).andThen ((Rendered.textIf (hint != "") hint).andThen behind) := by
  refine ⟨fill c (Slot.separated ", " (joins.flatMap joinLayout :: tableLayouts "" rest) ++
    Slot.clause " where " (body.condition.map fun p => [.condition p]) ++
    Slot.clause " group by " (groupByLayout body.groupBy) ++
    Slot.clause " having " (body.having.map fun p => [.condition p]) ++
    c.endLayout body.orderBy body.limit body.offset), fun hint => ?_⟩
  have htables : tableLayouts hint body.tables =
      (.own (table first) :: .own (.textIf (hint != "") hint) :: joins.flatMap joinLayout) ::
        tableLayouts "" rest := by
    rw [ht, tableLayouts, tableLayout]
  rw [specLayout, htables, Slot.separated_cons_cons, Slot.separated_cons_cons, QuerySpec.upToTable]
  simp only [Slot.fill_cons, Slot.fill_append, Slot.render_own, Slot.render_text,
    Slot.fill_separated, fill_prefixLayout, fill_itemLayouts, Rendered.concat_cons,
    Rendered.concat_nil, Rendered.andThen_assoc, Rendered.andThen_empty, List.cons_append]

end Context

/-- A query with a hint fails like the query without it, or has the hint behind its first table
and nowhere else. -/
theorem QuerySpec.render_hint (c : Context) (body : QuerySpec) {hint : String} (hh : hint ≠ "") :
    (∃ e, body.render c "" = .error e ∧ body.render c hint = .error e) ∨
    ∃ first joins rest f g, body.tables = ⟨first, joins⟩ :: rest ∧ body.upToTable c first = .ok f ∧
      body.render c "" = .ok (f ++ g) ∧ body.render c hint = .ok (f ++ (.ofText hint ++ g)) := by
  simp only [QuerySpec.render_eq_fill, QuerySpec.layout]
  split
  · exact .inl ⟨_, rfl, rfl⟩
  · cases ht : body.tables with
    | nil => exact .inl ⟨_, rfl, rfl⟩
    | cons item rest =>
      obtain ⟨first, joins⟩ := item
      have hne : ¬ (⟨first, joins⟩ :: rest : List FromItem).isEmpty = true := by simp
      rw [if_neg hne, if_neg hne]
      cases c.checkPagination body.limit body.offset with
      | error e => exact .inl ⟨e, rfl, rfl⟩
      | ok _ =>
        obtain ⟨behind, hfill⟩ := Context.fill_specLayout_of_tables (c := c) ht
        have hempty : Rendered.textIf ("" != "") "" = .empty := rfl
        have hwritten : Rendered.textIf (hint != "") hint = .ok (.ofText hint) := by
          rw [Rendered.textIf, if_pos (bne_iff_ne.2 hh), Rendered.text]
        simp only [hfill, hempty, hwritten, Rendered.empty_andThen]
        cases hhead : body.upToTable c first with
        | error e => exact .inl ⟨e, rfl, rfl⟩
        | ok f =>
          cases behind with
          | error e => exact .inl ⟨e, rfl, rfl⟩
          | ok g => exact .inr ⟨first, joins, rest, f, g, rfl, hhead, rfl, rfl⟩

/-! ## Locks -/

namespace LockOptions

/-- What is written for a lock. -/
def text (d : Dialect) (lock : LockOptions) : String :=
  match d.rules.lockSyntax with
  | .clause => modeText d.rules.forShare d.rules.forUpdate lock ++ optionText d lock
  | .tableHint update share => " with (" ++ modeText share update lock ++ optionText d lock ++ ")"
  | .omitted => ""

/-- A lock that is not written is reported, and so is an option that is not. -/
def warnings (d : Dialect) (lock : LockOptions) : List TranslationWarning :=
  if d.rules.lockSyntax = .omitted then [.lockClauseOmitted d.name]
  else
    match lock.wait with
    | .wait => []
    | .noWait => if d.supports .lockNoWait then [] else [.lockOptionIgnored d.name "nowait"]
    | .skipLocked =>
      if d.supports .lockSkipLocked then [] else [.lockOptionIgnored d.name "skip locked"]

variable {d : Dialect} (lock : LockOptions)

theorem optionWarning_eq (h : d.rules.lockSyntax ≠ .omitted) :
    optionWarning d lock = .ok { warnings := warnings d lock } := by
  rw [optionWarning, option?, warnings, if_neg h]
  cases lock.wait with
  | wait => rfl
  | noWait => dsimp only; split <;> rfl
  | skipLocked => dsimp only; split <;> rfl

theorem text_ne_empty {update share : String} (h : d.rules.lockSyntax = .tableHint update share) :
    text d lock ≠ "" := by
  rw [text, h]
  intro he
  have := congrArg String.length he
  simp at this

end LockOptions

/-- What a lock makes of the fragment of a query. -/
def Fragment.HasLock (d : Dialect) (body : QuerySpec) (lock : LockOptions) (f g : Fragment) :
    Prop :=
  match d.rules.lockSyntax with
  | .clause => g = f ++ .ofText (LockOptions.text d lock)
  | .tableHint _ _ => ∃ first joins rest before behind, body.tables = ⟨first, joins⟩ :: rest ∧
      body.upToTable { dialect := d } first = .ok before ∧ f = before ++ behind ∧
      g = before ++ (.ofText (LockOptions.text d lock) ++ behind)
  | .omitted => g = f

/-- A query with a lock fails like the query without it, or the lock has its text somewhere and its
warnings in front. -/
theorem lockedQuery_cases (d : Dialect) (body : QuerySpec) (lock : LockOptions) :
    (∃ e, body.render { dialect := d } "" = .error e ∧
      lockedQuery { dialect := d } (.spec body) lock = .error e) ∨
    ∃ f g, body.render { dialect := d } "" = .ok f ∧ Fragment.HasLock d body lock f g ∧
      lockedQuery { dialect := d } (.spec body) lock =
        .ok ({ warnings := LockOptions.warnings d lock } ++ g) := by
  have hquery (hint : String) :
      (Query.spec body).render { dialect := d } hint = body.render { dialect := d } hint := by
    rw [Query.render]
  unfold lockedQuery Fragment.HasLock
  cases hs : d.rules.lockSyntax with
  | clause =>
    have hw := LockOptions.optionWarning_eq lock (d := d) (by simp [hs])
    simp only [Query.isGroup, Bool.false_eq_true, if_false, hs, hquery, hw, LockOptions.text]
    cases body.render { dialect := d } "" with
    | error e => exact .inl ⟨e, rfl, rfl⟩
    | ok f => exact .inr ⟨f, _, rfl, rfl, rfl⟩
  | tableHint update share =>
    have hw := LockOptions.optionWarning_eq lock (d := d) (by simp [hs])
    have hhint := LockOptions.text_ne_empty lock hs
    simp only [Query.isGroup, Bool.false_eq_true, if_false, hs, hquery, hw]
    rw [LockOptions.text, hs] at hhint ⊢
    rcases body.render_hint { dialect := d } hhint with
      ⟨e, hplain, hlocked⟩ | ⟨first, joins, rest, before, behind, ht, hb, hplain, hlocked⟩
    · exact .inl ⟨e, hplain, by rw [hlocked]; rfl⟩
    · refine .inr ⟨_, _, hplain, ⟨first, joins, rest, before, behind, ht, hb, rfl, rfl⟩, ?_⟩
      rw [hlocked]
      simp only [Rendered.concat_cons, Rendered.concat_nil, Rendered.andThen_empty,
        Rendered.andThen_ok]
  | omitted =>
    have hw : LockOptions.warnings d lock = [.lockClauseOmitted d.name] := by
      rw [LockOptions.warnings, if_pos hs]
    simp only [Query.isGroup, Bool.false_eq_true, if_false, hs, hquery, hw]
    cases body.render { dialect := d } "" with
    | error e => exact .inl ⟨e, rfl, rfl⟩
    | ok f =>
      refine .inr ⟨f, f, rfl, rfl, ?_⟩
      rw [Rendered.concat_cons, Rendered.concat_cons, Rendered.concat_nil, Rendered.andThen_empty]
      rfl

/-! ## Translations -/

namespace Fragment.HasLock

variable {d : Dialect} (config : TranslationConfig) {body : QuerySpec} {lock : LockOptions}
  {f g : Fragment}

/-- Nothing but text is added. -/
theorem keeps (h : HasLock d body lock f g) :
    Translation.parametersFrom config 1 g.pieces = Translation.parametersFrom config 1 f.pieces ∧
      g.tables = f.tables ∧ g.warnings = f.warnings := by
  unfold HasLock at h
  split at h
  · subst h
    refine ⟨?_, List.append_nil _, List.append_nil _⟩
    have hend := Translation.parametersFrom_insert config 1 f.pieces [] (LockOptions.text d lock)
    rwa [List.append_nil] at hend
  · obtain ⟨first, joins, rest, before, behind, -, -, rfl, rfl⟩ := h
    exact ⟨Translation.parametersFrom_insert _ _ _ _ _, rfl, rfl⟩
  · subst h
    exact ⟨rfl, rfl, rfl⟩

end Fragment.HasLock

namespace Statement

/-- A lock changes neither the parameters nor the tables of a translation, puts its warnings in
front, and puts its text into the SQL once: at the very end, or behind the first table of the
outermost query. -/
theorem translate_locked (d : Dialect) (config : TranslationConfig) (body : QuerySpec)
    (lock : LockOptions) :
    (∃ e, (select (.spec body) none).translate d config = .error e ∧
      (select (.spec body) (some lock)).translate d config = .error e) ∨
    ∃ plain locked, (select (.spec body) none).translate d config = .ok plain ∧
      (select (.spec body) (some lock)).translate d config = .ok locked ∧
      locked.parameters = plain.parameters ∧ locked.tables = plain.tables ∧
      locked.warnings = LockOptions.warnings d lock ++ plain.warnings ∧
      match d.rules.lockSyntax with
      | .clause => locked.sql = plain.sql ++ LockOptions.text d lock
      | .tableHint _ _ => ∃ first joins rest before after, body.tables = ⟨first, joins⟩ :: rest ∧
          body.upToTable { dialect := d } first = .ok before ∧
          plain.sql = before.sql d config ++ after ∧
          locked.sql = before.sql d config ++ LockOptions.text d lock ++ after
      | .omitted => locked.sql = plain.sql := by
  have hplain (r : Rendered) (hr : body.render { dialect := d } "" = r) :
      (select (.spec body) none).translate d config = r.map (.ofFragment d config) := by
    rw [translate, render, Query.render, hr]
    cases r <;> rfl
  have hlocked (r : Rendered) (hr : lockedQuery { dialect := d } (.spec body) lock = r) :
      (select (.spec body) (some lock)).translate d config = r.map (.ofFragment d config) := by
    rw [translate, render, hr]
    cases r <;> rfl
  rcases lockedQuery_cases d body lock with ⟨e, hp, hl⟩ | ⟨f, g, hp, hg, hl⟩
  · exact .inl ⟨e, hplain _ hp, hlocked _ hl⟩
  · refine .inr ⟨_, _, hplain _ hp, hlocked _ hl, ?_⟩
    obtain ⟨hparameters, htables, hwarnings⟩ := hg.keeps config
    refine ⟨hparameters, congrArg Translation.distinct htables,
      congrArg (LockOptions.warnings d lock ++ ·) hwarnings, ?_⟩
    -- The fragment of the warnings has no pieces, so the SQL is that of the fragment behind it.
    show match d.rules.lockSyntax with
      | .clause => g.sql d config = f.sql d config ++ LockOptions.text d lock
      | .tableHint _ _ => ∃ first joins rest before after, body.tables = ⟨first, joins⟩ :: rest ∧
          body.upToTable { dialect := d } first = .ok before ∧
          f.sql d config = before.sql d config ++ after ∧
          g.sql d config = before.sql d config ++ LockOptions.text d lock ++ after
      | .omitted => g.sql d config = f.sql d config
    unfold Fragment.HasLock at hg
    cases hs : d.rules.lockSyntax with
    | clause =>
      rw [hs] at hg
      rw [hg, Fragment.sql_append_text]
    | tableHint update share =>
      rw [hs] at hg
      obtain ⟨first, joins, rest, before, behind, ht, hb, rfl, rfl⟩ := hg
      obtain ⟨after, hwithout, hwith⟩ := Fragment.sql_insert d config before behind
        (LockOptions.text d lock)
      exact ⟨first, joins, rest, before, after, ht, hb, hwithout, hwith⟩
    | omitted =>
      rw [hs] at hg
      rw [hg]

end Statement

end SqlDialects.Sql
