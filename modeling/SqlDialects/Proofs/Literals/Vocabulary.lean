import SqlDialects.Proofs.ColumnTemplates
import SqlDialects.Proofs.Literals.Phases

/-!
# The words of a dialect

What a product writes itself opens no literal that it does not close, and has no placeholder
outside of one. This holds of every product at every version: each layer keeps it.
-/

namespace SqlDialects

/-! ## Functions -/

namespace FunctionTemplate

/-- The pattern of a format goes into a call as a string, so it must not be quoted again. -/
def isClean (template : FunctionTemplate) : Bool :=
  template.rendering.isClean && (template.name != "format" || !template.quotes 2 1)

end FunctionTemplate

namespace FunctionRegistry

/-- Each template is clean and stands under its own name. -/
def IsClean (registry : FunctionRegistry) : Prop :=
  ∀ entry ∈ registry.templates.toList, entry.1 = entry.2.name ∧ entry.2.isClean = true

variable {registry : FunctionRegistry}

theorem isClean_empty : IsClean {} := nofun

theorem mem_registerAll {templates : List FunctionTemplate} {entry : String × FunctionTemplate}
    (h : entry ∈ (registry.registerAll templates).templates.toList) :
    entry ∈ registry.templates.toList ∨ entry.1 = entry.2.name ∧ entry.2 ∈ templates := by
  induction templates generalizing registry with
  | nil => exact .inl h
  | cons template rest ih =>
    rcases ih h with hentry | ⟨hname, hrest⟩
    · rcases SortedMap.mem_insertInto hentry with rfl | hentry
      · exact .inr ⟨rfl, List.mem_cons_self⟩
      · exact .inl hentry
    · exact .inr ⟨hname, List.mem_cons_of_mem _ hrest⟩

theorem IsClean.registerAll (h : registry.IsClean) {templates : List FunctionTemplate}
    (hnew : templates.all FunctionTemplate.isClean = true) :
    (registry.registerAll templates).IsClean := by
  intro entry hentry
  rcases mem_registerAll hentry with hentry | ⟨hname, hmem⟩
  · exact h entry hentry
  · exact ⟨hname, List.all_eq_true.1 hnew _ hmem⟩

theorem IsClean.rendering (h : registry.IsClean) {name : String} {template : FunctionTemplate}
    (hget : registry.get? name = some template) : template.rendering.isClean = true :=
  (Bool.and_eq_true_iff.1 (h _ (SortedMap.mem_of_get? hget)).2).1

theorem IsClean.format (h : registry.IsClean) {template : FunctionTemplate}
    (hget : registry.get? "format" = some template) : template.quotes 2 1 = false := by
  obtain ⟨hname, hclean⟩ := h _ (SortedMap.mem_of_get? hget)
  have hlower : Text.lower "format" = "format" := by decide
  have hname : template.name = "format" := hname.symm.trans hlower
  simpa [hname] using (Bool.and_eq_true_iff.1 hclean).2

end FunctionRegistry

/-! ## Column types -/

/-- Sizes are written in digits, so only the tokens for text matter. -/
def ColumnTemplate.isClean (template : ColumnTemplate) : Bool :=
  (Template.tokens template.source).all fun token =>
    match token.kind with
    | .length | .precision | .scale => true
    | _ => token.chars.all fun c => c != '\x27' && !Sql.Spot.isSign c

theorem Text.isPlain_toString (n : Nat) : Text.isPlain (toString n) = true := by
  refine Text.isPlain_of_identifier (List.all_eq_true.2 fun c hc => ?_)
  rw [Nat.toString_eq_ofList_toDigits, String.toList_ofList] at hc
  have hdigit := Nat.isDigit_of_mem_toDigits (by omega) (by omega) hc
  simp [Char.isAlphanum, hdigit]

namespace ColumnTypeRegistry

/-- Each template of the buckets is clean. -/
def BucketsClean (buckets : ColumnBuckets) : Prop :=
  (∀ entry ∈ buckets.sized.toList, entry.2.isClean = true) ∧
    ∀ template, buckets.unrestricted = some template → template.isClean = true

def IsClean (registry : ColumnTypeRegistry) : Prop := ∀ code, BucketsClean (registry.buckets code)

variable {registry : ColumnTypeRegistry}

theorem isClean_empty : IsClean {} := all_empty

theorem IsClean.registerAll (h : registry.IsClean) {types : List (SqlType × Option Nat × String)}
    (hnew : types.all (fun t => ColumnTemplate.isClean ⟨t.2.2⟩) = true) :
    (registry.registerAll types).IsClean :=
  All.registerAll h hnew

theorem IsClean.declareFixed (h : registry.IsClean) : (Ingres.declareFixed registry).IsClean :=
  All.declareFixed h (by decide)

theorem IsClean.isPlain (h : registry.IsClean) {code : SqlType} {size : ColumnSize} {type : String}
    (hget : registry.get code size = some type) : Text.isPlain type = true := by
  obtain ⟨template, htemplate, rfl⟩ := All.get h hget
  refine ColumnTemplate.all_render htemplate (fun c hc => ?_) size
  have hplain := Text.isPlain_of_identifier (t := String.singleton c) (by simp [Char.isAlphanum, hc])
  simpa [Text.isPlain] using hplain

end ColumnTypeRegistry

/-! ## Rules -/

namespace UnitTexts

variable {texts : UnitTexts} {P : String → Bool}

theorem all_none : ∀ unit, ((none : UnitTexts) unit).all P = true := fun _ => rfl

theorem all_set (h : ∀ unit, (texts unit).all P = true) {text : String} (hnew : P text = true)
    (unit : TemporalUnit) : ∀ u, (texts.set unit text u).all P = true := by
  intro u
  unfold set
  split
  · exact hnew
  · exact h u

theorem all_setAll (h : ∀ unit, (texts unit).all P = true)
    {pairs : List (TemporalUnit × String)} (hnew : pairs.all (fun p => P p.2) = true) :
    ∀ unit, (texts.setAll pairs unit).all P = true := by
  induction pairs generalizing texts with
  | nil => exact h
  | cons pair rest ih =>
    rw [List.all_cons, Bool.and_eq_true] at hnew
    exact ih (all_set h hnew.1 pair.1) hnew.2

end UnitTexts

namespace TimestampArithmetic

def isCleanFor (arithmetic : TimestampArithmetic) (unit : TemporalUnit) : Bool :=
  (arithmetic.add? unit).all (fun source => Pattern.isClean ⟨source⟩) &&
    (arithmetic.diff? unit).all (fun source => Pattern.isClean ⟨source⟩)

def IsClean (arithmetic : TimestampArithmetic) : Prop := ∀ unit, arithmetic.isCleanFor unit = true

theorem isClean_patterns {add diff : String} (hadd : Pattern.isClean ⟨add⟩ = true)
    (hdiff : Pattern.isClean ⟨diff⟩ = true) : (patterns add diff).IsClean :=
  fun _ => Bool.and_eq_true_iff.2 ⟨hadd, hdiff⟩

theorem isClean_of_all {arithmetic : TimestampArithmetic}
    (h : TemporalUnit.all.all arithmetic.isCleanFor = true) : arithmetic.IsClean :=
  fun unit => List.all_eq_true.1 h unit (by cases unit <;> decide)

theorem isClean_interval : interval.IsClean := isClean_of_all (by decide +kernel)

theorem isClean_julianDay : julianDay.IsClean := isClean_of_all (by decide +kernel)

end TimestampArithmetic

namespace DialectRules

/-- The spelling rules are written in clean texts and patterns. -/
structure IsClean (rules : DialectRules) : Prop where
  extractField : ∀ unit, (rules.extractFields unit).all Text.isPlain = true
  extractPattern : ∀ unit,
    (rules.extractPatterns unit).all (fun source => Pattern.isClean ⟨source⟩) = true
  timestampArithmetic : rules.timestampArithmetic.IsClean
  lowercaseFunction : Text.isPlain rules.lowercaseFunction = true
  noWait : Text.isPlain rules.noWait = true
  skipLocked : Text.isPlain rules.skipLocked = true
  lockClause : rules.lockSyntax = .clause →
    Text.isLink rules.forUpdate = true ∧ Text.isLink rules.forShare = true
  lockHint : ∀ update share, rules.lockSyntax = .tableHint update share →
    Text.isPlain update = true ∧ Text.isPlain share = true

variable {base : DialectRules}

theorem isClean_standard : IsClean {} where
  extractField := UnitTexts.all_none
  extractPattern := UnitTexts.all_none
  timestampArithmetic :=
    TimestampArithmetic.isClean_patterns (by decide) (by decide)
  lowercaseFunction := by decide
  noWait := by decide
  skipLocked := by decide
  lockClause _ := by decide
  lockHint := nofun

theorem IsClean.ingres (h : base.IsClean) (version : Version) :
    (Ingres.rules version base).IsClean where
  extractField := UnitTexts.all_setAll h.extractField (by decide +kernel)
  extractPattern := h.extractPattern
  timestampArithmetic :=
    TimestampArithmetic.isClean_patterns (by decide) (by decide)
  lowercaseFunction := (by decide : Text.isPlain "lowercase" = true)
  noWait := h.noWait
  skipLocked := h.skipLocked
  lockClause := nofun
  lockHint := nofun

theorem IsClean.postgreSql (h : base.IsClean) : (PostgreSql.rules base).IsClean where
  extractField := UnitTexts.all_set h.extractField (by decide) .dayOfYear
  extractPattern := UnitTexts.all_set h.extractPattern (by decide) .dayOfWeek
  timestampArithmetic := TimestampArithmetic.isClean_interval
  lowercaseFunction := h.lowercaseFunction
  noWait := h.noWait
  skipLocked := h.skipLocked
  lockClause := h.lockClause
  lockHint := h.lockHint

theorem IsClean.mySql (h : base.IsClean) (hlock : base.lockSyntax = .clause) (version : Version) :
    (MySql.rules version base).IsClean where
  extractField := h.extractField
  extractPattern := UnitTexts.all_setAll h.extractPattern (by decide +kernel)
  timestampArithmetic :=
    TimestampArithmetic.isClean_patterns (by decide) (by decide)
  lowercaseFunction := h.lowercaseFunction
  noWait := h.noWait
  skipLocked := h.skipLocked
  lockClause _ := by
    obtain ⟨hupdate, hshare⟩ := h.lockClause hlock
    refine ⟨hupdate, ?_⟩
    simp only [MySql.rules]
    split
    · decide
    · exact hshare
  lockHint := h.lockHint

theorem IsClean.sqlite (h : base.IsClean) : (Sqlite.rules base).IsClean where
  extractField := h.extractField
  extractPattern := UnitTexts.all_setAll h.extractPattern (by decide +kernel)
  timestampArithmetic := TimestampArithmetic.isClean_julianDay
  lowercaseFunction := h.lowercaseFunction
  noWait := h.noWait
  skipLocked := h.skipLocked
  lockClause := nofun
  lockHint := nofun

theorem IsClean.sqlServer (h : base.IsClean) (version : Version) :
    (SqlServer.rules version base).IsClean where
  extractField := UnitTexts.all_setAll h.extractField (by decide +kernel)
  extractPattern := h.extractPattern
  timestampArithmetic :=
    TimestampArithmetic.isClean_patterns (by decide) (by decide)
  lowercaseFunction := h.lowercaseFunction
  noWait := (by decide : Text.isPlain ", nowait" = true)
  skipLocked := (by decide : Text.isPlain ", readpast" = true)
  lockClause := nofun
  lockHint update share hlock := by
    obtain ⟨rfl, rfl⟩ := LockSyntax.tableHint.inj hlock
    exact ⟨by decide, by decide⟩

end DialectRules

/-! ## Dialects -/

namespace Dialect

structure IsClean (d : Dialect) : Prop where
  functions : d.functions.IsClean
  columnTypes : d.columnTypes.IsClean
  rules : d.rules.IsClean
  allRows : ∀ rows, d.rowLimit = .limitOffset (some rows) → Text.isPlain rows = true

theorem isClean_standard (product : Product) (version : Version) :
    (Standard.dialect product version).IsClean where
  functions := FunctionRegistry.isClean_empty.registerAll (by decide +kernel)
  columnTypes := ColumnTypeRegistry.isClean_empty.registerAll (by decide +kernel)
  rules := DialectRules.isClean_standard
  allRows := nofun

variable {base : Dialect}

theorem IsClean.postgreSql (h : base.IsClean) : (PostgreSql.layer base).IsClean where
  functions := by
    simp only [PostgreSql.layer, offer, declare, allow]
    exact h.functions.registerAll (by decide +kernel)
  columnTypes := by
    simp only [PostgreSql.layer, offer, declare, allow]
    exact h.columnTypes.registerAll (by decide +kernel)
  rules := h.rules.postgreSql
  allRows := nofun

theorem IsClean.mySql (h : base.IsClean) (hlock : base.rules.lockSyntax = .clause) :
    (MySql.layer base).IsClean where
  functions := by
    simp only [MySql.layer, offer, declare, allow]
    exact h.functions.registerAll (by decide +kernel)
  columnTypes := by
    simp only [MySql.layer, offer, declare, allow]
    exact h.columnTypes.registerAll (by decide +kernel)
  rules := h.rules.mySql hlock base.version
  allRows rows hrows := by
    obtain rfl := Option.some.inj (RowLimit.limitOffset.inj hrows)
    decide

theorem IsClean.sqlite (h : base.IsClean) : (Sqlite.layer base).IsClean where
  functions := by
    simp only [Sqlite.layer, offer, declare, allow]
    exact h.functions.registerAll (by decide +kernel)
  columnTypes := by
    simp only [Sqlite.layer, offer, declare, allow]
    exact h.columnTypes.registerAll (by decide +kernel)
  rules := h.rules.sqlite
  allRows rows hrows := by
    obtain rfl := Option.some.inj (RowLimit.limitOffset.inj hrows)
    decide

theorem SqlServer.isClean_functions (version : Version) :
    (SqlServer.functions version).all FunctionTemplate.isClean = true := by
  unfold SqlServer.functions
  split <;> decide

theorem SqlServer.isClean_columnTypes (version : Version) :
    (SqlServer.columnTypes version).all (fun t => ColumnTemplate.isClean ⟨t.2.2⟩) = true := by
  unfold SqlServer.columnTypes
  split <;> decide

theorem IsClean.sqlServer (h : base.IsClean) : (SqlServer.layer base).IsClean where
  functions := by
    simp only [SqlServer.layer, offer, declare, allow]
    exact h.functions.registerAll (SqlServer.isClean_functions base.version)
  columnTypes := by
    simp only [SqlServer.layer, offer, declare, allow]
    exact h.columnTypes.registerAll (SqlServer.isClean_columnTypes base.version)
  rules := h.rules.sqlServer base.version
  allRows rows hrows := by
    simp only [SqlServer.layer, SqlServer.rowLimit] at hrows
    split at hrows <;> cases hrows

theorem Ingres.isClean_columnTypes (version : Version) :
    (Ingres.columnTypes version).all (fun t => ColumnTemplate.isClean ⟨t.2.2⟩) = true := by
  unfold Ingres.columnTypes
  split <;> split <;> decide

theorem IsClean.ingres (h : base.IsClean) : (Ingres.layer base).IsClean where
  functions := by
    simp only [Ingres.layer, offer, declare, allow]
    exact h.functions.registerAll (by decide +kernel)
  columnTypes := by
    simp only [Ingres.layer, offer, declare, allow]
    exact (h.columnTypes.registerAll (Ingres.isClean_columnTypes base.version)).declareFixed
  rules := h.rules.ingres base.version
  allRows rows hrows := by
    simp only [Ingres.layer, Ingres.rowLimit] at hrows
    split at hrows <;> cases hrows

/-- No product writes half a literal or a placeholder of its own. -/
theorem isClean_ofProduct (product : Product) (version : Version) :
    (ofProduct product version).IsClean := by
  have h := isClean_standard product version
  cases product with
  | ingres => exact h.ingres
  | postgreSql => exact h.postgreSql
  | mySql => exact h.mySql rfl
  | sqlite => exact h.sqlite
  | sqlServer => exact h.sqlServer

end Dialect

end SqlDialects
