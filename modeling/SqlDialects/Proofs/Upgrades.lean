import SqlDialects.Proofs.Lowering.Checks
import SqlDialects.Schema.Script

/-!
# Versions that errors ask for

Where an error names the first version with what is missing, the version that it comes from is an
older one, and at the named version nothing fails for the same reason.
-/

namespace SqlDialects

open Dialect (ExplainsFailure)

variable {d : Dialect}

/-! ## Failures of schemas -/

namespace Schema

open Mapping

variable {model : Model} {entity : Entity}

theorem explainsFailure_typeName {a : Attribute} : d.ExplainsFailure (typeName d a) := by
  unfold typeName Dialect.columnType
  dsimp only
  split
  · exact .ok
  · exact .error trivial

theorem Column.explainsFailure_ofAttribute {a : Attribute} :
    d.ExplainsFailure (Column.ofAttribute d a) :=
  explainsFailure_typeName.bind fun _ => .ok

theorem explainsFailure_idColumn (hd : d.Gated) : d.ExplainsFailure (idColumn d entity) := by
  unfold idColumn
  split
  · refine explainsFailure_typeName.bind fun typeName => ?_
    split
    · exact .ok
    · next h =>
      exact .error (Dialect.explains_lacks (by decide) (hd.identity _ _ h))
  · exact Column.explainsFailure_ofAttribute

theorem explainsFailure_associationColumn {association : ToOne} :
    d.ExplainsFailure (associationColumn d model association) :=
  Dialect.explainsFailure_entity.bind fun _ => Column.explainsFailure_ofAttribute

theorem explainsFailure_table (hd : d.Gated) : d.ExplainsFailure (table d model entity) := by
  refine (explainsFailure_idColumn hd).bind fun id => ?_
  refine (ExplainsFailure.mapM (fun _ => Column.explainsFailure_ofAttribute) _).bind fun _ => ?_
  refine (ExplainsFailure.mapM (fun _ => explainsFailure_associationColumn) _).bind fun _ => ?_
  exact (ExplainsFailure.mapM (fun _ => Column.explainsFailure_ofAttribute) _).bind fun _ => .ok

theorem explainsFailure_joinTable? {collection : ToMany} :
    d.ExplainsFailure (joinTable? d model entity collection) := by
  unfold joinTable?
  split
  · exact .ok
  · refine Dialect.explainsFailure_entity.bind fun element => ?_
    refine Column.explainsFailure_ofAttribute.bind fun ownerKey => ?_
    exact Column.explainsFailure_ofAttribute.bind fun elementKey => .ok

theorem explainsFailure_joinTables : d.ExplainsFailure (joinTables d model entity) :=
  (ExplainsFailure.mapM (fun _ => explainsFailure_joinTable?) _).bind fun _ => .ok

theorem explainsFailure_collectionKeys {collection : ToMany} :
    d.ExplainsFailure (collectionKeys model entity collection) := by
  refine Dialect.explainsFailure_entity.bind fun element => ?_
  split
  · exact .ok
  · split <;> exact .ok

theorem explainsFailure_foreignKeys : d.ExplainsFailure (foreignKeys d model entity) := by
  unfold foreignKeys
  split
  · have hassociation (association : ToOne) :
        d.ExplainsFailure (associationKey model entity association) :=
      Dialect.explainsFailure_entity.bind fun _ => .ok
    refine (ExplainsFailure.mapM hassociation _).bind fun _ => ?_
    exact (ExplainsFailure.mapM (fun _ => explainsFailure_collectionKeys) _).bind fun _ => .ok
  · exact .ok

/-- Sequences are there where the gate is open. -/
theorem explains_sequences (hd : d.Gated) (h : ¬ d.sequence.isSupported = true) :
    d.Explains (d.lacks .sequences "sequences") :=
  Dialect.explains_lacks (by decide) (hd.sequence ▸ Bool.eq_false_iff.2 h)

theorem explainsFailure_sequenceCreation (hd : d.Gated) :
    d.ExplainsFailure (sequenceCreation d entity) := by
  unfold sequenceCreation createSequence
  split
  · split
    · exact .ok
    · next h => exact .error (explains_sequences hd h)
  · exact .ok

theorem explainsFailure_sequenceRemoval (hd : d.Gated) :
    d.ExplainsFailure (sequenceRemoval d entity) := by
  unfold sequenceRemoval dropSequence
  split
  · split
    · exact .ok
    · next h => exact .error (explains_sequences hd h)
  · exact .ok

theorem explainsFailure_create (hd : d.Gated) : d.ExplainsFailure (create d model) := by
  refine (ExplainsFailure.mapM (fun _ => explainsFailure_sequenceCreation hd) _).bind fun _ => ?_
  refine (ExplainsFailure.mapM (fun _ => explainsFailure_table hd) _).bind fun _ => ?_
  refine (ExplainsFailure.mapM (fun _ => explainsFailure_joinTables) _).bind fun _ => ?_
  exact (ExplainsFailure.mapM (fun _ => explainsFailure_foreignKeys) _).bind fun _ => .ok

theorem explainsFailure_drop (hd : d.Gated) : d.ExplainsFailure (drop d model) :=
  (ExplainsFailure.mapM (fun _ => explainsFailure_sequenceRemoval hd) _).bind fun _ => .ok

end Schema

/-! ## Operations -/

/-- What a dialect can be asked for. -/
inductive Operation where
  | query (statement : Entity.Statement) (model : Mapping.Model)
  | tree (statement : Sql.Statement)
  | create (model : Mapping.Model)
  | drop (model : Mapping.Model)

/-- A translation, or the statements for a schema. -/
abbrev Operation.Result := Sql.Translation ⊕ List Schema.Statement

namespace Operation

def run (d : Dialect) (config : Sql.TranslationConfig) : Operation → Except DialectError Result
  | query statement model => do
    let lowered ← statement.lower d model
    return .inl (← lowered.translate d config)
  | tree statement => return .inl (← statement.translate d config)
  | create model => return .inr (← Schema.create d model)
  | drop model => return .inr (← Schema.drop d model)

variable {config : Sql.TranslationConfig} {op : Operation}

theorem explainsFailure_run (hd : d.Gated) : d.ExplainsFailure (op.run d config) := by
  have htree (statement : Sql.Statement) : d.ExplainsFailure (statement.translate d config) :=
    fun _ h => Sql.Statement.translate_explained hd h
  cases op with
  | query statement model =>
    have hlower : d.ExplainsFailure (statement.lower d model) :=
      fun _ h => Entity.Statement.lower_explained h
    exact hlower.bind fun lowered => (htree lowered).bind fun _ => .ok
  | tree statement => exact (htree statement).bind fun _ => .ok
  | create model => exact (Schema.explainsFailure_create hd).bind fun _ => .ok
  | drop model => exact (Schema.explainsFailure_drop hd).bind fun _ => .ok

/-- An error that asks for a later version comes from an earlier one, and the same operation does
not fail for the same construct at the version that it asks for. -/
theorem run_at_minimum {product : Product} {version minimum : Version} {name construct : String}
    (h : op.run (.ofProduct product version) config =
      .error (.unsupportedConstruct name construct (some minimum))) :
    version.isBefore minimum = true ∧
      ∀ config' name' minimum', op.run (.ofProduct product minimum) config' ≠
        .error (.unsupportedConstruct name' construct minimum') := by
  have he := explainsFailure_run (Dialect.gated_ofProduct version product) _ h
  unfold Dialect.Explains at he
  cases hc : Capability.constructs.lookup construct with
  | none => simp [hc] at he
  | some capability =>
    simp only [hc] at he
    obtain ⟨hlacks, hminimum⟩ := he
    have hgate := Dialect.minimumVersion_ofProduct.1 hminimum.symm
    rw [Dialect.supports_ofProduct, hgate, Gate.admits] at hlacks
    refine ⟨by simpa [Version.isSince, Version.isBefore] using hlacks, fun config' _ _ h' => ?_⟩
    have he' := explainsFailure_run (Dialect.gated_ofProduct minimum product) _ h'
    simp only [Dialect.Explains, hc] at he'
    have hlater := he'.1
    rw [Dialect.supports_ofProduct, hgate, Gate.admits] at hlater
    simp [Version.isSince] at hlater

/-- The names of persons, from the second one on. -/
def namesFromSecond : Operation :=
  .query (.select (.spec
    { select := [⟨.path ⟨"p", ["name"]⟩, none⟩]
      roots := [⟨"Person", "p", []⟩]
      offset := some (.literal (.integer 1)) }) none) Entity.peopleModel

theorem namesFromSecond_run_at_minimum :
    namesFromSecond.run (.ofProduct .ingres ⟨9, 2, 0⟩)
        (.ofDialect (.ofProduct .ingres ⟨9, 2, 0⟩)) =
      .error (.unsupportedConstruct "Ingres 9.2" "offset" (some ⟨9, 3, 0⟩)) ∧
    Version.isBefore ⟨9, 2, 0⟩ ⟨9, 3, 0⟩ = true ∧
      ∀ config' name' minimum', namesFromSecond.run (.ofProduct .ingres ⟨9, 3, 0⟩) config' ≠
        .error (.unsupportedConstruct name' "offset" minimum') := by
  have h : namesFromSecond.run (.ofProduct .ingres ⟨9, 2, 0⟩)
      (.ofDialect (.ofProduct .ingres ⟨9, 2, 0⟩)) =
        .error (.unsupportedConstruct "Ingres 9.2" "offset" (some ⟨9, 3, 0⟩)) := by rfl
  exact ⟨h, run_at_minimum h⟩

end Operation

end SqlDialects
