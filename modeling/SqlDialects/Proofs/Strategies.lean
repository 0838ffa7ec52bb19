import SqlDialects.Proofs.Gates

/-!
# Gates and strategies of the products

What a product does about limits, sequences, identity columns and the current timestamp is chosen by
comparing versions, apart from the gates that tell of it. At each version the two agree. Gates that
have opened stay open.
-/

namespace SqlDialects

/-! ## Versions -/

namespace Version

variable {u v w : Version}

theorem isSince_trans (hvu : v.isSince u = true) (hwv : w.isSince v = true) :
    w.isSince u = true := by
  unfold isSince at *
  rw [decide_eq_true_eq] at *
  exact Nat.le_trans hvu hwv

theorem isBefore_eq_not_isSince : v.isBefore w = !v.isSince w := by
  unfold isBefore isSince
  rw [← decide_not]
  simp only [Nat.not_le]

end Version

/-! ## Gates that stay open -/

namespace Gate

/-- A gate that does not shut again. -/
def staysOpen : Gate → Bool
  | before _ => false
  | _ => true

theorem staysOpen_ofBool (isOpen : Bool) : (ofBool isOpen).staysOpen = true := by
  cases isOpen <;> rfl

theorem admits_later {gate : Gate} {version later : Version} (hg : gate.staysOpen = true)
    (hl : later.isSince version = true) (ha : gate.admits version = true) :
    gate.admits later = true := by
  cases gate with
  | always => rfl
  | never => exact ha
  | since first => exact Version.isSince_trans ha hl
  | before limit => exact absurd hg Bool.false_ne_true

end Gate

theorem Product.gate_staysOpen (product : Product) (capability : Capability) :
    (product.gate capability).staysOpen = true := by
  have htable : ∀ entry ∈ product.gates, entry.2.staysOpen = true := by
    cases product <;> decide
  unfold gate
  cases h : product.gates.reverse.lookup capability with
  | none => exact Gate.staysOpen_ofBool _
  | some gate =>
    obtain ⟨front, back, hsplit, -⟩ := List.lookup_eq_some_iff.1 h
    refine htable (capability, gate) (List.mem_reverse.1 ?_)
    rw [hsplit]
    exact List.mem_append_right _ List.mem_cons_self

/-! ## Strategies that depend on the version -/

section

variable (version : Version)

theorem Ingres.supportsOffset_rowLimit :
    (rowLimit version).supportsOffset = version.isSince ⟨9, 3, 0⟩ := by
  unfold rowLimit
  rw [Version.isBefore_eq_not_isSince]
  cases version.isSince ⟨9, 3, 0⟩ <;> rfl

/-- Version 10 changes the clause only. -/
theorem Ingres.isSupported_identity :
    (identity version).isSupported = version.isSince ⟨9, 3, 0⟩ := by
  unfold identity
  cases h : version.isSince ⟨10, 0, 0⟩ with
  | true => exact (Version.isSince_trans (by decide) h).symm
  | false => cases version.isSince ⟨9, 3, 0⟩ <;> rfl

theorem PostgreSql.isSupported_identity : (identity version).isSupported = true := by
  unfold identity
  split <;> rfl

theorem SqlServer.supportsOffset_rowLimit :
    (rowLimit version).supportsOffset = version.isSince v11 := by
  unfold rowLimit
  cases version.isSince v11 <;> rfl

theorem SqlServer.isSupported_sequence :
    (sequence version).isSupported = version.isSince v11 := by
  unfold sequence
  cases version.isSince v11 <;> rfl

theorem SqlServer.isPooled_sequence : (sequence version).isPooled = version.isSince v11 := by
  unfold sequence
  cases version.isSince v11 <;> rfl

end

/-! ## Dialects -/

namespace Dialect

/-- The gates tell what the strategies do. -/
structure Aligned (d : Dialect) : Prop where
  fetchClause : d.supports .fetchClause = d.rowLimit.supportsOffset
  sequences : d.supports .sequences = d.sequence.isSupported
  pooledSequences : d.supports .pooledSequences = d.sequence.isPooled
  identityColumns : d.supports .identityColumns = d.identity.isSupported
  currentTimestampSelection : d.supports .currentTimestampSelection = true ↔
    ∃ select, d.currentTimestampSelect = .ok select

/-- Where there is a statement, only the gate can keep it back. -/
theorem currentTimestampSelect_eq_ok_iff {d : Dialect} {select : String}
    (h : d.rules.currentTimestampSelect = some select) :
    d.supports .currentTimestampSelection = true ↔
      ∃ select, d.currentTimestampSelect = .ok select := by
  unfold currentTimestampSelect require
  rw [h]
  cases d.supports .currentTimestampSelection with
  | true => exact iff_of_true rfl ⟨select, rfl⟩
  | false => exact iff_of_false Bool.false_ne_true nofun

variable (version : Version)

theorem aligned_ingres : (ofProduct .ingres version).Aligned where
  fetchClause := by
    have hstrategy : (ofProduct .ingres version).rowLimit = Ingres.rowLimit version := by
      simp only [ofProduct, Product.layer, Ingres.layer, version_standard]
    rw [hstrategy, Ingres.supportsOffset_rowLimit, supports_ofProduct]
    rfl
  sequences := by
    rw [supports_ofProduct]
    rfl
  pooledSequences := by
    have hstrategy : (ofProduct .ingres version).sequence =
        .supported .nextValueFor (version.isSince ⟨9, 3, 0⟩) := by
      simp only [ofProduct, Product.layer, Ingres.layer, version_standard]
    have hgate : Product.ingres.gate .pooledSequences = .since ⟨9, 3, 0⟩ := rfl
    rw [hstrategy, supports_ofProduct, hgate, Gate.admits, SequenceSupport.isPooled]
  identityColumns := by
    have hstrategy : (ofProduct .ingres version).identity = Ingres.identity version := by
      simp only [ofProduct, Product.layer, Ingres.layer, version_standard]
    rw [hstrategy, Ingres.isSupported_identity, supports_ofProduct]
    rfl
  currentTimestampSelection := currentTimestampSelect_eq_ok_iff rfl

theorem aligned_postgreSql : (ofProduct .postgreSql version).Aligned where
  fetchClause := by
    rw [supports_ofProduct]
    rfl
  sequences := by
    rw [supports_ofProduct]
    rfl
  pooledSequences := by
    rw [supports_ofProduct]
    rfl
  identityColumns := by
    have hstrategy : (ofProduct .postgreSql version).identity = PostgreSql.identity version := by
      simp only [ofProduct, Product.layer, PostgreSql.layer, version_standard]
    rw [hstrategy, PostgreSql.isSupported_identity, supports_ofProduct]
    rfl
  currentTimestampSelection := currentTimestampSelect_eq_ok_iff rfl

theorem aligned_mySql : (ofProduct .mySql version).Aligned := by
  constructor
  case currentTimestampSelection => exact currentTimestampSelect_eq_ok_iff rfl
  all_goals
    rw [supports_ofProduct]
    rfl

theorem aligned_sqlite : (ofProduct .sqlite version).Aligned := by
  constructor
  case currentTimestampSelection => exact currentTimestampSelect_eq_ok_iff rfl
  all_goals
    rw [supports_ofProduct]
    rfl

theorem sequence_sqlServer :
    (ofProduct .sqlServer version).sequence = SqlServer.sequence version := by
  simp only [ofProduct, Product.layer, SqlServer.layer, version_standard]

theorem aligned_sqlServer : (ofProduct .sqlServer version).Aligned where
  fetchClause := by
    have hstrategy : (ofProduct .sqlServer version).rowLimit = SqlServer.rowLimit version := by
      simp only [ofProduct, Product.layer, SqlServer.layer, version_standard]
    rw [hstrategy, SqlServer.supportsOffset_rowLimit, supports_ofProduct]
    rfl
  sequences := by
    rw [sequence_sqlServer, SqlServer.isSupported_sequence, supports_ofProduct]
    rfl
  pooledSequences := by
    rw [sequence_sqlServer, SqlServer.isPooled_sequence, supports_ofProduct]
    rfl
  identityColumns := by
    rw [supports_ofProduct]
    rfl
  currentTimestampSelection := currentTimestampSelect_eq_ok_iff rfl

theorem aligned_ofProduct (product : Product) : (ofProduct product version).Aligned := by
  cases product with
  | ingres => exact aligned_ingres version
  | postgreSql => exact aligned_postgreSql version
  | mySql => exact aligned_mySql version
  | sqlite => exact aligned_sqlite version
  | sqlServer => exact aligned_sqlServer version

theorem supports_ofProduct_later {product : Product} {version later : Version}
    {capability : Capability} (hl : later.isSince version = true)
    (hs : (ofProduct product version).supports capability = true) :
    (ofProduct product later).supports capability = true := by
  rw [supports_ofProduct] at hs ⊢
  exact Gate.admits_later (product.gate_staysOpen capability) hl hs

/-- At every version the gates tell what the strategies do, and no version loses a capability. -/
theorem ofProduct_aligned_and_keeps (product : Product) :
    (ofProduct product version).Aligned ∧
      ∀ (later : Version) (capability : Capability), later.isSince version = true →
        (ofProduct product version).supports capability = true →
        (ofProduct product later).supports capability = true := by
  constructor
  · exact aligned_ofProduct version product
  · intro later capability hl hs
    exact supports_ofProduct_later hl hs

/-- Ingres has pooled sequences with 9.3, and so it has with a micro release of it. -/
theorem pooledSequences_ingres :
    let first : Version := ⟨9, 3, 0⟩
    let later : Version := ⟨9, 3, 1⟩
    later.isSince first = true ∧
      (ofProduct .ingres first).supports .pooledSequences = true ∧
      (ofProduct .ingres later).supports .pooledSequences = true := by
  intro first later
  have hl : later.isSince first = true := by decide
  have hs : (ofProduct .ingres first).supports .pooledSequences = true := by
    rw [supports_ofProduct]
    decide
  exact ⟨hl, hs, (ofProduct_aligned_and_keeps first .ingres).2 later .pooledSequences hl hs⟩

end Dialect

end SqlDialects
