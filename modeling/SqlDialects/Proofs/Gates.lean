import SqlDialects.Mapping.Model
import SqlDialects.Proofs.Rendering.Refusals

/-!
# What a refusal says of its dialect

Most of the constructs that errors name stand for a capability. A dialect whose strategies agree
with its gates refuses such a construct for no other reason than that it lacks the capability, and
names the version with which the capability comes.
-/

namespace SqlDialects

/-! ## Constructs -/

namespace Capability

/-- What errors name, with the capability that is missing then. -/
def constructs : List (String × Capability) :=
  [("union all", .unionAll), ("set operation in a subquery", .unionInSubquery),
    ("subquery in the select list", .subqueryInSelect),
    ("size() in the select list of a grouped query", .subqueryInSelect),
    ("size() of an outer query's collection in a subquery select list", .subqueryInSelect),
    ("order by in a paginated subquery", .orderByInSubquery),
    ("tuple on the left of in", .subselectAsInPredicateLhs),
    ("subquery on the left of in", .subselectAsInPredicateLhs),
    ("count(distinct) over a tuple", .tupleDistinctCounts),
    ("row value comparison", .rowValueConstructorSyntax)] ++
  RowLimit.leadingConstructs.map (·, .fetchClause) ++
  [("sequences", .sequences), ("identity columns", .identityColumns)]

/-- Errors that go on with a name or a path name something else. -/
theorem lookup_append {start : String}
    (h : constructs.all (fun entry => !start.toList.isPrefixOf entry.1.toList) = true)
    (rest : String) : constructs.lookup (start ++ rest) = none := by
  refine List.lookup_eq_none_iff.2 fun entry hentry => bne_iff_ne.2 fun heq => ?_
  have hnot := List.all_eq_true.1 h entry hentry
  rw [← heq, String.toList_append] at hnot
  simp [List.isPrefixOf_iff_prefix.2 (List.prefix_append start.toList rest.toList)] at hnot

end Capability

/-! ## The gates of a product -/

namespace CapabilityProfile

variable {profile : CapabilityProfile}

@[simp]
theorem setAll_version (gates : List (Capability × Gate)) :
    (profile.setAll gates).version = profile.version := by
  induction gates generalizing profile with
  | nil => rfl
  | cons gate rest ih => exact ih

/-- The last gate of a capability takes the place of those before it. -/
theorem setAll_gate (gates : List (Capability × Gate)) (capability : Capability) :
    (profile.setAll gates).gate capability =
      (gates.reverse.lookup capability).getD (profile.gate capability) := by
  induction gates generalizing profile with
  | nil => rfl
  | cons gate rest ih =>
    rw [setAll, List.foldl_cons, ← setAll, ih, List.reverse_cons, List.lookup_append]
    cases rest.reverse.lookup capability with
    | some last => rfl
    | none =>
      obtain ⟨first, opening⟩ := gate
      cases h : capability == first with
      | true => simp [set, eq_of_beq h]
      | false => simp [set, List.lookup_cons, h, ne_of_beq_false h]

end CapabilityProfile

namespace Product

/-- What the layer of a product sets. -/
def gates : Product → List (Capability × Gate)
  | ingres => Ingres.gates
  | postgreSql => PostgreSql.gates
  | mySql => MySql.gates
  | sqlite => Sqlite.gates
  | sqlServer => SqlServer.gates

/-- Products have the gates of the standard but for those that they set. -/
def gate (product : Product) (capability : Capability) : Gate :=
  (product.gates.reverse.lookup capability).getD
    (.ofBool (Standard.capabilities.contains capability))

end Product

/-! ## Dialects -/

namespace Dialect

/-- What an error says of the dialect is so. -/
def Explains (d : Dialect) : DialectError → Prop
  | .unsupportedConstruct _ construct minimum =>
    match Capability.constructs.lookup construct with
    | some capability => d.supports capability = false ∧ minimum = d.minimumVersion capability
    | none => minimum = none
  | _ => True

variable {d : Dialect} {capability : Capability} {construct : String}

theorem explains_lacks (h : Capability.constructs.lookup construct = some capability)
    (hs : d.supports capability = false) : d.Explains (d.lacks capability construct) := by
  simp only [lacks, unsupported, Explains, h]
  exact ⟨hs, trivial⟩

theorem explains_unsupported (h : Capability.constructs.lookup construct = none) :
    d.Explains (d.unsupported construct) := by
  simp only [unsupported, Explains, h]

/-- If the computation fails, its error is so. -/
def ExplainsFailure {α : Type} (d : Dialect) (x : Except DialectError α) : Prop :=
  ∀ e, x = .error e → d.Explains e

namespace ExplainsFailure

variable {α β : Type} {x : Except DialectError α} {f : α → Except DialectError β}

theorem ok {a : α} : d.ExplainsFailure (.ok a) := nofun

theorem error {e : DialectError} (h : d.Explains e) :
    d.ExplainsFailure (.error e : Except DialectError α) := by
  rintro _ ⟨⟩
  exact h

theorem bind (hx : d.ExplainsFailure x) (hf : ∀ a, d.ExplainsFailure (f a)) :
    d.ExplainsFailure (x >>= f) := by
  cases x with
  | error e => exact .error (hx e rfl)
  | ok a => exact hf a

theorem mapM (hf : ∀ a, d.ExplainsFailure (f a)) :
    ∀ as : List α, d.ExplainsFailure (as.mapM f)
  | [] => .ok
  | a :: rest => by
    rw [List.mapM_cons]
    exact (hf a).bind fun _ => (mapM hf rest).bind fun _ => .ok

end ExplainsFailure

theorem explainsFailure_require (h : Capability.constructs.lookup construct = some capability) :
    d.ExplainsFailure (d.require capability construct) := by
  unfold require
  split
  · exact .ok
  · next hs => exact .error (explains_lacks h (Bool.eq_false_iff.2 hs))

theorem explainsFailure_function {name : String} : d.ExplainsFailure (d.function name) := by
  unfold function
  split
  · exact .ok
  · exact .error trivial

theorem explainsFailure_checkArity {template : FunctionTemplate} {count : Nat} :
    d.ExplainsFailure (template.checkArity count) := by
  unfold FunctionTemplate.checkArity
  split
  · exact .ok
  · exact .error trivial

theorem explainsFailure_entity {model : Mapping.Model} {name : String} :
    d.ExplainsFailure (model.entity name) := by
  unfold Mapping.Model.entity
  split
  · exact .ok
  · exact .error trivial

theorem explainsFailure_property {entity : Mapping.Entity} {name : String} :
    d.ExplainsFailure (entity.property name) := by
  unfold Mapping.Entity.property
  split
  · exact .ok
  · exact .error trivial

/-- The first version that an error names is the one at which a gate opens. -/
theorem minimumVersion_eq_some_iff {version : Version} :
    d.minimumVersion capability = some version ↔
      d.profile.gate capability = .since version := by
  unfold minimumVersion CapabilityProfile.minimumVersion
  cases d.profile.gate capability <;> simp

variable {product : Product} {version : Version}

theorem profile_ofProduct : (ofProduct product version).profile =
    (Standard.dialect product version).profile.setAll product.gates := by
  cases product <;> rfl

theorem version_standard : (Standard.dialect product version).version = version :=
  CapabilityProfile.setAll_version _

@[simp]
theorem version_ofProduct : (ofProduct product version).version = version := by
  rw [Dialect.version, profile_ofProduct, CapabilityProfile.setAll_version]
  exact version_standard

/-- Versions of a product differ in which gates are open, not in the gates. -/
theorem gate_ofProduct : (ofProduct product version).profile.gate capability =
    product.gate capability := by
  have hstandard : (Standard.dialect product version).profile.gate capability =
      .ofBool (Standard.capabilities.contains capability) := by
    cases capability <;> rfl
  rw [profile_ofProduct, CapabilityProfile.setAll_gate, hstandard, Product.gate]

theorem supports_ofProduct : (ofProduct product version).supports capability =
    (product.gate capability).admits version := by
  rw [supports, CapabilityProfile.supports, gate_ofProduct, ← Dialect.version, version_ofProduct]

theorem minimumVersion_ofProduct {first : Version} :
    (ofProduct product version).minimumVersion capability = some first ↔
      product.gate capability = .since first := by
  rw [minimumVersion_eq_some_iff, gate_ofProduct]

/-! ## Gates and strategies -/

/-- The strategies of a dialect agree with its gates. -/
structure Gated (d : Dialect) : Prop where
  rowLimit : d.rowLimit.leads = true →
    d.supports .fetchClause = false ∧ d.rowLimit.offsetSince = d.minimumVersion .fetchClause
  sequence : d.sequence.isSupported = d.supports .sequences
  identity : ∀ typeName isBig, d.identity.definition? typeName isBig = none →
    d.supports .identityColumns = false

variable (version)

theorem gated_ingres : (ofProduct .ingres version).Gated where
  rowLimit := by
    have hstrategy : (ofProduct .ingres version).rowLimit = Ingres.rowLimit version := by
      simp only [ofProduct, Product.layer, Ingres.layer, version_standard]
    have hgate : Product.ingres.gate .fetchClause = .since ⟨9, 3, 0⟩ := rfl
    rw [hstrategy, supports_ofProduct, minimumVersion_ofProduct.2 hgate, hgate]
    unfold Ingres.rowLimit
    split
    · next h => simp_all [Gate.admits, Version.isBefore, Version.isSince, RowLimit.offsetSince]
    · simp [RowLimit.leads]
  sequence := by
    rw [supports_ofProduct]
    rfl
  identity := by
    intro typeName isBig
    have hstrategy : (ofProduct .ingres version).identity = Ingres.identity version := by
      simp only [ofProduct, Product.layer, Ingres.layer, version_standard]
    have hgate : Product.ingres.gate .identityColumns = .since ⟨9, 3, 0⟩ := rfl
    rw [hstrategy, supports_ofProduct, hgate]
    unfold Ingres.identity
    split
    · simp [IdentityColumn.definition?]
    · split
      · simp [IdentityColumn.definition?]
      · next h => exact fun _ => by simpa [Gate.admits] using h

theorem gated_postgreSql : (ofProduct .postgreSql version).Gated where
  rowLimit := nofun
  sequence := by
    rw [supports_ofProduct]
    rfl
  identity := by
    intro typeName isBig
    have hstrategy : (ofProduct .postgreSql version).identity = PostgreSql.identity version := by
      simp only [ofProduct, Product.layer, PostgreSql.layer, version_standard]
    rw [hstrategy]
    unfold PostgreSql.identity
    split <;> simp [IdentityColumn.definition?]

theorem gated_mySql : (ofProduct .mySql version).Gated where
  rowLimit := nofun
  sequence := by
    rw [supports_ofProduct]
    rfl
  identity := nofun

theorem gated_sqlite : (ofProduct .sqlite version).Gated where
  rowLimit := nofun
  sequence := by
    rw [supports_ofProduct]
    rfl
  identity := nofun

theorem gated_sqlServer : (ofProduct .sqlServer version).Gated where
  rowLimit := by
    have hstrategy : (ofProduct .sqlServer version).rowLimit = SqlServer.rowLimit version := by
      simp only [ofProduct, Product.layer, SqlServer.layer, version_standard]
    have hgate : Product.sqlServer.gate .fetchClause = .since SqlServer.v11 := rfl
    rw [hstrategy, supports_ofProduct, minimumVersion_ofProduct.2 hgate, hgate]
    unfold SqlServer.rowLimit
    split
    · simp [RowLimit.leads]
    · next h => exact fun _ => by simpa [Gate.admits, RowLimit.offsetSince] using h
  sequence := by
    have hstrategy : (ofProduct .sqlServer version).sequence = SqlServer.sequence version := by
      simp only [ofProduct, Product.layer, SqlServer.layer, version_standard]
    have hgate : Product.sqlServer.gate .sequences = .since SqlServer.v11 := rfl
    rw [hstrategy, supports_ofProduct, hgate]
    unfold SqlServer.sequence
    split
    · next h => simp [Gate.admits, SequenceSupport.isSupported, h]
    · next h => simpa [Gate.admits, SequenceSupport.isSupported] using h
  identity := nofun

theorem gated_ofProduct (product : Product) : (ofProduct product version).Gated := by
  cases product with
  | ingres => exact gated_ingres version
  | postgreSql => exact gated_postgreSql version
  | mySql => exact gated_mySql version
  | sqlite => exact gated_sqlite version
  | sqlServer => exact gated_sqlServer version

end Dialect

/-! ## Failures of renderings -/

namespace Sql

namespace Node

variable {c : Context} {n : Node} {e : DialectError}

theorem Needs.lookup {capability : Capability} {construct : String}
    (h : n.Needs c capability construct) :
    Capability.constructs.lookup construct = some capability := by
  cases h <;> decide

theorem Refused.explained (hd : c.dialect.Gated) (h : n.Refused c e) : c.dialect.Explains e := by
  cases h with
  | lacks h hs => exact Dialect.explains_lacks h.lookup hs
  | limit hl hc =>
    obtain ⟨hs, hsince⟩ := hd.rowLimit hl
    rw [hsince]
    refine Dialect.explains_lacks ?_ hs
    revert hc
    decide +revert +kernel
  | unlimited => exact Dialect.explains_unsupported (by decide)
  | timestampAdd =>
    exact Dialect.explains_unsupported
      (by rw [String.append_assoc]; exact Capability.lookup_append (by decide) _)
  | timestampDiff =>
    exact Dialect.explains_unsupported
      (by rw [String.append_assoc]; exact Capability.lookup_append (by decide) _)
  | _ => trivial

end Node

theorem Statement.translate_explained {statement : Statement} {d : Dialect}
    {config : TranslationConfig} {e : DialectError} (hd : d.Gated)
    (h : statement.translate d config = .error e) : d.Explains e := by
  rcases refused_of_translate h with h | ⟨isInner, n, -, h⟩
  · cases h with
    | malformed => trivial
    | lock => exact Dialect.explains_unsupported (by decide)
  · have he := h.explained (by rwa [contextAt_dialect])
    rwa [contextAt_dialect] at he

end Sql

end SqlDialects
