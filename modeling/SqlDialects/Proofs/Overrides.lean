import SqlDialects.Proofs.Gates
import SqlDialects.Proofs.Rendering.Templates
import SqlDialects.Proofs.Schema.Reversal
import SqlDialects.Settings.Basic

/-!
# Settings over a product

Settings with a fault give no dialect. All others give the dialect of their product and version,
changed where an override says so and nowhere else. Of two overrides for one thing the last counts.
-/

namespace SqlDialects

/-! ## Maps in key order -/

namespace SortedMap

variable {κ ν : Type} [Ord κ]

def IsSorted (m : SortedMap κ ν) : Prop :=
  m.toList.Pairwise fun p q => compare p.1 q.1 = .lt

theorem isSorted_nil : (⟨[]⟩ : SortedMap κ ν).IsSorted := List.Pairwise.nil

variable [Std.TransOrd κ] {k : κ} {v : ν}

theorem IsSorted.insert {m : SortedMap κ ν} (h : m.IsSorted) : (m.insert k v).IsSorted := by
  obtain ⟨pairs⟩ := m
  unfold IsSorted SortedMap.insert at *
  induction pairs with
  | nil => exact List.pairwise_singleton _ _
  | cons first rest ih =>
    obtain ⟨hfirst, hrest⟩ := List.pairwise_cons.1 h
    unfold insertInto
    split
    · next hlt =>
      refine List.pairwise_cons.2 ⟨?_, h⟩
      intro entry hentry
      rcases List.mem_cons.1 hentry with rfl | hentry
      · exact hlt
      · exact Std.TransCmp.lt_trans hlt (hfirst entry hentry)
    · next heq =>
      refine List.pairwise_cons.2 ⟨fun entry hentry => ?_, hrest⟩
      exact Std.TransCmp.lt_of_eq_of_lt heq (hfirst entry hentry)
    · next hgt =>
      refine List.pairwise_cons.2 ⟨fun entry hentry => ?_, ih hrest⟩
      rcases mem_insertInto hentry with rfl | hentry
      · exact Std.OrientedCmp.lt_of_gt hgt
      · exact hfirst entry hentry

theorem IsSorted.get?_of_mem [BEq κ] [LawfulBEq κ] {m : SortedMap κ ν} (h : m.IsSorted)
    (hmem : (k, v) ∈ m.toList) : m.get? k = some v := by
  obtain ⟨pairs⟩ := m
  unfold IsSorted get? at *
  induction pairs with
  | nil => cases hmem
  | cons first rest ih =>
    obtain ⟨hfirst, hrest⟩ := List.pairwise_cons.1 h
    rcases List.mem_cons.1 hmem with rfl | hmem
    · exact List.lookup_cons_self
    · have hne : (k == first.1) = false := by
        refine beq_false_of_ne ?_
        rintro rfl
        simpa using hfirst _ hmem
      rw [List.lookup_cons, hne]
      exact ih hrest hmem

end SortedMap

/-! ## Templates of a type code -/

/-- Which template is for a length: the one with the least bound among those that the length keeps,
or else the one without a bound. -/
inductive Chosen (template? : Option Nat → Option ColumnTemplate) (length : Nat) :
    Option ColumnTemplate → Prop
  | sized {bound : Nat} {template : ColumnTemplate} (hlength : length ≤ bound)
    (htemplate : template? (some bound) = some template)
    (hleast : ∀ smaller, length ≤ smaller → smaller < bound → template? (some smaller) = none) :
    Chosen template? length (some template)
  | unrestricted (hnone : ∀ bound, length ≤ bound → template? (some bound) = none) :
    Chosen template? length (template? none)

theorem Chosen.unique {template? : Option Nat → Option ColumnTemplate} {length : Nat}
    {chosen chosen' : Option ColumnTemplate} (h : Chosen template? length chosen)
    (h' : Chosen template? length chosen') : chosen = chosen' := by
  cases h with
  | @sized bound template hlength htemplate hleast =>
    cases h' with
    | @sized bound' template' hlength' htemplate' hleast' =>
      rcases Nat.lt_trichotomy bound bound' with hlt | rfl | hlt
      · simp [hleast' bound hlength hlt] at htemplate
      · exact htemplate.symm.trans htemplate'
      · simp [hleast bound' hlength' hlt] at htemplate'
    | unrestricted hnone => simp [hnone bound hlength] at htemplate
  | unrestricted hnone =>
    cases h' with
    | @sized bound' template' hlength' htemplate' hleast' =>
      simp [hnone bound' hlength'] at htemplate'
    | unrestricted hnone' => rfl

namespace ColumnBuckets

def template? (buckets : ColumnBuckets) : Option Nat → Option ColumnTemplate
  | some bound => buckets.sized.get? bound
  | none => buckets.unrestricted

variable {buckets : ColumnBuckets}

theorem template?_register (bound bound' : Option Nat) (template : ColumnTemplate) :
    (buckets.register bound template).template? bound' =
      if bound' = bound then some template else buckets.template? bound' := by
  cases bound with
  | none => cases bound' <;> simp [register, template?]
  | some bound =>
    cases bound' with
    | none => simp [register, template?]
    | some bound' => simp [register, template?, SortedMap.get?_insert]

theorem chosen_lookup (h : buckets.sized.IsSorted) (length : Nat) :
    Chosen buckets.template? length (buckets.lookup length) := by
  unfold lookup
  split
  · next entry hentry =>
    obtain ⟨hlength, front, back, hlist, hfront⟩ := List.find?_eq_some_iff_append.1 hentry
    have hmem : (entry.1, entry.2) ∈ buckets.sized.toList := by simp [hlist]
    refine .sized (by simpa using hlength) (h.get?_of_mem hmem) ?_
    intro smaller hle hlt
    by_contra hne
    obtain ⟨template, htemplate⟩ := Option.ne_none_iff_exists'.1 hne
    have hsmaller := SortedMap.mem_of_get? htemplate
    rw [hlist, List.mem_append, List.mem_cons] at hsmaller
    rcases hsmaller with hfirst | rfl | hback
    · simpa [hle] using hfront _ hfirst
    · exact Nat.lt_irrefl _ hlt
    · unfold SortedMap.IsSorted at h
      rw [hlist, List.pairwise_append, List.pairwise_cons] at h
      have hgt := Nat.compare_eq_lt.1 (h.2.1.1 _ hback)
      exact Nat.lt_asymm hlt hgt
  · next hnone =>
    refine .unrestricted ?_
    intro bound hle
    by_contra hne
    obtain ⟨template, htemplate⟩ := Option.ne_none_iff_exists'.1 hne
    have hlarge := List.find?_eq_none.1 hnone _ (SortedMap.mem_of_get? htemplate)
    simp [hle] at hlarge

theorem chosen_iff (h : buckets.sized.IsSorted) {length : Nat} {chosen : Option ColumnTemplate} :
    Chosen buckets.template? length chosen ↔ chosen = buckets.lookup length := by
  constructor
  · exact fun hchosen => hchosen.unique (chosen_lookup h length)
  · rintro rfl
    exact chosen_lookup h length

end ColumnBuckets

namespace ColumnTypeRegistry

def IsSorted (registry : ColumnTypeRegistry) : Prop :=
  ∀ code, (registry.buckets code).sized.IsSorted

def template? (registry : ColumnTypeRegistry) (code : SqlType) (bound : Option Nat) :
    Option ColumnTemplate :=
  (registry.buckets code).template? bound

variable {registry : ColumnTypeRegistry}

theorem isSorted_empty : IsSorted {} := fun _ => SortedMap.isSorted_nil

theorem IsSorted.update (h : registry.IsSorted) {code : SqlType} {buckets : ColumnBuckets}
    (hb : buckets.sized.IsSorted) : (registry.update code buckets).IsSorted := by
  intro c
  unfold ColumnTypeRegistry.update
  dsimp only
  split
  · exact hb
  · exact h c

theorem IsSorted.register (h : registry.IsSorted) (code : SqlType) (bound : Option Nat)
    (template : String) : (registry.register code bound template).IsSorted := by
  apply h.update
  cases bound with
  | none => exact h code
  | some bound => exact (h code).insert

theorem IsSorted.unregister (h : registry.IsSorted) (code : SqlType) :
    (registry.unregister code).IsSorted := h.update SortedMap.isSorted_nil

theorem IsSorted.registerAll (h : registry.IsSorted)
    (types : List (SqlType × Option Nat × String)) : (registry.registerAll types).IsSorted := by
  induction types generalizing registry with
  | nil => exact h
  | cons type rest ih => exact ih (h.register type.1 type.2.1 type.2.2)

theorem template?_register (code code' : SqlType) (bound bound' : Option Nat) (template : String) :
    (registry.register code bound template).template? code' bound' =
      if code' = code ∧ bound' = bound then some ⟨template⟩
      else registry.template? code' bound' := by
  unfold template? register update
  dsimp only
  split
  · next h =>
    subst h
    simp [ColumnBuckets.template?_register]
  · next h => simp [h]

/-- The last template of a code and a bound takes the place of those before it. -/
theorem template?_registerAll (types : List (SqlType × Option Nat × String)) (code : SqlType)
    (bound : Option Nat) : (registry.registerAll types).template? code bound =
      ((types.reverse.find? fun type => code = type.1 ∧ bound = type.2.1).map
        fun type => ⟨type.2.2⟩).or (registry.template? code bound) := by
  induction types generalizing registry with
  | nil => rfl
  | cons type rest ih =>
    rw [registerAll, List.foldl_cons, ← registerAll, ih, template?_register, List.reverse_cons,
      List.find?_append, List.find?_singleton]
    cases rest.reverse.find? fun type => code = type.1 ∧ bound = type.2.1 with
    | some last => rfl
    | none => by_cases h : code = type.1 ∧ bound = type.2.1 <;> simp [h]

end ColumnTypeRegistry

namespace Dialect

open ColumnTypeRegistry (isSorted_empty)

/-- Every product registers its types one by one. -/
theorem isSorted_ofProduct (product : Product) (version : Version) :
    (ofProduct product version).columnTypes.IsSorted := by
  have hstandard := isSorted_empty.registerAll Standard.columnTypes
  cases product with
  | ingres =>
    have hfixed (types : List (SqlType × String)) {registry : ColumnTypeRegistry}
        (h : registry.IsSorted) :
        (types.foldl (fun r t => (r.unregister t.1).register t.1 (some Ingres.maxInlineLength) t.2)
          registry).IsSorted := by
      induction types generalizing registry with
      | nil => exact h
      | cons type rest ih => exact ih ((h.unregister type.1).register type.1 _ type.2)
    exact hfixed Ingres.fixedTypes (hstandard.registerAll _)
  | postgreSql => exact hstandard.registerAll PostgreSql.columnTypes
  | mySql => exact hstandard.registerAll MySql.columnTypes
  | sqlite => exact hstandard.registerAll Sqlite.columnTypes
  | sqlServer => exact hstandard.registerAll (SqlServer.columnTypes _)

end Dialect

/-! ## Capabilities by name -/

namespace Capability

theorem ofName?_eq_some_iff {name : String} {capability : Capability} :
    ofName? name = some capability ↔ capability.name = name := by
  constructor
  · intro h
    simpa [ofName?] using List.find?_some h
  · rintro rfl
    cases capability <;> rfl

theorem ofName?_eq_none_iff {name : String} :
    ofName? name = none ↔ ∀ capability : Capability, capability.name ≠ name := by
  rw [Option.eq_none_iff_forall_ne_some]
  exact forall_congr' fun capability => not_congr ofName?_eq_some_iff

theorem name_injective : Function.Injective name := by
  intro capability capability' h
  have hsome := ofName?_eq_some_iff.2 h
  rw [ofName?_eq_some_iff.2 rfl] at hsome
  exact (Option.some.inj hsome).symm

end Capability

/-! ## Overrides -/

namespace Settings

/-- The last override for the lengths of a type code up to a bound. -/
def template? (settings : Settings) (code : SqlType) (bound : Option Nat) :
    Option ColumnTemplate :=
  (settings.columnTypes.reverse.find? fun o => code = o.code ∧ bound = o.maxLength).map
    fun o => ⟨o.template⟩

/-- The last override for a function. Letter case makes no difference. -/
def function? (settings : Settings) (name : String) : Option FunctionTemplate :=
  (settings.functions.reverse.find? fun o => Text.lower o.name = Text.lower name).map
    fun o => .pattern o.name o.pattern o.resultType

/-- The last override for a capability. -/
def isEnabled? (settings : Settings) (capability : Capability) : Option Bool :=
  (settings.capabilities.toList.reverse.find? fun entry => capability.name = entry.1).map (·.2)

/-- What makes settings useless, with what is said of it. -/
inductive Fault (settings : Settings) : SettingsError → Prop
  | product
    (h : ∀ product : Product, Text.lower (Text.trim settings.product) ∉ product.reportedNames) :
    Fault settings (.dialect (.unknownProduct settings.product))
  | version {text : String} (h : settings.version = some text)
    (htext : Version.ofText? text = none) : Fault settings (.dialect (.invalidVersion text))
  | function {o : FunctionOverride} (h : o ∈ settings.functions)
    (hname : ∀ c ∈ o.name.toList, Text.isBlank c = true) :
    Fault settings (.invalid "functions.name" "function name must not be empty")
  | capability {name : String} {isEnabled : Bool}
    (h : (name, isEnabled) ∈ settings.capabilities.toList)
    (hname : ∀ capability : Capability, capability.name ≠ name) :
    Fault settings (.invalid ("capabilities." ++ name) "unknown capability")

/-- The dialect is the one below, but for the overrides. -/
structure LiesOver (settings : Settings) (base d : Dialect) : Prop where
  template : ∀ code bound, d.columnTypes.template? code bound =
    (settings.template? code bound).or (base.columnTypes.template? code bound)
  columnType : ∀ code length precision scale, ∃ chosen,
    Chosen (d.columnTypes.template? code) (length.getD base.rules.defaultLength) chosen ∧
      d.columnType code length precision scale =
        match chosen with
        | some template => .ok (template.render
          { length := length.getD base.rules.defaultLength
            precision := precision.getD (base.defaultPrecision code)
            scale := scale.getD base.rules.defaultScale })
        | none => .error (.unsupportedType base.name code (length.getD base.rules.defaultLength))
  function : ∀ name, d.function name =
    match settings.function? name with
    | some template => .ok template
    | none => base.function name
  supports : ∀ capability, d.supports capability =
    (settings.isEnabled? capability).getD (base.supports capability)
  gate : ∀ capability, d.profile.gate capability =
    match settings.isEnabled? capability with
    | some isEnabled => .ofBool isEnabled
    | none => base.profile.gate capability
  placeholderStyle : d.rules.placeholderStyle =
    settings.placeholderStyle.getD base.rules.placeholderStyle
  version : d.version = base.version
  /-- Of all other things none has changed. -/
  others : { d with
    profile := base.profile, columnTypes := base.columnTypes, functions := base.functions
    rules := { d.rules with placeholderStyle := base.rules.placeholderStyle } } = base

/-! ## From overrides to a dialect -/

variable {settings : Settings}

theorem ofName_cases (name : String) :
    (∃ product : Product, Product.ofName name = .ok product ∧
        Text.lower (Text.trim name) ∈ product.reportedNames) ∨
      Product.ofName name = .error (.unknownProduct name) ∧
        ∀ product : Product, Text.lower (Text.trim name) ∉ product.reportedNames := by
  unfold Product.ofName
  dsimp only
  split
  · next product h =>
    have hname := List.find?_some h
    exact .inl ⟨product, rfl, by simpa using hname⟩
  · next h =>
    refine .inr ⟨rfl, fun product => ?_⟩
    have hname := List.find?_eq_none.1 h product (by cases product <;> decide)
    simpa using hname

theorem version?_cases (settings : Settings) (product : Product) :
    (∃ version, settings.version? product = .ok version ∧
        ∀ text, settings.version = some text → Version.ofText? text = some version) ∨
      ∃ text, settings.version = some text ∧ Version.ofText? text = none ∧
        settings.version? product = .error (.invalidVersion text) := by
  unfold version?
  split
  · next h => exact .inl ⟨_, rfl, by simp [h]⟩
  · next text h =>
    split
    · next version hversion => exact .inl ⟨version, rfl, by simp [h, hversion]⟩
    · next hnone => exact .inr ⟨text, h, hnone, rfl⟩

theorem error_of_functionTemplate {o : FunctionOverride} {e : SettingsError}
    (h : functionTemplate o = .error e) : (∀ c ∈ o.name.toList, Text.isBlank c = true) ∧
      e = .invalid "functions.name" "function name must not be empty" := by
  unfold functionTemplate at h
  split at h
  · next hblank =>
    cases h
    exact ⟨List.all_eq_true.1 hblank, rfl⟩
  · cases h

theorem ok_of_functionTemplate {o : FunctionOverride} {template : FunctionTemplate}
    (h : functionTemplate o = .ok template) : ¬(∀ c ∈ o.name.toList, Text.isBlank c = true) ∧
      template = .pattern o.name o.pattern o.resultType := by
  unfold functionTemplate at h
  split at h
  · cases h
  · next hblank =>
    cases h
    exact ⟨fun hall => hblank (List.all_eq_true.2 hall), rfl⟩

theorem error_of_capabilityGate {entry : String × Bool} {e : SettingsError}
    (h : capabilityGate entry = .error e) : (∀ capability : Capability, capability.name ≠ entry.1) ∧
      e = .invalid ("capabilities." ++ entry.1) "unknown capability" := by
  unfold capabilityGate at h
  split at h
  · cases h
  · next hnone =>
    cases h
    exact ⟨Capability.ofName?_eq_none_iff.1 hnone, rfl⟩

theorem ok_of_capabilityGate {entry : String × Bool} {gate : Capability × Gate}
    (h : capabilityGate entry = .ok gate) : gate.1.name = entry.1 ∧ gate.2 = .ofBool entry.2 := by
  unfold capabilityGate at h
  split at h
  · next capability hsome =>
    cases h
    exact ⟨Capability.ofName?_eq_some_iff.1 hsome, rfl⟩
  · cases h

/-! ## What each kind of override does -/

section Overrides

variable (settings : Settings)

theorem template?_overrides (code : SqlType) (bound : Option Nat) :
    (((settings.columnTypes.map fun o => (o.code, o.maxLength, o.template)).reverse.find?
      fun type => code = type.1 ∧ bound = type.2.1).map
        fun type => (⟨type.2.2⟩ : ColumnTemplate)) = settings.template? code bound := by
  rw [← List.map_reverse, List.find?_map, Option.map_map]
  rfl

theorem function?_overrides {templates : List FunctionTemplate}
    (h : settings.functions.mapM functionTemplate = .ok templates) (name : String) :
    templates.reverse.find? (fun template => template.name == Text.lower name) =
      settings.function? name := by
  rw [Schema.eq_map_of_mapM h fun o template ho => (ok_of_functionTemplate ho).2.symm,
    ← List.map_reverse, List.find?_map]
  rfl

theorem lookup_gates {entries : List (String × Bool)} {gates : List (Capability × Gate)}
    (h : List.Forall₂ (fun entry gate => capabilityGate entry = .ok gate) entries gates)
    (capability : Capability) : gates.lookup capability =
      (entries.find? fun entry => capability.name = entry.1).map fun entry => .ofBool entry.2 := by
  induction h with
  | nil => rfl
  | @cons entry gate entries gates hgate _ ih =>
    obtain ⟨hname, hvalue⟩ := ok_of_capabilityGate hgate
    obtain ⟨first, opening⟩ := gate
    have hiff : capability = first ↔ capability.name = entry.1 := by
      rw [← hname]
      exact ⟨congrArg Capability.name, fun h => Capability.name_injective h⟩
    by_cases hfirst : capability = first
    · rw [List.find?_cons_of_pos (by simpa using hiff.1 hfirst), hfirst, List.lookup_cons_self,
        Option.map_some, ← hvalue]
    · rw [List.find?_cons_of_neg (by simpa using mt hiff.2 hfirst), List.lookup_cons,
        beq_false_of_ne hfirst, ih]

theorem isEnabled?_overrides {gates : List (Capability × Gate)}
    (h : settings.capabilities.toList.mapM capabilityGate = .ok gates) (capability : Capability) :
    gates.reverse.lookup capability = (settings.isEnabled? capability).map Gate.ofBool := by
  rw [lookup_gates (List.forall₂_reverse_iff.2 (Schema.forall₂_of_mapM h)), isEnabled?,
    Option.map_map]
  rfl

/-- The dialect with all overrides over it, once they are checked. -/
def overlaid (base : Dialect) (templates : List FunctionTemplate)
    (gates : List (Capability × Gate)) : Dialect :=
  (((withPlaceholders base settings.placeholderStyle).declare
    (settings.columnTypes.map fun o => (o.code, o.maxLength, o.template))).offer
      templates).allow gates

variable {base : Dialect} {templates : List FunctionTemplate} {gates : List (Capability × Gate)}

theorem columnTypes_overlaid : (settings.overlaid base templates gates).columnTypes =
    base.columnTypes.registerAll
      (settings.columnTypes.map fun o => (o.code, o.maxLength, o.template)) := by
  unfold overlaid withPlaceholders
  split <;> rfl

theorem functions_overlaid : (settings.overlaid base templates gates).functions =
    base.functions.registerAll templates := by
  unfold overlaid withPlaceholders
  split <;> rfl

theorem profile_overlaid : (settings.overlaid base templates gates).profile =
    base.profile.setAll gates := by
  unfold overlaid withPlaceholders
  split <;> rfl

theorem rules_overlaid : (settings.overlaid base templates gates).rules =
    { base.rules with
      placeholderStyle := settings.placeholderStyle.getD base.rules.placeholderStyle } := by
  unfold overlaid withPlaceholders
  split
  · next style h =>
    rw [h]
    rfl
  · next h =>
    rw [h]
    rfl

theorem others_overlaid :
    { settings.overlaid base templates gates with
      profile := base.profile, columnTypes := base.columnTypes, functions := base.functions
      rules := base.rules } = base := by
  unfold overlaid withPlaceholders
  split <;> rfl

theorem name_overlaid : (settings.overlaid base templates gates).name = base.name := by
  have hproduct : (settings.overlaid base templates gates).product = base.product := by
    unfold overlaid withPlaceholders
    split <;> rfl
  rw [Dialect.name, Dialect.version, profile_overlaid, CapabilityProfile.setAll_version, hproduct,
    Dialect.name, Dialect.version]

theorem columnType_overlaid (h : base.columnTypes.IsSorted) (code : SqlType)
    (length precision scale : Option Nat) :
    ∃ chosen, Chosen ((settings.overlaid base templates gates).columnTypes.template? code)
        (length.getD base.rules.defaultLength) chosen ∧
      (settings.overlaid base templates gates).columnType code length precision scale =
        match chosen with
        | some template => .ok (template.render
          { length := length.getD base.rules.defaultLength
            precision := precision.getD (base.defaultPrecision code)
            scale := scale.getD base.rules.defaultScale })
        | none =>
          .error (.unsupportedType base.name code (length.getD base.rules.defaultLength)) := by
  have hsorted : (settings.overlaid base templates gates).columnTypes.IsSorted := by
    rw [columnTypes_overlaid]
    exact h.registerAll _
  have hprecision : (settings.overlaid base templates gates).defaultPrecision code =
      base.defaultPrecision code := by
    unfold Dialect.defaultPrecision
    rw [rules_overlaid]
  refine ⟨_, (ColumnBuckets.chosen_iff (hsorted code)).2 rfl, ?_⟩
  unfold Dialect.columnType ColumnTypeRegistry.get ColumnTypeRegistry.lookup
  rw [hprecision, rules_overlaid, name_overlaid]
  dsimp only
  cases ((settings.overlaid base templates gates).columnTypes.buckets code).lookup
    (length.getD base.rules.defaultLength) <;> rfl

theorem liesOver_overlaid (h : base.columnTypes.IsSorted)
    (htemplates : settings.functions.mapM functionTemplate = .ok templates)
    (hgates : settings.capabilities.toList.mapM capabilityGate = .ok gates) :
    settings.LiesOver base (settings.overlaid base templates gates) where
  template := by
    intro code bound
    rw [columnTypes_overlaid, ColumnTypeRegistry.template?_registerAll, template?_overrides]
  columnType := columnType_overlaid settings h
  function := by
    intro name
    unfold Dialect.function
    rw [functions_overlaid, FunctionRegistry.get?_registerAll,
      function?_overrides settings htemplates, name_overlaid]
    cases settings.function? name <;> rfl
  supports := by
    intro capability
    unfold Dialect.supports CapabilityProfile.supports
    rw [profile_overlaid, CapabilityProfile.setAll_gate, CapabilityProfile.setAll_version,
      isEnabled?_overrides settings hgates]
    rcases settings.isEnabled? capability with _ | _ | _ <;> rfl
  gate := by
    intro capability
    rw [profile_overlaid, CapabilityProfile.setAll_gate, isEnabled?_overrides settings hgates]
    cases settings.isEnabled? capability <;> rfl
  placeholderStyle := by rw [rules_overlaid]
  version := by
    rw [Dialect.version, profile_overlaid, CapabilityProfile.setAll_version, Dialect.version]
  others := by
    rw [rules_overlaid]
    exact others_overlaid settings

end Overrides

/-! ## Settings and their faults -/

variable {settings : Settings}

theorem ofDialect_eq_ok_iff {α : Type} {result : Except DialectError α} {a : α} :
    ofDialect result = .ok a ↔ result = .ok a := by
  cases result <;> simp [ofDialect, Except.mapError]

theorem fault_of_product {e : SettingsError}
    (h : ofDialect (Product.ofName settings.product) = .error e) : settings.Fault e := by
  rcases ofName_cases settings.product with ⟨product, hok, -⟩ | ⟨herror, hname⟩
  · rw [hok] at h
    cases h
  · rw [herror] at h
    cases h
    exact .product hname

theorem fault_of_version {product : Product} {e : SettingsError}
    (h : ofDialect (settings.version? product) = .error e) : settings.Fault e := by
  rcases version?_cases settings product with ⟨version, hok, -⟩ | ⟨text, htext, hnone, herror⟩
  · rw [hok] at h
    cases h
  · rw [herror] at h
    cases h
    exact .version htext hnone

theorem fault_of_functions {e : SettingsError}
    (h : settings.functions.mapM functionTemplate = .error e) : settings.Fault e := by
  obtain ⟨o, ho, herror⟩ := Schema.exists_error_of_mapM h
  obtain ⟨hname, rfl⟩ := error_of_functionTemplate herror
  exact .function ho hname

theorem fault_of_capabilities {e : SettingsError}
    (h : settings.capabilities.toList.mapM capabilityGate = .error e) : settings.Fault e := by
  obtain ⟨entry, hentry, herror⟩ := Schema.exists_error_of_mapM h
  obtain ⟨hname, rfl⟩ := error_of_capabilityGate herror
  exact .capability hentry hname

/-- Settings that pass every check have no fault. -/
theorem not_fault {product : Product} {version : Version} {templates : List FunctionTemplate}
    {gates : List (Capability × Gate)} (hproduct : Product.ofName settings.product = .ok product)
    (hversion : settings.version? product = .ok version)
    (htemplates : settings.functions.mapM functionTemplate = .ok templates)
    (hgates : settings.capabilities.toList.mapM capabilityGate = .ok gates) (e : SettingsError) :
    ¬settings.Fault e := by
  rintro (hname | ⟨htext, hnone⟩ | ⟨ho, hblank⟩ | ⟨hentry, hname⟩)
  · rcases ofName_cases settings.product with ⟨product', -, hmem⟩ | ⟨herror, -⟩
    · exact hname product' hmem
    · cases hproduct.symm.trans herror
  · rcases version?_cases settings product with ⟨version', -, hsome⟩ | ⟨text, -, -, herror⟩
    · cases hnone.symm.trans (hsome _ htext)
    · cases hversion.symm.trans herror
  · obtain ⟨template, htemplate⟩ := Schema.exists_ok_of_mapM htemplates ho
    exact (ok_of_functionTemplate htemplate).1 hblank
  · obtain ⟨gate, hgate⟩ := Schema.exists_ok_of_mapM hgates hentry
    exact hname _ (ok_of_capabilityGate hgate).1

/-- Settings give a dialect exactly if they have no fault, and then it is the product's, with the
overrides over it. -/
theorem resolve_liesOver (settings : Settings) :
    match settings.resolve with
    | .error e => settings.Fault e
    | .ok d => (∀ e, ¬settings.Fault e) ∧ ∃ product version,
      Product.ofName settings.product = .ok product ∧ settings.version? product = .ok version ∧
        settings.LiesOver (.ofProduct product version) d := by
  cases hresolve : settings.resolve with
  | error e =>
    unfold resolve at hresolve
    rcases Schema.bind_eq_error_iff.1 hresolve with h | ⟨product, -, hresolve⟩
    · exact fault_of_product h
    rcases Schema.bind_eq_error_iff.1 hresolve with h | ⟨version, -, hresolve⟩
    · exact fault_of_version h
    rcases Schema.bind_eq_error_iff.1 hresolve with h | ⟨templates, -, hresolve⟩
    · exact fault_of_functions h
    rcases Schema.bind_eq_error_iff.1 hresolve with h | ⟨gates, -, hresolve⟩
    · exact fault_of_capabilities h
    · cases hresolve
  | ok d =>
    unfold resolve at hresolve
    obtain ⟨product, hproduct, hresolve⟩ := Schema.bind_eq_ok_iff.1 hresolve
    obtain ⟨version, hversion, hresolve⟩ := Schema.bind_eq_ok_iff.1 hresolve
    obtain ⟨templates, htemplates, hresolve⟩ := Schema.bind_eq_ok_iff.1 hresolve
    obtain ⟨gates, hgates, hresolve⟩ := Schema.bind_eq_ok_iff.1 hresolve
    obtain rfl := Except.ok.inj hresolve
    rw [ofDialect_eq_ok_iff] at hproduct hversion
    have hsorted := Dialect.isSorted_ofProduct product version
    exact ⟨not_fault hproduct hversion htemplates hgates, product, version, hproduct, hversion,
      liesOver_overlaid settings hsorted htemplates hgates⟩

end Settings

end SqlDialects
