import SqlDialects.Proofs.Lowering.Checks
import SqlDialects.Proofs.Rendering.Templates

/-!
# What lowered statements are not refused for

The lowering and the rendering ask a dialect for much the same, each of its own tree. What the
lowering lets through, the rendering does not refuse for the constructs and the functions that both
look at, but for sizes of collections to the left of `in`.
-/

namespace SqlDialects

/-! ## Constructs -/

namespace Sql

/-- Constructs that the lowering has looked for before they are rendered. -/
def checkedConstructs : List String :=
  ["union all", "set operation in a subquery", "order by in a paginated subquery",
    "tuple on the left of in"]

/-- A construct that sizes can become without being looked for. -/
def sizeConstruct : String := "subquery on the left of in"

namespace Node

variable {c : Context} {n : Node} {asksSize : Prop} {capability : Capability} {construct : String}
  {e : DialectError}

/-- What a checked node needs of its dialect is there. -/
theorem Checked.supports_of_needs (h : n.Checked c.dialect asksSize c.isNested)
    (hn : n.Needs c capability construct) :
    (construct ∈ checkedConstructs → c.dialect.supports capability = true) ∧
      (construct = sizeConstruct → c.dialect.supports capability = true ∨ asksSize) := by
  cases hn with
  | unionAll => exact ⟨fun _ => h.1 _ _ _ _ rfl, fun hc => absurd hc (by decide)⟩
  | nestedGroup hn => exact ⟨fun _ => h.2.1 hn rfl, fun hc => absurd hc (by decide)⟩
  | nestedOrder hn ho hp => exact ⟨fun _ => h.2.2 hn ho hp, fun hc => absurd hc (by decide)⟩
  | tupleMember hm => exact ⟨fun _ => h.1 _ hm, fun hc => absurd hc (by decide)⟩
  | queryMember hm => exact ⟨fun hc => absurd hc (by decide), fun _ => h.2 _ hm⟩
  | distinctTuple => exact ⟨fun hc => absurd hc (by decide), fun hc => absurd hc (by decide)⟩
  | rowComparison => exact ⟨fun hc => absurd hc (by decide), fun hc => absurd hc (by decide)⟩

/-- A node is refused for such a construct only because it needs a capability. -/
theorem Refused.needs (h : n.Refused c e) (hc : construct ∈ sizeConstruct :: checkedConstructs)
    {name : String} {minimum : Option Version}
    (he : e = .unsupportedConstruct name construct minimum) :
    ∃ capability, n.Needs c capability construct ∧ c.dialect.supports capability = false := by
  have hknown : ∀ known ∈ sizeConstruct :: checkedConstructs,
      (Capability.constructs.lookup known).isSome = true := by decide +kernel
  have hlimit : ∀ limit ∈ RowLimit.leadingConstructs,
      limit ∉ sizeConstruct :: checkedConstructs := by decide +kernel
  have hname {named : String} {first : Option Version}
      (h : c.dialect.unsupported named first = .unsupportedConstruct name construct minimum) :
      named = construct := (DialectError.unsupportedConstruct.inj h).2.1
  have hstart {start rest : String}
      (hs : Capability.constructs.all (fun entry => !start.toList.isPrefixOf entry.1.toList) = true)
      (h : start ++ rest = construct) : False := by
    have hsome := hknown construct hc
    rw [← h, Capability.lookup_append hs] at hsome
    cases hsome
  cases h with
  | lacks hn hs =>
    obtain rfl := hname he
    exact ⟨_, hn, hs⟩
  | limit hl hm =>
    obtain rfl := hname he
    exact absurd hc (hlimit _ hm)
  | unlimited =>
    obtain rfl := hname he
    exact absurd hc (by decide)
  | timestampAdd => exact (hstart (by decide) (String.append_assoc ▸ hname he)).elim
  | timestampDiff => exact (hstart (by decide) (String.append_assoc ▸ hname he)).elim
  | _ => cases he

end Node

theorem Statement.contextAt_isNested {statement : Statement} {d : Dialect} {isInner : Bool} :
    (statement.contextAt d isInner).isNested = isInner := by
  cases statement <;> cases isInner <;> rfl

theorem Statement.needs_of_translate {statement : Statement} {d : Dialect}
    {config : TranslationConfig} {name construct : String} {minimum : Option Version}
    (h : statement.translate d config = .error (.unsupportedConstruct name construct minimum))
    (hc : construct ∈ sizeConstruct :: checkedConstructs) :
    ∃ isInner n capability, statement.Shows d isInner n ∧
      n.Needs (statement.contextAt d isInner) capability construct ∧
        d.supports capability = false := by
  rcases refused_of_translate h with h | ⟨isInner, n, hn, h⟩
  · generalize he : DialectError.unsupportedConstruct name construct minimum = e at h
    cases h with
    | malformed => cases he
    | lock =>
      obtain rfl : construct = "locking a set operation" :=
        (DialectError.unsupportedConstruct.inj he).2.1
      exact absurd hc (by decide)
  · obtain ⟨capability, hneeds, hs⟩ := h.needs hc rfl
    rw [contextAt_dialect] at hs
    exact ⟨isInner, n, capability, hn, hneeds, hs⟩

/-! ## Templates -/

/-- The text ends in a number. -/
def endsInDigit (text : String) : Bool := text.toList.getLast?.any Char.isDigit

theorem endsInDigit_append {text : String} (start : String) (h : text ≠ "") :
    endsInDigit (start ++ text) = endsInDigit text := by
  have hne : text.toList ≠ [] := by simpa using h
  rw [endsInDigit, endsInDigit, String.toList_append, List.getLast?_append_of_ne_nil _ hne]

theorem endsInDigit_toString (n : Nat) : endsInDigit (toString n) = true := by
  have hdigits : (toString n).toList = Nat.toDigits 10 n := by simp
  have hne : Nat.toDigits 10 n ≠ [] := Nat.toDigits_ne_nil
  rw [endsInDigit, hdigits, List.getLast?_eq_some_getLast hne]
  exact Nat.isDigit_of_mem_toDigits (by omega) (by omega) (List.getLast_mem hne)

/-- No such reason ends like the one for an argument that is not there. -/
theorem Node.Malformed.not_endsInDigit {n : Node} {reason : String} (h : n.Malformed reason) :
    endsInDigit reason = false := by
  cases h with
  | @literal value h =>
    cases value with
    | nan => decide
    | infinite isNegative => cases isNegative <;> decide
    | finite => simp [Number.Binary64.literal?, Number.Binary64.isFinite] at h
  | case => decide
  | tuple => decide
  | row => decide
  | select => decide
  | tables => decide
  | _ =>
    rw [endsInDigit_append _ (by decide)]
    decide

theorem Statement.Malformed.not_endsInDigit {statement : Statement} {reason : String}
    (h : statement.Malformed reason) : endsInDigit reason = false := by
  cases h with
  | row =>
    rw [endsInDigit_append _ (by decide)]
    decide
  | _ => decide

/-- The template of a checked node fits. -/
theorem Expression.template_fits {d : Dialect} {asksSize : Prop} {isInner : Bool} {e : Expression}
    {template : FunctionTemplate} {arguments : List (Option Expression)} (hd : d.Fits)
    (hc : (Node.expression e).Checked d asksSize isInner)
    (h : e.template? d = some (template, arguments)) :
    template.rendering.fits = true ∧ template.takes arguments.length = true := by
  have hregistered {name : String} {found : FunctionTemplate}
      (hf : d.functions.get? name = some found) : found.rendering.fits = true :=
    hd.functions _ (SortedMap.mem_of_get? hf)
  have hpattern {name source : String} {resultType : Option SqlType} {count : Nat}
      (harity : (Pattern.arity ⟨source⟩ == count) = true) :
      (FunctionTemplate.pattern name source resultType).rendering.fits = true ∧
        (FunctionTemplate.pattern name source resultType).takes count = true :=
    ⟨FunctionTemplate.fits_pattern, eq_of_beq harity ▸ FunctionTemplate.takes_pattern⟩
  cases e with
  | call name operands =>
    obtain ⟨found, hf, hpair⟩ := Option.map_eq_some_iff.1 h
    obtain ⟨rfl, rfl⟩ := Prod.mk.inj hpair
    obtain ⟨checked, hfunction, htakes⟩ := hc name operands rfl
    obtain rfl : found = checked := by simpa [Dialect.function, hf] using hfunction
    exact ⟨hregistered hf, by simpa using htakes⟩
  | extract unit source =>
    obtain ⟨found, hf, hpair⟩ := Option.map_eq_some_iff.1 h
    obtain ⟨rfl, rfl⟩ := Prod.mk.inj hpair
    have hunit := hd.extractPattern unit
    unfold extractTemplate? at hf
    split at hf
    · next pattern hp =>
      obtain rfl := Option.some.inj hf
      exact hpattern (by simpa [hp] using hunit)
    · exact ⟨hregistered hf, by simpa [hf] using hd.nodes.2⟩
  | timestampAdd unit magnitude timestamp =>
    obtain ⟨pattern, hp, hpair⟩ := Option.map_eq_some_iff.1 h
    obtain ⟨rfl, rfl⟩ := Prod.mk.inj hpair
    have hunit := (Bool.and_eq_true_iff.1 (hd.timestampArithmetic unit)).1
    exact hpattern (by simpa [hp] using hunit)
  | timestampDiff unit start finish =>
    obtain ⟨pattern, hp, hpair⟩ := Option.map_eq_some_iff.1 h
    obtain ⟨rfl, rfl⟩ := Prod.mk.inj hpair
    have hunit := (Bool.and_eq_true_iff.1 (hd.timestampArithmetic unit)).2
    exact hpattern (by simpa [hp] using hunit)
  | format source pattern =>
    obtain ⟨found, hf, hpair⟩ := Option.map_eq_some_iff.1 h
    obtain ⟨rfl, rfl⟩ := Prod.mk.inj hpair
    exact ⟨hregistered hf, by simpa [hf] using hd.nodes.1⟩
  | _ => cases h

/-- An error that only a call of a template fails with. -/
def IsTemplateError : DialectError → Prop
  | .unknownFunction _ _ | .functionArity _ _ _ _ => True
  | .malformedTree reason => ∃ template index, reason =
    template ++ " has no argument " ++ toString (index : Nat)
  | _ => False

theorem endsInDigit_of_isTemplateError {reason : String}
    (h : IsTemplateError (.malformedTree reason)) : endsInDigit reason = true := by
  obtain ⟨template, index, rfl⟩ := h
  rw [endsInDigit_append _ (by simp), endsInDigit_toString]

/-- A checked node is not refused for a template. -/
theorem Node.Refused.not_isTemplateError {c : Context} {n : Node} {asksSize : Prop}
    {isInner : Bool} {e : DialectError} (hd : c.dialect.Fits)
    (hc : n.Checked c.dialect asksSize isInner) (h : n.Refused c e) : ¬ IsTemplateError e := by
  intro he
  cases h with
  | malformed h =>
    have hreason := endsInDigit_of_isTemplateError he
    rw [h.not_endsInDigit] at hreason
    cases hreason
  | @unknownFunction x name hname hnone =>
    cases x with
    | call name' operands =>
      obtain rfl := Option.some.inj hname
      obtain ⟨found, hfunction, -⟩ := hc name' operands rfl
      simp [Dialect.function, hnone] at hfunction
    | format source pattern =>
      obtain rfl := Option.some.inj hname
      have hformat := hd.nodes.1
      simp [hnone] at hformat
    | _ => cases hname
  | arity h ht =>
    have hfits := (Expression.template_fits hd hc h).2
    simp [ht] at hfits
  | argument h hs hi hl =>
    have hfits := (Expression.template_fits hd hc h).1
    exact absurd (FunctionTemplate.lt_of_argument_mem hfits hs hi) (by omega)
  | _ => exact he

end Sql

namespace Entity.Statement

open Sql (TranslationConfig checkedConstructs sizeConstruct)

variable {statement : Statement} {d : Dialect} {model : Mapping.Model} {lowered : Sql.Statement}
  {config : TranslationConfig}

/-- What the lowering accepts is not refused for a construct that it has looked for. A subquery to
the left of `in` is left only where the statement has the size of a collection there. -/
theorem lower_checks {name construct : String} {minimum : Option Version}
    (h : statement.lower d model = .ok lowered)
    (ht : lowered.translate d config = .error (.unsupportedConstruct name construct minimum)) :
    construct ∉ checkedConstructs ∧ (construct = sizeConstruct → statement.AsksSize) := by
  have hsupports (hc : construct ∈ sizeConstruct :: checkedConstructs) :
      ∃ capability, d.supports capability = false ∧
        (construct ∈ checkedConstructs → d.supports capability = true) ∧
          (construct = sizeConstruct → d.supports capability = true ∨ statement.AsksSize) := by
    obtain ⟨isInner, n, capability, hn, hneeds, hs⟩ := Sql.Statement.needs_of_translate ht hc
    have hchecked : n.Checked (lowered.contextAt d isInner).dialect statement.AsksSize
        (lowered.contextAt d isInner).isNested := by
      rw [Sql.Statement.contextAt_dialect, Sql.Statement.contextAt_isNested]
      exact checked_of_shows h hn
    have hthere := hchecked.supports_of_needs hneeds
    rw [Sql.Statement.contextAt_dialect] at hthere
    exact ⟨capability, hs, hthere⟩
  constructor
  · intro hc
    obtain ⟨capability, hs, hthere, -⟩ := hsupports (List.mem_cons_of_mem _ hc)
    simp [hthere hc] at hs
  · rintro rfl
    obtain ⟨capability, hs, -, hthere⟩ := hsupports List.mem_cons_self
    exact (hthere rfl).resolve_left (by simp [hs])

/-- Selects the names of persons with one or two nicknames. -/
def fewNicknames : Statement :=
  .select (.spec
    { select := [⟨.path ⟨"p", ["name"]⟩, none⟩]
      roots := [⟨"Person", "p", []⟩]
      condition := some (.inList (.size ⟨"p", ["nicknames"]⟩)
        [.literal (.integer 1), .literal (.integer 2)] false) }) none

/-- Without the capability, the lowering lets the size through and the subquery is refused. -/
theorem fewNicknames_lower_checks : ∃ lowered,
    fewNicknames.lower (Dialect.ofProduct .ingres ⟨10, 2, 0⟩) peopleModel = .ok lowered ∧
      lowered.translate (Dialect.ofProduct .ingres ⟨10, 2, 0⟩)
        (.ofDialect (Dialect.ofProduct .ingres ⟨10, 2, 0⟩)) =
          .error (.unsupportedConstruct "Ingres 10.2" sizeConstruct none) ∧
      sizeConstruct ∉ checkedConstructs ∧ fewNicknames.AsksSize := by
  obtain ⟨lowered, hl, ht⟩ : ∃ lowered,
      fewNicknames.lower (Dialect.ofProduct .ingres ⟨10, 2, 0⟩) peopleModel = .ok lowered ∧
        lowered.translate (Dialect.ofProduct .ingres ⟨10, 2, 0⟩)
          (.ofDialect (Dialect.ofProduct .ingres ⟨10, 2, 0⟩)) =
            .error (.unsupportedConstruct "Ingres 10.2" sizeConstruct none) :=
    exists_lowered (by rfl)
  obtain ⟨hnot, hasks⟩ := lower_checks hl ht
  exact ⟨lowered, hl, ht, hnot, hasks rfl⟩

/-! ## Calls in lowered statements -/

/-- What the lowering accepts for a product is refused neither for an unknown function nor for the
number of arguments, and no template is short of an argument. -/
theorem lower_fits_templates {product : Product} {version : Version} {e : DialectError}
    (h : statement.lower (Dialect.ofProduct product version) model = .ok lowered)
    (ht : lowered.translate (Dialect.ofProduct product version) config = .error e) :
    ¬ Sql.IsTemplateError e := by
  have hd := Dialect.fits_ofProduct version product
  rcases Sql.Statement.refused_of_translate ht with h' | ⟨isInner, n, hn, h'⟩
  · cases h' with
    | malformed hm =>
      intro he
      have hreason := Sql.endsInDigit_of_isTemplateError he
      rw [hm.not_endsInDigit] at hreason
      cases hreason
    | lock => exact id
  · have hc := checked_of_shows h hn
    have hcontext : (lowered.contextAt (Dialect.ofProduct product version) isInner).dialect =
        Dialect.ofProduct product version := Sql.Statement.contextAt_dialect
    rw [← hcontext] at hd hc
    exact h'.not_isTemplateError hd hc

/-- Selects a year that is a nanosecond ahead. -/
def yearAhead : Statement :=
  .select (.spec
    { select := [⟨.format
        (.timestampAdd .nanosecond (.literal (.integer 1)) (.call "current_timestamp" []))
          "yyyy", none⟩]
      roots := [⟨"Person", "p", []⟩] }) none

theorem yearAhead_fits_templates : ∃ lowered e,
    yearAhead.lower (Dialect.ofProduct .postgreSql ⟨16, 0, 0⟩) peopleModel = .ok lowered ∧
      lowered.translate (Dialect.ofProduct .postgreSql ⟨16, 0, 0⟩)
        (.ofDialect (Dialect.ofProduct .postgreSql ⟨16, 0, 0⟩)) = .error e ∧
      e.message = "timestampadd(nanosecond) is not supported on PostgreSQL 16.0" ∧
      ¬ Sql.IsTemplateError e := by
  obtain ⟨lowered, hl, ht⟩ : ∃ lowered,
      yearAhead.lower (Dialect.ofProduct .postgreSql ⟨16, 0, 0⟩) peopleModel = .ok lowered ∧
        lowered.translate (Dialect.ofProduct .postgreSql ⟨16, 0, 0⟩)
          (.ofDialect (Dialect.ofProduct .postgreSql ⟨16, 0, 0⟩)) =
            .error (.unsupportedConstruct "PostgreSQL 16.0" "timestampadd(nanosecond)" none) :=
    exists_lowered (by rfl)
  exact ⟨lowered, _, hl, ht, by decide, lower_fits_templates hl ht⟩

end Entity.Statement

end SqlDialects
