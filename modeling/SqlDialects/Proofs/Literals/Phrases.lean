import Mathlib.Data.List.Forall2
import SqlDialects.Proofs.Literals.Vocabulary
import SqlDialects.Proofs.Rendering.Kept

/-!
# Phrases

Expressions and conditions are written as phrases: a reader who comes in code is in no literal
behind one. This needs plain names, and arguments that can stand in the literals that patterns put
them into.
-/

namespace SqlDialects

theorem Text.not_mem_of_isPlain {t : String} (h : Text.isPlain t = true) : '\x27' ∉ t.toList :=
  fun hmem => absurd (List.all_eq_true.1 h _ hmem) (by decide)

/-! ## Numbers -/

namespace Number

theorem isPlain_of_digits {cs : List Char}
    (h : ∀ c ∈ cs, c.isDigit = true ∨ c = '.' ∨ c = '-') :
    Text.isPlain (String.ofList cs) = true := by
  rw [Text.isPlain, String.toList_ofList, List.all_eq_true]
  intro c hc
  rcases h c hc with h | rfl | rfl
  · simp only [Bool.and_eq_true, bne_iff_ne, Sql.Spot.isSign, Bool.not_eq_true',
      Bool.or_eq_false_iff, beq_eq_false_iff_ne]
    refine ⟨?_, ?_, ?_⟩ <;> rintro rfl <;> exact absurd h (by decide)
  · decide
  · decide

theorem isDigit_toDigits (n : Nat) : ∀ c ∈ Nat.toDigits 10 n, c.isDigit = true :=
  fun _ hc => Nat.isDigit_of_mem_toDigits (by omega) (by omega) hc

theorem isPlain_int (n : Int) : Text.isPlain (toString n) = true := by
  cases n with
  | ofNat n => exact Text.isPlain_toString n
  | negSucc n =>
    have hsign : Text.isPlain ("-" ++ toString (n + 1)) = true := by
      rw [Text.isPlain_append, Text.isPlain_toString]
      rfl
    exact hsign

theorem Decimal.isPlain_text (d : Decimal) : Text.isPlain d.text = true := by
  have hdigits := isDigit_toDigits d.digits
  unfold text
  dsimp only
  split
  · refine isPlain_of_digits fun c hc => .inl ?_
    rcases List.mem_append.1 hc with hc | hc
    · exact hdigits c hc
    · rw [List.eq_of_mem_replicate hc]
      decide
  · generalize hpadded : List.replicate _ '0' ++ Nat.toDigits 10 d.digits = padded
    have hpad : ∀ c ∈ padded, c.isDigit = true := by
      intro c hc
      rw [← hpadded] at hc
      rcases List.mem_append.1 hc with hc | hc
      · rw [List.eq_of_mem_replicate hc]
        decide
      · exact hdigits c hc
    split
    · exact isPlain_of_digits fun c hc => .inl (hpad c (List.mem_of_mem_take hc))
    · refine isPlain_of_digits fun c hc => ?_
      rcases List.mem_append.1 hc with hc | hc
      · exact .inl (hpad c (List.mem_of_mem_take hc))
      · rcases List.mem_cons.1 hc with rfl | hc
        · exact .inr (.inl rfl)
        · have hdrop := (List.dropWhile_suffix _).subset (List.mem_reverse.1 hc)
          exact .inl (hpad c (List.mem_of_mem_drop (List.mem_reverse.1 hdrop)))

theorem Binary64.isPlain_text (x : Binary64) : Text.isPlain x.text = true := by
  cases x with
  | nan => decide
  | infinite isNegative => cases isNegative <;> decide
  | finite isNegative significand exponent =>
    rw [text, Text.isPlain_append, Bool.and_eq_true]
    constructor
    · split <;> decide
    · split
      · decide
      · exact Decimal.isPlain_text _

theorem Binary64.isPlain_literal {x : Binary64} {t : String} (h : x.literal? = some t) :
    Text.isPlain t = true := by
  unfold literal? at h
  split at h
  · obtain rfl := Option.some.inj h
    split
    · exact x.isPlain_text
    · rw [Text.isPlain_append, x.isPlain_text]
      rfl
  · simp at h

end Number

def TableReference.identifiers (t : TableReference) : List String := [t.table, t.aliasName]

namespace Sql

/-! ## Phrases -/

/-- The node is written so that a reader who comes in code is in no literal behind it. -/
def Node.IsPhrase (d : Dialect) (n : Node) : Prop :=
  ∀ c : Context, c.dialect = d → (n.render c).Leads .ready .ended

/-- The expression can be written inside of a literal. -/
def Expression.IsQuiet (d : Dialect) (e : Expression) : Prop :=
  ∀ c : Context, c.dialect = d → ∀ f, e.render c = .ok f → ∀ piece ∈ f.pieces, piece.IsQuiet

/-- What a pattern puts into quotes of its own can stand there. -/
def Expression.QuotesQuiet (d : Dialect) (e : Expression) : Prop :=
  ∀ template arguments, e.template? d = some (template, arguments) →
    ∀ index argument, arguments[index]? = some (some argument) →
      template.quotes arguments.length index = true → argument.IsQuiet d

/-- The names of tables, and the aliases, that a query writes itself. -/
def QuerySpec.identifiers (spec : QuerySpec) : List String :=
  spec.select.flatMap (·.aliasName.toList) ++ spec.tables.flatMap fun item =>
    item.root.identifiers ++ item.joins.flatMap (·.table.identifiers)

/-- The names that a node writes itself. -/
def Node.identifiers : Node → List String
  | .expression (.column qualifier name) => qualifier.toList ++ [name]
  | .expression (.star qualifier) => qualifier.toList
  | .query (.spec body) => body.identifiers
  | _ => []

variable {c : Context}

namespace Slot

open Phase

theorem leads_part {n : Node} (h : n.IsPhrase c.dialect) (b : Bool) :
    ((part b n).render c).Leads ready ended := by
  cases b with
  | false => exact h c rfl
  | true => exact h c.nested rfl

theorem leads_expression {e : Expression} (h : (Node.expression e).IsPhrase c.dialect) :
    ((expression e).render c).Leads ready ended := h c rfl

theorem leads_condition {p : Condition} (h : (Node.condition p).IsPhrase c.dialect) :
    ((condition p).render c).Leads ready ended := h c rfl

theorem leads_quiet {e : Expression} (h : e.IsQuiet c.dialect) :
    ((expression e).render c).Leads inside inside := Rendered.leads_inside fun f hf => h c rfl f hf

theorem leads_ownPlain {t : String} (h : Text.isPlain t = true) :
    ((text t).render c).Leads ready ended := (Rendered.leads_plain h).toEnded

theorem leads_ownInside {t : String} (h : Text.isPlain t = true) :
    ((text t).render c).Leads inside inside := by
  refine Rendered.leads_inside fun f hf => ?_
  obtain rfl := Except.ok.inj hf
  exact List.forall_mem_singleton.2 (Text.not_mem_of_isPlain h)

theorem leads_subquery {q : Query} (h : (Node.query q).IsPhrase c.dialect) :
    Leads c ready ended (subquery q) :=
  Leads.parenthesized (leads_single (leads_part h true))

/-- Nodes with a text between neighbours. -/
theorem leads_items {separator : String} {items : List Expression}
    (hsep : Text.isLink separator = true)
    (h : ∀ e ∈ items, (Node.expression e).IsPhrase c.dialect) :
    Leads c ready ended (separated separator (items.map fun e => [expression e])) := by
  refine leads_separated hsep fun row hrow => ?_
  obtain ⟨e, he, rfl⟩ := List.mem_map.1 hrow
  exact leads_single (leads_expression (h e he))

end Slot

/-! ## Expressions -/

namespace Context

open Phase

theorem leads_column {qualifier : Option String} {name : String}
    (hq : ∀ a ∈ qualifier, Text.isPlain a = true) (hn : Text.isPlain name = true) :
    (c.column qualifier name).Leads ready ready := by
  unfold column
  split
  · next a =>
    split
    · exact Rendered.leads_name hn
    · refine Rendered.Leads.andThen (Rendered.leads_plain ?_)
        (Rendered.Leads.andThen (Rendered.leads_name hn) Rendered.leads_empty)
      rw [Text.isPlain_append, hq a rfl]
      rfl
  · exact Rendered.leads_name hn

theorem leads_literal (c : Context) (value : Literal) : (c.literal value).Leads ready ended := by
  unfold literal
  split
  · exact (Rendered.leads_plain rfl).toEnded
  · refine (Rendered.leads_plain ?_).toEnded
    unfold Dialect.booleanLiteral
    split <;> split <;> rfl
  · exact (Rendered.leads_plain (Number.isPlain_int _)).toEnded
  · split
    · next h => exact (Rendered.leads_plain (Number.Binary64.isPlain_literal h)).toEnded
    · exact Rendered.leads_malformed _
  · exact Rendered.leads_string _

theorem leads_star {qualifier : Option String} (hq : ∀ a ∈ qualifier, Text.isPlain a = true) :
    (star qualifier).Leads ready ended := by
  unfold star
  split
  · next a =>
    refine (Rendered.leads_plain ?_).toEnded
    rw [Text.isPlain_append, hq a rfl]
    rfl
  · exact (Rendered.leads_plain rfl).toEnded

theorem leads_requiringLayout {capability : Capability} {construct : String} {slots : List Slot}
    {p q : Phase} (h : Slot.Leads c p q slots) :
    Slot.Leads c p q (c.requiringLayout capability construct slots) := by
  unfold requiringLayout
  split
  · exact h
  · exact Slot.leads_fail

theorem leads_functionLayout (hd : c.dialect.IsClean) {name : String} {arguments : List Slot}
    (harguments : ∀ slot ∈ arguments, (slot.render c).Leads ready ended)
    (hquoted : ∀ template, c.dialect.functions.get? name = some template →
      ∀ index, template.quotes arguments.length index = true →
        ∀ slot, arguments[index]? = some slot → (slot.render c).Leads inside inside) :
    Slot.Leads c ready ended (c.functionLayout name arguments) := by
  unfold functionLayout Dialect.function
  cases hf : c.dialect.functions.get? name with
  | none => exact Slot.leads_fail
  | some template =>
    exact leads_templateLayout (hd.functions.rendering hf) harguments (hquoted _ hf)

/-- How the argument of a template is written: a name of a field is no expression. -/
inductive Argument (d : Dialect) : Option Expression → Slot → Prop
  | expression {e : Expression} (h : (Node.expression e).IsPhrase d) :
    Argument d (some e) (.expression e)
  | field {t : String} (h : Text.isPlain t = true) : Argument d none (.text t)

theorem argument_of_getElem? {d : Dialect} {arguments : List (Option Expression)}
    {slots : List Slot} (h : List.Forall₂ (Argument d) arguments slots) {index : Nat} {slot : Slot}
    (hslot : slots[index]? = some slot) :
    ∃ argument, arguments[index]? = some argument ∧ Argument d argument slot := by
  induction h generalizing index with
  | nil => simp at hslot
  | cons hfirst _ ih =>
    cases index with
    | zero => exact ⟨_, rfl, Option.some.inj hslot ▸ hfirst⟩
    | succ index => exact ih hslot

theorem leads_template {template : FunctionTemplate} {arguments : List (Option Expression)}
    {slots : List Slot} (h : template.rendering.isClean = true)
    (hslots : List.Forall₂ (Argument c.dialect) arguments slots)
    (hquoted : ∀ index argument, arguments[index]? = some (some argument) →
      template.quotes arguments.length index = true → argument.IsQuiet c.dialect) :
    Slot.Leads c ready ended (templateLayout template slots) := by
  refine leads_templateLayout h (fun slot hslot => ?_) fun index hindex slot hslot => ?_
  · obtain ⟨index, hindex⟩ := List.getElem?_of_mem hslot
    obtain ⟨_, -, harg⟩ := argument_of_getElem? hslots hindex
    cases harg with
    | expression he => exact Slot.leads_expression he
    | field ht => exact Slot.leads_ownPlain ht
  · obtain ⟨argument, ha, harg⟩ := argument_of_getElem? hslots hslot
    cases harg with
    | expression he =>
      exact Slot.leads_quiet (hquoted index _ ha (hslots.length_eq ▸ hindex))
    | field ht => exact Slot.leads_ownInside ht

theorem isClean_pattern {name source : String} {type : Option SqlType}
    (h : Pattern.isClean ⟨source⟩ = true) :
    (FunctionTemplate.pattern name source type).rendering.isClean = true :=
  Bool.and_eq_true_iff.2 ⟨h, rfl⟩

theorem leads_aggregateLayout {function : AggregateFunction} {isDistinct : Bool}
    {argument : Option Expression} (h : ∀ e ∈ argument, (Node.expression e).IsPhrase c.dialect) :
    Slot.Leads c ready ended (c.aggregateLayout function isDistinct argument) := by
  unfold aggregateLayout
  split
  · refine Slot.leads_single ?_
    unfold Slot.render aggregate
    dsimp only
    split
    · exact (Rendered.leads_plain (by cases function <;> decide)).toEnded
    · exact Rendered.leads_malformed _
  · next e =>
    have hopen : Text.isPlain (function.sql ++ "(") = true := by cases function <;> decide
    have hslots : Slot.Leads c ready ended [.text (function.sql ++ "("),
        .own (.textIf isDistinct "distinct "), .expression e, .text ")"] :=
      .cons (Rendered.leads_plain hopen) (.cons (Rendered.leads_textIf (Rendered.leads_plain rfl))
        (.cons (Slot.leads_expression (h e rfl)) (Slot.leads_single
          (Rendered.leads_link rfl).toEnded)))
    dsimp only
    split
    · exact leads_requiringLayout hslots
    · exact hslots

theorem leads_branchLayout {branch : CaseBranch Condition Expression}
    (hp : (Node.condition branch.condition).IsPhrase c.dialect)
    (he : (Node.expression branch.result).IsPhrase c.dialect) :
    Slot.Leads c ended ended (branchLayout branch) :=
  .cons (Rendered.leads_link rfl) (.cons (Slot.leads_condition hp)
    (.cons (Rendered.leads_link rfl) (Slot.leads_single (Slot.leads_expression he))))

theorem leads_caseLayout {branches : List (CaseBranch Condition Expression)}
    {otherwise : Option Expression}
    (hbranches : ∀ branch ∈ branches, (Node.condition branch.condition).IsPhrase c.dialect ∧
      (Node.expression branch.result).IsPhrase c.dialect)
    (hotherwise : ∀ e ∈ otherwise, (Node.expression e).IsPhrase c.dialect) :
    Slot.Leads c ready ended (caseLayout branches otherwise) := by
  unfold caseLayout
  split
  · exact Slot.leads_malformed
  · have hfront : Slot.Leads c ready ended (.text "case" :: branches.flatMap branchLayout) :=
      .cons (Slot.leads_ownPlain rfl) (Slot.leads_flatMap fun branch hb =>
        leads_branchLayout (hbranches branch hb).1 (hbranches branch hb).2)
    have helse : Slot.Leads c ended ended
        (Slot.clause " else " (otherwise.map fun e => [.expression e])) := by
      refine Slot.leads_clause rfl fun slots hslots => ?_
      obtain ⟨e, he, rfl⟩ := Option.map_eq_some_iff.1 hslots
      exact Slot.leads_single (Slot.leads_expression (hotherwise e he))
    exact (hfront.append helse).append (Slot.leads_single (Rendered.leads_link rfl).toEnded)

theorem leads_castLayout (hd : c.dialect.IsClean) {source : Expression} {target : CastTarget}
    (h : (Node.expression source).IsPhrase c.dialect) :
    Slot.Leads c ready ended (c.castLayout source target) := by
  unfold castLayout Dialect.columnType
  dsimp only
  cases ht : c.dialect.columnTypes.get _ _ with
  | none => exact Slot.leads_fail
  | some type =>
    have hclose : Text.isLink (" as " ++ type ++ ")") = true :=
      Text.isLink_append (Text.isLink_append rfl (hd.columnTypes.isPlain ht)) rfl
    exact .cons (Rendered.leads_plain rfl) (.cons (Slot.leads_expression h)
      (Slot.leads_single (Rendered.leads_link hclose).toEnded))

theorem leads_tupleLayout {items : List Expression}
    (h : ∀ e ∈ items, (Node.expression e).IsPhrase c.dialect) :
    Slot.Leads c ready ended (tupleLayout items) := by
  unfold tupleLayout
  split
  · exact Slot.leads_malformed
  · exact (Slot.leads_items rfl h).parenthesized

theorem leads_extractLayout (hd : c.dialect.IsClean) {unit : TemporalUnit} {source : Expression}
    (h : (Node.expression source).IsPhrase c.dialect)
    (hquoted : (Expression.extract unit source).QuotesQuiet c.dialect) :
    Slot.Leads c ready ended (c.extractLayout unit (.expression source)) := by
  have hfield : Text.isPlain (c.dialect.extractField unit) = true := by
    have hnames := hd.rules.extractField unit
    unfold Dialect.extractField
    cases hf : c.dialect.rules.extractFields unit with
    | none => cases unit <;> decide
    | some field => simpa [hf] using hnames
  have hslots : List.Forall₂ (Argument c.dialect) [none, some source]
      [.text (c.dialect.extractField unit), .expression source] :=
    .cons (.field hfield) (.cons (.expression h) .nil)
  have hpatterns := hd.rules.extractPattern unit
  unfold extractLayout
  dsimp only
  cases hp : c.dialect.rules.extractPatterns unit with
  | some pattern =>
    rw [hp] at hpatterns
    exact leads_template (isClean_pattern hpatterns) hslots
      (hquoted _ _ (by simp [Expression.template?, extractTemplate?, hp]))
  | none =>
    cases hf : c.dialect.functions.get? "extract" with
    | some template =>
      exact leads_template (hd.functions.rendering hf) hslots
        (hquoted _ _ (by simp [Expression.template?, extractTemplate?, hp, hf]))
    | none =>
      have hopen : Text.isPlain ("extract(" ++ c.dialect.extractField unit ++ " from ") = true := by
        rw [Text.isPlain_append, Text.isPlain_append, hfield]
        rfl
      exact .cons (Rendered.leads_plain hopen) (.cons (Slot.leads_expression h)
        (Slot.leads_single (Rendered.leads_link rfl).toEnded))

theorem isPlain_durationField (unit : TemporalUnit) :
    Text.isPlain unit.durationField = true := by cases unit <;> decide

end Context

/-- An expression is a phrase if its children are. -/
theorem Expression.leads_layout (hd : c.dialect.IsClean) {e : Expression}
    (hnames : ∀ name ∈ (Node.expression e).identifiers, Text.isPlain name = true)
    (hquoted : e.QuotesQuiet c.dialect) (h : ∀ n ∈ e.children, n.IsPhrase c.dialect) :
    Slot.Leads c .ready .ended (e.layout c) := by
  cases e with
  | column qualifier name =>
    simp only [Node.identifiers, List.forall_mem_append, Option.mem_toList] at hnames
    exact Slot.leads_single
      (Context.leads_column hnames.1 (hnames.2 name (List.mem_singleton.2 rfl))).toEnded
  | literal value => exact Slot.leads_single (Context.leads_literal c value)
  | parameter bound => exact Slot.leads_single (Rendered.leads_parameter bound)
  | star qualifier =>
    simp only [Node.identifiers, Option.mem_toList] at hnames
    exact Slot.leads_single (Context.leads_star hnames)
  | call name arguments =>
    have harguments : List.Forall₂ (Context.Argument c.dialect) (arguments.map some)
        (arguments.map .expression) := by
      rw [List.forall₂_map_left_iff, List.forall₂_map_right_iff, List.forall₂_same]
      exact fun e he => .expression (h _ (List.mem_map_of_mem he))
    simp only [layout, Context.functionLayout, Dialect.function]
    cases hf : c.dialect.functions.get? name with
    | none => exact Slot.leads_fail
    | some template =>
      exact Context.leads_template (hd.functions.rendering hf) harguments
        (hquoted _ _ (by simp [template?, hf]))
  | aggregate function isDistinct argument =>
    exact Context.leads_aggregateLayout fun e he =>
      h _ (List.mem_map_of_mem (Option.mem_toList.2 he))
  | extract unit source =>
    exact Context.leads_extractLayout hd (h _ (List.mem_singleton.2 rfl)) hquoted
  | timestampAdd unit magnitude timestamp =>
    have hclean := (Bool.and_eq_true_iff.1 (hd.rules.timestampArithmetic unit)).1
    have hslots : List.Forall₂ (Context.Argument c.dialect)
        [none, some magnitude, some timestamp]
        [.text unit.durationField, .expression magnitude, .expression timestamp] :=
      .cons (.field (Context.isPlain_durationField unit))
        (.cons (.expression (h _ (by simp [children])))
          (.cons (.expression (h _ (by simp [children]))) .nil))
    simp only [layout, Context.timestampLayout, Dialect.timestampAdd]
    cases hp : c.dialect.rules.timestampArithmetic.add? unit with
    | none => exact Slot.leads_fail
    | some pattern =>
      rw [hp] at hclean
      exact Context.leads_template (Context.isClean_pattern hclean) hslots
        (hquoted _ _ (by simp [template?, hp]))
  | timestampDiff unit start finish =>
    have hclean := (Bool.and_eq_true_iff.1 (hd.rules.timestampArithmetic unit)).2
    have hslots : List.Forall₂ (Context.Argument c.dialect) [none, some start, some finish]
        [.text unit.durationField, .expression start, .expression finish] :=
      .cons (.field (Context.isPlain_durationField unit))
        (.cons (.expression (h _ (by simp [children])))
          (.cons (.expression (h _ (by simp [children]))) .nil))
    simp only [layout, Context.timestampLayout, Dialect.timestampDiff]
    cases hp : c.dialect.rules.timestampArithmetic.diff? unit with
    | none => exact Slot.leads_fail
    | some pattern =>
      rw [hp] at hclean
      exact Context.leads_template (Context.isClean_pattern hclean) hslots
        (hquoted _ _ (by simp [template?, hp]))
  | format source pattern =>
    have hsource := h _ (List.mem_singleton.2 rfl)
    refine Context.leads_functionLayout hd ?_ fun template hf index hindex slot hslot => ?_
    · exact List.forall_mem_cons.2 ⟨Slot.leads_expression hsource,
        List.forall_mem_singleton.2 (Rendered.leads_string _)⟩
    · rcases index with _ | _ | index
      · obtain rfl := Option.some.inj hslot
        exact Slot.leads_quiet (hquoted template [some source, none] (by simp [template?, hf])
          0 source rfl hindex)
      · exact absurd hindex (by simp [hd.functions.format hf])
      · simp at hslot
  | binary left operator right =>
    have hoperator : Text.isLink (" " ++ operator.sql ++ " ") = true := by cases operator <;> decide
    have hleft := h (.expression left) (by simp [children])
    have hright := h (.expression right) (by simp [children])
    exact Slot.Leads.parenthesized (.cons (Slot.leads_expression hleft)
      (.cons (Rendered.leads_link hoperator) (Slot.leads_single (Slot.leads_expression hright))))
  | negate operand =>
    exact .cons (Rendered.leads_plain rfl)
      (.cons (Slot.leads_expression (h _ (List.mem_singleton.2 rfl)))
        (Slot.leads_single (Rendered.leads_link rfl).toEnded))
  | case branches otherwise =>
    simp only [children, List.forall_mem_append, List.forall_mem_map, Option.mem_toList,
      List.mem_flatMap] at h
    refine Context.leads_caseLayout (fun branch hb => ⟨?_, ?_⟩) fun e he => h.2 e he
    · exact h.1 _ ⟨branch, hb, List.mem_cons_self⟩
    · exact h.1 _ ⟨branch, hb, List.mem_cons_of_mem _ List.mem_cons_self⟩
  | cast source target => exact Context.leads_castLayout hd (h _ (List.mem_singleton.2 rfl))
  | subquery query => exact Slot.leads_subquery (h _ (List.mem_singleton.2 rfl))
  | tuple items => exact Context.leads_tupleLayout fun e he => h _ (List.mem_map_of_mem he)

/-! ## Conditions -/

namespace Context

open Phase

theorem isLink_operator (operator : Comparison) :
    Text.isLink (" " ++ operator.sql ++ " ") = true := by cases operator <;> decide

theorem leads_comparisonLayout {operator : Comparison} {left right : Expression}
    (hleft : (Node.expression left).IsPhrase c.dialect)
    (hright : (Node.expression right).IsPhrase c.dialect) :
    Slot.Leads c ready ended
      (comparisonLayout operator [.expression left] [.expression right]) :=
  .cons (Slot.leads_expression hleft) (.cons (Rendered.leads_link (isLink_operator operator))
    (Slot.leads_single (Slot.leads_expression hright)))

/-- Both elements of a pair are phrases. -/
def PairIsPhrase (d : Dialect) (pair : Expression × Expression) : Prop :=
  (Node.expression pair.1).IsPhrase d ∧ (Node.expression pair.2).IsPhrase d

theorem leads_alternativeLayout {operator : Comparison} {equal : List (Expression × Expression)}
    {pair : Expression × Expression} (hequal : ∀ p ∈ equal, PairIsPhrase c.dialect p)
    (hpair : PairIsPhrase c.dialect pair) :
    Slot.Leads c ready ended (alternativeLayout operator equal pair) := by
  unfold alternativeLayout
  split
  · exact leads_comparisonLayout hpair.1 hpair.2
  · refine (Slot.leads_separated rfl ?_).parenthesized
    simp only [List.forall_mem_append, List.forall_mem_map, List.forall_mem_singleton]
    exact ⟨fun p hp => leads_comparisonLayout (hequal p hp).1 (hequal p hp).2,
      leads_comparisonLayout hpair.1 hpair.2⟩

theorem leads_alternativeLayouts {operator : Comparison}
    {equal pairs : List (Expression × Expression)}
    (hequal : ∀ p ∈ equal, PairIsPhrase c.dialect p)
    (hpairs : ∀ p ∈ pairs, PairIsPhrase c.dialect p) :
    ∀ row ∈ alternativeLayouts operator equal pairs, Slot.Leads c ready ended row := by
  induction pairs generalizing equal with
  | nil => simp [alternativeLayouts]
  | cons pair rest ih =>
    rw [List.forall_mem_cons] at hpairs
    cases rest with
    | nil => exact List.forall_mem_singleton.2 (leads_alternativeLayout hequal hpairs.1)
    | cons next rest =>
      refine List.forall_mem_cons.2 ⟨leads_alternativeLayout hequal hpairs.1, ih ?_ hpairs.2⟩
      exact List.forall_mem_append.2 ⟨hequal, List.forall_mem_singleton.2 hpairs.1⟩

theorem leads_expandedLayout {operator : Comparison} {pairs : List (Expression × Expression)}
    (h : ∀ p ∈ pairs, PairIsPhrase c.dialect p) :
    Slot.Leads c ready ended (expandedLayout operator pairs) := by
  have hrows (operator : Comparison) :
      ∀ row ∈ pairs.map (pairLayout operator), Slot.Leads c ready ended row :=
    List.forall_mem_map.2 fun p hp => leads_comparisonLayout (h p hp).1 (h p hp).2
  cases operator with
  | equal | notEqual => exact (Slot.leads_separated rfl (hrows _)).parenthesized
  | less | lessOrEqual | greater | greaterOrEqual =>
    exact (Slot.leads_separated rfl
      (leads_alternativeLayouts (List.forall_mem_nil _) h)).parenthesized

theorem leads_compareLayout {operator : Comparison} {left right : Expression}
    (h : ∀ n : Node, n.Below (.condition (.compare left operator right)) → n.IsPhrase c.dialect) :
    Slot.Leads c ready ended (c.compareLayout operator left right) := by
  have hleft := h (.expression left) (.child List.mem_cons_self)
  have hright := h (.expression right) (.child (List.mem_cons_of_mem _ List.mem_cons_self))
  have hmixed (elements : Nat) : Slot.Leads c ready ended
      (c.mixedLayout elements operator left right) := by
    unfold mixedLayout
    split
    · exact Slot.leads_malformed
    · exact leads_requiringLayout (leads_comparisonLayout hleft hright)
  unfold compareLayout
  split
  · next lefts rights =>
    unfold rowLayout
    split
    · exact Slot.leads_malformed
    · split
      · exact leads_comparisonLayout hleft hright
      · refine leads_expandedLayout fun pair hpair => ⟨?_, ?_⟩
        · exact h _ (.element List.mem_cons_self (List.of_mem_zip hpair).1)
        · exact h _ (.element (List.mem_cons_of_mem _ List.mem_cons_self)
            (List.of_mem_zip hpair).2)
  · exact hmixed _
  · exact hmixed _
  · exact leads_comparisonLayout hleft hright

theorem leads_memberLayout {operand : Expression} {slots : List Slot} {p q : Phase}
    (h : Slot.Leads c p q slots) : Slot.Leads c p q (c.memberLayout operand slots) := by
  unfold memberLayout
  split
  · exact leads_requiringLayout h
  · exact leads_requiringLayout h
  · exact h

theorem leads_negatable {isNegated : Bool} {keyword : String} (h : Text.isPlain keyword = true) :
    (negatable isNegated keyword).Leads ended ready := by
  refine Rendered.leads_link ?_
  cases isNegated
  · exact Text.isLink_append rfl h
  · exact Text.isLink_append rfl h

theorem leads_sideLayout (hd : c.dialect.IsClean) {isLowered : Bool} {e : Expression}
    (h : (Node.expression e).IsPhrase c.dialect) :
    Slot.Leads c ready ended (c.sideLayout isLowered e) := by
  unfold sideLayout
  split
  · have hopen : Text.isPlain (c.dialect.rules.lowercaseFunction ++ "(") = true := by
      rw [Text.isPlain_append, hd.rules.lowercaseFunction]
      rfl
    exact .cons (Rendered.leads_plain hopen) (.cons (Slot.leads_expression h)
      (Slot.leads_single (Rendered.leads_link rfl).toEnded))
  · exact Slot.leads_single (Slot.leads_expression h)

theorem leads_likeLayout (hd : c.dialect.IsClean) {operand pattern : Expression}
    {escape : Option Char} {ignoresCase isNegated : Bool}
    (hoperand : (Node.expression operand).IsPhrase c.dialect)
    (hpattern : (Node.expression pattern).IsPhrase c.dialect) :
    Slot.Leads c ready ended (c.likeLayout operand pattern escape ignoresCase isNegated) := by
  have hkeyword (isNative : Bool) :
      Text.isPlain (if isNative then "ilike " else "like ") = true := by cases isNative <;> decide
  refine ((leads_sideLayout hd hoperand).append
    (.cons (leads_negatable (hkeyword _)) (leads_sideLayout hd hpattern))).append ?_
  refine Slot.leads_clause rfl fun slots hslots => ?_
  obtain ⟨_, _, rfl⟩ := Option.map_eq_some_iff.1 hslots
  exact Slot.leads_single (Rendered.leads_string _)

end Context

/-- A condition is a phrase if the nodes below it are. -/
theorem Condition.leads_layout (hd : c.dialect.IsClean) {p : Condition}
    (h : ∀ n : Node, n.Below (.condition p) → n.IsPhrase c.dialect) :
    Slot.Leads c .ready .ended (p.layout c) := by
  have hchild {n : Node} (hn : n ∈ p.children) : n.IsPhrase c.dialect := h n (.child hn)
  cases p with
  | compare left operator right => exact Context.leads_compareLayout h
  | all items =>
    simp only [layout]
    split
    · exact Slot.leads_single (Slot.leads_ownPlain rfl)
    · refine Slot.leads_separated rfl (List.forall_mem_map.2 fun q hq => ?_)
      have hrow := Slot.leads_single (Slot.leads_condition (hchild (List.mem_map_of_mem hq)))
      unfold Context.operandLayout
      split
      · exact hrow.parenthesized
      · exact hrow
  | any items =>
    simp only [layout]
    split
    · exact Slot.leads_single (Slot.leads_ownPlain rfl)
    · exact Slot.leads_separated rfl (List.forall_mem_map.2 fun q hq =>
        Slot.leads_single (Slot.leads_condition (hchild (List.mem_map_of_mem hq))))
  | not operand =>
    exact .cons (Rendered.leads_plain rfl)
      (.cons (Slot.leads_condition (hchild (List.mem_singleton.2 rfl)))
        (Slot.leads_single (Rendered.leads_link rfl).toEnded))
  | isNull operand isNegated =>
    have hclose : Text.isLink (if isNegated then " is not null" else " is null") = true := by
      cases isNegated <;> decide
    exact .cons (Slot.leads_expression (hchild (List.mem_singleton.2 rfl)))
      (Slot.leads_single (Rendered.leads_link hclose).toEnded)
  | inList operand items isNegated =>
    simp only [layout, Context.inListLayout]
    split
    · exact Slot.leads_single (Slot.leads_ownPlain (by cases isNegated <;> decide))
    · refine Context.leads_memberLayout (.append (q := .ended) (.cons
        (Slot.leads_expression (hchild List.mem_cons_self))
        (.cons (Context.leads_negatable rfl) (Slot.leads_items rfl fun e he =>
          hchild (List.mem_cons_of_mem _ (List.mem_map_of_mem he)))))
        (Slot.leads_single (Rendered.leads_link rfl).toEnded))
  | inQuery operand query isNegated =>
    exact Context.leads_memberLayout (.cons (Slot.leads_expression (hchild List.mem_cons_self))
      (.cons (Context.leads_negatable rfl)
        (Slot.leads_subquery (hchild (List.mem_cons_of_mem _ List.mem_cons_self)))))
  | «exists» query isNegated =>
    have hopen : Text.isPlain (if isNegated then "not exists " else "exists ") = true := by
      cases isNegated <;> decide
    exact .cons (Rendered.leads_plain hopen)
      (Slot.leads_subquery (hchild (List.mem_singleton.2 rfl)))
  | like operand pattern escape ignoresCase isNegated =>
    exact Context.leads_likeLayout hd (hchild List.mem_cons_self)
      (hchild (List.mem_cons_of_mem _ List.mem_cons_self))
  | between operand low high isNegated =>
    have hlow := hchild (n := .expression low) (by simp [children])
    have hhigh := hchild (n := .expression high) (by simp [children])
    exact .cons (Slot.leads_expression (hchild List.mem_cons_self))
      (.cons (Context.leads_negatable rfl) (.cons (Slot.leads_expression hlow)
        (.cons (Rendered.leads_link rfl) (Slot.leads_single (Slot.leads_expression hhigh)))))
  | holds operand =>
    have hclose : Text.isLink (" = " ++ c.dialect.booleanLiteral true) = true := by
      refine Text.isLink_append rfl ?_
      unfold Dialect.booleanLiteral
      split <;> rfl
    exact .cons (Slot.leads_expression (hchild (List.mem_singleton.2 rfl)))
      (Slot.leads_single (Rendered.leads_link hclose).toEnded)

end Sql

end SqlDialects
