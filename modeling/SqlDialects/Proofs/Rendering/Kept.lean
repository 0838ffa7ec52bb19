import SqlDialects.Proofs.Rendering.Contents

/-!
# What a rendering keeps

No parameter and no table of a tree is lost, as long as no order is removed, no list that a value
has to be in is empty, and no pattern leaves an argument out.
-/

namespace SqlDialects

/-! ## Arguments of templates -/

namespace FunctionTemplate

/-- If the template has a pattern for so many arguments, the argument has a place in it. -/
def Mentions (template : FunctionTemplate) (count index : Nat) : Prop :=
  ∀ byCount pattern, template.rendering = .patterns byCount →
    byCount.get? count = some pattern → .argument index ∈ pattern.segments

theorem argument_mem_separated {separator : String} {count index : Nat} (h : index < count) :
    .argument index ∈ Segment.separated separator count := by
  induction count with
  | zero => omega
  | succ n ih =>
    cases n with
    | zero =>
      obtain rfl : index = 0 := by omega
      exact List.mem_singleton.2 rfl
    | succ n =>
      rw [Segment.separated, List.mem_append]
      rcases Nat.lt_succ_iff_lt_or_eq.1 h with h | rfl
      · exact .inl (ih h)
      · exact .inr (by simp)

/-- Names and operators mention every argument; only a pattern can leave one out. -/
theorem argument_mem_expand {template : FunctionTemplate} {count index : Nat}
    {segments : List Segment} (h : template.expand count = .ok segments) (hi : index < count)
    (hm : template.Mentions count index) : .argument index ∈ segments := by
  rcases expand_ok_cases h with ⟨byCount, pattern, hr, hp, rfl⟩ | ⟨sqlName, -, rfl⟩ |
    ⟨operator, -, rfl⟩
  · exact hm byCount pattern hr hp
  · simp [argument_mem_separated hi]
  · simp [argument_mem_separated hi]

end FunctionTemplate

namespace Sql

/-- The pattern that an extraction is written with, where the dialect has one. -/
def extractTemplate? (d : Dialect) (unit : TemporalUnit) : Option FunctionTemplate :=
  match d.rules.extractPatterns unit with
  | some pattern => some (.pattern "extract" pattern (some .integer))
  | none => d.functions.get? "extract"

namespace Expression

/-- The template that a dialect writes an expression with, and its arguments. Those that are no
expressions stand as `none`. -/
def template? (d : Dialect) :
    Expression → Option (FunctionTemplate × List (Option Expression))
  | call name arguments => (d.functions.get? name).map (·, arguments.map some)
  | extract unit source => (extractTemplate? d unit).map (·, [none, some source])
  | timestampAdd unit magnitude timestamp =>
    (d.rules.timestampArithmetic.add? unit).map fun pattern =>
      (.pattern "timestampadd" pattern, [none, some magnitude, some timestamp])
  | timestampDiff unit start finish =>
    (d.rules.timestampArithmetic.diff? unit).map fun pattern =>
      (.pattern "timestampdiff" pattern, [none, some start, some finish])
  | format source _ => (d.functions.get? "format").map (·, [some source, none])
  | _ => none

/-- No pattern leaves out an argument that is an expression. -/
def MentionsArguments (d : Dialect) (e : Expression) : Prop :=
  ∀ template arguments, e.template? d = some (template, arguments) →
    ∀ index argument, arguments[index]? = some (some argument) →
      template.Mentions arguments.length index

end Expression

/-- No list that a value has to be in is empty. -/
def Condition.HasItems : Condition → Prop
  | .inList _ items _ => items ≠ []
  | _ => True

namespace Slot

/-- Nothing fails in these slots, and no order is removed. -/
structure IsWhole (slots : List Slot) : Prop where
  noError : ∀ e, own (.error e) ∉ slots
  keepsOrder : own (.warning .subqueryOrderByRemoved) ∉ slots

variable {slots slots' : List Slot}

theorem isWhole_append : IsWhole (slots ++ slots') ↔ IsWhole slots ∧ IsWhole slots' := by
  constructor
  · rintro ⟨he, hw⟩
    simp only [List.mem_append, not_or] at he hw
    exact ⟨⟨fun e => (he e).1, hw.1⟩, ⟨fun e => (he e).2, hw.2⟩⟩
  · rintro ⟨⟨he, hw⟩, ⟨he', hw'⟩⟩
    exact ⟨by simp [he, he'], by simp [hw, hw']⟩

theorem IsWhole.mono (h : IsWhole slots) (hsub : slots' ⊆ slots) : IsWhole slots' :=
  ⟨fun e he => h.noError e (hsub he), fun hw => h.keepsOrder (hsub hw)⟩

theorem subset_separated (separator : String) {rows : List (List Slot)} {row : List Slot}
    (h : row ∈ rows) : row ⊆ separated separator rows := by
  induction rows with
  | nil => simp at h
  | cons first rest ih =>
    cases rest with
    | nil =>
      obtain rfl := List.mem_singleton.1 h
      exact List.Subset.refl _
    | cons next rest =>
      rw [separated]
      rcases List.mem_cons.1 h with rfl | h
      · exact List.subset_append_left _ _
      · exact List.subset_append_of_subset_right _ (List.subset_cons_of_subset _ (ih h))

@[simp]
theorem not_isWhole_fail {e : DialectError} : ¬ IsWhole (fail e) :=
  fun h => h.noError e (List.mem_singleton.2 rfl)

@[simp]
theorem not_isWhole_malformed {reason : String} : ¬ IsWhole (malformed reason) :=
  fun h => h.noError _ (List.mem_singleton.2 rfl)

theorem isWhole_of_fill {c : Context} {f : Fragment} (h : fill c slots = .ok f)
    (hf : ¬ f.Carries (.warning .subqueryOrderByRemoved)) : IsWhole slots where
  noError e he := by
    obtain ⟨g, hg⟩ := fill_renders h he
    simp at hg
  keepsOrder hw := hf ((fill_carries h).2 ⟨_, hw, _, rfl, List.mem_singleton.2 rfl⟩)

end Slot

namespace Context

open Slot (IsWhole)

variable {c : Context}

theorem requiringLayout_of_isWhole {capability : Capability} {construct : String}
    {slots : List Slot} (h : IsWhole (c.requiringLayout capability construct slots)) :
    c.requiringLayout capability construct slots = slots := by
  unfold requiringLayout at h ⊢
  split at h
  · next hs => exact if_pos hs
  · simp at h

theorem mem_templateLayout {template : FunctionTemplate} {arguments : List Slot} {index : Nat}
    {slot : Slot} (h : IsWhole (templateLayout template arguments))
    (hs : arguments[index]? = some slot) (hm : template.Mentions arguments.length index) :
    slot ∈ templateLayout template arguments := by
  unfold templateLayout at h ⊢
  split at h
  · next segments hexpand =>
    have hi : index < arguments.length := (List.getElem?_eq_some_iff.1 hs).1
    refine List.mem_map.2 ⟨_, FunctionTemplate.argument_mem_expand hexpand hi hm, ?_⟩
    simp [argumentSlot, hs]
  · simp at h

end Context

open Slot (IsWhole)

namespace Expression

variable {c : Context} {e : Expression} {n : Node}

/-- An expression that is written with a template has slots for all its arguments. -/
theorem argument_mem_layout (h : IsWhole (e.layout c)) (hm : e.MentionsArguments c.dialect)
    {template : FunctionTemplate} {arguments : List (Option Expression)} {slots : List Slot}
    (ht : e.template? c.dialect = some (template, arguments))
    (hl : e.layout c = Context.templateLayout template slots)
    (hlength : slots.length = arguments.length) (index : Nat) {argument : Expression}
    (ha : arguments[index]? = some (some argument))
    (hs : slots[index]? = some (.expression argument)) :
    ∃ b, .part b (.expression argument) ∈ e.layout c := by
  rw [hl] at h ⊢
  exact ⟨false, Context.mem_templateLayout h hs (hlength ▸ hm _ _ ht index argument ha)⟩

theorem part_of_child (h : IsWhole (e.layout c)) (hm : e.MentionsArguments c.dialect)
    (hn : n ∈ e.children) : ∃ b, .part b n ∈ e.layout c := by
  cases e with
  | column | literal | parameter | star => simp [children] at hn
  | call name arguments =>
    obtain ⟨e, he, rfl⟩ := List.mem_map.1 hn
    obtain ⟨index, hi⟩ := List.getElem?_of_mem he
    cases hf : c.dialect.functions.get? name with
    | none =>
      simp [layout, Context.functionLayout, Dialect.function, hf] at h
    | some template =>
      have ht : (Expression.call name arguments).template? c.dialect =
          some (template, arguments.map some) := by simp [template?, hf]
      have hl : (Expression.call name arguments).layout c =
          Context.templateLayout template (arguments.map .expression) := by
        simp [layout, Context.functionLayout, Dialect.function, hf]
      exact argument_mem_layout h hm ht hl (by simp) index (by simp [hi]) (by simp [hi])
  | aggregate function isDistinct argument =>
    cases argument with
    | none => simp [children] at hn
    | some e =>
      obtain rfl : n = .expression e := by simpa [children] using hn
      refine ⟨false, ?_⟩
      simp only [layout, Context.aggregateLayout] at h ⊢
      split at h
      · next hs =>
        rw [if_pos hs, Context.requiringLayout_of_isWhole h]
        simp
      · next hs =>
        rw [if_neg hs]
        simp
  | extract unit source =>
    obtain rfl := List.mem_singleton.1 hn
    cases hp : c.dialect.rules.extractPatterns unit with
    | some pattern =>
      exact argument_mem_layout h hm (by simp [template?, extractTemplate?, hp]; exact ⟨rfl, rfl⟩)
        (by simp [layout, Context.extractLayout, hp]; rfl) rfl 1 rfl rfl
    | none =>
      cases hf : c.dialect.functions.get? "extract" with
      | some template =>
        exact argument_mem_layout h hm
          (by simp [template?, extractTemplate?, hp, hf]; exact ⟨rfl, rfl⟩)
          (by simp [layout, Context.extractLayout, hp, hf]; rfl) rfl 1 rfl rfl
      | none => exact ⟨false, by simp [layout, Context.extractLayout, hp, hf]⟩
  | timestampAdd unit magnitude timestamp =>
    cases hp : c.dialect.rules.timestampArithmetic.add? unit with
    | none => simp [layout, Context.timestampLayout, Dialect.timestampAdd, hp] at h
    | some pattern =>
      have hl : (Expression.timestampAdd unit magnitude timestamp).layout c =
          Context.templateLayout (.pattern "timestampadd" pattern)
            [.text unit.durationField, .expression magnitude, .expression timestamp] := by
        simp [layout, Context.timestampLayout, Dialect.timestampAdd, hp]
      have ht : (Expression.timestampAdd unit magnitude timestamp).template? c.dialect =
          some (.pattern "timestampadd" pattern, [none, some magnitude, some timestamp]) := by
        simp [template?, hp]
      simp only [children, List.mem_cons, List.not_mem_nil, or_false] at hn
      rcases hn with rfl | rfl
      · exact argument_mem_layout h hm ht hl rfl 1 rfl rfl
      · exact argument_mem_layout h hm ht hl rfl 2 rfl rfl
  | timestampDiff unit start finish =>
    cases hp : c.dialect.rules.timestampArithmetic.diff? unit with
    | none => simp [layout, Context.timestampLayout, Dialect.timestampDiff, hp] at h
    | some pattern =>
      have hl : (Expression.timestampDiff unit start finish).layout c =
          Context.templateLayout (.pattern "timestampdiff" pattern)
            [.text unit.durationField, .expression start, .expression finish] := by
        simp [layout, Context.timestampLayout, Dialect.timestampDiff, hp]
      have ht : (Expression.timestampDiff unit start finish).template? c.dialect =
          some (.pattern "timestampdiff" pattern, [none, some start, some finish]) := by
        simp [template?, hp]
      simp only [children, List.mem_cons, List.not_mem_nil, or_false] at hn
      rcases hn with rfl | rfl
      · exact argument_mem_layout h hm ht hl rfl 1 rfl rfl
      · exact argument_mem_layout h hm ht hl rfl 2 rfl rfl
  | format source pattern =>
    obtain rfl := List.mem_singleton.1 hn
    cases hf : c.dialect.functions.get? "format" with
    | none => simp [layout, Context.functionLayout, Dialect.function, hf] at h
    | some template =>
      exact argument_mem_layout h hm (by simp [template?, hf]; exact ⟨rfl, rfl⟩)
        (by simp [layout, Context.functionLayout, Dialect.function, hf]; rfl) rfl
        0 rfl rfl
  | binary left operator right =>
    simp only [children, List.mem_cons, List.not_mem_nil, or_false] at hn
    exact ⟨false, by simpa [layout] using hn⟩
  | negate operand =>
    obtain rfl := List.mem_singleton.1 hn
    exact ⟨false, by simp [layout]⟩
  | case branches otherwise =>
    refine ⟨false, ?_⟩
    simp only [layout, Context.caseLayout] at h ⊢
    split at h
    · simp at h
    · next hne =>
      rw [if_neg hne]
      simp only [children, CaseBranch.nodes, List.mem_append, List.mem_flatMap, List.mem_map,
        Option.mem_toList, List.mem_cons, List.not_mem_nil, or_false] at hn
      rcases hn with ⟨branch, hb, hn⟩ | ⟨e, he, rfl⟩
      · have hpart : .part false n ∈ Context.branchLayout branch := by
          simpa [Context.branchLayout] using hn
        simp only [List.cons_append, List.mem_cons, List.mem_append, List.mem_flatMap]
        exact .inr (.inl (.inl ⟨branch, hb, hpart⟩))
      · cases he
        simp
  | cast source target =>
    obtain rfl := List.mem_singleton.1 hn
    refine ⟨false, ?_⟩
    simp only [layout, Context.castLayout] at h ⊢
    split at h
    · simp
    · simp at h
  | subquery query =>
    obtain rfl := List.mem_singleton.1 hn
    exact ⟨true, by simp [layout]⟩
  | tuple items =>
    obtain ⟨e, he, rfl⟩ := List.mem_map.1 hn
    refine ⟨false, ?_⟩
    simp only [layout, Context.tupleLayout] at h ⊢
    split at h
    · simp at h
    · next hne =>
      rw [if_neg hne]
      simpa using he

end Expression

namespace Condition

variable {c : Context} {n : Node}

/-- A comparison of tuples that is expanded has slots for their elements. -/
theorem part_of_compared {operator : Comparison} {left right : Expression}
    (h : IsWhole (c.compareLayout operator left right))
    (hn : n = .expression left ∨ n = .expression right) :
    (∃ b, .part b n ∈ c.compareLayout operator left right) ∨
      ∃ items, n = .expression (.tuple items) ∧ items ≠ [] ∧
        ∀ e ∈ items, .part false (.expression e) ∈ c.compareLayout operator left right := by
  have hsides {slots : List Slot}
      (hs : slots = Context.comparisonLayout operator [.expression left] [.expression right]) :
      ∃ b, .part b n ∈ slots := ⟨false, by simpa [hs, Context.comparisonLayout] using hn⟩
  have hmixed {elements : Nat} (h : IsWhole (c.mixedLayout elements operator left right)) :
      ∃ b, .part b n ∈ c.mixedLayout elements operator left right := by
    unfold Context.mixedLayout at h ⊢
    split at h
    · simp at h
    · next hne =>
      rw [if_neg hne, Context.requiringLayout_of_isWhole h]
      exact hsides rfl
  unfold Context.compareLayout at h ⊢
  split at h
  · next lefts rights =>
    simp only [Context.rowLayout] at h ⊢
    split at h
    · simp at h
    · next hlength =>
      rw [if_neg hlength]
      split at h
      · next hs =>
        rw [if_pos hs]
        exact .inl (hsides rfl)
      · next hs =>
        rw [if_neg hs]
        simp only [Bool.or_eq_true, decide_eq_true_eq, bne_iff_ne, not_or, Nat.not_lt,
          not_not] at hlength
        have hlefts : lefts ≠ [] := List.ne_nil_of_length_pos (by omega)
        have hrights : rights ≠ [] := List.ne_nil_of_length_pos (by omega)
        have hne : lefts.zip rights ≠ [] := by
          rw [Ne, List.zip_eq_nil_iff, not_or]
          exact ⟨hlefts, hrights⟩
        have hpart {e : Expression} (he : e ∈ lefts ∨ e ∈ rights) :
            .part false (.expression e) ∈ Context.expandedLayout operator (lefts.zip rights) :=
          (Context.part_mem_expandedLayout_iff hne).2
            ⟨rfl, (Context.mem_pairNodes_zip hlength.2).2 ⟨e, he, rfl⟩⟩
        rcases hn with rfl | rfl
        · exact .inr ⟨lefts, rfl, hlefts, fun e he => hpart (.inl he)⟩
        · exact .inr ⟨rights, rfl, hrights, fun e he => hpart (.inr he)⟩
  · exact .inl (hmixed h)
  · exact .inl (hmixed h)
  · exact .inl (hsides rfl)

theorem part_mem_memberLayout {operand : Expression} {slots : List Slot} {b : Bool}
    (h : IsWhole (c.memberLayout operand slots)) (hn : .part b n ∈ slots) :
    .part b n ∈ c.memberLayout operand slots := by
  cases operand with
  | tuple | subquery =>
    simp only [Context.memberLayout] at h ⊢
    rwa [Context.requiringLayout_of_isWhole h]
  | _ => exact hn

theorem part_of_child {p : Condition} (h : IsWhole (p.layout c)) (hi : p.HasItems)
    (hn : n ∈ p.children) : (∃ b, .part b n ∈ p.layout c) ∨
      ∃ items, n = .expression (.tuple items) ∧ items ≠ [] ∧
        ∀ e ∈ items, .part false (.expression e) ∈ p.layout c := by
  cases p with
  | compare left operator right =>
    simp only [children, List.mem_cons, List.not_mem_nil, or_false] at hn
    exact part_of_compared h hn
  | all items =>
    obtain ⟨q, hq, rfl⟩ := List.mem_map.1 hn
    refine .inl ⟨false, ?_⟩
    rw [layout, if_neg (by simpa using List.ne_nil_of_mem hq), Slot.part_mem_separated_iff]
    exact ⟨_, List.mem_map_of_mem hq, Context.part_mem_operandLayout_iff.2 ⟨rfl, rfl⟩⟩
  | any items =>
    obtain ⟨q, hq, rfl⟩ := List.mem_map.1 hn
    refine .inl ⟨false, ?_⟩
    rw [layout, if_neg (by simpa using List.ne_nil_of_mem hq)]
    simpa using hq
  | not | isNull | holds =>
    obtain rfl := List.mem_singleton.1 hn
    exact .inl ⟨false, by simp [layout]⟩
  | inList operand items isNegated =>
    refine .inl ⟨false, ?_⟩
    have hne : ¬ items.isEmpty = true := by simpa [HasItems] using hi
    simp only [layout, Context.inListLayout, if_neg hne] at h ⊢
    refine part_mem_memberLayout h ?_
    rcases List.mem_cons.1 hn with rfl | hn
    · simp
    · obtain ⟨e, he, rfl⟩ := List.mem_map.1 hn
      simp [he]
  | inQuery operand query isNegated =>
    simp only [children, List.mem_cons, List.not_mem_nil, or_false] at hn
    refine .inl ?_
    rcases hn with rfl | rfl
    · exact ⟨false, part_mem_memberLayout h (by simp)⟩
    · exact ⟨true, part_mem_memberLayout h (by simp)⟩
  | «exists» query isNegated =>
    obtain rfl := List.mem_singleton.1 hn
    exact .inl ⟨true, by simp [layout]⟩
  | like operand pattern escape ignoresCase isNegated =>
    simp only [children, List.mem_cons, List.not_mem_nil, or_false] at hn
    refine .inl ⟨false, ?_⟩
    simpa [layout, Context.likeLayout, Context.part_mem_sideLayout_iff] using hn
  | between operand low high isNegated =>
    simp only [children, List.mem_cons, List.not_mem_nil, or_false] at hn
    exact .inl ⟨false, by simpa [layout] using hn⟩

end Condition

namespace Context

variable {c : Context} {limit offset : Option Expression} {e : Expression}

theorem part_of_offset {hasOrder : Bool}
    (h : IsWhole (c.paginationLayout hasOrder limit offset))
    (hrow : c.dialect.rowLimit.leads = false)
    (he : e ∈ limit ∨ e ∈ offset) :
    .part false (.expression e) ∈ c.paginationLayout hasOrder limit offset := by
  have hne : ¬ (limit.isNone && offset.isNone) = true := by
    rcases he with he | he <;> simp [Option.mem_def.1 he]
  unfold paginationLayout at h ⊢
  rw [if_neg hne] at h ⊢
  split at h
  · exact absurd (List.mem_singleton.2 rfl) (h.noError _)
  · simp_all [RowLimit.leads]
  · simp_all [RowLimit.leads]
  · rcases he with he | he <;> simp [Option.mem_def.1 he]
  · rcases he with he | he <;> simp [Option.mem_def.1 he]

theorem part_of_end {keys : List (SortKey Expression)}
    (h : IsWhole (c.endLayout keys limit offset)) :
    (∀ key ∈ keys, .part false (.expression key.expression) ∈ c.endLayout keys limit offset) ∧
      ∃ hasOrder, IsWhole (c.paginationLayout hasOrder limit offset) ∧
        ∀ slot ∈ c.paginationLayout hasOrder limit offset,
          slot ∈ c.endLayout keys limit offset := by
  unfold endLayout at h ⊢
  split at h
  · next hfate =>
    refine ⟨fun key hkey => ?_, false, h, fun _ hs => hs⟩
    have hkeys : keys.isEmpty = false := by simpa using List.ne_nil_of_mem hkey
    unfold orderFate at hfate
    simp only [hkeys, Bool.not_false, Bool.not_true, Bool.false_eq_true, if_false] at hfate
    split at hfate
    · simp at hfate
    · split at hfate <;> simp at hfate
  · refine ⟨fun key hkey => ?_, true, (Slot.isWhole_append.1 h).2,
      fun _ hs => List.mem_append_right _ hs⟩
    refine List.mem_append_left _ (List.mem_cons_of_mem _ (Slot.part_mem_separated_iff.2 ?_))
    exact ⟨_, List.mem_map_of_mem hkey, part_mem_keyLayout_iff.2 ⟨rfl, rfl⟩⟩
  · exact absurd List.mem_cons_self h.keepsOrder
  · simp at h

end Context

namespace Context

variable {c : Context} {hint : String} {spec : QuerySpec} {n : Node}

/-- A limit that leads stands alone, so that a query has slots for both its limits. -/
theorem part_of_limits {e : Expression} (h : IsWhole (c.specLayout hint spec))
    (hcheck : c.checkPagination spec.limit spec.offset = .ok ())
    (he : e ∈ spec.limit ∨ e ∈ spec.offset) :
    .part false (.expression e) ∈ c.specLayout hint spec := by
  obtain ⟨-, hasOrder, hpage, hsub⟩ := part_of_end (Slot.isWhole_append.1 h).2
  cases hleads : c.dialect.rowLimit.leads with
  | false => exact List.mem_append_right _ (hsub _ (part_of_offset hpage hleads he))
  | true =>
    suffices hlimit : .part false (.expression e) ∈ c.prefixLayout spec.isDistinct spec.limit by
      simp [specLayout, hlimit]
    unfold checkPagination at hcheck
    cases hrow : c.dialect.rowLimit with
    | unsupported | limitOffset | offsetFetch => simp [hrow, RowLimit.leads] at hleads
    | first since | top since =>
      rcases he with he | he
      · simp [prefixLayout, hrow, Option.mem_def.1 he]
      · simp [hrow, Option.mem_def.1 he] at hcheck

theorem part_of_spec (h : IsWhole (c.specLayout hint spec))
    (hcheck : c.checkPagination spec.limit spec.offset = .ok ()) (hn : n ∈ spec.children) :
    .part false n ∈ c.specLayout hint spec := by
  obtain ⟨hkeys, -⟩ := part_of_end (Slot.isWhole_append.1 h).2
  rcases QuerySpec.mem_children_iff.1 hn with hn | hn | hn | ⟨key, hkey, rfl⟩ | ⟨e, he, rfl⟩
  · exact part_mem_specLayout_iff.2 (.inr (.inr ⟨rfl, .inl hn⟩))
  · exact part_mem_specLayout_iff.2 (.inr (.inr ⟨rfl, .inr (.inl hn)⟩))
  · exact part_mem_specLayout_iff.2 (.inr (.inr ⟨rfl, .inr (.inr hn)⟩))
  · exact part_mem_specLayout_iff.2 (.inr (.inl (hkeys key hkey)))
  · exact part_of_limits h hcheck he

theorem two_le_of_checkGroup {operator : SetOperator} {operands : Nat} {isPaginated : Bool}
    (h : c.checkGroup operator operands isPaginated = .ok ()) : 2 ≤ operands := by
  by_contra hlt
  rw [checkGroup, if_pos (Nat.not_le.1 hlt)] at h
  cases h

/-- A limit that leads is refused for a set operation. -/
theorem leads_of_checkGroup {operator : SetOperator} {operands : Nat}
    (h : c.checkGroup operator operands true = .ok ()) : c.dialect.rowLimit.leads = false := by
  refine Bool.eq_false_iff.2 fun hleads => ?_
  -- Whichever checks come first, the last one fails.
  cases hall : c.dialect.require .unionAll "union all" <;>
    cases hsub : c.dialect.require .unionInSubquery "set operation in a subquery" <;>
    by_cases htwo : operands < 2 <;> by_cases ho : operator = .unionAll <;>
    cases hnested : c.isNested <;>
    simp [checkGroup, hall, hsub, htwo, ho, hnested, hleads, bind, Except.bind, throw, throwThe,
      MonadExceptOf.throw] at h

end Context

namespace Query

variable {c : Context} {hint : String} {q : Query} {n : Node}

theorem part_of_child (h : IsWhole (q.layout c hint)) (hn : n ∈ q.children) :
    .part false n ∈ q.layout c hint := by
  cases q with
  | spec body =>
    simp only [layout, QuerySpec.layout] at h ⊢
    split at h
    · simp at h
    · next hselect =>
      rw [if_neg hselect]
      split at h
      · simp at h
      · next htables =>
        rw [if_neg htables]
        split at h
        · simp at h
        · next hcheck =>
          exact Context.part_of_spec h hcheck hn
  | group operator parts orderBy limit offset =>
    simp only [layout] at h ⊢
    split at h
    · simp at h
    · next hcheck =>
      obtain ⟨hkeys, hasOrder, hpage, hsub⟩ := Context.part_of_end (Slot.isWhole_append.1 h).2
      have hlimits {e : Expression} (he : e ∈ limit ∨ e ∈ offset) :
          .part false (.expression e) ∈ c.endLayout orderBy limit offset := by
        have hpaginated : (limit.isSome || offset.isSome) = true := by
          rcases he with he | he <;> simp [Option.mem_def.1 he]
        exact hsub _ (Context.part_of_offset hpage (Context.leads_of_checkGroup
          (hpaginated ▸ hcheck)) he)
      simp only [children, List.mem_append, List.mem_map, Option.mem_toList] at hn
      rcases hn with ⟨q, hq, rfl⟩ | ⟨e, (⟨key, hkey, rfl⟩ | he) | he, rfl⟩
      · refine List.mem_append_left _ (Slot.part_mem_separated_iff.2 ?_)
        exact ⟨_, List.mem_map_of_mem hq, Context.part_mem_operandQueryLayout_iff.2 ⟨rfl, rfl⟩⟩
      · exact List.mem_append_right _ (hkeys key hkey)
      · exact List.mem_append_right _ (hlimits (.inl he))
      · exact List.mem_append_right _ (hlimits (.inr he))

end Query

/-- Nothing in the node, but for what stands below it, keeps it from being rendered as a whole. -/
structure Node.IsKept (d : Dialect) (n : Node) : Prop where
  mentions : ∀ e, n = .expression e → e.MentionsArguments d
  hasItems : ∀ p, n = .condition p → p.HasItems

namespace Node

variable {c : Context} {n m : Node} {f : Fragment} {mark : Mark}

theorem part_of_child (h : IsWhole (n.layout c)) (hk : n.IsKept c.dialect) (hm : m ∈ n.children) :
    (∃ b, .part b m ∈ n.layout c) ∨ ∃ items, m = .expression (.tuple items) ∧ items ≠ [] ∧
      ∀ e ∈ items, .part false (.expression e) ∈ n.layout c := by
  cases n with
  | expression e => exact .inl (e.part_of_child h (hk.mentions e rfl) hm)
  | condition p => exact p.part_of_child h (hk.hasItems p rfl) hm
  | query q => exact .inl ⟨false, q.part_of_child h hm⟩

end Node

namespace Context

variable {c : Context} {hint : String}

theorem table_mem_joinLayout {join : Join} (h : IsWhole (joinLayout join)) :
    .own (table join.table) ∈ joinLayout join := by
  unfold joinLayout at h ⊢
  split at h
  · simp
  · split at h
    · next hcross => simp [hcross]
    · simp at h

theorem table_mem_tableLayouts {name : String} {items : List FromItem}
    (h : name ∈ items.flatMap fun item => item.root.table :: item.joins.map (·.table.table))
    (hw : ∀ row ∈ tableLayouts hint items, IsWhole row) :
    ∃ row ∈ tableLayouts hint items, ∃ t : TableReference,
      .own (table t) ∈ row ∧ t.table = name := by
  induction items generalizing hint with
  | nil => simp at h
  | cons item rest ih =>
    obtain ⟨hfirst, hrest⟩ := List.forall_mem_cons.1 hw
    rw [List.flatMap_cons, List.mem_append] at h
    rcases h with h | h
    · refine ⟨_, List.mem_cons_self, ?_⟩
      rcases List.mem_cons.1 h with rfl | h
      · exact ⟨item.root, List.mem_cons_self, rfl⟩
      · obtain ⟨join, hj, rfl⟩ := List.mem_map.1 h
        have hsub : joinLayout join ⊆ tableLayout hint item := fun slot hs =>
          List.mem_cons_of_mem _ (List.mem_cons_of_mem _ (List.mem_flatMap.2 ⟨join, hj, hs⟩))
        exact ⟨join.table, hsub (table_mem_joinLayout (hfirst.mono hsub)), rfl⟩
    · obtain ⟨row, hrow, t, ht, hname⟩ := ih h hrest
      exact ⟨row, List.mem_cons_of_mem _ hrow, t, ht, hname⟩

theorem tables_subset_specLayout {spec : QuerySpec} {row : List Slot}
    (h : row ∈ tableLayouts hint spec.tables) : row ⊆ c.specLayout hint spec := by
  intro slot hs
  have := Slot.subset_separated ", " h hs
  simp only [specLayout, List.mem_append, List.cons_append, List.mem_cons]
  tauto

end Context

theorem Query.table_mem_layout {c : Context} {hint name : String} {body : QuerySpec}
    (h : IsWhole ((Query.spec body).layout c hint)) (hn : name ∈ body.tableNames) :
    ∃ t : TableReference, .own (Context.table t) ∈ (Query.spec body).layout c hint ∧
      t.table = name := by
  simp only [layout, QuerySpec.layout] at h ⊢
  split at h
  · simp at h
  · next hselect =>
    rw [if_neg hselect]
    split at h
    · simp at h
    · next htables =>
      rw [if_neg htables]
      split at h
      · simp at h
      · obtain ⟨row, hrow, t, ht, hname⟩ := Context.table_mem_tableLayouts hn
          fun row hrow => h.mono (Context.tables_subset_specLayout hrow)
        exact ⟨t, Context.tables_subset_specLayout hrow ht, hname⟩

namespace Slot

variable {c : Context} {slots : List Slot} {f g : Fragment} {mark : Mark}

theorem carries_of_own (h : fill c slots = .ok f) {r : Rendered} (hs : own r ∈ slots)
    (hr : r = .ok g) (hm : g.Carries mark) : f.Carries mark :=
  (fill_carries h).2 ⟨_, hs, g, hr, hm⟩

/-- The rendering of a part is there, and carries no more than that of the whole. -/
theorem part_renders (h : fill c slots = .ok f) {b : Bool} {n : Node} (hs : part b n ∈ slots) :
    ∃ g, n.render (if b then c.nested else c) = .ok g ∧
      ∀ mark, g.Carries mark → f.Carries mark := by
  obtain ⟨g, hg⟩ := fill_renders h hs
  exact ⟨g, hg, fun mark hm => (fill_carries h).2 ⟨_, hs, g, hg, hm⟩⟩

end Slot

theorem Context.table_renders (t : TableReference) : ∃ f, table t = .ok f := by
  unfold table Rendered.textIf
  split <;> exact ⟨_, rfl⟩

/-- What a query puts into its rendering itself, with any hint. -/
theorem Query.carries_of_owns {c : Context} {hint : String} {q : Query} {f : Fragment}
    {mark : Mark} (h : q.render c hint = .ok f)
    (hf : ¬ f.Carries (.warning .subqueryOrderByRemoved)) (ho : (Node.query q).Owns mark) :
    f.Carries mark := by
  rw [render_eq_fill] at h
  cases q with
  | group => exact absurd ho (by simp [Node.Owns])
  | spec body =>
    cases mark with
    | parameter | warning => exact absurd ho (by simp [Node.Owns])
    | table name =>
      obtain ⟨t, ht, rfl⟩ := table_mem_layout (Slot.isWhole_of_fill h hf) ho
      obtain ⟨g, hg⟩ := Context.table_renders t
      exact Slot.carries_of_own h ht hg ((Context.table_carries hg).2 rfl)

namespace Node

variable {c : Context} {n m : Node} {f : Fragment} {mark : Mark}

theorem carries_of_owns (h : n.render c = .ok f)
    (hf : ¬ f.Carries (.warning .subqueryOrderByRemoved)) (ho : n.Owns mark) :
    f.Carries mark := by
  cases n with
  | query q => exact Query.carries_of_owns h hf ho
  | condition p => exact absurd ho (by simp [Owns])
  | expression e =>
    cases e with
    | parameter bound =>
      cases mark with
      | parameter bound' =>
        obtain rfl : bound = bound' := ho
        obtain rfl : { pieces := [.parameter bound] } = f := by
          rw [render, Expression.render] at h
          exact Except.ok.inj h
        exact List.mem_singleton.2 rfl
      | table | warning => exact absurd ho (by simp [Owns])
    | _ => exact absurd ho (by simp [Owns])

theorem within_cases (h : m.Within n) : m = n ∨ ∃ k ∈ n.children, m.Within k := by
  rcases Relation.ReflTransGen.cases_tail h with rfl | ⟨k, hk, hn⟩
  · exact .inl rfl
  · exact .inr ⟨k, hn, hk⟩

theorem nested_dialect (c : Context) (b : Bool) :
    (if b then c.nested else c).dialect = c.dialect := by cases b <;> rfl

/-- A node in a tree is rendered with it, unless it is a tuple that is compared by its elements. -/
theorem renders_of_within (h : n.render c = .ok f)
    (hf : ¬ f.Carries (.warning .subqueryOrderByRemoved))
    (hk : ∀ k : Node, k.Within n → k.IsKept c.dialect) (hm : m.Within n) :
    (∃ c' g, m.render c' = .ok g ∧ ∀ mark, g.Carries mark → f.Carries mark) ∨
      ∃ items, m = .expression (.tuple items) ∧ items ≠ [] := by
  induction c, n using layout_induction generalizing f m with
  | step c n ih =>
    rcases within_cases hm with rfl | ⟨k, hkn, hm⟩
    · exact .inl ⟨c, f, h, fun mark hmark => hmark⟩
    rw [render_eq_fill] at h
    have hpart {b : Bool} {k : Node} (hs : .part b k ∈ n.layout c) (hm : m.Within k) :
        (∃ c' g, m.render c' = .ok g ∧ ∀ mark, g.Carries mark → f.Carries mark) ∨
          ∃ items, m = .expression (.tuple items) ∧ items ≠ [] := by
      obtain ⟨g, hg, hsub⟩ := Slot.part_renders h hs
      have hkept (j : Node) (hj : j.Within k) :
          j.IsKept (if b then c.nested else c).dialect := by
        rw [nested_dialect]
        exact hk j (hj.trans (below_of_layout hs).within)
      refine (ih b k hs hg (fun hw => hf (hsub _ hw)) hkept hm).imp_left ?_
      rintro ⟨c', g', hg', hsub'⟩
      exact ⟨c', g', hg', fun mark hmark => hsub mark (hsub' mark hmark)⟩
    rcases part_of_child (Slot.isWhole_of_fill h hf) (hk n .refl) hkn with
      ⟨b, hs⟩ | ⟨items, rfl, hne, hitems⟩
    · exact hpart hs hm
    · rcases within_cases hm with rfl | ⟨k, hki, hm⟩
      · exact .inr ⟨items, rfl, hne⟩
      · obtain ⟨e, he, rfl⟩ := List.mem_map.1 hki
        exact hpart (hitems e he) hm

/-- What the nodes in a tree put into its rendering is there, if no node loses a part. -/
theorem carries_of_within (h : n.render c = .ok f)
    (hf : ¬ f.Carries (.warning .subqueryOrderByRemoved))
    (hk : ∀ k : Node, k.Within n → k.IsKept c.dialect) (hm : m.Within n) (ho : m.Owns mark) :
    f.Carries mark := by
  rcases renders_of_within h hf hk hm with ⟨c', g, hg, hsub⟩ | ⟨items, rfl, -⟩
  · exact hsub mark (carries_of_owns hg (fun hw => hf (hsub _ hw)) ho)
  · -- The elements have slots of their own, and a tuple itself owns nothing.
    exact absurd ho (by simp [Owns])

end Node

/-- The same for a query with a hint, which is no node. -/
theorem Query.carries_of_within {c : Context} {hint : String} {q : Query} {f : Fragment}
    {m : Node} {mark : Mark} (h : q.render c hint = .ok f)
    (hf : ¬ f.Carries (.warning .subqueryOrderByRemoved))
    (hk : ∀ k : Node, k.Within (.query q) → k.IsKept c.dialect) (hm : m.Within (.query q))
    (ho : m.Owns mark) : f.Carries mark := by
  rcases Node.within_cases hm with rfl | ⟨k, hkq, hm⟩
  · exact carries_of_owns h hf ho
  · rw [render_eq_fill] at h
    have hs := part_of_child (Slot.isWhole_of_fill h hf) hkq
    obtain ⟨g, hg, hsub⟩ := Slot.part_renders h hs
    refine hsub mark (Node.carries_of_within hg (fun hw => hf (hsub _ hw)) ?_ hm ho)
    exact fun j hj => hk j (hj.tail hkq)

end Sql

end SqlDialects
