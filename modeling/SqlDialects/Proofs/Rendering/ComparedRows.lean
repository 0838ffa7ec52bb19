import SqlDialects.Proofs.Rendering.Limits
import SqlDialects.Proofs.Rendering.RowComparison

/-!
# What comparisons compare

Where a dialect has no rows to compare, a comparison of two tuples becomes comparisons of their
elements, which are taken as they are, and a comparison of a tuple with anything else is refused.
So a row is compared in a text only if it is an element of a compared tuple, if it is tested for
its truth, or if it comes from a call.
-/

/-- An operator with the blanks around it. -/
def SqlDialects.Comparison.spaced (operator : SqlDialects.Comparison) : String :=
  " " ++ operator.sql ++ " "

namespace SqlDialects.Sql

/-! ## Operands of comparisons -/

namespace Slot

/-- A comparison has the expression as an operand: its operator stands right behind the expression,
or right in front of it. -/
inductive Compares (slots : List Slot) (e : Expression) : Prop
  | left {operator : Comparison} {rest : String}
    (h : [.expression e, .text (operator.spaced ++ rest)] <:+: slots)
  | right {operator : Comparison} {rest : String}
    (h : [.text (rest ++ operator.spaced), .expression e] <:+: slots)

variable {slots slots' : List Slot} {e : Expression}

theorem Compares.mem (h : Compares slots e) : .expression e ∈ slots := by
  cases h with
  | left h => exact h.subset List.mem_cons_self
  | right h => exact h.subset (List.mem_cons_of_mem _ List.mem_cons_self)

theorem Compares.within (h : Compares slots e) (hi : slots <:+: slots') :
    Compares slots' e := by
  cases h with
  | left h => exact .left (h.trans hi)
  | right h => exact .right (h.trans hi)

theorem infix_parenthesized : slots <:+: parenthesized slots :=
  ⟨[text "("], [text ")"], rfl⟩

theorem infix_separated {separator : String} {rows : List (List Slot)} (h : slots ∈ rows) :
    slots <:+: separated separator rows := by
  induction rows with
  | nil => cases h
  | cons row rest ih =>
    cases rest with
    | nil => exact List.mem_singleton.1 h ▸ List.infix_rfl
    | cons next rest =>
      rcases List.mem_cons.1 h with rfl | h
      · exact (List.prefix_append _ _).isInfix
      · exact (ih h).trans ((List.suffix_cons _ _).trans (List.suffix_append _ _)).isInfix

/-- The slot neither begins nor ends with a comparison operator. -/
def IsQuiet (slot : Slot) : Prop :=
  ∀ (operator : Comparison) rest, slot ≠ .text (operator.spaced ++ rest) ∧
    slot ≠ .text (rest ++ operator.spaced)

theorem not_compares_of_quiet (h : ∀ slot ∈ slots, slot.IsQuiet) : ¬Compares slots e := by
  rintro (@⟨operator, rest, hi⟩ | @⟨operator, rest, hi⟩)
  · exact (h _ (hi.subset (List.mem_cons_of_mem _ List.mem_cons_self)) operator rest).1 rfl
  · exact (h _ (hi.subset List.mem_cons_self) operator rest).2 rfl

@[simp]
theorem isQuiet_part {isInner : Bool} {n : Node} : (part isInner n).IsQuiet :=
  fun _ _ => ⟨nofun, nofun⟩

@[simp]
theorem isQuiet_expression : (expression e).IsQuiet := isQuiet_part

@[simp]
theorem isQuiet_string {content : String} : (own (.string content)).IsQuiet := by
  intro operator rest
  simp [text, Rendered.text, Rendered.string, Fragment.ofText]

def operatorSigns : List Char := ['=', '<', '>']

/-- The character behind the first one of a text, and the one in front of the last one, are no
signs of operators. -/
def hasQuietEnds (t : String) : Bool :=
  !t.toList[1]?.any operatorSigns.contains && !t.toList.reverse[1]?.any operatorSigns.contains

theorem isQuiet_text {t : String} (h : hasQuietEnds t = true) : (text t).IsQuiet := by
  obtain ⟨hfront, hback⟩ := Bool.and_eq_true_iff.1 h
  intro operator rest
  constructor
  · intro ht
    obtain rfl := Slot.text_eq_text_iff.1 ht
    cases operator <;> simp [Comparison.spaced, Comparison.sql, operatorSigns] at hfront
  · intro ht
    obtain rfl := Slot.text_eq_text_iff.1 ht
    cases operator <;> simp [Comparison.spaced, Comparison.sql, operatorSigns] at hback

end Slot

namespace Context

variable {c : Context} {operator : Comparison} {pair : Expression × Expression} {e : Expression}
  {pairs : List (Expression × Expression)}

open Slot (Compares)

theorem compares_pairLayout (he : e = pair.1 ∨ e = pair.2) :
    Compares (pairLayout operator pair) e := by
  rcases he with rfl | rfl
  · refine @Compares.left _ _ operator "" ⟨[], [.expression pair.2], ?_⟩
    rw [String.append_empty]
    rfl
  · refine @Compares.right _ _ operator "" ⟨[.expression pair.1], [], ?_⟩
    rw [String.empty_append]
    rfl

theorem infix_alternativeLayout (equal : List (Expression × Expression)) :
    pairLayout operator pair <:+: alternativeLayout operator equal pair := by
  unfold alternativeLayout
  split
  · exact List.infix_rfl
  · exact (Slot.infix_separated (List.mem_append_right _ (List.mem_singleton.2 rfl))).trans
      Slot.infix_parenthesized

/-- Each pair is compared in the alternative that is about it. -/
theorem exists_alternative (equal : List (Expression × Expression)) (h : pair ∈ pairs) :
    ∃ row ∈ alternativeLayouts operator equal pairs, ∃ operator' : Comparison,
      pairLayout operator' pair <:+: row := by
  induction pairs generalizing equal with
  | nil => cases h
  | cons first rest ih =>
    cases rest with
    | nil =>
      obtain rfl := List.mem_singleton.1 h
      exact ⟨_, List.mem_singleton.2 rfl, operator, infix_alternativeLayout equal⟩
    | cons next rest =>
      rcases List.mem_cons.1 h with rfl | h
      · exact ⟨_, List.mem_cons_self, operator.strict, infix_alternativeLayout equal⟩
      · obtain ⟨row, hrow, hi⟩ := ih (equal ++ [first]) h
        exact ⟨row, List.mem_cons_of_mem _ hrow, hi⟩

theorem compares_expandedLayout (h : pair ∈ pairs) (he : e = pair.1 ∨ e = pair.2) :
    Compares (expandedLayout operator pairs) e := by
  have hrow {rows : List (List Slot)} {separator : String}
      (hi : ∃ row ∈ rows, ∃ operator' : Comparison, pairLayout operator' pair <:+: row) :
      Compares (Slot.parenthesized (Slot.separated separator rows)) e := by
    obtain ⟨row, hrow, operator', hi⟩ := hi
    exact (compares_pairLayout he).within
      ((hi.trans (Slot.infix_separated hrow)).trans Slot.infix_parenthesized)
  cases operator with
  | equal => exact hrow ⟨_, List.mem_map_of_mem h, .equal, List.infix_rfl⟩
  | notEqual => exact hrow ⟨_, List.mem_map_of_mem h, .notEqual, List.infix_rfl⟩
  | less | lessOrEqual | greater | greaterOrEqual => exact hrow (exists_alternative [] h)

end Context

/-! ## What a condition compares -/

namespace Condition

/-- What a condition compares, where tuples are compared by their elements. -/
def comparands : Condition → List Expression
  | .compare (.tuple lefts) _ (.tuple rights) => lefts ++ rights
  | .compare left _ right => [left, right]
  | .holds operand => [operand]
  | _ => []

variable {c : Context} {f : Fragment} {e : Expression}

/-- A tuple is compared only with another one of the same length. -/
def IsPaired : Condition → Prop
  | .compare left _ right => ∀ items, left = .tuple items ∨ right = .tuple items →
      ∃ lefts rights, left = .tuple lefts ∧ right = .tuple rights ∧ 2 ≤ lefts.length ∧
        lefts.length = rights.length
  | _ => True

theorem not_fill_mixedLayout {elements : Nat} {operator : Comparison} {left right : Expression}
    (hc : c.dialect.supports .rowValueConstructorSyntax = false) :
    Slot.fill c (c.mixedLayout elements operator left right) ≠ .ok f := by
  unfold Context.mixedLayout Context.requiringLayout
  rw [hc]
  split <;> exact nofun

theorem isPaired_of_render {p : Condition}
    (hc : c.dialect.supports .rowValueConstructorSyntax = false) (h : p.render c = .ok f) :
    p.IsPaired := by
  cases p with
  | compare left operator right =>
    rintro items ht
    rw [render_eq_fill, layout] at h
    unfold Context.compareLayout at h
    split at h
    · next lefts rights =>
      refine ⟨lefts, rights, rfl, rfl, ?_⟩
      unfold Context.rowLayout at h
      split at h
      · cases h
      · next hl =>
        simp at hl
        omega
    · exact absurd h (not_fill_mixedLayout hc)
    · exact absurd h (not_fill_mixedLayout hc)
    · next hl hr hboth =>
      rcases ht with rfl | rfl
      · exact absurd rfl (hl items)
      · exact absurd rfl (hr items)
  | _ => trivial

theorem layout_of_not_tuple {left right : Expression} {operator : Comparison}
    (hl : Expression.isTuple (some left) = false) (hr : Expression.isTuple (some right) = false) :
    (compare left operator right).layout c = Context.pairLayout operator (left, right) := by
  rw [layout]
  cases left with
  | tuple => cases hl
  | _ =>
    cases right with
    | tuple => cases hr
    | _ => rfl

theorem comparands_of_not_tuple {left right : Expression} {operator : Comparison}
    (hl : Expression.isTuple (some left) = false) :
    (compare left operator right).comparands = [left, right] := by
  cases left with
  | tuple => cases hl
  | _ => rfl

theorem compares_rows_iff {lefts rights : List Expression} {operator : Comparison}
    (hc : c.dialect.supports .rowValueConstructorSyntax = false) (hl : 2 ≤ lefts.length)
    (hsame : lefts.length = rights.length) :
    Slot.Compares ((compare (.tuple lefts) operator (.tuple rights)).layout c) e ↔
      e ∈ lefts ++ rights := by
  have hne := zip_ne_nil hl hsame
  have hpairs : (∃ pair ∈ lefts.zip rights, e = pair.1 ∨ e = pair.2) ↔ e ∈ lefts ++ rights := by
    have hnode := Context.mem_pairNodes_zip (n := .expression e) hsame
    simpa [Context.pairNodes] using hnode
  rw [layout_rows hc hl hsame]
  constructor
  · intro h
    obtain ⟨-, hn⟩ := (Context.part_mem_expandedLayout_iff hne).1 h.mem
    obtain ⟨e', he', heq⟩ := (Context.mem_pairNodes_zip hsame).1 hn
    rw [Node.expression.inj heq]
    exact List.mem_append.2 he'
  · intro h
    obtain ⟨pair, hpair, he⟩ := hpairs.2 h
    exact Context.compares_expandedLayout hpair he

theorem compares_pair_iff {operator : Comparison} {pair : Expression × Expression} :
    Slot.Compares (Context.pairLayout operator pair) e ↔ e = pair.1 ∨ e = pair.2 := by
  constructor
  · intro h
    obtain ⟨-, hn⟩ := Context.part_mem_pairLayout_iff.1 h.mem
    simpa [Context.pairNodes] using hn
  · exact Context.compares_pairLayout

theorem compares_holds_iff {operand : Expression} :
    Slot.Compares ((holds operand).layout c) e ↔ e = operand := by
  constructor
  · intro h
    simpa [layout, Slot.expression, Slot.text] using h.mem
  · rintro rfl
    exact @Slot.Compares.left _ _ .equal (c.dialect.booleanLiteral true) List.infix_rfl

/-! ## Conditions without a comparison -/

theorem isQuiet_negatable {isNegated : Bool} {keyword : String}
    (h : (Slot.text (" " ++ keyword)).IsQuiet) (h' : (Slot.text (" not " ++ keyword)).IsQuiet) :
    (Slot.own (Context.negatable isNegated keyword)).IsQuiet := by
  cases isNegated
  · exact h
  · exact h'

theorem not_compares_memberLayout {operand : Expression} {slots : List Slot}
    (h : ∀ slot ∈ slots, slot.IsQuiet) : ¬Slot.Compares (c.memberLayout operand slots) e := by
  unfold Context.memberLayout Context.requiringLayout
  have hfail {d : DialectError} : ¬Slot.Compares (Slot.fail d) e := fun hs => by
    simpa [Slot.fail, Slot.expression] using hs.mem
  split
  · split
    · exact Slot.not_compares_of_quiet h
    · exact hfail
  · split
    · exact Slot.not_compares_of_quiet h
    · exact hfail
  · exact Slot.not_compares_of_quiet h

/-- The texts of a condition with `in`. -/
theorem isQuiet_in {isNegated : Bool} :
    (Slot.own (Context.negatable isNegated "in ")).IsQuiet ∧
      (Slot.own (Context.negatable isNegated "in (")).IsQuiet :=
  ⟨isQuiet_negatable (Slot.isQuiet_text (by decide))
      (Slot.isQuiet_text (by decide)),
    isQuiet_negatable (Slot.isQuiet_text (by decide))
      (Slot.isQuiet_text (by decide))⟩

theorem isQuiet_parenthesis : (Slot.text "(").IsQuiet ∧ (Slot.text ")").IsQuiet :=
  ⟨Slot.isQuiet_text (by decide), Slot.isQuiet_text (by decide)⟩

theorem not_compares_inList {operand : Expression} {items : List Expression} {isNegated : Bool} :
    ¬Slot.Compares ((inList operand items isNegated).layout c) e := by
  rw [layout]
  unfold Context.inListLayout
  split
  · exact fun h => by simpa [Slot.expression, Slot.text] using h.mem
  · have hcomma : (Slot.text ", ").IsQuiet := Slot.isQuiet_text (by decide)
    refine not_compares_memberLayout fun slot hslot => ?_
    simp only [List.cons_append, List.mem_cons, List.mem_append, List.not_mem_nil, or_false]
      at hslot
    rcases hslot with rfl | rfl | h | rfl
    · exact Slot.isQuiet_expression
    · exact isQuiet_in.2
    · rcases Slot.mem_separated h with rfl | ⟨row, hrow, hs⟩
      · exact hcomma
      · obtain ⟨item, -, rfl⟩ := List.mem_map.1 hrow
        exact List.mem_singleton.1 hs ▸ Slot.isQuiet_expression
    · exact isQuiet_parenthesis.2

theorem not_compares_inQuery {operand : Expression} {query : Query} {isNegated : Bool} :
    ¬Slot.Compares ((inQuery operand query isNegated).layout c) e := by
  rw [layout]
  refine not_compares_memberLayout ?_
  simp only [Slot.subquery, List.forall_mem_cons, List.not_mem_nil, false_imp_iff, implies_true,
    and_true]
  exact ⟨Slot.isQuiet_expression, isQuiet_in.1, isQuiet_parenthesis.1, Slot.isQuiet_part,
    isQuiet_parenthesis.2⟩

theorem not_compares_isNull {operand : Expression} {isNegated : Bool} :
    ¬Slot.Compares ((isNull operand isNegated).layout c) e := by
  rw [layout]
  refine Slot.not_compares_of_quiet ?_
  simp only [List.forall_mem_cons, List.not_mem_nil, false_imp_iff, implies_true, and_true]
  refine ⟨Slot.isQuiet_expression, ?_⟩
  cases isNegated <;> exact Slot.isQuiet_text (by decide)

theorem not_compares_between {operand low high : Expression} {isNegated : Bool} :
    ¬Slot.Compares ((between operand low high isNegated).layout c) e := by
  rw [layout]
  refine Slot.not_compares_of_quiet ?_
  simp only [List.forall_mem_cons, List.not_mem_nil, false_imp_iff, implies_true, and_true]
  exact ⟨Slot.isQuiet_expression, isQuiet_negatable (Slot.isQuiet_text (by decide))
    (Slot.isQuiet_text (by decide)), Slot.isQuiet_expression,
    Slot.isQuiet_text (by decide), Slot.isQuiet_expression⟩

theorem isQuiet_like {isNegated isNative : Bool} :
    (Slot.own (Context.negatable isNegated (if isNative then "ilike " else "like "))).IsQuiet := by
  refine isQuiet_negatable ?_ ?_
  all_goals cases isNative <;> exact Slot.isQuiet_text (by decide)

theorem isQuiet_escape {escape : Option Char} {slot : Slot}
    (h : slot ∈ Slot.clause " escape " (escape.map fun e => [.own (.string (toString e))])) :
    slot.IsQuiet := by
  cases escape with
  | none => cases h
  | some sign =>
    rcases List.mem_cons.1 h with rfl | h
    · exact Slot.isQuiet_text (by decide)
    · exact List.mem_singleton.1 h ▸ Slot.isQuiet_string

theorem not_compares_cons {slot : Slot} {slots : List Slot} (hs : slot.IsQuiet)
    (he : slot ≠ .expression e) (h : ¬Slot.Compares slots e) :
    ¬Slot.Compares (slot :: slots) e := by
  rintro (@⟨operator, rest, hi⟩ | @⟨operator, rest, hi⟩)
  · rcases List.infix_cons_iff.1 hi with hi | hi
    · exact he (List.cons_prefix_cons.1 hi).1.symm
    · exact h (.left hi)
  · rcases List.infix_cons_iff.1 hi with hi | hi
    · exact (hs operator rest).2 (List.cons_prefix_cons.1 hi).1.symm
    · exact h (.right hi)

/-- The name of a function may be anything, but a parenthesis stands between it and what it is
applied to. -/
theorem not_compares_lowered {slots : List Slot} {operand : Expression}
    (h : ¬Slot.Compares slots e) :
    ¬Slot.Compares (.text (c.dialect.rules.lowercaseFunction ++ "(") :: .expression operand ::
      .text ")" :: slots) e := by
  have hclose := isQuiet_parenthesis.2
  have hrest : ¬Slot.Compares (.text ")" :: slots) e := not_compares_cons hclose nofun h
  rintro (@⟨operator, rest, hi⟩ | @⟨operator, rest, hi⟩)
  · rcases List.infix_cons_iff.1 hi with hi | hi
    · exact absurd (List.cons_prefix_cons.1 hi).1 nofun
    rcases List.infix_cons_iff.1 hi with hi | hi
    · have ht := (List.cons_prefix_cons.1 (List.cons_prefix_cons.1 hi).2).1
      exact (hclose operator rest).1 ht.symm
    · exact hrest (.left hi)
  · rcases List.infix_cons_iff.1 hi with hi | hi
    · have ht := Slot.text_eq_text_iff.1 (List.cons_prefix_cons.1 hi).1
      have hlast := congrArg (·.toList.reverse[0]?) ht
      simp [Comparison.spaced] at hlast
    rcases List.infix_cons_iff.1 hi with hi | hi
    · exact absurd (List.cons_prefix_cons.1 hi).1 nofun
    · exact hrest (.right hi)

theorem not_compares_like {operand pattern : Expression} {escape : Option Char}
    {ignoresCase isNegated : Bool} :
    ¬Slot.Compares ((like operand pattern escape ignoresCase isNegated).layout c) e := by
  rw [layout]
  unfold Context.likeLayout Context.sideLayout
  dsimp only
  have hlike := @isQuiet_like isNegated (ignoresCase && c.dialect.supports .caseInsensitiveLike)
  split
  · have hown : Slot.own (Context.negatable isNegated
        (if ignoresCase && c.dialect.supports .caseInsensitiveLike then "ilike " else "like ")) ≠
        .expression e := by
      intro h
      cases h
    exact not_compares_lowered (not_compares_cons hlike hown
      (not_compares_lowered (Slot.not_compares_of_quiet fun slot hs => isQuiet_escape hs)))
  · refine Slot.not_compares_of_quiet fun slot hslot => ?_
    simp only [List.cons_append, List.nil_append, List.mem_cons] at hslot
    rcases hslot with rfl | rfl | rfl | hslot
    · exact Slot.isQuiet_expression
    · exact hlike
    · exact Slot.isQuiet_expression
    · exact isQuiet_escape hslot

/-- Only comparisons and conditions that hold have operands of a comparison, and those are what
they compare. -/
theorem compares_iff {p : Condition} (hc : c.dialect.supports .rowValueConstructorSyntax = false)
    (h : p.render c = .ok f) : Slot.Compares (p.layout c) e ↔ e ∈ p.comparands := by
  have hnone {q : Condition} (hq : q.comparands = []) (hn : ¬Slot.Compares (q.layout c) e) :
      Slot.Compares (q.layout c) e ↔ e ∈ q.comparands := by
    rw [hq]
    exact ⟨fun hs => absurd hs hn, nofun⟩
  have hparts {q : Condition} (hq : q.comparands = [])
      (hn : .part false (.expression e) ∉ q.layout c) :
      Slot.Compares (q.layout c) e ↔ e ∈ q.comparands := hnone hq fun hs => hn hs.mem
  cases p with
  | compare left operator right =>
    have hpaired := isPaired_of_render hc h
    by_cases ht : ∃ items, left = .tuple items ∨ right = .tuple items
    · obtain ⟨items, ht⟩ := ht
      obtain ⟨lefts, rights, rfl, rfl, hl, hsame⟩ := hpaired items ht
      exact compares_rows_iff hc hl hsame
    · have hleft : Expression.isTuple (some left) = false := by
        cases left with
        | tuple items => exact absurd ⟨items, .inl rfl⟩ ht
        | _ => rfl
      have hright : Expression.isTuple (some right) = false := by
        cases right with
        | tuple items => exact absurd ⟨items, .inr rfl⟩ ht
        | _ => rfl
      rw [layout_of_not_tuple hleft hright, comparands_of_not_tuple hleft, compares_pair_iff]
      simp
  | holds operand => rw [compares_holds_iff, comparands, List.mem_singleton]
  | isNull => exact hnone rfl not_compares_isNull
  | inList => exact hnone rfl not_compares_inList
  | inQuery => exact hnone rfl not_compares_inQuery
  | like => exact hnone rfl not_compares_like
  | between => exact hnone rfl not_compares_between
  | all items | any items | not operand | «exists» query isNegated =>
    refine hparts rfl fun hn => ?_
    cases (below_of_layout hn).1 with
    | child hmem | element hmem => simp [Node.children, children] at hmem

end Condition

/-! ## Rows -/

namespace Expression

/-- The expression is written as a row of several values, possibly with more parentheses around
it. -/
inductive IsRow (c : Context) : Expression → Prop
  | several {e : Expression} {rows : List (List Slot)}
    (h : e.layout c = Slot.parenthesized (Slot.separated ", " rows)) (hr : 2 ≤ rows.length) :
    IsRow c e
  | enclosed {e inner : Expression} (h : e.layout c = Slot.parenthesized [.expression inner])
    (hi : IsRow c inner) : IsRow c e

variable {c : Context}

theorem isRow_tuple {items : List Expression} (h : 2 ≤ items.length) : IsRow c (.tuple items) := by
  refine @IsRow.several c _ (items.map fun e => [.expression e]) ?_ (by rwa [List.length_map])
  rw [layout, Context.tupleLayout, if_neg]
  simp only [List.isEmpty_iff]
  rintro rfl
  simp at h

/-- The expression is written by a template of its dialect. -/
def isTemplated : Expression → Bool
  | call _ _ | extract _ _ | timestampAdd _ _ _ | timestampDiff _ _ _ | format _ _ => true
  | _ => false

variable {e : Expression} {slots : List Slot}

theorem IsRow.parenthesized (h : IsRow c e) : ∃ slots, e.layout c = Slot.parenthesized slots ∧
    (.text ", " ∈ slots ∨ ∃ inner, slots = [.expression inner]) := by
  cases h with
  | @several _ rows h hr =>
    refine ⟨_, h, .inl ?_⟩
    match rows, hr with
    | row :: next :: rest, _ => simp [Slot.separated]
  | enclosed h => exact ⟨_, h, .inr ⟨_, rfl⟩⟩

theorem not_isRow_of_parenthesized (h : e.layout c = Slot.parenthesized slots)
    (hcomma : .text ", " ∉ slots) (hinner : ∀ inner, slots ≠ [.expression inner]) :
    ¬IsRow c e := by
  intro hrow
  obtain ⟨slots', hslots, hrow⟩ := hrow.parenthesized
  obtain rfl := List.append_cancel_right (List.cons.inj (h.symm.trans hslots)).2
  rcases hrow with hrow | ⟨inner, hrow⟩
  · exact hcomma hrow
  · exact hinner inner hrow

theorem not_isRow_of_head {slot : Slot} (h : e.layout c = slot :: slots)
    (hs : slot = .text "(" → slots = []) : ¬IsRow c e := by
  intro hrow
  obtain ⟨slots', hslots, -⟩ := hrow.parenthesized
  obtain ⟨rfl, hrest⟩ := List.cons.inj (h.symm.trans hslots)
  exact absurd ((hs rfl).symm.trans hrest) (by simp)

/-- Besides tuples, only what a template writes can be a row. -/
theorem IsRow.tuple_or_templated (h : IsRow c e) :
    isTuple (some e) = true ∨ e.isTemplated = true := by
  by_contra hne
  rw [not_or, Bool.not_eq_true, Bool.not_eq_true] at hne
  cases e with
  | tuple => exact absurd hne.1 (by simp [isTuple])
  | call | extract | timestampAdd | timestampDiff | format =>
    exact absurd hne.2 (by simp [isTemplated])
  | column | literal | parameter | star => exact not_isRow_of_head rfl (fun _ => rfl) h
  | binary left operator right =>
    refine not_isRow_of_parenthesized (by rw [layout]) ?_ (by simp) h
    simp only [List.mem_cons, Slot.text_eq_text_iff, Slot.text_eq_expression_iff,
      List.not_mem_nil, false_or, or_false]
    cases operator <;> decide
  | subquery query =>
    have hslots : (subquery query).layout c = Slot.parenthesized [.part true (.query query)] := rfl
    exact not_isRow_of_parenthesized hslots (by simp [Slot.text]) (by simp [Slot.expression]) h
  | negate operand => exact not_isRow_of_head rfl (by simp) h
  | case branches otherwise =>
    cases branches with
    | nil => exact not_isRow_of_head rfl (fun _ => rfl) h
    | cons branch rest => exact not_isRow_of_head rfl (by simp) h
  | cast source target =>
    cases ht : c.dialect.columnType target.code target.length target.precision target.scale with
    | error reason =>
      have hslots : (cast source target).layout c = [.own (.error reason)] := by
        simp only [layout, Context.castLayout, ht, Slot.fail]
      exact not_isRow_of_head hslots (fun _ => rfl) h
    | ok type =>
      have hslots : (cast source target).layout c =
          [.text "cast(", .expression source, .text (" as " ++ type ++ ")")] := by
        simp only [layout, Context.castLayout, ht]
      exact not_isRow_of_head hslots (by simp) h
  | aggregate function isDistinct argument =>
    cases argument with
    | none => exact not_isRow_of_head rfl (fun _ => rfl) h
    | some argument =>
      have hname : Slot.text (function.sql ++ "(") ≠ .text "(" := by
        cases function <;> simp [AggregateFunction.sql]
      have hslots : ∃ slot slots, (aggregate function isDistinct (some argument)).layout c =
          slot :: slots ∧ (slot = .text "(" → slots = []) := by
        simp only [layout, Context.aggregateLayout, Context.requiringLayout]
        split
        · split
          · exact ⟨_, _, rfl, fun h => absurd h hname⟩
          · exact ⟨_, _, rfl, fun _ => rfl⟩
        · exact ⟨_, _, rfl, fun h => absurd h hname⟩
      obtain ⟨slot, slots, hslots, hs⟩ := hslots
      exact not_isRow_of_head hslots hs h

end Expression

/-! ## Translations -/

namespace Statement

variable {d : Dialect} {config : TranslationConfig} {statement : Statement} {t : Translation}

/-- Somewhere in the text of the statement, a row is an operand of a comparison. -/
def ComparesRow (d : Dialect) (statement : Statement) : Prop :=
  ∃ site p e, statement.WritesAt d site (.condition p) ∧
    Slot.Compares (p.layout site.context) e ∧ e.IsRow site.context

/-- A dialect that cannot compare rows compares a row in a text only if a condition of the
statement has one among what it compares: as an element of a tuple, or where it tests a truth
value or compares a call. -/
theorem translate_compared_rows (hd : d.supports .rowValueConstructorSyntax = false)
    (h : statement.translate d config = .ok t) :
    (∀ site p, statement.WritesAt d site (.condition p) →
      (∃ f, Slot.fill site.context (p.layout site.context) = .ok f ∧
        t = .ofFragment d config (site.around f)) ∧
      p.IsPaired ∧ ∀ e, Slot.Compares (p.layout site.context) e ↔ e ∈ p.comparands) ∧
    (statement.ComparesRow d ↔ ∃ isInner p e, statement.Shows d isInner (.condition p) ∧
      e ∈ p.comparands ∧ e.IsRow (statement.contextAt d isInner)) := by
  obtain ⟨f, hf, rfl⟩ := exists_render_of_translate h
  have hwritten (site : Site) (p : Condition) (hw : statement.WritesAt d site (.condition p)) :
      ∃ g, p.render site.context = .ok g ∧ f = site.around g := hw.around hf
  have hcompares {site : Site} {p : Condition} (hw : statement.WritesAt d site (.condition p))
      (e : Expression) : Slot.Compares (p.layout site.context) e ↔ e ∈ p.comparands := by
    obtain ⟨g, hg, -⟩ := hwritten site p hw
    exact Condition.compares_iff (hw.dialect_eq ▸ hd) hg
  refine ⟨fun site p hw => ?_, ?_, ?_⟩
  · obtain ⟨g, hg, rfl⟩ := hwritten site p hw
    refine ⟨⟨g, p.render_eq_fill site.context ▸ hg, rfl⟩, ?_, hcompares hw⟩
    exact Condition.isPaired_of_render (hw.dialect_eq ▸ hd) hg
  · rintro ⟨site, p, e, hw, he, hrow⟩
    obtain ⟨isInner, hshown, hc⟩ := hw.shows
    exact ⟨isInner, p, e, hshown, (hcompares hw e).1 he, hc ▸ hrow⟩
  · rintro ⟨isInner, p, e, hshown, he, hrow⟩
    obtain ⟨site, hw, hc⟩ := exists_writesAt hf hshown
    exact ⟨site, p, e, hw, (hcompares hw e).2 he, hc ▸ hrow⟩

/-! ### A pair in a pair -/

def nestedPairs : Condition :=
  .compare (.tuple [.tuple [.of "t0" "a", .of "t0" "b"], .of "t0" "c"]) .equal
    (.tuple [.tuple [.literal (.integer 1), .literal (.integer 2)], .literal (.integer 3)])

def selectNestedPairs : Statement :=
  .select (.spec { select := [⟨.of "t0" "id", none⟩], tables := [⟨⟨"person", "t0"⟩, []⟩]
                   condition := some nestedPairs })
    none

/-- The outer pairs are compared by their elements, of which the first ones are rows. -/
theorem selectNestedPairs_compares_row :
    (Dialect.ofProduct .ingres ⟨10, 0, 0⟩).supports .rowValueConstructorSyntax = false ∧ ∃ t,
    selectNestedPairs.translate (Dialect.ofProduct .ingres ⟨10, 0, 0⟩)
      (.ofDialect (Dialect.ofProduct .ingres ⟨10, 0, 0⟩)) = .ok t ∧
    t.sql = "select t0.id from person t0 where ((t0.a, t0.b) = (1, 2) and t0.c = 3)" ∧
    selectNestedPairs.ComparesRow (Dialect.ofProduct .ingres ⟨10, 0, 0⟩) := by
  have hd : (Dialect.ofProduct .ingres ⟨10, 0, 0⟩).supports .rowValueConstructorSyntax = false := by
    decide
  obtain ⟨t, ht, hsql⟩ : ∃ t, selectNestedPairs.translate (Dialect.ofProduct .ingres ⟨10, 0, 0⟩)
      (.ofDialect (Dialect.ofProduct .ingres ⟨10, 0, 0⟩)) = .ok t ∧
      t.sql = "select t0.id from person t0 where ((t0.a, t0.b) = (1, 2) and t0.c = 3)" :=
    ⟨_, rfl, by decide +kernel⟩
  have hshown : selectNestedPairs.Shows (Dialect.ofProduct .ingres ⟨10, 0, 0⟩) false
      (.condition nestedPairs) :=
    .inside (b := false) (m := .condition nestedPairs) (.outermost rfl)
      (Context.part_mem_specLayout_iff.2 (.inr (.inr ⟨rfl, by simp [QuerySpec.conditions]⟩)))
  refine ⟨hd, t, ht, hsql, (translate_compared_rows hd ht).2.2 ?_⟩
  exact ⟨false, nestedPairs, .tuple [.of "t0" "a", .of "t0" "b"], hshown, List.mem_cons_self,
    Expression.isRow_tuple (Nat.le_refl 2)⟩

end Statement

end SqlDialects.Sql
