import SqlDialects.Proofs.Evaluation
import SqlDialects.Proofs.Rendering.Precedence
import SqlDialects.Proofs.Rendering.Refusals

/-!
# Comparisons of rows

A dialect that has no rows to compare compares their elements instead, in words whose truth value
is that of the comparison of the rows. This holds over any order, and with nulls in it.
-/

namespace SqlDialects.Sql

/-! ## Three truth values -/

namespace Truth

def both : Option Bool → Option Bool → Option Bool
  | some false, _ | _, some false => some false
  | some true, some true => some true
  | _, _ => none

def either : Option Bool → Option Bool → Option Bool
  | some true, _ | _, some true => some true
  | some false, some false => some false
  | _, _ => none

variable (v w x : Option Bool)

@[simp]
theorem both_true : both v (some true) = v := by
  rcases v with _ | _ | _ <;> rfl

theorem true_both : both (some true) v = v := by
  rcases v with _ | _ | _ <;> rfl

theorem false_both : both (some false) v = some false := by
  rcases v with _ | _ | _ <;> rfl

theorem both_assoc : both (both v w) x = both v (both w x) := by
  rcases v with _ | _ | _ <;> rcases w with _ | _ | _ <;> rcases x with _ | _ | _ <;> rfl

theorem either_assoc : either (either v w) x = either v (either w x) := by
  rcases v with _ | _ | _ <;> rcases w with _ | _ | _ <;> rcases x with _ | _ | _ <;> rfl

theorem false_either : either (some false) v = v := by
  rcases v with _ | _ | _ <;> rfl

@[simp]
theorem either_false : either v (some false) = v := by
  rcases v with _ | _ | _ <;> rfl

theorem both_either : both v (either w x) = either (both v w) (both v x) := by
  rcases v with _ | _ | _ <;> rcases w with _ | _ | _ <;> rcases x with _ | _ | _ <;> rfl

theorem not_both : (both v w).map not = either (v.map not) (w.map not) := by
  rcases v with _ | _ | _ <;> rcases w with _ | _ | _ <;> rfl

theorem all_cons (values : List (Option Bool)) : all (v :: values) = both v (all values) := by
  unfold all
  rw [List.any_cons, List.all_cons]
  rcases v with _ | _ | _
  · cases values.any (· == some false) <;> cases values.all (· == some true) <;> rfl
  · rfl
  · cases values.any (· == some false) <;> cases values.all (· == some true) <;> rfl

theorem any_cons (values : List (Option Bool)) : any (v :: values) = either v (any values) := by
  unfold any
  rw [List.map_cons, all_cons, not_both, Option.map_map]
  congr 1
  rcases v with _ | _ | _ <;> rfl

theorem all_append (values values' : List (Option Bool)) :
    all (values ++ values') = both (all values) (all values') := by
  induction values with
  | nil => exact (true_both _).symm
  | cons v values ih => rw [List.cons_append, all_cons, ih, all_cons, both_assoc]

theorem not_all (values : List (Option Bool)) :
    (all values).map not = any (values.map (·.map not)) := by
  have hmap : (values.map (·.map not)).map (·.map not) = values := by
    rw [List.map_map]
    refine (List.map_congr_left fun v _ => ?_).trans (List.map_id values)
    rcases v with _ | _ | _ <;> rfl
  rw [any, hmap]

end Truth

end SqlDialects.Sql

/-! ## Comparisons of cells -/

namespace SqlDialects.Comparison

open Sql

variable {α : Type*} [LinearOrder α]

def holds : Comparison → α → α → Bool
  | equal, x, y => x = y
  | notEqual, x, y => x ≠ y
  | less, x, y => x < y
  | lessOrEqual, x, y => x ≤ y
  | greater, x, y => y < x
  | greaterOrEqual, x, y => y ≤ x

/-- Nothing is known of a null. -/
def ofCells (operator : Comparison) : Option α × Option α → Option Bool
  | (some x, some y) => some (operator.holds x y)
  | _ => none

def isOrder : Comparison → Bool
  | equal | notEqual => false
  | _ => true

/-- Rows that are equal throughout are in this order. -/
def isReflexive : Comparison → Bool
  | lessOrEqual | greaterOrEqual => true
  | _ => false

/-- All cells of two rows are equal. -/
def allEqual (pairs : List (Option α × Option α)) : Option Bool :=
  Truth.all (pairs.map equal.ofCells)

/-- The comparison of two rows. In an order, the first cells that are not known to be equal decide,
and if it is not known whether they are equal, neither is the order of the rows. -/
def ofRows (operator : Comparison) (pairs : List (Option α × Option α)) : Option Bool :=
  match operator with
  | equal => allEqual pairs
  | notEqual => (allEqual pairs).map not
  | _ =>
    match pairs.find? fun pair => equal.ofCells pair != some true with
    | none => some operator.isReflexive
    | some pair => if equal.ofCells pair = none then none else operator.strict.ofCells pair

variable {operator : Comparison} {pair : Option α × Option α} {pairs : List (Option α × Option α)}

theorem ofRows_of_isOrder (h : operator.isOrder = true) : operator.ofRows pairs =
    match pairs.find? fun pair => equal.ofCells pair != some true with
    | none => some operator.isReflexive
    | some pair => if equal.ofCells pair = none then none else operator.strict.ofCells pair := by
  cases operator <;> first | rfl | contradiction

theorem allEqual_nil : allEqual ([] : List (Option α × Option α)) = some true := rfl

theorem allEqual_singleton (pair : Option α × Option α) : allEqual [pair] = equal.ofCells pair :=
  Truth.all_singleton _

theorem allEqual_append (pairs pairs' : List (Option α × Option α)) :
    allEqual (pairs ++ pairs') = Truth.both (allEqual pairs) (allEqual pairs') := by
  rw [allEqual, List.map_append]
  exact Truth.all_append _ _

theorem ofCells_eq_none_iff : operator.ofCells pair = none ↔ pair.1 = none ∨ pair.2 = none := by
  obtain ⟨_ | x, _ | y⟩ := pair <;> simp [ofCells]

theorem ofCells_notEqual (pair : Option α × Option α) :
    notEqual.ofCells pair = (equal.ofCells pair).map not := by
  obtain ⟨_ | x, _ | y⟩ := pair <;> simp [ofCells, holds]

theorem not_allEqual (pairs : List (Option α × Option α)) :
    (allEqual pairs).map not = Truth.any (pairs.map notEqual.ofCells) := by
  rw [allEqual, Truth.not_all, List.map_map]
  exact congrArg Truth.any (List.map_congr_left fun pair _ => (ofCells_notEqual pair).symm)

theorem ofCells_of_equal (h : equal.ofCells pair = some true) (ho : operator.isOrder = true) :
    operator.ofCells pair = some operator.isReflexive := by
  obtain ⟨_ | x, _ | y⟩ := pair
  · contradiction
  · contradiction
  · contradiction
  · obtain rfl : x = y := by simpa [ofCells, holds] using h
    cases operator <;> first | contradiction | simp [ofCells, holds, isReflexive]

theorem ofCells_strict (h : equal.ofCells pair = some false) (ho : operator.isOrder = true) :
    operator.ofCells pair = operator.strict.ofCells pair := by
  obtain ⟨_ | x, _ | y⟩ := pair
  · contradiction
  · contradiction
  · contradiction
  · have hne : x ≠ y := by simpa [ofCells, holds] using h
    cases operator with
    | lessOrEqual => simp [ofCells, holds, strict, le_iff_lt_or_eq, hne]
    | greaterOrEqual => simp [ofCells, holds, strict, le_iff_lt_or_eq, hne.symm]
    | _ => rfl

theorem isOrder_strict (ho : operator.isOrder = true) : operator.strict.isOrder = true := by
  cases operator <;> first | rfl | contradiction

theorem isReflexive_strict (operator : Comparison) : operator.strict.isReflexive = false := by
  cases operator <;> rfl

/-- Of one pair, the order is that of the cells. -/
theorem ofRows_singleton (ho : operator.isOrder = true) (pair : Option α × Option α) :
    operator.ofRows [pair] = operator.ofCells pair := by
  rw [ofRows_of_isOrder ho, List.find?_singleton]
  cases he : equal.ofCells pair with
  | none => simp [ofCells_eq_none_iff.2 (ofCells_eq_none_iff.1 he)]
  | some e =>
    cases e with
    | false => simp [he, ofCells_strict he ho]
    | true => simp [ofCells_of_equal he ho]

/-- A pair leaves the decision to the others if it is equal. -/
theorem ofRows_cons (ho : operator.isOrder = true) (pair : Option α × Option α)
    (pairs : List (Option α × Option α)) :
    operator.ofRows (pair :: pairs) = Truth.either (operator.strict.ofCells pair)
      (Truth.both (equal.ofCells pair) (operator.ofRows pairs)) := by
  rw [ofRows_of_isOrder ho]
  cases he : equal.ofCells pair with
  | none =>
    have hnone : operator.strict.ofCells pair = none :=
      ofCells_eq_none_iff.2 (ofCells_eq_none_iff.1 he)
    rw [List.find?_cons_of_pos (by simp [he]), hnone]
    rcases operator.ofRows pairs with _ | _ | _ <;> simp [he, Truth.both, Truth.either]
  | some e =>
    cases e with
    | false =>
      rw [List.find?_cons_of_pos (by simp [he]), Truth.false_both, Truth.either_false]
      simp [he]
    | true =>
      have hstrict := ofCells_of_equal he (isOrder_strict ho)
      rw [List.find?_cons_of_neg (by simp [he]), ← ofRows_of_isOrder ho, hstrict,
        isReflexive_strict, Truth.true_both, Truth.false_either]

end SqlDialects.Comparison

/-! ## What words mean -/

namespace SqlDialects.Sql

/-- How words are read if an atom may be neither true nor false. -/
inductive Means (τ : Condition → Option Bool) : Level → List Token → Option Bool → Prop
  | atom (p : Condition) : Means τ .factor [.atom p] (τ p)
  | yes : Means τ .factor [.yes] (some true)
  | no : Means τ .factor [.no] (some false)
  | parentheses {ts : List Token} {v : Option Bool} (h : Means τ .disjunction ts v) :
    Means τ .factor (.open :: ts ++ [.close]) v
  | not {ts : List Token} {v : Option Bool} (h : Means τ .factor ts v) :
    Means τ .factor (.not :: ts) (v.map Bool.not)
  | factor {ts : List Token} {v : Option Bool} (h : Means τ .factor ts v) :
    Means τ .conjunction ts v
  | and {ts us : List Token} {v w : Option Bool} (h : Means τ .conjunction ts v)
    (h' : Means τ .factor us w) : Means τ .conjunction (ts ++ .and :: us) (Truth.both v w)
  | conjunction {ts : List Token} {v : Option Bool} (h : Means τ .conjunction ts v) :
    Means τ .disjunction ts v
  | or {ts us : List Token} {v w : Option Bool} (h : Means τ .disjunction ts v)
    (h' : Means τ .conjunction us w) : Means τ .disjunction (ts ++ .or :: us) (Truth.either v w)

namespace Means

variable {τ : Condition → Option Bool} {ts us : List Token} {v w : Option Bool} {l : Level}

theorem and_conjunction (h : Means τ .conjunction ts v) (h' : Means τ .conjunction us w) :
    Means τ .conjunction (ts ++ .and :: us) (Truth.both v w) := by
  generalize hl : Level.conjunction = l at h'
  induction h' with
  | factor h' => exact h.and h'
  | @and us us' w w' _ h' ih _ =>
    have ih := ih hl
    rw [← Truth.both_assoc]
    simpa using ih.and h'
  | _ => contradiction

theorem or_disjunction (h : Means τ .disjunction ts v) (h' : Means τ .disjunction us w) :
    Means τ .disjunction (ts ++ .or :: us) (Truth.either v w) := by
  generalize hl : Level.disjunction = l at h'
  induction h' with
  | conjunction h' => exact h.or h'
  | @or us us' w w' _ h' ih _ =>
    have ih := ih hl
    rw [← Truth.either_assoc]
    simpa using ih.or h'
  | _ => contradiction

theorem and_separated {rows : List (List Token)} {values : List (Option Bool)} (hne : rows ≠ [])
    (h : List.Forall₂ (Means τ .conjunction) rows values) :
    Means τ .conjunction (Token.separated .and rows) (Truth.all values) := by
  induction h with
  | nil => contradiction
  | @cons ts v rows values h hrows ih =>
    rw [Truth.all_cons]
    cases hrows with
    | nil => exact (Truth.both_true v).symm ▸ h
    | cons h' hrows => exact h.and_conjunction (ih (List.cons_ne_nil _ _))

theorem or_separated {rows : List (List Token)} {values : List (Option Bool)} (hne : rows ≠ [])
    (h : List.Forall₂ (Means τ .disjunction) rows values) :
    Means τ .disjunction (Token.separated .or rows) (Truth.any values) := by
  induction h with
  | nil => contradiction
  | @cons ts v rows values h hrows ih =>
    rw [Truth.any_cons]
    cases hrows with
    | nil => exact (Truth.either_false v).symm ▸ h
    | cons h' hrows => exact h.or_disjunction (ih (List.cons_ne_nil _ _))

/-! ## One meaning -/

/-- Without negations, what is true and what may be true are readings of their own. -/
theorem reads (h : Means τ l ts v) (hn : .not ∉ ts) :
    Reads (fun p => τ p == some true) l ts (v == some true) ∧
      Reads (fun p => τ p != some false) l ts (v != some false) := by
  induction h with
  | atom p => exact ⟨.atom p, .atom p⟩
  | yes => exact ⟨.yes, .yes⟩
  | no => exact ⟨.no, .no⟩
  | @parentheses ts v h ih =>
    have hts : .not ∉ ts := fun h => hn (by simp [h])
    exact ⟨(ih hts).1.parentheses, (ih hts).2.parentheses⟩
  | not h ih => exact absurd List.mem_cons_self hn
  | factor h ih => exact ⟨(ih hn).1.factor, (ih hn).2.factor⟩
  | @and ts us v w h h' ih ih' =>
    have hts : .not ∉ ts := fun h => hn (by simp [h])
    have hus : .not ∉ us := fun h => hn (by simp [h])
    have htrue : (Truth.both v w == some true) = (v == some true && w == some true) := by
      rcases v with _ | _ | _ <;> rcases w with _ | _ | _ <;> rfl
    have hmay : (Truth.both v w != some false) = (v != some false && w != some false) := by
      rcases v with _ | _ | _ <;> rcases w with _ | _ | _ <;> rfl
    rw [htrue, hmay]
    exact ⟨(ih hts).1.and (ih' hus).1, (ih hts).2.and (ih' hus).2⟩
  | conjunction h ih => exact ⟨(ih hn).1.conjunction, (ih hn).2.conjunction⟩
  | @or ts us v w h h' ih ih' =>
    have hts : .not ∉ ts := fun h => hn (by simp [h])
    have hus : .not ∉ us := fun h => hn (by simp [h])
    have htrue : (Truth.either v w == some true) = (v == some true || w == some true) := by
      rcases v with _ | _ | _ <;> rcases w with _ | _ | _ <;> rfl
    have hmay : (Truth.either v w != some false) = (v != some false || w != some false) := by
      rcases v with _ | _ | _ <;> rcases w with _ | _ | _ <;> rfl
    rw [htrue, hmay]
    exact ⟨(ih hts).1.or (ih' hus).1, (ih hts).2.or (ih' hus).2⟩

theorem unique (h : Means τ .disjunction ts v) (h' : Means τ .disjunction ts w) (hn : .not ∉ ts) :
    v = w := by
  have htrue := (h.reads hn).1.unique (h'.reads hn).1
  have hmay := (h.reads hn).2.unique (h'.reads hn).2
  rcases v with _ | _ | _ <;> rcases w with _ | _ | _ <;> first | rfl | contradiction

end Means

/-! ## Words in place of rows -/

namespace Context

def pairToken (operator : Comparison) (pair : Expression × Expression) : Token :=
  .atom (.compare pair.1 operator pair.2)

def alternativeTokens (operator : Comparison) (equal : List (Expression × Expression))
    (pair : Expression × Expression) : List Token :=
  if equal.isEmpty then [pairToken operator pair]
  else .open :: Token.separated .and
    ((equal.map fun p => [pairToken .equal p]) ++ [[pairToken operator pair]]) ++ [.close]

def alternativesTokens (operator : Comparison) (equal : List (Expression × Expression)) :
    List (Expression × Expression) → List (List Token)
  | [] => []
  | [pair] => [alternativeTokens operator equal pair]
  | pair :: next :: rest =>
    alternativeTokens operator.strict equal pair ::
      alternativesTokens operator (equal ++ [pair]) (next :: rest)

/-- The words between the parentheses. -/
def expandedTokens (operator : Comparison) (pairs : List (Expression × Expression)) : List Token :=
  match operator with
  | .equal => Token.separated .and (pairs.map fun p => [pairToken .equal p])
  | .notEqual => Token.separated .or (pairs.map fun p => [pairToken .notEqual p])
  | _ => Token.separated .or (alternativesTokens operator [] pairs)

/-- The words for a comparison of two rows. -/
def rowTokens (operator : Comparison) (pairs : List (Expression × Expression)) : List Token :=
  .open :: expandedTokens operator pairs ++ [.close]

/-- None of them is a row itself. -/
def AreScalar (pairs : List (Expression × Expression)) : Prop :=
  ∀ p ∈ pairs, Expression.isTuple (some p.1) = false ∧ Expression.isTuple (some p.2) = false

variable {c : Context} {operator : Comparison} {equal pairs : List (Expression × Expression)}
  {pair : Expression × Expression}

theorem spell_parenthesized (ts : List Token) : Token.spell c (.open :: ts ++ [.close]) =
    .parenthesized (Token.spell c ts) := by
  have hclose : Token.spell c (ts ++ [.close]) = (Token.spell c ts).andThen (.text ")") :=
    Token.spell_append (by simp)
  rw [List.cons_append, Token.spell, hclose]
  rfl

theorem compareLayout_of_scalar {left right : Expression}
    (hl : Expression.isTuple (some left) = false) (hr : Expression.isTuple (some right) = false) :
    c.compareLayout operator left right =
      comparisonLayout operator [.expression left] [.expression right] := by
  unfold compareLayout
  split <;> first | rfl | contradiction

theorem spell_pairToken (hl : Expression.isTuple (some pair.1) = false)
    (hr : Expression.isTuple (some pair.2) = false) :
    Token.spell c [pairToken operator pair] = Slot.fill c (pairLayout operator pair) := by
  rw [pairToken, Token.spell, Condition.render_eq_fill, Condition.layout,
    compareLayout_of_scalar hl hr]
  exact Rendered.andThen_empty

theorem spell_pairTokens (h : AreScalar pairs) :
    (pairs.map fun p => [pairToken operator p]).map (Token.spell c) =
      (pairs.map (pairLayout operator)).map (Slot.fill c) := by
  rw [List.map_map, List.map_map]
  exact List.map_congr_left fun p hp => spell_pairToken (h p hp).1 (h p hp).2

theorem spell_alternativeTokens (he : AreScalar equal) (hp : AreScalar [pair]) :
    Token.spell c (alternativeTokens operator equal pair) =
      Slot.fill c (alternativeLayout operator equal pair) := by
  have hpair := hp pair (List.mem_singleton.2 rfl)
  unfold alternativeTokens alternativeLayout
  split
  · exact spell_pairToken hpair.1 hpair.2
  · rw [spell_parenthesized, Token.spell_separated .and " and " (by simp) fun _ => rfl,
      Slot.fill_parenthesized, Slot.fill_separated, List.map_append, List.map_append,
      spell_pairTokens he, List.map_singleton, List.map_singleton,
      spell_pairToken hpair.1 hpair.2]

theorem spell_alternativesTokens (he : AreScalar equal) (hp : AreScalar pairs) :
    (alternativesTokens operator equal pairs).map (Token.spell c) =
      (alternativeLayouts operator equal pairs).map (Slot.fill c) := by
  induction pairs generalizing equal with
  | nil => rfl
  | cons pair rest ih =>
    obtain ⟨hpair, hrest⟩ := List.forall_mem_cons.1 hp
    have hpair : AreScalar [pair] := List.forall_mem_singleton.2 hpair
    cases rest with
    | nil => exact congrArg (· :: []) (spell_alternativeTokens he hpair)
    | cons next rest =>
      have hequal : AreScalar (equal ++ [pair]) := List.forall_mem_append.2 ⟨he, hpair⟩
      rw [alternativesTokens, alternativeLayouts, List.map_cons, List.map_cons,
        spell_alternativeTokens he hpair, ih hequal hrest]

theorem spell_rowTokens (h : AreScalar pairs) :
    Token.spell c (rowTokens operator pairs) = Slot.fill c (expandedLayout operator pairs) := by
  have hand := Token.spell_separated (c := c) .and " and " (by simp) fun _ => rfl
  have hor := Token.spell_separated (c := c) .or " or " (by simp) fun _ => rfl
  rw [rowTokens, spell_parenthesized]
  cases operator with
  | equal | notEqual =>
    simp only [expandedTokens, expandedLayout, hand, hor, spell_pairTokens h,
      Slot.fill_parenthesized, Slot.fill_separated]
  | less | lessOrEqual | greater | greaterOrEqual =>
    simp only [expandedTokens, expandedLayout, hor,
      spell_alternativesTokens (List.forall_mem_nil _) h, Slot.fill_parenthesized,
      Slot.fill_separated]

/-! No word among them is a negation. -/

theorem not_mem_separated {t separator : Token} (hs : t ≠ separator) {rows : List (List Token)}
    (h : ∀ row ∈ rows, t ∉ row) : t ∉ Token.separated separator rows := by
  induction rows with
  | nil => exact List.not_mem_nil
  | cons row rest ih =>
    obtain ⟨hrow, hrest⟩ := List.forall_mem_cons.1 h
    cases rest with
    | nil => exact hrow
    | cons next rest => simp [Token.separated, hrow, hs, ih hrest]

theorem not_mem_parenthesized {ts : List Token} (h : .not ∉ ts) :
    .not ∉ .open :: ts ++ [.close] := by simp [h]

theorem not_mem_pairTokens : ∀ row ∈ pairs.map fun p => [pairToken operator p], .not ∉ row :=
  List.forall_mem_map.2 fun p _ => by simp [pairToken]

theorem not_mem_alternativeTokens : .not ∉ alternativeTokens operator equal pair := by
  unfold alternativeTokens
  split
  · simp [pairToken]
  · apply not_mem_parenthesized
    apply not_mem_separated (by simp)
    exact List.forall_mem_append.2 ⟨not_mem_pairTokens, by simp [pairToken]⟩

theorem not_mem_alternativesTokens :
    ∀ row ∈ alternativesTokens operator equal pairs, .not ∉ row := by
  induction pairs generalizing equal with
  | nil => exact List.forall_mem_nil _
  | cons pair rest ih =>
    cases rest with
    | nil => exact List.forall_mem_singleton.2 not_mem_alternativeTokens
    | cons next rest => exact List.forall_mem_cons.2 ⟨not_mem_alternativeTokens, ih⟩

theorem not_mem_rowTokens : .not ∉ rowTokens operator pairs := by
  apply not_mem_parenthesized
  unfold expandedTokens
  split
  · exact not_mem_separated (by simp) not_mem_pairTokens
  · exact not_mem_separated (by simp) not_mem_pairTokens
  · exact not_mem_separated (by simp) not_mem_alternativesTokens

end Context

/-! ## The truth value of a comparison of rows -/

section Values

variable {α : Type*} [LinearOrder α] (value : Expression → Option α)

def cells (pair : Expression × Expression) : Option α × Option α := (value pair.1, value pair.2)

/-- Of the conditions, only comparisons of single values are known. -/
def comparisonTruth : Condition → Option Bool
  | .compare left operator right => operator.ofCells (value left, value right)
  | _ => none

open Context Comparison

variable {operator : Comparison}

theorem means_pairToken (operator : Comparison) (pair : Expression × Expression) :
    Means (comparisonTruth value) .factor [pairToken operator pair]
      (operator.ofCells (cells value pair)) := .atom _

theorem means_pairTokens (operator : Comparison) (pairs : List (Expression × Expression)) :
    List.Forall₂ (Means (comparisonTruth value) .factor)
      (pairs.map fun p => [pairToken operator p])
      ((pairs.map (cells value)).map operator.ofCells) := by
  rw [List.map_map, List.forall₂_map_left_iff, List.forall₂_map_right_iff, List.forall₂_same]
  exact fun p _ => means_pairToken value operator p

theorem means_alternativeTokens (operator : Comparison) (equal : List (Expression × Expression))
    (pair : Expression × Expression) :
    Means (comparisonTruth value) .factor (alternativeTokens operator equal pair)
      (Truth.both (allEqual (equal.map (cells value))) (operator.ofCells (cells value pair))) := by
  have hpair := means_pairToken value operator pair
  unfold alternativeTokens
  split
  · next h =>
    obtain rfl := List.isEmpty_iff.1 h
    rwa [List.map_nil, allEqual_nil, Truth.true_both]
  · rw [allEqual, ← Truth.all_singleton (operator.ofCells (cells value pair)), ← Truth.all_append]
    apply Means.parentheses
    apply Means.conjunction
    apply Means.and_separated (by simp)
    have hequal := (means_pairTokens value .equal equal).imp fun _ _ => Means.factor
    exact List.rel_append hequal (.cons hpair.factor .nil)

theorem separated_cons {separator : Token} {row : List Token} {rows : List (List Token)}
    (h : rows ≠ []) : Token.separated separator (row :: rows) =
      row ++ separator :: Token.separated separator rows := by
  cases rows with
  | nil => contradiction
  | cons next rest => rfl

theorem alternativesTokens_ne_nil (operator : Comparison)
    {equal pairs : List (Expression × Expression)} (h : pairs ≠ []) :
    alternativesTokens operator equal pairs ≠ [] := by
  unfold alternativesTokens
  split <;> first | contradiction | exact List.cons_ne_nil _ _

/-- The alternatives that start from equal pairs in front leave the decision to the other pairs. -/
theorem means_alternativesTokens (ho : operator.isOrder = true)
    {equal pairs : List (Expression × Expression)} (hne : pairs ≠ []) :
    Means (comparisonTruth value) .disjunction
      (Token.separated .or (alternativesTokens operator equal pairs))
      (Truth.both (allEqual (equal.map (cells value)))
        (operator.ofRows (pairs.map (cells value)))) := by
  induction pairs generalizing equal with
  | nil => contradiction
  | cons pair rest ih =>
    cases rest with
    | nil =>
      rw [List.map_singleton, ofRows_singleton ho]
      exact .conjunction (means_alternativeTokens value operator equal pair).factor
    | cons next rest =>
      -- What is taken to be equal comes in front of this alternative and of all others.
      have hfirst := means_alternativeTokens value operator.strict equal pair
      have hrest := @ih (equal ++ [pair]) (List.cons_ne_nil _ _)
      rw [List.map_append, List.map_singleton, allEqual_append, allEqual_singleton,
        Truth.both_assoc] at hrest
      rw [alternativesTokens, separated_cons (alternativesTokens_ne_nil operator (by simp)),
        List.map_cons, ofRows_cons ho, Truth.both_either]
      exact hfirst.factor.conjunction.or_disjunction hrest

theorem means_expandedTokens (operator : Comparison) {pairs : List (Expression × Expression)}
    (hne : pairs ≠ []) : Means (comparisonTruth value) .disjunction (expandedTokens operator pairs)
      (operator.ofRows (pairs.map (cells value))) := by
  have hpairs (operator : Comparison) : (pairs.map fun p => [pairToken operator p]) ≠ [] :=
    mt List.map_eq_nil_iff.1 hne
  have horder (ho : operator.isOrder = true) : Means (comparisonTruth value) .disjunction
      (Token.separated .or (alternativesTokens operator [] pairs))
      (operator.ofRows (pairs.map (cells value))) := by
    have h := @means_alternativesTokens _ _ value _ ho [] _ hne
    rwa [List.map_nil, allEqual_nil, Truth.true_both] at h
  cases operator with
  | equal =>
    have hrows := (means_pairTokens value .equal pairs).imp fun _ _ => Means.factor
    exact .conjunction (.and_separated (hpairs _) hrows)
  | notEqual =>
    have hrows := (means_pairTokens value .notEqual pairs).imp
      fun _ _ h => Means.conjunction h.factor
    rw [ofRows, not_allEqual]
    exact .or_separated (hpairs _) hrows
  | less | lessOrEqual | greater | greaterOrEqual => exact horder rfl

end Values

/-! ## Rows in a dialect without them -/

theorem areScalar_zip {lefts rights : List Expression}
    (h : ∀ e ∈ lefts ++ rights, Expression.isTuple (some e) = false) :
    Context.AreScalar (lefts.zip rights) := by
  intro p hp
  have hmem := List.of_mem_zip hp
  exact ⟨h p.1 (List.mem_append_left _ hmem.1), h p.2 (List.mem_append_right _ hmem.2)⟩

namespace Condition

variable {c : Context} {operator : Comparison} {lefts rights : List Expression}

theorem zip_ne_nil (hlength : 2 ≤ lefts.length) (hsame : lefts.length = rights.length) :
    lefts.zip rights ≠ [] := by
  intro h
  have hzip := congrArg List.length h
  rw [List.length_zip, List.length_nil] at hzip
  omega

theorem layout_rows (hc : c.dialect.supports .rowValueConstructorSyntax = false)
    (hlength : 2 ≤ lefts.length) (hsame : lefts.length = rights.length) :
    (compare (.tuple lefts) operator (.tuple rights)).layout c =
      Context.expandedLayout operator (lefts.zip rights) := by
  have hshort : ¬lefts.length < 2 := by omega
  simp [layout, Context.compareLayout, Context.rowLayout, hc, hsame ▸ hshort, hsame]

/-- The expansion fails only if an element does. -/
theorem render_rows_ok_iff (hc : c.dialect.supports .rowValueConstructorSyntax = false)
    (hlength : 2 ≤ lefts.length) (hsame : lefts.length = rights.length) :
    (∃ f, (compare (.tuple lefts) operator (.tuple rights)).render c = .ok f) ↔
      ∀ e ∈ lefts ++ rights, ∃ f, e.render c = .ok f := by
  have hne := zip_ne_nil hlength hsame
  have hpart {b : Bool} {n : Node} :
      .part b n ∈ Context.expandedLayout operator (lefts.zip rights) ↔
        b = false ∧ ∃ e ∈ lefts ++ rights, n = .expression e := by
    rw [Context.part_mem_expandedLayout_iff hne, Context.mem_pairNodes_zip hsame]
    simp only [List.mem_append]
  rw [render_eq_fill, layout_rows hc hlength hsame]
  constructor
  · rintro ⟨f, hf⟩ e he
    exact Slot.fill_renders hf (hpart.2 ⟨rfl, e, he, rfl⟩)
  · intro h
    cases hf : Slot.fill c (Context.expandedLayout operator (lefts.zip rights)) with
    | ok f => exact ⟨f, rfl⟩
    | error e =>
      rcases Slot.error_of_fill hf with herror | ⟨b, n, hn, herror⟩
      · exact absurd herror Context.not_error_mem_expandedLayout
      · obtain ⟨rfl, e', he', rfl⟩ := hpart.1 hn
        obtain ⟨f, hf⟩ := h e' he'
        exact absurd (hf.symm.trans herror) (by simp)

/-- Where rows cannot be compared as such, their comparison is written in other words, which stand
in parentheses, fail only if an element does, and have the truth value of the comparison. -/
theorem render_rows_means {α : Type*} [LinearOrder α] (value : Expression → Option α)
    (hc : c.dialect.supports .rowValueConstructorSyntax = false)
    (hlength : 2 ≤ lefts.length) (hsame : lefts.length = rights.length)
    (hscalar : ∀ e ∈ lefts ++ rights, Expression.isTuple (some e) = false) :
    let p := compare (.tuple lefts) operator (.tuple rights)
    let words := Context.rowTokens operator (lefts.zip rights)
    let truth := operator.ofRows ((lefts.zip rights).map (cells value))
    ((∃ f, p.render c = .ok f) ↔ ∀ e ∈ lefts ++ rights, ∃ f, e.render c = .ok f) ∧
      p.render c = Token.spell c words ∧
      Means (comparisonTruth value) .factor words truth ∧
      ∀ v, Means (comparisonTruth value) .disjunction words v → v = truth := by
  intro p words truth
  have hne := zip_ne_nil hlength hsame
  have hmeans : Means (comparisonTruth value) .factor words truth :=
    .parentheses (means_expandedTokens value operator hne)
  refine ⟨render_rows_ok_iff hc hlength hsame, ?_, hmeans, ?_⟩
  · rw [render_eq_fill, layout_rows hc hlength hsame,
      Context.spell_rowTokens (areScalar_zip hscalar)]
  · intro v hv
    exact hv.unique (.conjunction (.factor hmeans)) Context.not_mem_rowTokens

/-- What a list of persons is sorted by. -/
def pageKeys : List Expression := [.of "t0" "born", .of "t0" "id"]

/-- The person that a page of the list comes after. -/
def pageStart : List Expression := [.literal (.integer 1970), .literal (.integer 7)]

/-- Of someone who was born in the same year and has no number. -/
def unnumbered : Expression → Option Int
  | .literal (.integer n) => some n
  | .column _ "born" => some 1970
  | _ => none

theorem nextPage_means :
    let c : Context := { dialect := Dialect.ofProduct .ingres ⟨10, 0, 0⟩ }
    let p := compare (.tuple pageKeys) .greater (.tuple pageStart)
    let words := Context.rowTokens .greater (pageKeys.zip pageStart)
    c.dialect.supports .rowValueConstructorSyntax = false ∧
      ((∃ f, p.render c = .ok f) ∧ p.render c = Token.spell c words ∧
        Means (comparisonTruth unnumbered) .disjunction words none ∧
        ¬Means (comparisonTruth unnumbered) .disjunction words (some true)) := by
  intro c p words
  have hc : c.dialect.supports .rowValueConstructorSyntax = false := by decide
  have hscalar : ∀ e ∈ pageKeys ++ pageStart, Expression.isTuple (some e) = false := by
    simp [pageKeys, pageStart, Expression.of, Expression.isTuple]
  obtain ⟨hok, hspell, hmeans, hunique⟩ :=
    @render_rows_means c .greater pageKeys pageStart _ _ unnumbered hc (by decide) rfl hscalar
  have htruth : Comparison.greater.ofRows ((pageKeys.zip pageStart).map (cells unnumbered)) =
      none := by decide
  have helements : ∀ e ∈ pageKeys ++ pageStart, ∃ f, e.render c = .ok f := by
    simp only [pageKeys, pageStart, List.cons_append, List.nil_append, List.forall_mem_cons]
    exact ⟨⟨_, rfl⟩, ⟨_, rfl⟩, ⟨_, rfl⟩, ⟨_, rfl⟩, List.forall_mem_nil _⟩
  refine ⟨hc, hok.2 helements, hspell, ?_, ?_⟩
  · exact .conjunction (.factor (htruth ▸ hmeans))
  · intro h
    exact absurd ((hunique _ h).trans htruth) (by simp)

end Condition

end SqlDialects.Sql
