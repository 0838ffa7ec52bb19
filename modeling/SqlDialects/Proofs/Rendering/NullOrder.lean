import SqlDialects.Dialect.Resolve
import SqlDialects.Proofs.Rendering.Filled

/-!
# Orders with nulls

A key that says where its nulls go is written with a clause of its own or, where the dialect has no
such clause, as two keys: a test for null and the expression. Wherever the database puts nulls that
nothing is said about, the keys that are written and the keys that were asked for allow the same
orders of the same rows.
-/

namespace SqlDialects.Sql

/-! ## Written keys -/

/-- A key of a written order. -/
inductive WrittenKey where
  /-- An expression with its direction and its clause for nulls. -/
  | plain (key : SortKey Expression)
  /-- `case when .. is null then .. else .. end`. -/
  | nullTest (e : Expression) (ifNull otherwise : Nat)

namespace WrittenKey

def nullClause : Option NullPrecedence → List Slot
  | none => []
  | some .first => [.text " nulls first"]
  | some .last => [.text " nulls last"]

/-- A null test up to its `end`. -/
def testLayout (e : Expression) (ifNull otherwise : Nat) : List Slot :=
  [.text "case when ", .expression e,
    .text (" is null then " ++ toString ifNull ++ " else " ++ toString otherwise)]

def layout : WrittenKey → List Slot
  | .plain key => .expression key.expression :: .own (.textIf key.isDescending " desc") ::
      nullClause key.nulls
  | .nullTest e ifNull otherwise => testLayout e ifNull otherwise ++ [.text " end"]

/-- The comma behind a null test is written in one piece with its `end`. -/
def layoutAll : List WrittenKey → List Slot
  | [] => []
  | [key] => key.layout
  | .nullTest e ifNull otherwise :: next :: rest =>
    testLayout e ifNull otherwise ++ .text " end, " :: layoutAll (next :: rest)
  | .plain key :: next :: rest => layout (.plain key) ++ .text ", " :: layoutAll (next :: rest)

def spell (c : Context) (keys : List WrittenKey) : Rendered := Slot.fill c (layoutAll keys)

end WrittenKey

/-- The keys that are written for one key. -/
def Context.writtenKeys (c : Context) (key : SortKey Expression) : List WrittenKey :=
  match key.nulls, c.dialect.supports .nullsOrdering with
  | some .first, false => [.nullTest key.expression 0 1, .plain { key with nulls := none }]
  | some .last, false => [.nullTest key.expression 1 0, .plain { key with nulls := none }]
  | _, _ => [.plain key]

namespace Context

variable {c : Context}

theorem flatMap_writtenKeys_of_supports (hc : c.dialect.supports .nullsOrdering = true)
    (keys : List (SortKey Expression)) : keys.flatMap c.writtenKeys = keys.map .plain := by
  have hkey : c.writtenKeys = fun key => [.plain key] := by
    funext key
    unfold writtenKeys
    rw [hc]
    split
    case h_1 h => cases h
    case h_2 h => cases h
    case h_3 => rfl
  rw [hkey, List.map_eq_flatMap]

theorem nulls_of_mem_writtenKeys (hc : c.dialect.supports .nullsOrdering = false)
    {key written : SortKey Expression} (h : .plain written ∈ c.writtenKeys key) :
    written.nulls = none := by
  obtain ⟨e, isDescending, nulls⟩ := key
  unfold writtenKeys at h
  rw [hc] at h
  rcases nulls with _ | _ | _
  all_goals
    simp only [List.mem_cons, List.not_mem_nil, WrittenKey.plain.injEq, reduceCtorEq, or_false,
      false_or] at h
    rw [h]

theorem layoutAll_writtenKeys (key : SortKey Expression) :
    WrittenKey.layoutAll (c.writtenKeys key) = c.keyLayout key := by
  obtain ⟨e, isDescending, nulls⟩ := key
  unfold writtenKeys keyLayout
  rcases nulls with _ | _ | _ <;> cases c.dialect.supports .nullsOrdering <;> rfl

theorem layoutAll_writtenKeys_append (key : SortKey Expression) {rest : List WrittenKey}
    (hr : rest ≠ []) : WrittenKey.layoutAll (c.writtenKeys key ++ rest) =
      c.keyLayout key ++ .text ", " :: WrittenKey.layoutAll rest := by
  obtain ⟨e, isDescending, nulls⟩ := key
  obtain ⟨next, rest, rfl⟩ := List.exists_cons_of_ne_nil hr
  unfold writtenKeys keyLayout
  rcases nulls with _ | _ | _ <;> cases c.dialect.supports .nullsOrdering <;> rfl

theorem writtenKeys_ne_nil (key : SortKey Expression) : c.writtenKeys key ≠ [] := by
  unfold writtenKeys
  split <;> exact List.cons_ne_nil _ _

theorem separated_keyLayout (keys : List (SortKey Expression)) :
    Slot.separated ", " (keys.map c.keyLayout) =
      WrittenKey.layoutAll (keys.flatMap c.writtenKeys) := by
  induction keys with
  | nil => rfl
  | cons key rest ih =>
    cases rest with
    | nil => rw [List.flatMap_singleton, layoutAll_writtenKeys]; rfl
    | cons next rest =>
      have hrest : (next :: rest).flatMap c.writtenKeys ≠ [] := by
        rw [List.flatMap_cons]
        exact List.append_ne_nil_of_left_ne_nil (writtenKeys_ne_nil next) _
      rw [List.flatMap_cons, layoutAll_writtenKeys_append key hrest, ← ih]
      rfl

/-- The text of a sort list, as the text of the keys that are written. -/
theorem renderAll_eq_spell (keys : List (SortKey Expression)) :
    Rendered.separated ", " (SortKey.renderAll c keys) =
      WrittenKey.spell c (keys.flatMap c.writtenKeys) := by
  rw [WrittenKey.spell, ← separated_keyLayout, Slot.fill_separated, fill_keyLayouts]

end Context

/-! ## Comparing rows -/

/-- Where a database puts nulls that nothing is said about. -/
inductive NullRank where
  | lowest
  | highest
  deriving DecidableEq, Repr

/-- The nulls of a key come before its values. A rank turns round with the direction. -/
def startsWithNulls (rank : NullRank) (key : SortKey Expression) : Bool :=
  match key.nulls with
  | some .first => true
  | some .last => false
  | none => if key.isDescending then rank = .highest else rank = .lowest

section

variable {ρ α : Type} [Ord α]

def compareValues (isDescending : Bool) (a b : α) : Ordering :=
  if isDescending then compare b a else compare a b

/-- Values, some of them null, by a comparison of those that are not. -/
def compareCells (nullsFirst : Bool) (cmp : α → α → Ordering) : Option α → Option α → Ordering
  | none, none => .eq
  | none, some _ => if nullsFirst then .lt else .gt
  | some _, none => if nullsFirst then .gt else .lt
  | some a, some b => cmp a b

variable (rank : NullRank) (value : Expression → ρ → Option α)

/-- Two rows by the first key that tells them apart. `value` is what an expression comes to in a
row, and no value is null. -/
def WrittenKey.compareRows : List WrittenKey → ρ → ρ → Ordering
  | [] => fun _ _ => .eq
  | .plain key :: rest => compareLex
      (fun row row' => compareCells (startsWithNulls rank key) (compareValues key.isDescending)
        (value key.expression row) (value key.expression row'))
      (compareRows rest)
  | .nullTest e ifNull otherwise :: rest => compareLex
      (compareOn fun row => if (value e row).isNone then ifNull else otherwise)
      (compareRows rest)

/-- The rows stand in an order of the keys. Rows that no key tells apart may stand in any order. -/
def WrittenKey.Allows (keys : List WrittenKey) (rows sorted : List ρ) : Prop :=
  sorted.Perm rows ∧
    sorted.Pairwise fun row next => (compareRows rank value keys row next).isLE

def WrittenKey.sortRows (keys : List WrittenKey) (rows : List ρ) : List ρ :=
  rows.mergeSort fun row row' => (compareRows rank value keys row row').isLE

end

/-! ## One key as two -/

section

variable {α : Type} (byDefault : Bool) (cmp : α → α → Ordering) (x y : Option α)

/-- Behind a test for null it makes no difference where the database puts nulls. -/
theorem compare_nullTest_then_cells :
    (compare (if x.isNone then 0 else 1) (if y.isNone then 0 else 1)).then
      (compareCells byDefault cmp x y) = compareCells true cmp x y := by
  cases x <;> cases y <;> rfl

theorem compare_valueTest_then_cells :
    (compare (if x.isNone then 1 else 0) (if y.isNone then 1 else 0)).then
      (compareCells byDefault cmp x y) = compareCells false cmp x y := by
  cases x <;> cases y <;> rfl

end

section

variable {ρ α : Type} [Ord α] {rank : NullRank} {value : Expression → ρ → Option α} {c : Context}

theorem compareRows_writtenKeys_append (key : SortKey Expression) (rest : List WrittenKey) :
    WrittenKey.compareRows rank value (c.writtenKeys key ++ rest) =
      WrittenKey.compareRows rank value (.plain key :: rest) := by
  obtain ⟨e, isDescending, nulls⟩ := key
  unfold Context.writtenKeys
  cases c.dialect.supports .nullsOrdering with
  | true => rcases nulls with _ | _ | _ <;> rfl
  | false =>
    rcases nulls with _ | nulls
    · rfl
    · funext row row'
      cases nulls with
      | first =>
        exact (Ordering.then_assoc ..).symm.trans
          (congrArg (Ordering.then · _) (compare_nullTest_then_cells ..))
      | last =>
        exact (Ordering.then_assoc ..).symm.trans
          (congrArg (Ordering.then · _) (compare_valueTest_then_cells ..))

/-- Key by key, the written keys tell the same rows apart in the same way. -/
theorem compareRows_writtenKeys (keys : List (SortKey Expression)) :
    WrittenKey.compareRows rank value (keys.flatMap c.writtenKeys) =
      WrittenKey.compareRows rank value (keys.map .plain) := by
  induction keys with
  | nil => rfl
  | cons key rest ih =>
    rw [List.flatMap_cons, compareRows_writtenKeys_append, List.map_cons, WrittenKey.compareRows,
      WrittenKey.compareRows, ih]

end

/-! ## Sorting -/

section

open Std

variable {ρ α : Type}

instance (nullsFirst : Bool) (cmp : α → α → Ordering) [TransCmp cmp] :
    TransCmp (compareCells nullsFirst cmp) where
  eq_swap {x y} := by
    cases x <;> cases y
    case some.some => exact @OrientedCmp.eq_swap _ cmp _ _ _
    all_goals cases nullsFirst <;> rfl
  isLE_trans {x y z} hxy hyz := by
    cases x <;> cases y <;> cases z
    case some.some.some => exact @TransCmp.isLE_trans _ cmp _ _ _ _ hxy hyz
    all_goals cases nullsFirst <;> simp [compareCells] at hxy hyz ⊢

theorem transCmp_on (cmp : α → α → Ordering) [TransCmp cmp] (f : ρ → α) :
    TransCmp fun row row' => cmp (f row) (f row') where
  eq_swap {_ _} := @OrientedCmp.eq_swap _ cmp _ _ _
  isLE_trans {_ _ _} := @TransCmp.isLE_trans _ cmp _ _ _ _

variable [Ord α] [TransOrd α] {rank : NullRank} {value : Expression → ρ → Option α}

instance (isDescending : Bool) : TransCmp (compareValues isDescending : α → α → Ordering) := by
  cases isDescending with
  | false => exact inferInstanceAs (TransCmp fun a b : α => compare a b)
  | true => exact @TransCmp.opposite α compare _

instance transCmp_compareRows (keys : List WrittenKey) :
    TransCmp (WrittenKey.compareRows rank value keys) := by
  induction keys with
  | nil => exact { eq_swap := rfl, isLE_trans := fun _ _ => rfl }
  | cons key rest ih =>
    unfold WrittenKey.compareRows
    cases key with
    | plain key =>
      have hcells := transCmp_on (compareCells (startsWithNulls rank key)
        (compareValues key.isDescending)) (value key.expression)
      infer_instance
    | nullTest e ifNull otherwise => infer_instance

theorem allows_sortRows (keys : List WrittenKey) (rows : List ρ) :
    WrittenKey.Allows rank value keys rows (WrittenKey.sortRows rank value keys rows) := by
  refine ⟨List.mergeSort_perm _ _, List.pairwise_mergeSort ?_ ?_ rows⟩
  · exact fun _ _ _ => TransCmp.isLE_trans
  · intro row row'
    rw [@OrientedCmp.eq_swap _ (WrittenKey.compareRows rank value keys) _ row']
    cases WrittenKey.compareRows rank value keys row row' <;> rfl

end

/-- Without a clause for nulls, a sort list is written with null tests and plain keys, and these
allow the same orders as keys with clauses. -/
theorem renderAll_sorts_alike {c : Context} (hc : c.dialect.supports .nullsOrdering = false)
    (keys : List (SortKey Expression)) :
    Rendered.separated ", " (SortKey.renderAll c keys) =
      WrittenKey.spell c (keys.flatMap c.writtenKeys) ∧
    (∀ key, .plain key ∈ keys.flatMap c.writtenKeys → key.nulls = none) ∧
    (∀ native : Context, native.dialect.supports .nullsOrdering = true →
      Rendered.separated ", " (SortKey.renderAll native keys) =
        WrittenKey.spell native (keys.map .plain)) ∧
    ∀ {ρ α : Type} [Ord α] [Std.TransOrd α] (rank : NullRank) (value : Expression → ρ → Option α)
      (rows : List ρ),
      WrittenKey.Allows rank value (keys.map .plain) rows
        (WrittenKey.sortRows rank value (keys.flatMap c.writtenKeys) rows) ∧
      ∀ sorted, WrittenKey.Allows rank value (keys.flatMap c.writtenKeys) rows sorted ↔
        WrittenKey.Allows rank value (keys.map .plain) rows sorted := by
  refine ⟨Context.renderAll_eq_spell keys, fun key hkey => ?_, fun native hn => ?_,
    fun rank value rows => ?_⟩
  · obtain ⟨asked, -, hwritten⟩ := List.mem_flatMap.1 hkey
    exact Context.nulls_of_mem_writtenKeys hc hwritten
  · rw [Context.renderAll_eq_spell, Context.flatMap_writtenKeys_of_supports hn]
  · have halike : ∀ sorted, WrittenKey.Allows rank value (keys.flatMap c.writtenKeys) rows sorted ↔
        WrittenKey.Allows rank value (keys.map .plain) rows sorted := by
      intro sorted
      rw [WrittenKey.Allows, WrittenKey.Allows, compareRows_writtenKeys]
    exact ⟨(halike _).1 (allows_sortRows _ rows), halike⟩

/-- By name from the last one on with the nameless at the end, and by number within a name with
the unnumbered at the beginning. -/
def namesFromLast : List (SortKey Expression) :=
  [⟨.of "t0" "name", true, some .last⟩, ⟨.of "t0" "number", false, some .first⟩]

/-- A name and a number, by their columns. -/
def nameAndNumber : Expression → Option Nat × Option Nat → Option Nat
  | .column _ "name" => Prod.fst
  | .column _ "number" => Prod.snd
  | _ => fun _ => none

theorem namesFromLast_sorts_alike :
    let c : Context := { dialect := Dialect.ofProduct .mySql ⟨8, 0, 0⟩ }
    let written := namesFromLast.flatMap c.writtenKeys
    c.dialect.supports .nullsOrdering = false ∧
    Rendered.separated ", " (SortKey.renderAll c namesFromLast) = WrittenKey.spell c written ∧
    written.length = 4 ∧
    WrittenKey.Allows .highest nameAndNumber (namesFromLast.map .plain)
      [(none, some 1), (some 2, some 9), (some 5, none), (some 2, none)]
      [(some 5, none), (some 2, none), (some 2, some 9), (none, some 1)] := by
  intro c written
  have hc : c.dialect.supports .nullsOrdering = false := by decide
  obtain ⟨hspell, -, -, hsorts⟩ := renderAll_sorts_alike hc namesFromLast
  obtain ⟨-, halike⟩ := hsorts .highest nameAndNumber
    [(none, some 1), (some 2, some 9), (some 5, none), (some 2, none)]
  refine ⟨hc, hspell, by decide, (halike _).1 ⟨by decide, by decide⟩⟩

end SqlDialects.Sql
