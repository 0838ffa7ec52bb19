import SqlDialects.Proofs.Letters
import SqlDialects.Proofs.Lowering.Recall
import SqlDialects.Proofs.Lowering.Resolution

/-!
# Spellings of names

Entities and properties can be written in capitals or small letters. Two statements that differ in
nothing else have the same outcome: with the names in small letters each step of the lowering fails
in the same way, or makes the same and leaves the same state.
-/

namespace SqlDialects

/-! ## Names -/

theorem Mapping.Entity.property?_folded (entity : Mapping.Entity) (name : String) :
    entity.property? (Text.folded name) = entity.property? name :=
  entity.property_congr (Text.foldAscii_folded name)

theorem Mapping.Model.entity?_folded (model : Mapping.Model) (name : String) :
    model.entity? (Text.folded name) = model.entity? name := by
  simp [entity?]

/-! ## Statements in small letters -/

namespace Entity

def Path.folded (path : Path) : Path := { path with properties := path.properties.map Text.folded }

def PathJoin.folded (join : PathJoin) : PathJoin := { join with path := join.path.folded }

def Root.folded (root : Root) : Root :=
  { root with entity := Text.folded root.entity, joins := root.joins.map PathJoin.folded }

mutual

/-- The tree with entities and properties in small letters. Variables stay as they are. -/
def Expression.folded : Expression → Expression
  | .path path => .path path.folded
  | .literal value => .literal value
  | .parameter parameter => .parameter parameter
  | .call name arguments => .call name (Expression.foldedAll arguments)
  | .aggregate function isDistinct argument =>
    .aggregate function isDistinct (Expression.foldedOption argument)
  | .extract unit source => .extract unit source.folded
  | .timestampAdd unit magnitude timestamp => .timestampAdd unit magnitude.folded timestamp.folded
  | .timestampDiff unit start finish => .timestampDiff unit start.folded finish.folded
  | .format source pattern => .format source.folded pattern
  | .binary left operator right => .binary left.folded operator right.folded
  | .negate operand => .negate operand.folded
  | .case branches otherwise =>
    .case (CaseBranch.foldedAll branches) (Expression.foldedOption otherwise)
  | .cast source target => .cast source.folded target
  | .subquery query => .subquery query.folded
  | .tuple items => .tuple (Expression.foldedAll items)
  | .size path => .size path.folded

def Expression.foldedAll : List Expression → List Expression
  | [] => []
  | e :: rest => e.folded :: Expression.foldedAll rest

def Expression.foldedOption : Option Expression → Option Expression
  | none => none
  | some e => some e.folded

def CaseBranch.foldedAll :
    List (CaseBranch Condition Expression) → List (CaseBranch Condition Expression)
  | [] => []
  | ⟨condition, result⟩ :: rest => ⟨condition.folded, result.folded⟩ :: CaseBranch.foldedAll rest

def Condition.folded : Condition → Condition
  | .compare left operator right => .compare left.folded operator right.folded
  | .all items => .all (Condition.foldedAll items)
  | .any items => .any (Condition.foldedAll items)
  | .not operand => .not operand.folded
  | .isNull operand isNegated => .isNull operand.folded isNegated
  | .inList operand items isNegated =>
    .inList operand.folded (Expression.foldedAll items) isNegated
  | .inQuery operand query isNegated => .inQuery operand.folded query.folded isNegated
  | .exists query isNegated => .exists query.folded isNegated
  | .like operand pattern escape ignoresCase isNegated =>
    .like operand.folded pattern.folded escape ignoresCase isNegated
  | .between operand low high isNegated =>
    .between operand.folded low.folded high.folded isNegated
  | .holds operand => .holds operand.folded

def Condition.foldedAll : List Condition → List Condition
  | [] => []
  | p :: rest => p.folded :: Condition.foldedAll rest

def Condition.foldedOption : Option Condition → Option Condition
  | none => none
  | some p => some p.folded

def Query.folded : Query → Query
  | .spec spec => .spec spec.folded
  | .group operator parts orderBy limit offset =>
    .group operator (Query.foldedAll parts) (SortKey.foldedAll orderBy)
      (Expression.foldedOption limit) (Expression.foldedOption offset)

def Query.foldedAll : List Query → List Query
  | [] => []
  | q :: rest => q.folded :: Query.foldedAll rest

def QuerySpec.folded : QuerySpec → QuerySpec
  | ⟨isDistinct, select, roots, condition, groupBy, having, orderBy, limit, offset⟩ =>
    { isDistinct
      select := SelectItem.foldedAll select
      roots := roots.map Root.folded
      condition := Condition.foldedOption condition
      groupBy := Expression.foldedAll groupBy
      having := Condition.foldedOption having
      orderBy := SortKey.foldedAll orderBy
      limit := Expression.foldedOption limit
      offset := Expression.foldedOption offset }

def SelectItem.foldedAll : List (SelectItem Expression) → List (SelectItem Expression)
  | [] => []
  | ⟨e, aliasName⟩ :: rest => ⟨e.folded, aliasName⟩ :: SelectItem.foldedAll rest

def SortKey.foldedAll : List (SortKey Expression) → List (SortKey Expression)
  | [] => []
  | ⟨e, isDescending, nulls⟩ :: rest =>
    ⟨e.folded, isDescending, nulls⟩ :: SortKey.foldedAll rest

end

def Assignment.folded (a : Assignment) : Assignment := ⟨Text.folded a.property, a.value.folded⟩

def Statement.folded : Statement → Statement
  | .select query lock => .select query.folded lock
  | .update entity aliasName assignments condition =>
    .update (Text.folded entity) aliasName (assignments.map Assignment.folded)
      (Condition.foldedOption condition)
  | .delete entity aliasName condition =>
    .delete (Text.folded entity) aliasName (Condition.foldedOption condition)

/-! ## Outcomes -/

end Entity

/-- The kinds of errors, without what they tell. -/
inductive DialectError.Kind where
  | unsupportedType | unsupportedConstruct | functionArity | unknownFunction | unknownProduct
  | unknownEntity | unknownAttribute | invalidVersion | malformedTree
  deriving DecidableEq, Repr

def DialectError.kind : DialectError → DialectError.Kind
  | unsupportedType _ _ _ => .unsupportedType
  | unsupportedConstruct _ _ _ => .unsupportedConstruct
  | functionArity _ _ _ _ => .functionArity
  | unknownFunction _ _ => .unknownFunction
  | unknownProduct _ => .unknownProduct
  | unknownEntity _ => .unknownEntity
  | unknownAttribute _ _ => .unknownAttribute
  | invalidVersion _ => .invalidVersion
  | malformedTree _ => .malformedTree

namespace Entity

namespace Lower

variable {α β : Type} {x y z : Lower α} {f g : α → Lower β}

/-- From each state the two steps fail with errors of one kind, or make the same and leave the same
state. -/
def Alike (x y : Lower α) : Prop :=
  ∀ s, (x s).mapError DialectError.kind = (y s).mapError DialectError.kind

namespace Alike

theorem refl (x : Lower α) : Alike x x := fun _ => rfl

theorem of_eq (h : x = y) : Alike x y := h ▸ refl x

theorem trans (h : Alike x y) (h' : Alike y z) : Alike x z := fun s => (h s).trans (h' s)

theorem bind (hx : Alike x y) (hf : ∀ a, Alike (f a) (g a)) : Alike (x >>= f) (y >>= g) := by
  intro s
  have hx := hx s
  show ((x s).bind fun r => f r.1 r.2).mapError _ = ((y s).bind fun r => g r.1 r.2).mapError _
  cases hr : x s with
  | error e =>
    cases hr' : y s with
    | error e' =>
      have hkind : e.kind = e'.kind := by simpa [hr, hr', Except.mapError] using hx
      exact congrArg Except.error hkind
    | ok r' => simp [hr, hr', Except.mapError] at hx
  | ok r =>
    cases hr' : y s with
    | error e' => simp [hr, hr', Except.mapError] at hx
    | ok r' =>
      obtain rfl : r = r' := by simpa [hr, hr', Except.mapError] using hx
      exact hf r.1 r.2

/-- The first steps are the same. -/
theorem next (hf : ∀ a, Alike (f a) (g a)) : Alike (x >>= f) (x >>= g) := (refl x).bind hf

end Alike

theorem alike_throw {e e' : DialectError} (h : e.kind = e'.kind) :
    Alike (throw e : Lower α) (throw e') :=
  fun _ => congrArg Except.error h

theorem alike_malformed {reason reason' : String} :
    Alike (malformed reason : Lower α) (malformed reason') := alike_throw rfl

/-- A check that looks at nothing that differs. -/
theorem alike_unless {isEmpty : Bool} {reason : String} (h : Alike x y) :
    Alike (if isEmpty then malformed reason >>= fun _ : PUnit => x else x)
      (if isEmpty then malformed reason >>= fun _ : PUnit => y else y) := by
  split
  · exact .next fun _ => h
  · exact h

theorem alike_unsupported {c : LoweringContext} {construct construct' : String} :
    Alike (c.unsupported construct : Lower α) (c.unsupported construct') := alike_throw rfl

theorem alike_lift {x y : Except DialectError α}
    (h : x.mapError DialectError.kind = y.mapError DialectError.kind) :
    Alike (liftM x : Lower α) (liftM y) := by
  intro s
  cases x with
  | error e =>
    cases y with
    | error e' => exact congrArg Except.error (Except.error.inj h)
    | ok b => cases h
  | ok a =>
    cases y with
    | error e' => cases h
    | ok b =>
      obtain rfl := Except.ok.inj h
      rfl

theorem alike_entity {c : LoweringContext} {name : String} :
    Alike (c.entity name) (c.entity (Text.folded name)) := by
  refine alike_lift ?_
  simp only [Mapping.Model.entity, Mapping.Model.entity?_folded]
  cases c.model.entity? name <;> rfl

theorem alike_property {entity : Mapping.Entity} {name : String} :
    Alike (property entity name) (property entity (Text.folded name)) := by
  refine alike_lift ?_
  simp only [Mapping.Entity.property, Mapping.Entity.property?_folded]
  cases entity.property? name <;> rfl

end Lower

open Lower (Alike alike_malformed alike_unless alike_unsupported alike_entity alike_property)

variable {c : LoweringContext}

/-! ## Paths -/

theorem step_alike {path : Path} {place : Place} {name : String} :
    Alike (step c path place name) (step c path.folded place (Text.folded name)) := by
  refine alike_property.bind fun property => ?_
  cases property with
  | basic a => exact alike_malformed
  | toOne association => exact .refl _
  | toMany collection => exact alike_unsupported

theorem walk_alike {path : Path} : ∀ {names : List String} {place : Place},
    Alike (walk c path place names) (walk c path.folded place (names.map Text.folded))
  | [], _ => .refl _
  | _ :: _, _ => step_alike.bind fun _ => walk_alike

theorem navigate_alike {path : Path} {steps : Nat} :
    Alike (navigate c path steps) (navigate c path.folded steps) := by
  refine .next fun found => ?_
  simp only [Path.folded, ← List.map_take]
  exact walk_alike

theorem foreignKey?_alike {path : Path} {owner name : String} {steps : Nat} :
    Alike (foreignKey? c path owner name steps)
      (foreignKey? c path.folded (Text.folded owner) (Text.folded name) steps) := by
  refine navigate_alike.bind fun place => alike_property.bind fun property => ?_
  cases property with
  | basic a => exact .refl _
  | toOne association =>
    refine .next fun target => ?_
    rw [Text.sameName_folded]
    exact .refl _
  | toMany collection => exact .refl _

theorem propertyColumn_alike {path : Path} {name : String} {steps : Nat} :
    Alike (propertyColumn c path name steps)
      (propertyColumn c path.folded (Text.folded name) steps) := by
  refine navigate_alike.bind fun place => alike_property.bind fun property => ?_
  cases property with
  | basic a => exact .refl _
  | toOne association => exact .refl _
  | toMany collection => exact alike_unsupported

theorem resolve_alike {path : Path} : Alike (resolve c path) (resolve c path.folded) := by
  have hreverse : path.folded.properties.reverse = path.properties.reverse.map Text.folded :=
    List.map_reverse.symm
  unfold resolve
  rw [hreverse]
  rcases path.properties.reverse with _ | ⟨name, _ | ⟨owner, rest⟩⟩
  · exact navigate_alike.bind fun place => .refl _
  · exact propertyColumn_alike
  · simp only [List.map_cons, List.length_map]
    refine foreignKey?_alike.bind fun found => ?_
    cases found with
    | some column => exact .refl _
    | none => exact propertyColumn_alike

theorem lowerSize_alike {path : Path} : Alike (lowerSize c path) (lowerSize c path.folded) := by
  have hlast : path.folded.properties.getLast? = path.properties.getLast?.map Text.folded :=
    List.getLast?_map
  have hlength : path.folded.properties.length = path.properties.length := List.length_map _
  unfold lowerSize
  rw [hlast, hlength]
  cases path.properties.getLast? with
  | none => exact alike_malformed
  | some name =>
    refine navigate_alike.bind fun place => alike_property.bind fun property => ?_
    cases property with
    | toMany collection => exact .refl _
    | basic a => exact alike_malformed
    | toOne association => exact alike_malformed

/-! ## Roots and joins -/

theorem joinsTo_alike {join : PathJoin} {place : Place} {property : Mapping.Property} :
    Alike (joinsTo c join place property) (joinsTo c join.folded place property) := by
  cases property with
  | basic a => exact alike_malformed
  | toOne association => exact .refl _
  | toMany collection => exact .refl _

theorem lowerJoin_alike {join : PathJoin} :
    Alike (lowerJoin c join) (lowerJoin c join.folded) := by
  have hnames : join.folded.path.properties = join.path.properties.map Text.folded := rfl
  unfold lowerJoin
  rw [hnames]
  rcases join.path.properties with _ | ⟨name, _ | ⟨_, _⟩⟩
  · exact alike_malformed
  · exact navigate_alike.bind fun place => alike_property.bind fun property =>
      joinsTo_alike.bind fun r => .refl _
  · exact alike_malformed

theorem lowerJoins_alike : ∀ {joins : List PathJoin},
    Alike (lowerJoins c joins) (lowerJoins c (joins.map PathJoin.folded))
  | [] => .refl _
  | _ :: _ => lowerJoin_alike.bind fun _ => lowerJoins_alike

theorem lowerRoots_alike : ∀ {roots : List Root} {item : Nat},
    Alike (lowerRoots c item roots) (lowerRoots c item (roots.map Root.folded))
  | [], _ => .refl _
  | _ :: _, _ =>
    alike_entity.bind fun _ => .next fun _ => .next fun _ => .next fun _ =>
      lowerJoins_alike.bind fun _ => lowerRoots_alike

/-! ## What the checks look at -/

theorem Expression.foldedAll_eq_map (es : List Expression) :
    Expression.foldedAll es = es.map Expression.folded := by
  induction es with
  | nil => rfl
  | cons e rest ih => rw [Expression.foldedAll, ih, List.map_cons]

theorem Expression.foldedOption_eq_map (e : Option Expression) :
    Expression.foldedOption e = e.map Expression.folded := by
  cases e <;> rfl

theorem Condition.foldedOption_eq_map (p : Option Condition) :
    Condition.foldedOption p = p.map Condition.folded := by
  cases p <;> rfl

theorem SelectItem.foldedAll_eq_map (items : List (SelectItem Expression)) :
    SelectItem.foldedAll items =
      items.map fun item => { item with expression := item.expression.folded } := by
  induction items with
  | nil => rfl
  | cons item rest ih => rw [SelectItem.foldedAll, ih, List.map_cons]

theorem SortKey.foldedAll_eq_map (keys : List (SortKey Expression)) :
    SortKey.foldedAll keys =
      keys.map fun key => { key with expression := key.expression.folded } := by
  induction keys with
  | nil => rfl
  | cons key rest ih => rw [SortKey.foldedAll, ih, List.map_cons]

mutual

theorem Expression.containsAggregate_folded : ∀ e : Expression,
    e.folded.containsAggregate = e.containsAggregate
  | .path _ | .literal _ | .parameter _ | .subquery _ | .size _ | .aggregate _ _ _ => rfl
  | .call _ arguments => Expression.anyContainsAggregate_folded arguments
  | .tuple items => Expression.anyContainsAggregate_folded items
  | .extract _ source => source.containsAggregate_folded
  | .format source _ => source.containsAggregate_folded
  | .timestampAdd _ magnitude timestamp =>
    congrArg₂ or magnitude.containsAggregate_folded timestamp.containsAggregate_folded
  | .timestampDiff _ start finish =>
    congrArg₂ or start.containsAggregate_folded finish.containsAggregate_folded
  | .binary left _ right =>
    congrArg₂ or left.containsAggregate_folded right.containsAggregate_folded
  | .negate operand => operand.containsAggregate_folded
  | .cast source _ => source.containsAggregate_folded
  | .case branches otherwise =>
    congrArg₂ or (CaseBranch.anyContainsAggregate_folded branches)
      (Expression.optionContainsAggregate_folded otherwise)

theorem Expression.anyContainsAggregate_folded : ∀ es : List Expression,
    Expression.anyContainsAggregate (Expression.foldedAll es) = Expression.anyContainsAggregate es
  | [] => rfl
  | e :: rest =>
    congrArg₂ or e.containsAggregate_folded (Expression.anyContainsAggregate_folded rest)

theorem Expression.optionContainsAggregate_folded : ∀ e : Option Expression,
    Expression.optionContainsAggregate (Expression.foldedOption e) =
      Expression.optionContainsAggregate e
  | none => rfl
  | some e => e.containsAggregate_folded

theorem CaseBranch.anyContainsAggregate_folded :
    ∀ branches : List (CaseBranch Condition Expression),
      CaseBranch.anyContainsAggregate (CaseBranch.foldedAll branches) =
        CaseBranch.anyContainsAggregate branches
  | [] => rfl
  | ⟨_, result⟩ :: rest =>
    congrArg₂ or result.containsAggregate_folded (CaseBranch.anyContainsAggregate_folded rest)

end

theorem isGrouped_folded (select : List (SelectItem Expression)) (groupBy : List Expression)
    (having : Option Condition) :
    isGrouped (SelectItem.foldedAll select) (Expression.foldedAll groupBy)
      (Condition.foldedOption having) = isGrouped select groupBy having := by
  simp [isGrouped, SelectItem.foldedAll_eq_map, Expression.foldedAll_eq_map,
    Condition.foldedOption_eq_map, Function.comp_def, Expression.containsAggregate_folded]

theorem checkMember_folded (e : Expression) : checkMember c e.folded = checkMember c e := by
  cases e <;> rfl

theorem checkOrder_folded (isNested : Bool) (q : Query) :
    checkOrder c isNested q.folded = checkOrder c isNested q := by
  have hkept : q.folded.orderBy.isEmpty = q.orderBy.isEmpty ∧
      q.folded.isPaginated = q.isPaginated := by
    rcases q with ⟨⟨⟩⟩ | ⟨⟩ <;>
      simp [Query.folded, QuerySpec.folded, Query.orderBy, Query.isPaginated,
        SortKey.foldedAll_eq_map, Expression.foldedOption_eq_map]
  simp only [checkOrder, hkept]

theorem folded_ne_variable {e : Expression} (h : ∀ start, e ≠ .path ⟨start, []⟩) (start : String) :
    e.folded ≠ .path ⟨start, []⟩ := by
  cases e with
  | path path =>
    obtain ⟨start', _ | ⟨name, rest⟩⟩ := path
    · exact absurd rfl (h start')
    · simp [Expression.folded, Path.folded]
  | _ => simp [Expression.folded]

/-! ## Trees -/

mutual

theorem Expression.lower_alike : ∀ (e : Expression) {c : LoweringContext},
    Alike (e.lower c) (e.folded.lower c)
  | .path path, _ => resolve_alike
  | .literal _, _ => .refl _
  | .parameter _, _ => .refl _
  | .call name arguments, c => by
    have hlength : (Expression.foldedAll arguments).length = arguments.length := by
      simp [Expression.foldedAll_eq_map]
    simp only [Expression.folded, Expression.lower, hlength]
    exact .next fun _ => (Expression.lowerAll_alike arguments).bind fun _ => .refl _
  | .aggregate _ _ argument, _ => (Expression.lowerOption_alike argument).bind fun _ => .refl _
  | .extract _ source, _ => source.lower_alike.bind fun _ => .refl _
  | .timestampAdd _ magnitude timestamp, _ =>
    magnitude.lower_alike.bind fun _ => timestamp.lower_alike.bind fun _ => .refl _
  | .timestampDiff _ start finish, _ =>
    start.lower_alike.bind fun _ => finish.lower_alike.bind fun _ => .refl _
  | .format source _, _ => source.lower_alike.bind fun _ => .refl _
  | .binary left _ right, _ =>
    left.lower_alike.bind fun _ => right.lower_alike.bind fun _ => .refl _
  | .negate operand, _ => operand.lower_alike.bind fun _ => .refl _
  | .case branches otherwise, _ =>
    (CaseBranch.lowerAll_alike branches).bind fun _ =>
      (Expression.lowerOption_alike otherwise).bind fun _ => .refl _
  | .cast source _, _ => source.lower_alike.bind fun _ => .refl _
  | .subquery query, _ => .next fun _ => (query.lower_alike true).bind fun _ => .refl _
  | .tuple items, _ => (Expression.lowerAll_alike items).bind fun _ => .refl _
  | .size path, _ => lowerSize_alike

theorem Expression.lowerAll_alike : ∀ (es : List Expression) {c : LoweringContext},
    Alike (Expression.lowerAll c es) (Expression.lowerAll c (Expression.foldedAll es))
  | [], _ => .refl _
  | e :: rest, _ =>
    e.lower_alike.bind fun _ => (Expression.lowerAll_alike rest).bind fun _ => .refl _

theorem Expression.lowerOption_alike : ∀ (e : Option Expression) {c : LoweringContext},
    Alike (Expression.lowerOption c e) (Expression.lowerOption c (Expression.foldedOption e))
  | none, _ => .refl _
  | some e, _ => e.lower_alike.bind fun _ => .refl _

theorem CaseBranch.lowerAll_alike : ∀ (branches : List (CaseBranch Condition Expression))
    {c : LoweringContext},
    Alike (CaseBranch.lowerAll c branches) (CaseBranch.lowerAll c (CaseBranch.foldedAll branches))
  | [], _ => .refl _
  | ⟨condition, result⟩ :: rest, _ =>
    condition.lower_alike.bind fun _ => result.lower_alike.bind fun _ =>
      (CaseBranch.lowerAll_alike rest).bind fun _ => .refl _

theorem Condition.lower_alike : ∀ (p : Condition) {c : LoweringContext},
    Alike (p.lower c) (p.folded.lower c)
  | .compare left _ right, _ =>
    left.lower_alike.bind fun _ => right.lower_alike.bind fun _ => .refl _
  | .all items, _ => (Condition.lowerAll_alike items).bind fun _ => .refl _
  | .any items, _ => (Condition.lowerAll_alike items).bind fun _ => .refl _
  | .not operand, _ => operand.lower_alike.bind fun _ => .refl _
  | .isNull operand _, _ => operand.lower_alike.bind fun _ => .refl _
  | .inList operand items _, _ =>
    (Alike.of_eq (checkMember_folded operand).symm).bind fun _ => operand.lower_alike.bind fun _ =>
      (Expression.lowerAll_alike items).bind fun _ => .refl _
  | .inQuery operand query _, _ =>
    (Alike.of_eq (checkMember_folded operand).symm).bind fun _ => operand.lower_alike.bind fun _ =>
      (query.lower_alike true).bind fun _ => .refl _
  | .exists query _, _ => (query.lower_alike true).bind fun _ => .refl _
  | .like operand pattern _ _ _, _ =>
    operand.lower_alike.bind fun _ => pattern.lower_alike.bind fun _ => .refl _
  | .between operand low high _, _ =>
    operand.lower_alike.bind fun _ => low.lower_alike.bind fun _ => high.lower_alike.bind fun _ =>
      .refl _
  | .holds operand, _ => operand.lower_alike.bind fun _ => .refl _

theorem Condition.lowerAll_alike : ∀ (ps : List Condition) {c : LoweringContext},
    Alike (Condition.lowerAll c ps) (Condition.lowerAll c (Condition.foldedAll ps))
  | [], _ => .refl _
  | p :: rest, _ =>
    p.lower_alike.bind fun _ => (Condition.lowerAll_alike rest).bind fun _ => .refl _

theorem Condition.lowerOption_alike : ∀ (p : Option Condition) {c : LoweringContext},
    Alike (Condition.lowerOption c p) (Condition.lowerOption c (Condition.foldedOption p))
  | none, _ => .refl _
  | some p, _ => p.lower_alike.bind fun _ => .refl _

theorem Query.lower_alike : ∀ (q : Query) (isNested : Bool) {c : LoweringContext},
    Alike (q.lower c isNested) (q.folded.lower c isNested)
  | .spec spec, isNested, _ =>
    (Alike.of_eq (checkOrder_folded isNested (.spec spec)).symm).bind fun _ =>
      spec.lower_alike.bind fun _ => .refl _
  | .group operator parts orderBy limit offset, isNested, _ =>
    (Alike.of_eq
      (checkOrder_folded isNested (.group operator parts orderBy limit offset)).symm).bind fun _ =>
        .next fun _ => (Query.lowerAll_alike parts isNested).bind fun _ =>
          (SortKey.lowerAll_alike orderBy).bind fun _ =>
            (Expression.lowerOption_alike limit).bind fun _ =>
              (Expression.lowerOption_alike offset).bind fun _ => .refl _

theorem Query.lowerAll_alike : ∀ (qs : List Query) (isNested : Bool) {c : LoweringContext},
    Alike (Query.lowerAll c isNested qs) (Query.lowerAll c isNested (Query.foldedAll qs))
  | [], _, _ => .refl _
  | q :: rest, isNested, _ =>
    (q.lower_alike isNested).bind fun _ => (Query.lowerAll_alike rest isNested).bind fun _ =>
      .refl _

theorem QuerySpec.lower_alike : ∀ (spec : QuerySpec) {c : LoweringContext},
    Alike (spec.lower c) (spec.folded.lower c)
  | ⟨isDistinct, select, roots, condition, groupBy, having, orderBy, limit, offset⟩, c => by
    simp only [QuerySpec.folded, QuerySpec.lower, isGrouped_folded, List.isEmpty_map]
    refine alike_unless (.next fun _ => lowerRoots_alike.bind fun _ => ?_)
    refine (SelectItem.lowerAll_alike select).bind fun _ => ?_
    refine (Condition.lowerOption_alike condition).bind fun _ => ?_
    refine (Expression.lowerAll_alike groupBy).bind fun _ => ?_
    refine (Condition.lowerOption_alike having).bind fun _ => ?_
    refine (SortKey.lowerAll_alike orderBy).bind fun _ => ?_
    refine (Expression.lowerOption_alike limit).bind fun _ => ?_
    exact (Expression.lowerOption_alike offset).bind fun _ => .refl _

theorem SelectItem.lowerAll_alike : ∀ (items : List (SelectItem Expression))
    {c : LoweringContext},
    Alike (SelectItem.lowerAll c items) (SelectItem.lowerAll c (SelectItem.foldedAll items))
  | [], _ => .refl _
  | ⟨e, aliasName⟩ :: rest, c => by
    by_cases he : ∃ start, e = .path ⟨start, []⟩
    · obtain ⟨start, rfl⟩ := he
      exact .next fun _ => (SelectItem.lowerAll_alike rest).bind fun _ => .refl _
    · have he : ∀ start, e ≠ .path ⟨start, []⟩ := fun start h => he ⟨start, h⟩
      rw [SelectItem.foldedAll, SelectItem.lowerAll, SelectItem.lowerAll]
      · exact .next fun _ => e.lower_alike.bind fun _ => .next fun _ =>
          (SelectItem.lowerAll_alike rest).bind fun _ => .refl _
      · exact folded_ne_variable he
      · exact he

theorem SortKey.lowerAll_alike : ∀ (keys : List (SortKey Expression)) {c : LoweringContext},
    Alike (SortKey.lowerAll c keys) (SortKey.lowerAll c (SortKey.foldedAll keys))
  | [], _ => .refl _
  | ⟨e, _, _⟩ :: rest, _ =>
    e.lower_alike.bind fun _ => (SortKey.lowerAll_alike rest).bind fun _ => .refl _

end

/-! ## Statements -/

theorem assignedColumn_alike {entity : Mapping.Entity} {name : String} :
    Alike (assignedColumn c entity name) (assignedColumn c entity (Text.folded name)) := by
  refine alike_property.bind fun property => ?_
  cases property with
  | basic a => exact .refl _
  | toOne association => exact .refl _
  | toMany collection => exact alike_unsupported

theorem lowerAssignments_alike {entity : Mapping.Entity} : ∀ {assignments : List Assignment},
    Alike (lowerAssignments c entity assignments)
      (lowerAssignments c entity (assignments.map Assignment.folded))
  | [] => .refl _
  | a :: _ =>
    assignedColumn_alike.bind fun _ => a.value.lower_alike.bind fun _ =>
      lowerAssignments_alike.bind fun _ => .refl _

theorem bindTarget_alike {name variableName : String} :
    Alike (bindTarget c name variableName) (bindTarget c (Text.folded name) variableName) :=
  alike_entity.bind fun _ => .refl _

theorem Statement.lowerIn_alike : ∀ statement : Statement,
    Alike (statement.lowerIn c) (statement.folded.lowerIn c)
  | .select query _ => (query.lower_alike false).bind fun _ => .refl _
  | .update _ _ _ condition =>
    bindTarget_alike.bind fun _ => lowerAssignments_alike.bind fun _ =>
      (Condition.lowerOption_alike condition).bind fun _ => .refl _
  | .delete _ _ condition =>
    bindTarget_alike.bind fun _ => (Condition.lowerOption_alike condition).bind fun _ => .refl _

/-- In small letters a statement has the same outcome. -/
theorem Statement.lower_folded (statement : Statement) (d : Dialect) (model : Mapping.Model) :
    (statement.folded.lower d model).mapError DialectError.kind =
      (statement.lower d model).mapError DialectError.kind := by
  have h := statement.lowerIn_alike (c := { dialect := d, model }) {}
  have hlower (statement : Statement) : (statement.lower d model).mapError DialectError.kind =
      ((statement.lowerIn { dialect := d, model } {}).mapError DialectError.kind).map Prod.fst := by
    show ((statement.lowerIn { dialect := d, model } {}).bind fun r => .ok r.1).mapError _ = _
    cases statement.lowerIn { dialect := d, model } {} <;> rfl
  rw [hlower, hlower, h]

theorem Path.foldAscii_of_folded {path path' : Path} (h : path.folded = path'.folded) :
    path.start = path'.start ∧
      path.properties.map Text.foldAscii = path'.properties.map Text.foldAscii := by
  obtain ⟨hstart, hnames⟩ := Path.mk.inj h
  refine ⟨hstart, ?_⟩
  have hfold := congrArg (List.map Text.foldAscii) hnames
  simpa [Function.comp_def] using hfold

/-- Statements that differ only in the case of `A` to `Z` in the names of entities and properties
have the same outcome, but for what their errors tell. A path that is spelled in another way comes
to the same alias again, wherever its variable means the same, and joins nothing. -/
theorem Statement.lower_respelled (d : Dialect) (model : Mapping.Model) :
    (∀ statement statement' : Statement, statement.folded = statement'.folded →
      (statement.lower d model).mapError DialectError.kind =
        (statement'.lower d model).mapError DialectError.kind) ∧
    ∀ (c c' : LoweringContext) (path path' : Path) (steps depth : Nat) (place : Place)
      (binding : Binding) (s t u : LoweringState), c.model = model → c'.model = model →
      path.folded = path'.folded → navigate c path steps s = .ok (place, t) →
      Passage model (t.scopes.length - place.depth) t u →
      Lower.findBinding path'.start u.scopes = some (depth, binding) →
      depth + t.scopes.length = place.depth + u.scopes.length →
        navigate c' path' steps u = .ok ({ place with depth }, u) := by
  constructor
  · intro statement statement' h
    rw [← statement.lower_folded, h, statement'.lower_folded]
  · intro c c' path path' steps depth place binding s t u hm hm' hpath h hp hf hd
    obtain ⟨hstart, hnames⟩ := Path.foldAscii_of_folded hpath
    exact navigate_again (hm'.trans hm.symm) hstart hnames h hp hf hd

/-- The names of orders' customers, spelled in three ways. -/
def spelledCustomers (order customer name : String) : Statement :=
  .select (.spec
    { select := [⟨.path ⟨"o", [customer, name]⟩, none⟩]
      roots := [⟨order, "o", []⟩]
      condition := some (.isNull (.path ⟨"o", ["customer", "name"]⟩) true) }) none

theorem spelledCustomers_folded (order customer name : String) :
    (spelledCustomers order customer name).folded =
      spelledCustomers (Text.folded order) (Text.folded customer) (Text.folded name) := by
  have hcustomer : Text.folded "customer" = "customer" := by decide +kernel
  have hname : Text.folded "name" = "name" := by decide +kernel
  simp [spelledCustomers, Statement.folded, Query.folded, QuerySpec.folded, SelectItem.foldedAll,
    Expression.folded, Expression.foldedAll, Expression.foldedOption, Condition.folded,
    Condition.foldedOption, SortKey.foldedAll, Path.folded, Root.folded, hcustomer, hname]

/-- The capitals change nothing. In an inner query a path with capitals finds the join that the
outer query has added for the same path without. -/
theorem customers_respelled :
    (∃ lowered,
      (spelledCustomers "Order" "customer" "name").lower (Dialect.ofProduct .ingres ⟨9, 2, 0⟩)
        ordersModel = .ok lowered ∧
      (spelledCustomers "ORDER" "Customer" "NAME").lower (Dialect.ofProduct .ingres ⟨9, 2, 0⟩)
        ordersModel = .ok lowered ∧ lowered.aliases Sql.everyKey = ["t0", "t1"]) ∧
    ∃ (c : LoweringContext) (place : Place) (s t u : LoweringState), c.model = ordersModel ∧
      navigate c ⟨"o", ["customer", "name"]⟩ 1 s = .ok (place, t) ∧
      Passage ordersModel 1 t u ∧ u.scopes.length = 2 ∧
      navigate c ⟨"o", ["Customer", "NAME"]⟩ 1 u = .ok ({ place with depth := 1 }, u) := by
  obtain ⟨houtcome, hagain⟩ :=
    Statement.lower_respelled (Dialect.ofProduct .ingres ⟨9, 2, 0⟩) ordersModel
  constructor
  · obtain ⟨lowered, h, ha⟩ : ∃ lowered, (spelledCustomers "Order" "customer" "name").lower
        (Dialect.ofProduct .ingres ⟨9, 2, 0⟩) ordersModel = .ok lowered ∧
          lowered.aliases Sql.everyKey = ["t0", "t1"] := exists_lowered (by decide +kernel)
    have hnames : Text.folded "Order" = Text.folded "ORDER" ∧
        Text.folded "customer" = Text.folded "Customer" ∧
        Text.folded "name" = Text.folded "NAME" := by decide +kernel
    have heq := houtcome (spelledCustomers "Order" "customer" "name")
      (spelledCustomers "ORDER" "Customer" "NAME") (by simp [spelledCustomers_folded, hnames])
    refine ⟨lowered, h, ?_, ha⟩
    rw [h] at heq
    cases h' : (spelledCustomers "ORDER" "Customer" "NAME").lower
        (Dialect.ofProduct .ingres ⟨9, 2, 0⟩) ordersModel with
    | error e => simp [h', Except.mapError] at heq
    | ok lowered' => simpa [h', Except.mapError, eq_comm] using heq
  · let c : LoweringContext :=
      { dialect := Dialect.ofProduct .ingres ⟨9, 2, 0⟩, model := ordersModel }
    let run : Lower (Place × LoweringState) := do
      lowerRoots c 0 [⟨"Order", "o", []⟩]
      let place ← navigate c ⟨"o", ["customer", "name"]⟩ 1
      let t ← get
      Lower.push {}
      lowerRoots c 0 [⟨"Order", "p", []⟩]
      return (place, t)
    obtain ⟨⟨⟨place, t⟩, u⟩, hrun, hu⟩ : ∃ r, run (LoweringState.enter {} false) = .ok r ∧
        (r.1.1.depth, r.1.2.scopes.length, r.2.scopes.length,
          (Lower.findBinding "o" r.2.scopes).map (·.1)) = (0, 1, 2, some 1) :=
      exists_run (by decide +kernel)
    simp only [run, Lower.bind_ok_iff, Lower.get_bind, Lower.push_ok_iff, Lower.pure_ok_iff,
      Prod.mk.injEq] at hrun hu
    obtain ⟨_, s, -, _, t, hn, _, _, rfl, _, _, hroots, ⟨rfl, rfl⟩, rfl⟩ := hrun
    obtain ⟨hdepth, ht, hlength, hf⟩ := hu
    obtain ⟨⟨_, binding⟩, hf, rfl⟩ := Option.map_eq_some_iff.1 hf
    have hopen : t.scopes.length - place.depth = 1 := by omega
    have hp : Passage ordersModel 1 t u := .enter (c := c) rfl hroots
    refine ⟨c, place, s, t, u, rfl, hn, hp, hlength, ?_⟩
    exact hagain c c _ _ 1 1 place binding s t u rfl rfl (by decide +kernel) hn (hopen ▸ hp) hf
      (by omega)

end Entity

end SqlDialects
