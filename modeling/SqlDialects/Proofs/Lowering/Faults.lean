import SqlDialects.Dialect.Resolve
import SqlDialects.Entity.Lowering.Tree
import SqlDialects.Proofs.Lowering.Verdicts

/-!
# Faults of statements

The lowering fails with an internal error only for statements that break a rule, or that have a join
out of reach, and it succeeds only for the others.
-/

namespace SqlDialects.Entity

open Lower LoweringContext

variable {c : LoweringContext} {F : List Frame}

/-! ## Checks -/

theorem checkMember_tells {e : Expression} : Tells F F True (checkMember c e) := by
  cases e with
  | tuple | subquery => exact tells_require
  | _ => exact tells_pure trivial

theorem checkCall_tells {name : String} {count : Nat} :
    Tells F F True (checkCall c name count) := by
  refine tells_lift_bind (fun e he => ?_) fun template _ => tells_lift fun e he => ?_
  · unfold Dialect.function at he
    split at he <;> cases he
    rfl
  · unfold FunctionTemplate.checkArity at he
    split at he <;> cases he
    rfl

theorem checkSubquery_tells : Tells F F True (checkSubquery c) := by
  unfold checkSubquery
  split
  · exact tells_lacks
  · exact tells_pure trivial

theorem checkOrder_tells {isNested : Bool} {query : Query} :
    Tells F F True (checkOrder c isNested query) := by
  unfold checkOrder
  split
  · exact tells_lacks
  · exact tells_pure trivial

theorem checkGroup_tells {isNested : Bool} {operator : SetOperator} :
    Tells F F True (checkGroup c isNested operator) := by
  have hnested : Tells F F True
      (if isNested then c.require .unionInSubquery "set operation in a subquery" else pure ()) := by
    split
    · exact tells_require
    · exact tells_pure trivial
  unfold checkGroup
  dsimp only
  split
  · exact tells_require.next fun _ => hnested
  · exact hnested

/-! ## Trees -/

namespace Node

/-- A node keeps to the rules and its joins reach a table. -/
def Fits (model : Mapping.Model) (frames : List Frame) (n : Node) : Prop :=
  n.IsWellFormed model frames ∧ n.JoinsReach model frames

/-- All nodes in a tree fit. -/
def AllFit (model : Mapping.Model) (frames : List Frame) (n : Node) : Prop :=
  n.Throughout model (Fits model) frames

variable {model : Mapping.Model}

theorem allFit_path {path : Path} :
    (expression (.path path)).AllFit model F ↔ path.IsWellFormed model F := by
  simp [AllFit, throughout_expression, Fits, IsWellFormed, JoinsReach, Expression.children]

theorem allFit_size {path : Path} : (expression (.size path)).AllFit model F ↔
    path.IsWellFormed model F ∧ path.EndsInCollection model F := by
  simp [AllFit, throughout_expression, Fits, IsWellFormed, JoinsReach, Expression.children]

theorem allFit_group {operator : SetOperator} {parts : List Query}
    {orderBy : List (SortKey Expression)} {limit offset : Option Expression} :
    (query (.group operator parts orderBy limit offset)).AllFit model F ↔
      ∀ m ∈ (Query.group operator parts orderBy limit offset).children, m.AllFit model F :=
  throughout_iff.trans (by simp [Fits, IsWellFormed, JoinsReach, inside?, children, AllFit])

theorem allFit_spec {spec : QuerySpec} :
    (query (.spec spec)).AllFit model F ↔ spec.roots ≠ [] ∧
      EachSource model F (Source.Fits F) {} spec.sources ∧
      ∀ last, declareAll? model F {} spec.sources = some last →
        ∀ m ∈ spec.children, m.AllFit model (last :: F) := by
  have heach : EachSource model F (Source.Fits F) {} spec.sources ↔
      EachSource model F (Source.IsWellFormed F) {} spec.sources ∧
        EachSource model F (Source.Reaches F) {} spec.sources := eachSource_and
  refine throughout_iff.trans ?_
  simp only [Fits, IsWellFormed, JoinsReach, inside?, Option.map_eq_some_iff,
    forall_exists_index, and_imp, forall_apply_eq_imp_iff₂, heach, and_assoc]
  rfl

theorem allFit_spec_iff_children {spec : QuerySpec} {last : Frame} (hroots : spec.roots ≠ [])
    (heach : EachSource model F (Source.Fits F) {} spec.sources)
    (hlast : declareAll? model F {} spec.sources = some last) :
    (query (.spec spec)).AllFit model F ↔ ∀ m ∈ spec.children, m.AllFit model (last :: F) := by
  simp [allFit_spec, hroots, heach, hlast]

end Node

/-- Of most nodes only what stands below them has to fit. -/
theorem tells_expression {α : Type} {e : Expression} {x : Lower α}
    (hfits : (Node.expression e).Fits c.model F)
    (h : Tells F F (∀ m ∈ e.children, m.AllFit c.model F) x) :
    Tells F F ((Node.expression e).AllFit c.model F) x :=
  h.iff (Node.throughout_expression.trans (and_iff_right hfits)).symm

theorem tells_condition {α : Type} {p : Condition} {x : Lower α}
    (h : Tells F F (∀ m ∈ p.children, m.AllFit c.model F) x) :
    Tells F F ((Node.condition p).AllFit c.model F) x :=
  h.iff (Node.throughout_condition.trans (and_iff_right ⟨trivial, trivial⟩)).symm

mutual

theorem Expression.lower_tells : ∀ (e : Expression) {c : LoweringContext} {F : List Frame},
    AreSound F → Tells F F ((Node.expression e).AllFit c.model F) (e.lower c)
  | .path path, c, F, hF => (resolve_tells hF).iff Node.allFit_path.symm
  | .size path, c, F, hF => (lowerSize_tells hF).iff Node.allFit_size.symm
  | .literal value, c, F, hF => tells_expression ⟨trivial, trivial⟩ (tells_pure nofun)
  | .parameter parameter, c, F, hF => tells_expression ⟨trivial, trivial⟩ (tells_pure nofun)
  | .call name arguments, c, F, hF => by
    have harguments := Expression.lowerAll_tells arguments hF (c := c)
    refine tells_expression ⟨trivial, trivial⟩ ?_
    refine checkCall_tells.next fun _ => ?_
    exact (harguments.bind fun _ => tells_pure trivial).iff (by simp [Expression.children])
  | .aggregate function isDistinct argument, c, F, hF => by
    have hargument := Expression.lowerOption_tells argument hF (c := c)
    refine tells_expression ⟨trivial, trivial⟩ ?_
    exact (hargument.bind fun _ => tells_pure trivial).iff (by simp [Expression.children])
  | .extract unit source, c, F, hF => by
    refine tells_expression ⟨trivial, trivial⟩ ?_
    exact ((source.lower_tells hF).bind fun _ => tells_pure trivial).iff
      (by simp [Expression.children])
  | .timestampAdd unit magnitude timestamp, c, F, hF => by
    refine tells_expression ⟨trivial, trivial⟩ ?_
    exact ((magnitude.lower_tells hF).bind fun _ => (timestamp.lower_tells hF).bind fun _ =>
      tells_pure trivial).iff (by simp [Expression.children])
  | .timestampDiff unit start finish, c, F, hF => by
    refine tells_expression ⟨trivial, trivial⟩ ?_
    exact ((start.lower_tells hF).bind fun _ => (finish.lower_tells hF).bind fun _ =>
      tells_pure trivial).iff (by simp [Expression.children])
  | .format source pattern, c, F, hF => by
    refine tells_expression ⟨trivial, trivial⟩ ?_
    exact ((source.lower_tells hF).bind fun _ => tells_pure trivial).iff
      (by simp [Expression.children])
  | .binary left operator right, c, F, hF => by
    refine tells_expression ⟨trivial, trivial⟩ ?_
    exact ((left.lower_tells hF).bind fun _ => (right.lower_tells hF).bind fun _ =>
      tells_pure trivial).iff (by simp [Expression.children])
  | .negate operand, c, F, hF => by
    refine tells_expression ⟨trivial, trivial⟩ ?_
    exact ((operand.lower_tells hF).bind fun _ => tells_pure trivial).iff
      (by simp [Expression.children])
  | .case branches otherwise, c, F, hF => by
    have hbranches := CaseBranch.lowerAll_tells branches hF (c := c)
    have hotherwise := Expression.lowerOption_tells otherwise hF (c := c)
    refine tells_expression ⟨trivial, trivial⟩ ?_
    refine (hbranches.bind fun _ => hotherwise.bind fun _ => tells_pure trivial).iff ?_
    simp only [Expression.children, List.forall_mem_append, List.forall_mem_map,
      List.forall_mem_flatMap, Option.mem_toList, Option.mem_def, and_true]
  | .cast source target, c, F, hF => by
    refine tells_expression ⟨trivial, trivial⟩ ?_
    exact ((source.lower_tells hF).bind fun _ => tells_pure trivial).iff
      (by simp [Expression.children])
  | .subquery query, c, F, hF => by
    refine tells_expression ⟨trivial, trivial⟩ ?_
    refine checkSubquery_tells.next fun _ => ?_
    exact ((query.lower_tells true hF).bind fun _ => tells_pure trivial).iff
      (by simp [Expression.children, outsideSelect])
  | .tuple items, c, F, hF => by
    have hitems := Expression.lowerAll_tells items hF (c := c)
    refine tells_expression ⟨trivial, trivial⟩ ?_
    exact (hitems.bind fun _ => tells_pure trivial).iff (by simp [Expression.children])

theorem Expression.lowerAll_tells : ∀ (es : List Expression) {c : LoweringContext}
    {F : List Frame}, AreSound F →
      Tells F F (∀ e ∈ es, (Node.expression e).AllFit c.model F) (Expression.lowerAll c es)
  | [], _, _, _ => tells_pure nofun
  | e :: rest, c, F, hF =>
    ((e.lower_tells hF).bind fun _ => (Expression.lowerAll_tells rest hF).bind fun _ =>
      tells_pure trivial).iff (by simp)

theorem Expression.lowerOption_tells : ∀ (e : Option Expression) {c : LoweringContext}
    {F : List Frame}, AreSound F →
      Tells F F (∀ e' ∈ e, (Node.expression e').AllFit c.model F) (Expression.lowerOption c e)
  | none, _, _, _ => tells_pure nofun
  | some e, c, F, hF =>
    ((e.lower_tells hF).bind fun _ => tells_pure trivial).iff (by simp)

theorem CaseBranch.lowerAll_tells : ∀ (branches : List (CaseBranch Condition Expression))
    {c : LoweringContext} {F : List Frame}, AreSound F →
      Tells F F (∀ b ∈ branches, ∀ n ∈ CaseBranch.nodes b, n.AllFit c.model F)
        (CaseBranch.lowerAll c branches)
  | [], _, _, _ => tells_pure nofun
  | ⟨condition, result⟩ :: rest, c, F, hF =>
    ((condition.lower_tells hF).bind fun _ => (result.lower_tells hF).bind fun _ =>
      (CaseBranch.lowerAll_tells rest hF).bind fun _ => tells_pure trivial).iff
        (by simp [CaseBranch.nodes, and_assoc])

theorem Condition.lower_tells : ∀ (p : Condition) {c : LoweringContext} {F : List Frame},
    AreSound F → Tells F F ((Node.condition p).AllFit c.model F) (p.lower c)
  | .compare left operator right, c, F, hF => by
    refine tells_condition ?_
    exact ((left.lower_tells hF).bind fun _ => (right.lower_tells hF).bind fun _ =>
      tells_pure trivial).iff (by simp [Condition.children])
  | .all items, c, F, hF => by
    have hitems := Condition.lowerAll_tells items hF (c := c)
    refine tells_condition ?_
    exact (hitems.bind fun _ => tells_pure trivial).iff (by simp [Condition.children])
  | .any items, c, F, hF => by
    have hitems := Condition.lowerAll_tells items hF (c := c)
    refine tells_condition ?_
    exact (hitems.bind fun _ => tells_pure trivial).iff (by simp [Condition.children])
  | .not operand, c, F, hF => by
    refine tells_condition ?_
    exact ((operand.lower_tells hF).bind fun _ => tells_pure trivial).iff
      (by simp [Condition.children])
  | .isNull operand isNegated, c, F, hF => by
    refine tells_condition ?_
    exact ((operand.lower_tells hF).bind fun _ => tells_pure trivial).iff
      (by simp [Condition.children])
  | .inList operand items isNegated, c, F, hF => by
    have hitems := Expression.lowerAll_tells items hF (c := c)
    refine tells_condition ?_
    refine checkMember_tells.next fun _ => ?_
    exact ((operand.lower_tells hF).bind fun _ => hitems.bind fun _ => tells_pure trivial).iff
      (by simp [Condition.children])
  | .inQuery operand query isNegated, c, F, hF => by
    refine tells_condition ?_
    refine checkMember_tells.next fun _ => ?_
    exact ((operand.lower_tells hF).bind fun _ => (query.lower_tells true hF).bind fun _ =>
      tells_pure trivial).iff (by simp [Condition.children, outsideSelect])
  | .exists query isNegated, c, F, hF => by
    refine tells_condition ?_
    exact ((query.lower_tells true hF).bind fun _ => tells_pure trivial).iff
      (by simp [Condition.children, outsideSelect])
  | .like operand pattern escape ignoresCase isNegated, c, F, hF => by
    refine tells_condition ?_
    exact ((operand.lower_tells hF).bind fun _ => (pattern.lower_tells hF).bind fun _ =>
      tells_pure trivial).iff (by simp [Condition.children])
  | .between operand low high isNegated, c, F, hF => by
    refine tells_condition ?_
    exact ((operand.lower_tells hF).bind fun _ => (low.lower_tells hF).bind fun _ =>
      (high.lower_tells hF).bind fun _ => tells_pure trivial).iff (by simp [Condition.children])
  | .holds operand, c, F, hF => by
    refine tells_condition ?_
    exact ((operand.lower_tells hF).bind fun _ => tells_pure trivial).iff
      (by simp [Condition.children])

theorem Condition.lowerAll_tells : ∀ (ps : List Condition) {c : LoweringContext}
    {F : List Frame}, AreSound F →
      Tells F F (∀ p ∈ ps, (Node.condition p).AllFit c.model F) (Condition.lowerAll c ps)
  | [], _, _, _ => tells_pure nofun
  | p :: rest, c, F, hF =>
    ((p.lower_tells hF).bind fun _ => (Condition.lowerAll_tells rest hF).bind fun _ =>
      tells_pure trivial).iff (by simp)

theorem Condition.lowerOption_tells : ∀ (p : Option Condition) {c : LoweringContext}
    {F : List Frame}, AreSound F →
      Tells F F (∀ p' ∈ p, (Node.condition p').AllFit c.model F) (Condition.lowerOption c p)
  | none, _, _, _ => tells_pure nofun
  | some p, c, F, hF =>
    ((p.lower_tells hF).bind fun _ => tells_pure trivial).iff (by simp)

theorem Query.lower_tells : ∀ (q : Query) {c : LoweringContext} (isNested : Bool)
    {F : List Frame}, AreSound F →
      Tells F F ((Node.query q).AllFit c.model F) (q.lower c isNested)
  | .spec spec, c, isNested, F, hF =>
    checkOrder_tells.next fun _ =>
      ((spec.lower_tells hF).bind fun _ => tells_pure trivial).iff (and_iff_left trivial)
  | .group operator parts orderBy limit offset, c, isNested, F, hF => by
    have hparts := Query.lowerAll_tells parts isNested hF (c := c)
    have horder := SortKey.lowerAll_tells orderBy hF (c := c)
    have hlimit := Expression.lowerOption_tells limit hF (c := c)
    have hoffset := Expression.lowerOption_tells offset hF (c := c)
    refine Tells.iff ?_ Node.allFit_group.symm
    refine checkOrder_tells.next fun _ => checkGroup_tells.next fun _ => ?_
    refine (hparts.bind fun _ => horder.bind fun _ => hlimit.bind fun _ =>
      hoffset.bind fun _ => tells_pure trivial).iff ?_
    simp only [Query.children, List.forall_mem_append, List.forall_mem_map, Option.mem_toList,
      Option.mem_def, and_true, and_assoc]

theorem Query.lowerAll_tells : ∀ (qs : List Query) {c : LoweringContext} (isNested : Bool)
    {F : List Frame}, AreSound F →
      Tells F F (∀ q ∈ qs, (Node.query q).AllFit c.model F) (Query.lowerAll c isNested qs)
  | [], _, _, _, _ => tells_pure nofun
  | q :: rest, c, isNested, F, hF =>
    ((q.lower_tells isNested hF).bind fun _ =>
      (Query.lowerAll_tells rest isNested hF).bind fun _ => tells_pure trivial).iff (by simp)

theorem QuerySpec.lower_tells : ∀ (spec : QuerySpec) {c : LoweringContext} {F : List Frame},
    AreSound F → Tells F F ((Node.query (.spec spec)).AllFit c.model F) (spec.lower c)
  | ⟨isDistinct, select, roots, condition, groupBy, having, orderBy, limit, offset⟩, c, F, hF => by
    have hempty : AreSound (({} : Frame) :: F) :=
      List.forall_mem_cons.2 ⟨fun _ h => absurd h List.not_mem_nil, hF⟩
    rw [QuerySpec.lower]
    split
    · next hroots =>
      exact tells_malformed_bind fun h => (Node.allFit_spec.1 h).1 (List.isEmpty_iff.1 hroots)
    · next hroots =>
      refine tells_push.next fun _ => ?_
      refine lowerRoots_tells hempty (fun h => (Node.allFit_spec.1 h).2.1) ?_
      intro last hlast heach hsound
      -- All parts see the variables of the roots and joins, which are the last ones to be bound.
      have hselect := SelectItem.lowerAll_tells select hsound (c := c.inSelect)
      have hcondition := Condition.lowerOption_tells condition hsound (c := c)
      have hgroup := Expression.lowerAll_tells groupBy hsound (c := c)
      have hhaving := Condition.lowerOption_tells having hsound (c := c)
      have horder := SortKey.lowerAll_tells orderBy hsound (c := c)
      have hlimit := Expression.lowerOption_tells limit hsound (c := c)
      have hoffset := Expression.lowerOption_tells offset hsound (c := c)
      refine Tells.iff (hselect.bind fun _ => hcondition.bind fun _ => hgroup.bind fun _ =>
        hhaving.bind fun _ => horder.bind fun _ => hlimit.bind fun _ => hoffset.bind fun _ =>
          tells_pop.next fun _ => tells_pure trivial) ?_
      refine Iff.trans ?_ (Iff.symm (Node.allFit_spec_iff_children
        (fun h => hroots (List.isEmpty_iff.2 h)) heach hlast))
      simp only [QuerySpec.children, QuerySpec.expressions, QuerySpec.conditions,
        List.forall_mem_append, List.forall_mem_map, Option.mem_toList, Option.mem_def,
        LoweringContext.inSelect, and_true]
      grind

theorem SelectItem.lowerAll_tells : ∀ (items : List (SelectItem Expression))
    {c : LoweringContext} {frame : Frame} {F : List Frame}, AreSound (frame :: F) →
      Tells (frame :: F) (frame :: F)
        (∀ item ∈ items, (Node.expression item.expression).AllFit c.model (frame :: F))
        (SelectItem.lowerAll c items)
  | [], _, _, _, _ => tells_pure nofun
  | ⟨e, aliasName⟩ :: rest, c, frame, F, hF => by
    have hrest := SelectItem.lowerAll_tells rest hF (c := c)
    -- A bare variable does not come to `Expression.lower`.
    by_cases he : ∃ start, e = .path ⟨start, []⟩
    · obtain ⟨start, rfl⟩ := he
      rw [SelectItem.lowerAll]
      have hcolumns : Tells (frame :: F) (frame :: F)
          ((Node.expression (.path ⟨start, []⟩)).AllFit c.model (frame :: F))
          (entityColumns c ⟨start, []⟩) := (entityColumns_tells hF).iff Node.allFit_path.symm
      exact (hcolumns.bind fun _ => hrest.bind fun _ => tells_pure trivial).iff (by simp)
    · rw [SelectItem.lowerAll]
      · refine tells_current.next fun _ => ?_
        refine ((e.lower_tells hF).bind fun _ => tells_current.next fun _ => hrest.bind fun _ =>
          tells_pure trivial).iff (by simp)
      · exact fun start h => he ⟨start, h⟩

theorem SortKey.lowerAll_tells : ∀ (keys : List (SortKey Expression)) {c : LoweringContext}
    {F : List Frame}, AreSound F →
      Tells F F (∀ key ∈ keys, (Node.expression key.expression).AllFit c.model F)
        (SortKey.lowerAll c keys)
  | [], _, _, _ => tells_pure nofun
  | ⟨e, isDescending, nulls⟩ :: rest, c, F, hF =>
    ((e.lower_tells hF).bind fun _ => (SortKey.lowerAll_tells rest hF).bind fun _ =>
      tells_pure trivial).iff (by simp)

end

/-! ## Statements -/

theorem bindTarget_tells {β : Type} {p : Prop} {G : List Frame} {name variableName : String}
    {f : Mapping.Entity × TableReference → Lower β}
    (hf : ∀ entity target, c.model.entity name = .ok entity →
      Tells [.ofTarget variableName entity] G p (f (entity, target))) :
    Tells [] G p (bindTarget c name variableName >>= f) := by
  rw [bindTarget, bind_assoc]
  refine tells_entity_bind fun entity hentity => ?_
  rw [bind_assoc]
  refine tells_freshAlias.next fun aliasName => ?_
  rw [bind_assoc]
  exact tells_push.next fun _ => hf entity ⟨entity.table, aliasName⟩ hentity

theorem areSound_nil : AreSound [] := fun _ h => absurd h List.not_mem_nil

theorem areSound_ofTarget (name : String) (entity : Mapping.Entity) :
    AreSound [.ofTarget name entity] := by
  simp [AreSound, Frame.IsSound, Frame.ofTarget]

theorem assignedColumn_tells {entity : Mapping.Entity} {name : String} :
    Tells F F True (assignedColumn c entity name) := by
  refine tells_property_bind fun property _ => ?_
  cases property with
  | basic value => exact tells_pure trivial
  | toOne association => exact tells_pure trivial
  | toMany collection => exact tells_unsupported

theorem lowerAssignments_tells (hF : AreSound F) (entity : Mapping.Entity) :
    ∀ assignments : List Assignment, Tells F F
      (∀ a ∈ assignments, (Node.expression a.value).AllFit c.model F)
      (lowerAssignments c entity assignments)
  | [] => tells_pure nofun
  | a :: rest => by
    refine assignedColumn_tells.next fun _ => ?_
    have hrest := lowerAssignments_tells hF entity rest
    exact ((a.value.lower_tells hF).bind fun _ => hrest.bind fun _ => tells_pure trivial).iff
      (by simp)

namespace Statement

variable {model : Mapping.Model}

/-- All nodes of a statement fit. -/
def AllFit (model : Mapping.Model) (statement : Statement) : Prop :=
  statement.Throughout model (Node.Fits model)

theorem allFit_iff {statement : Statement} :
    statement.AllFit model ↔ statement.IsWellFormed model ∧ statement.JoinsReach model := by
  have hand : ∀ (frames : List Frame) (n : Node), n.AllFit model frames ↔
      n.Throughout model (Node.IsWellFormed model) frames ∧
        n.Throughout model (Node.JoinsReach model) frames := fun _ _ => Node.throughout_and
  unfold AllFit IsWellFormed JoinsReach Throughout
  constructor
  · intro h
    exact ⟨fun frames hf n hn => ((hand frames n).1 (h frames hf n hn)).1,
      fun frames hf n hn => ((hand frames n).1 (h frames hf n hn)).2⟩
  · rintro ⟨hw, hj⟩ frames hf n hn
    exact (hand frames n).2 ⟨hw frames hf n hn, hj frames hf n hn⟩

theorem allFit_iff_children {statement : Statement} (h : statement.frames? model = some F) :
    statement.AllFit model ↔ ∀ n ∈ statement.children, n.AllFit model F := by
  simp [AllFit, Throughout, h, Node.AllFit]

theorem lowerIn_tells : ∀ statement : Statement,
    Tells [] ((statement.frames? c.model).getD []) (statement.AllFit c.model)
      (statement.lowerIn c)
  | .select query lock => by
    refine Tells.iff ?_ (allFit_iff_children rfl).symm
    exact ((query.lower_tells false areSound_nil).bind fun _ => tells_pure trivial).iff
      (by simp [children])
  | .update name aliasName assignments condition => by
    refine bindTarget_tells fun entity target hentity => ?_
    have hframes : (update name aliasName assignments condition).frames? c.model =
        some [.ofTarget aliasName entity] := by simp [frames?, hentity, Except.toOption]
    have hsound := areSound_ofTarget aliasName entity
    have hassignments := lowerAssignments_tells hsound entity assignments (c := c)
    have hcondition := Condition.lowerOption_tells condition hsound (c := c)
    rw [hframes]
    refine Tells.iff ?_ (allFit_iff_children hframes).symm
    refine (hassignments.bind fun _ => hcondition.bind fun _ => tells_pure trivial).iff ?_
    simp only [children, List.forall_mem_append, List.forall_mem_map, Option.mem_toList,
      Option.mem_def, and_true]
  | .delete name aliasName condition => by
    refine bindTarget_tells fun entity target hentity => ?_
    have hframes : (delete name aliasName condition).frames? c.model =
        some [.ofTarget aliasName entity] := by simp [frames?, hentity, Except.toOption]
    have hsound := areSound_ofTarget aliasName entity
    have hcondition := Condition.lowerOption_tells condition hsound (c := c)
    rw [hframes]
    refine Tells.iff ?_ (allFit_iff_children hframes).symm
    refine (hcondition.bind fun _ => tells_pure trivial).iff ?_
    simp [children]

/-- A statement is lowered only if it keeps to the rules and its joins find a table to hang on. If
it keeps to the rules, then it fails with an internal error only because of such a join. -/
theorem lower_faults (statement : Statement) (d : Dialect) (model : Mapping.Model) :
    (∀ lowered, statement.lower d model = .ok lowered →
      statement.IsWellFormed model ∧ statement.JoinsReach model) ∧
    (∀ e, statement.lower d model = .error e → e.isInternal = true →
      statement.IsWellFormed model → ¬ statement.JoinsReach model) := by
  have htells := lowerIn_tells (c := { dialect := d, model }) statement {} rfl
  have hrun : statement.lower d model =
      (statement.lowerIn { dialect := d, model } {}).map Prod.fst := by
    show (statement.lowerIn { dialect := d, model } {}).bind _ = _
    cases statement.lowerIn { dialect := d, model } {} <;> rfl
  rw [hrun]
  cases hlower : statement.lowerIn { dialect := d, model } {} with
  | ok r =>
    rw [hlower] at htells
    exact ⟨fun _ _ => allFit_iff.1 htells.2, nofun⟩
  | error e =>
    rw [hlower] at htells
    refine ⟨nofun, fun e' he hinternal hw hj => ?_⟩
    obtain rfl := Except.error.inj he
    exact htells hinternal (allFit_iff.2 ⟨hw, hj⟩)

def loansModel : Mapping.Model :=
  .ofList
    [{ Mapping.Entity.ofName "Reader" with attributes := [.ofType "name" .varchar] },
      { Mapping.Entity.ofName "Loan" with toOne := [.ofTarget "reader" "Reader"] }, .ofName "Book"]

/-- The reader of an outer loan is joined to the books. -/
def booksOfReaders : QuerySpec :=
  { select := [⟨.literal (.integer 1), none⟩]
    roots := [⟨"Book", "b", [⟨.inner, ⟨"l", ["reader"]⟩, "o"⟩]⟩] }

def readersWithBooks : Statement :=
  .select (.spec
    { select := [⟨.path ⟨"r", ["name"]⟩, none⟩]
      roots := [⟨"Reader", "r", []⟩, ⟨"Loan", "l", []⟩]
      condition := some (.exists (.spec booksOfReaders) false) }) none

theorem readersWithBooks_isWellFormed : readersWithBooks.IsWellFormed loansModel := by
  rintro _ ⟨⟩ n hn
  obtain rfl := List.mem_singleton.1 hn
  refine .node ⟨by simp, trivial, fun _ _ => ⟨trivial, fun _ _ => trivial⟩⟩ ?_
  rintro _ ⟨⟩ m hm
  obtain rfl | rfl : m = .expression (.path ⟨"r", ["name"]⟩) ∨
      m = .condition (.exists (.spec booksOfReaders) false) := by
    simpa [Node.children, Query.children, QuerySpec.children, QuerySpec.expressions,
      QuerySpec.conditions] using hm
  · exact Node.throughout_expression.2 ⟨⟨0, _, rfl, trivial⟩, by simp [Expression.children]⟩
  refine .node trivial ?_
  rintro _ ⟨⟩ m hm
  obtain rfl := List.mem_singleton.1 hm
  refine .node ⟨by simp [booksOfReaders], trivial, ?_⟩ ?_
  · rintro _ ⟨⟩
    exact ⟨⟨"reader", 1, _, rfl, rfl, fun _ h => by cases h⟩, fun _ _ => trivial⟩
  rintro _ ⟨⟩ m hm
  obtain rfl := List.mem_singleton.1 hm
  exact Node.throughout_expression.2 ⟨trivial, by simp [Expression.children]⟩

/-- The loans are the second table of their query, and the subquery has only one. -/
theorem readersWithBooks_lower_fails :
    readersWithBooks.IsWellFormed loansModel ∧ ¬ readersWithBooks.JoinsReach loansModel ∧
      readersWithBooks.lower (Dialect.ofProduct .postgreSql ⟨16, 0, 0⟩) loansModel =
        .error (.malformedTree "join target outside of the current query") := by
  have hfails : readersWithBooks.lower (Dialect.ofProduct .postgreSql ⟨16, 0, 0⟩) loansModel =
      .error (.malformedTree "join target outside of the current query") := rfl
  have hw := readersWithBooks_isWellFormed
  exact ⟨hw, (lower_faults _ _ _).2 _ hfails rfl hw, hfails⟩

end Statement

end SqlDialects.Entity
