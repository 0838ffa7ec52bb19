import SqlDialects.Proofs.Rendering.Statements
import SqlDialects.Proofs.Rendering.Templates

/-!
# Well-formed statements

The rules that a tree has to keep for every dialect. A translation that calls a tree malformed found
a rule that is broken, and one that succeeds has looked at every rule, unless it leaves a part of
the tree out.
-/

namespace SqlDialects

theorem Number.Binary64.literal?_eq_none {value : Number.Binary64} :
    value.literal? = none ↔ value.isFinite = false := by
  unfold Number.Binary64.literal?
  split <;> simp_all

namespace Sql

/-! ## The rules -/

/-- Two tuples have as many elements, and a tuple that is compared has more than one. -/
structure TuplesMatch (left right : Expression) : Prop where
  sameLength : ∀ lefts rights, left = .tuple lefts → right = .tuple rights →
    lefts.length = rights.length
  several : ∀ items, left = .tuple items ∨ right = .tuple items → 2 ≤ items.length

def Expression.IsWellFormed : Expression → Prop
  | .literal (.float value) => value.isFinite = true
  | .aggregate function _ none => function = .count
  | .case branches _ => branches ≠ []
  | .tuple items => items ≠ []
  | _ => True

def Condition.IsWellFormed : Condition → Prop
  | .compare left _ right => TuplesMatch left right
  | _ => True

structure QuerySpec.IsWellFormed (spec : QuerySpec) : Prop where
  select : spec.select ≠ []
  tables : spec.tables ≠ []
  joins : ∀ join ∈ spec.joins, join.kind ≠ .cross → join.on ≠ none

def Query.IsWellFormed : Query → Prop
  | .spec body => body.IsWellFormed
  | .group _ parts _ _ _ => 2 ≤ parts.length

/-- The rules for a node, whatever stands below it. -/
def Node.IsWellFormed : Node → Prop
  | .expression e => e.IsWellFormed
  | .condition p => p.IsWellFormed
  | .query q => q.IsWellFormed

def InsertSource.IsWellFormed (columns : Nat) : InsertSource → Prop
  | rows values => values ≠ [] ∧ ∀ row ∈ values, row.length = columns
  | query _ => True

/-- The rules for a statement outside of its nodes. -/
def Statement.IsComplete : Statement → Prop
  | insert _ columns source => columns ≠ [] ∧ source.IsWellFormed columns.length
  | update _ assignments _ => assignments ≠ []
  | select _ _ | delete _ _ => True

structure Statement.IsWellFormed (statement : Statement) : Prop where
  complete : statement.IsComplete
  nodes : ∀ n, statement.Contains n → n.IsWellFormed

/-! ## What breaks a rule -/

variable {n : Node} {reason : String}

theorem Node.Malformed.not_isWellFormed (h : n.Malformed reason) : ¬ n.IsWellFormed := by
  intro hn
  cases h with
  | literal h => exact (Bool.not_eq_false _).mpr hn (Number.Binary64.literal?_eq_none.1 h)
  | aggregate h => exact h hn
  | case => exact hn rfl
  | tuple => exact hn rfl
  | rows h =>
    have hlength := hn.sameLength _ _ rfl rfl
    have hseveral := hn.several _ (.inl rfl)
    omega
  | row h hr =>
    have hseveral := hn.several _ hr
    omega
  | select h => exact hn.select h
  | tables h => exact hn.tables h
  | join hj hk ho => exact hn.joins _ hj hk ho
  | operands h => exact absurd hn (Nat.not_le.2 h)

theorem Statement.Malformed.not_isComplete {statement : Statement}
    (h : statement.Malformed reason) : ¬ statement.IsComplete := by
  intro hs
  cases h with
  | columns => exact hs.1 rfl
  | noRows => exact hs.2.1 rfl
  | row h hl => exact hl (hs.2.2 _ (List.mem_of_getElem? h))
  | assignments => exact hs rfl

/-! ## Refused trees -/

section

variable {d : Dialect} {e : Expression} {template : FunctionTemplate}
  {arguments : List (Option Expression)}

/-- Only templates that are registered can mention an argument that they are not given. -/
theorem Expression.fits_of_template? (hd : d.functions.Fits)
    (h : e.template? d = some (template, arguments)) : template.rendering.fits = true := by
  have hregistered {name : String} {found : FunctionTemplate}
      (hf : d.functions.get? name = some found) : found.rendering.fits = true :=
    hd _ (SortedMap.mem_of_get? hf)
  cases e with
  | call name operands =>
    obtain ⟨found, hf, hpair⟩ := Option.map_eq_some_iff.1 h
    obtain ⟨rfl, -⟩ := Prod.mk.inj hpair
    exact hregistered hf
  | extract unit source =>
    obtain ⟨found, hf, hpair⟩ := Option.map_eq_some_iff.1 h
    obtain ⟨rfl, -⟩ := Prod.mk.inj hpair
    unfold extractTemplate? at hf
    split at hf
    · obtain rfl := Option.some.inj hf
      exact FunctionTemplate.fits_pattern
    · exact hregistered hf
  | timestampAdd unit magnitude timestamp | timestampDiff unit magnitude timestamp =>
    obtain ⟨pattern, -, hpair⟩ := Option.map_eq_some_iff.1 h
    obtain ⟨rfl, -⟩ := Prod.mk.inj hpair
    exact FunctionTemplate.fits_pattern
  | format source pattern =>
    obtain ⟨found, hf, hpair⟩ := Option.map_eq_some_iff.1 h
    obtain ⟨rfl, -⟩ := Prod.mk.inj hpair
    exact hregistered hf
  | _ => cases h

end

/-- A node that is refused as malformed breaks a rule itself. -/
theorem Node.Refused.malformed_of_fits {c : Context} (hd : c.dialect.functions.Fits)
    (h : n.Refused c (.malformedTree reason)) : n.Malformed reason := by
  generalize he : DialectError.malformedTree reason = error at h
  cases h with
  | malformed h => exact DialectError.malformedTree.inj he ▸ h
  | argument h hs hi hl =>
    have hlt := FunctionTemplate.lt_of_argument_mem (Expression.fits_of_template? hd h) hs hi
    omega
  | _ => cases he

namespace Statement

variable {d : Dialect} {config : TranslationConfig} {statement : Statement} {isInner : Bool}

theorem contains_of_shows (h : statement.Shows d isInner n) : statement.Contains n := by
  induction h with
  | outermost hselect =>
    subst hselect
    exact ⟨_, List.mem_singleton.2 rfl, .refl⟩
  | part hs hpart => exact ⟨_, (child_of_layout hs hpart).1, .refl⟩
  | inside _ hpart ih =>
    obtain ⟨m, hm, hn⟩ := ih
    exact ⟨m, hm, (Node.below_of_layout hpart).within.trans hn⟩

theorem not_isWellFormed_of_translate (hd : d.functions.Fits)
    (h : statement.translate d config = .error (.malformedTree reason)) :
    ¬ statement.IsWellFormed := by
  intro hs
  rcases refused_of_translate h with h | ⟨isInner, n, hn, h⟩
  · generalize he : DialectError.malformedTree reason = error at h
    cases h with
    | malformed h => exact h.not_isComplete hs.complete
    | lock => cases he
  · have hmalformed : n.Malformed reason := h.malformed_of_fits (by rwa [contextAt_dialect])
    exact hmalformed.not_isWellFormed (hs.nodes n (contains_of_shows hn))

end Statement

/-! ## Whole renderings -/

open Slot (IsWhole)

theorem Expression.isWellFormed_of_isWhole {c : Context} {e : Expression}
    (h : IsWhole (e.layout c)) : e.IsWellFormed := by
  cases e with
  | literal value =>
    cases value with
    | float value =>
      cases hv : value.literal? with
      | none =>
        simp only [layout, Context.literal, hv] at h
        exact absurd h Slot.not_isWhole_malformed
      | some text =>
        have hfinite : ¬ value.isFinite = false := by
          rw [← Number.Binary64.literal?_eq_none, hv]
          simp
        exact (Bool.not_eq_false _).mp hfinite
    | _ => trivial
  | aggregate function isDistinct argument =>
    cases argument with
    | none =>
      simp only [layout, Context.aggregateLayout, Context.aggregate] at h
      split at h
      · next hcount => exact hcount
      · exact absurd h Slot.not_isWhole_malformed
    | some argument => trivial
  | case branches otherwise =>
    rintro rfl
    exact absurd h Slot.not_isWhole_malformed
  | tuple items =>
    rintro rfl
    exact absurd h Slot.not_isWhole_malformed
  | _ => trivial

theorem Context.tuplesMatch_of_isWhole {c : Context} {operator : Comparison}
    {left right : Expression} (h : IsWhole (c.compareLayout operator left right)) :
    TuplesMatch left right := by
  have hmixed {elements : Nat} (h : IsWhole (c.mixedLayout elements operator left right)) :
      2 ≤ elements := by
    by_contra helements
    rw [mixedLayout, if_pos (by omega)] at h
    exact Slot.not_isWhole_malformed h
  unfold compareLayout at h
  split at h
  · next lefts rights =>
    unfold rowLayout at h
    split at h
    · exact absurd h Slot.not_isWhole_malformed
    · next hlength =>
      simp only [Bool.or_eq_true, decide_eq_true_eq, bne_iff_ne, not_or, Nat.not_lt,
        not_not] at hlength
      constructor
      · rintro _ _ ⟨⟩ ⟨⟩
        exact hlength.2
      · rintro items (⟨⟨⟩⟩ | ⟨⟨⟩⟩) <;> omega
  · next lefts hright =>
    constructor
    · intro _ rights _ hr
      exact absurd hr (hright rights)
    · rintro items (⟨⟨⟩⟩ | hr)
      · exact hmixed h
      · exact absurd hr (hright items)
  · next rights hleft =>
    constructor
    · intro lefts _ hl _
      exact absurd hl (hleft lefts)
    · rintro items (hl | ⟨⟨⟩⟩)
      · exact absurd hl (hleft items)
      · exact hmixed h
  · next hleft hright _ =>
    constructor
    · intro lefts _ hl _
      exact absurd hl (hleft lefts)
    · rintro items (hl | hr)
      · exact absurd hl (hleft items)
      · exact absurd hr (hright items)

theorem Condition.isWellFormed_of_isWhole {c : Context} {p : Condition}
    (h : IsWhole (p.layout c)) : p.IsWellFormed := by
  cases p with
  | compare left operator right => exact Context.tuplesMatch_of_isWhole h
  | _ => trivial

namespace Context

theorem joinLayout_subset (hint : String) {items : List FromItem} {join : Join}
    (h : join ∈ items.flatMap FromItem.joins) :
    ∃ row ∈ tableLayouts hint items, joinLayout join ⊆ row := by
  induction items generalizing hint with
  | nil => simp at h
  | cons item rest ih =>
    rw [List.flatMap_cons, List.mem_append] at h
    rcases h with h | h
    · refine ⟨_, List.mem_cons_self, fun slot hs => ?_⟩
      exact List.mem_cons_of_mem _ (List.mem_cons_of_mem _ (List.mem_flatMap.2 ⟨join, h, hs⟩))
    · obtain ⟨row, hrow, hsub⟩ := ih _ h
      exact ⟨row, List.mem_cons_of_mem _ hrow, hsub⟩

theorem on_of_isWhole {join : Join} (h : IsWhole (joinLayout join)) (hk : join.kind ≠ .cross) :
    join.on ≠ none := by
  intro ho
  simp only [joinLayout, ho, if_neg hk] at h
  exact Slot.not_isWhole_malformed h

end Context

theorem Query.isWellFormed_of_isWhole {c : Context} {hint : String} {q : Query}
    (h : IsWhole (q.layout c hint)) : q.IsWellFormed := by
  cases q with
  | spec body =>
    simp only [layout, QuerySpec.layout] at h
    split at h
    · exact absurd h Slot.not_isWhole_malformed
    · next hselect =>
      split at h
      · exact absurd h Slot.not_isWhole_malformed
      · next htables =>
        split at h
        · exact absurd h Slot.not_isWhole_fail
        · refine ⟨by simpa using hselect, by simpa using htables, fun join hj hk => ?_⟩
          obtain ⟨row, hrow, hsub⟩ := Context.joinLayout_subset hint hj
          exact Context.on_of_isWhole
            ((h.mono (Context.tables_subset_specLayout hrow)).mono hsub) hk
  | group operator parts orderBy limit offset =>
    simp only [layout] at h
    split at h
    · exact absurd h Slot.not_isWhole_fail
    · next hcheck => exact Context.two_le_of_checkGroup hcheck

theorem Node.isWellFormed_of_isWhole {c : Context} (h : IsWhole (n.layout c)) :
    n.IsWellFormed := by
  cases n with
  | expression e => exact e.isWellFormed_of_isWhole h
  | condition p => exact p.isWellFormed_of_isWhole h
  | query q => exact q.isWellFormed_of_isWhole h

/-- The rules are looked at for each node in a tree, if no node loses a part. -/
theorem Node.isWellFormed_of_within {c : Context} {m : Node} {f : Fragment}
    (h : n.render c = .ok f) (hf : ¬ f.Carries (.warning .subqueryOrderByRemoved))
    (hk : ∀ k : Node, k.Within n → k.IsKept c.dialect) (hm : m.Within n) : m.IsWellFormed := by
  rcases renders_of_within h hf hk hm with ⟨c', g, hg, hsub⟩ | ⟨items, rfl, hne⟩
  · rw [render_eq_fill] at hg
    exact isWellFormed_of_isWhole (Slot.isWhole_of_fill hg fun hw => hf (hsub _ hw))
  · exact hne

/-- The same for a query with a hint, which is no node. -/
theorem Query.isWellFormed_of_within {c : Context} {hint : String} {q : Query} {f : Fragment}
    (h : q.render c hint = .ok f) (hf : ¬ f.Carries (.warning .subqueryOrderByRemoved))
    (hk : ∀ k : Node, k.Within (.query q) → k.IsKept c.dialect) (hn : n.Within (.query q)) :
    n.IsWellFormed := by
  rw [render_eq_fill] at h
  have hwhole := Slot.isWhole_of_fill h hf
  rcases Node.within_cases hn with rfl | ⟨k, hkq, hn⟩
  · exact isWellFormed_of_isWhole hwhole
  · obtain ⟨g, hg, hsub⟩ := Slot.part_renders h (part_of_child hwhole hkq)
    exact Node.isWellFormed_of_within hg (fun hw => hf (hsub _ hw))
      (fun j hj => hk j (hj.tail hkq)) hn

theorem InsertSource.isWellFormed_of_isWhole {columns : Nat} {source : InsertSource}
    (h : IsWhole (source.layout columns)) : source.IsWellFormed columns := by
  cases source with
  | query q => trivial
  | rows values =>
    simp only [layout] at h
    split at h
    · exact absurd h Slot.not_isWhole_malformed
    · next hvalues =>
      refine ⟨by simpa using hvalues, fun row hrow => ?_⟩
      obtain ⟨i, hi, rfl⟩ := List.getElem_of_mem hrow
      have hmem : insertRowLayout columns i values[i] ∈
          values.mapIdx fun index row => insertRowLayout columns index row :=
        List.mem_mapIdx.2 ⟨i, hi, rfl⟩
      have hwhole := h.mono (List.subset_cons_of_subset _ (Slot.subset_separated ", " hmem))
      by_contra hlength
      rw [insertRowLayout, if_neg hlength] at hwhole
      exact Slot.not_isWhole_malformed hwhole

namespace Statement

variable {d : Dialect} {config : TranslationConfig} {statement : Statement} {f : Fragment}

theorem isComplete_of_isWhole (h : IsWhole (statement.layout d)) : statement.IsComplete := by
  cases statement with
  | select | delete => trivial
  | insert table columns source =>
    simp only [layout] at h
    split at h
    · exact absurd h Slot.not_isWhole_malformed
    · next hcolumns =>
      have hsource : IsWhole (source.layout columns.length) :=
        (Slot.isWhole_append.1 h).2.mono (List.subset_cons_self _ _)
      exact ⟨by simpa using hcolumns, InsertSource.isWellFormed_of_isWhole hsource⟩
  | update target assignments condition =>
    rintro rfl
    exact absurd h Slot.not_isWhole_malformed

theorem isWellFormed_of_render (h : statement.render d = .ok f)
    (hf : ¬ f.Carries (.warning .subqueryOrderByRemoved))
    (hk : ∀ n, statement.Contains n → n.IsKept d) : statement.IsWellFormed := by
  cases hs : statement.isSelect with
  | true =>
    cases statement with
    | select query lock =>
      refine ⟨trivial, ?_⟩
      rintro n ⟨m, hm, hn⟩
      obtain rfl := List.mem_singleton.1 hm
      have hkeeps (k : Node) (hkq : k.Within (.query query)) : k.IsKept d :=
        hk k ⟨_, List.mem_singleton.2 rfl, hkq⟩
      cases lock with
      | none => exact Query.isWellFormed_of_within h hf hkeeps hn
      | some lock =>
        obtain ⟨hint, g, hg, hsub, -⟩ := lockedQuery_ok h
        exact Query.isWellFormed_of_within hg (fun hw => hf (hsub _ hw)) hkeeps hn
    | _ => simp [isSelect] at hs
  | false =>
    rw [render_eq_fill] at h
    have hwhole := Slot.isWhole_of_fill h hf
    refine ⟨isComplete_of_isWhole hwhole, ?_⟩
    rintro n ⟨m, hm, hn⟩
    obtain ⟨b, hslot⟩ := part_of_child hs hwhole hm
    obtain ⟨g, hg, hsub⟩ := Slot.part_renders h hslot
    refine Node.isWellFormed_of_within hg (fun hw => hf (hsub _ hw)) ?_ hn
    intro k hkm
    have hd : (if b then (statement.context d).nested else statement.context d).dialect = d := by
      cases b <;> cases statement <;> rfl
    rw [hd]
    exact hk k ⟨m, hm, hkm⟩

/-- Where the functions of a dialect fit their calls, only trees that break a rule are called
malformed. A translation succeeds only for trees that keep all the rules, if no order is removed, no
list that a value has to be in is empty and no pattern leaves out an argument. -/
theorem translate_isWellFormed (hd : d.functions.Fits) :
    (∀ reason, statement.translate d config = .error (.malformedTree reason) →
        ¬ statement.IsWellFormed) ∧
      ∀ t, statement.translate d config = .ok t → .subqueryOrderByRemoved ∉ t.warnings →
        (∀ operand items isNegated,
          statement.Contains (.condition (.inList operand items isNegated)) → items ≠ []) →
        (∀ e, statement.Contains (.expression e) → e.MentionsArguments d) →
          statement.IsWellFormed := by
  refine ⟨fun reason => not_isWellFormed_of_translate hd, fun t h hremoved hitems hmentions => ?_⟩
  obtain ⟨f, hf, rfl⟩ : ∃ f, statement.render d = .ok f ∧ .ofFragment d config f = t := by
    unfold translate at h
    cases hr : statement.render d with
    | error e => simp [hr, bind, Except.bind] at h
    | ok f => exact ⟨f, rfl, by simpa [hr, bind, Except.bind, pure, Except.pure] using h⟩
  refine isWellFormed_of_render hf hremoved fun n hn => ?_
  refine ⟨fun e he => hmentions e (he ▸ hn), fun p hp => ?_⟩
  cases p with
  | inList operand items isNegated => exact hitems operand items isNegated (hp ▸ hn)
  | _ => trivial

/-- Compares the two names of a person to one. -/
def deleteByPair : Statement :=
  .delete ⟨"person", "t0"⟩ (some (.compare (.tuple [.of "t0" "first", .of "t0" "last"]) .equal
    (.tuple [.parameter ⟨.named "name", some .varchar⟩])))

/-- One deletion is written, and the other one is malformed. -/
theorem deleteByName_isWellFormed :
    (Dialect.ofProduct .postgreSql ⟨16, 0, 0⟩).functions.Fits ∧ deleteByName.IsWellFormed ∧
      ¬ deleteByPair.IsWellFormed := by
  have hfits := (Dialect.fits_ofProduct ⟨16, 0, 0⟩ .postgreSql).functions
  refine ⟨hfits, ?_, ?_⟩
  · obtain ⟨t, h, hw⟩ : ∃ t, deleteByName.translate (Dialect.ofProduct .postgreSql ⟨16, 0, 0⟩)
        (.ofDialect (Dialect.ofProduct .postgreSql ⟨16, 0, 0⟩)) = .ok t ∧ t.warnings = [] :=
      ⟨_, rfl, rfl⟩
    refine (translate_isWellFormed hfits).2 t h (by simp [hw])
      (fun _ _ _ hc => by simpa [Condition.equal] using nodes_of_deleteByName hc)
      fun e he template arguments ht => ?_
    rcases nodes_of_deleteByName he with he | he | he
    · simp at he
    · obtain rfl := Node.expression.inj he
      simp [Expression.template?, Expression.of] at ht
    · obtain rfl := Node.expression.inj he
      simp [Expression.template?] at ht
  · have h : deleteByPair.translate (Dialect.ofProduct .postgreSql ⟨16, 0, 0⟩)
        (.ofDialect (Dialect.ofProduct .postgreSql ⟨16, 0, 0⟩)) =
          .error (.malformedTree "tuple comparison between 2 and 1 elements") := rfl
    exact (translate_isWellFormed hfits).1 _ h

end Statement

end Sql

end SqlDialects
