import SqlDialects.Function.Registry
import SqlDialects.Proofs.Marks
import SqlDialects.Proofs.Rendering.Templates

/-!
# Calls of functions

A template is made in one of four ways. Each says for itself how many arguments a call has and what
the call is written as. A call with another number of arguments is refused with the numbers that
the template takes.
-/

namespace SqlDialects

open Template (Mentions mentions_iff substitute)

/-! ## The arity of a pattern -/

namespace Pattern

variable {source : String} {n : Nat}

theorem arity_mem (source : String) :
    arity ⟨source⟩ ∈ 0 :: (Template.tokens source).map argumentNumber ∧
      ∀ n ∈ 0 :: (Template.tokens source).map argumentNumber, n ≤ arity ⟨source⟩ :=
  List.max?_eq_some_iff.1 (List.max?_cons' ..)

/-- A pattern mentions no number above its arity. -/
theorem le_arity (h : Mentions source.toList n) : n ≤ arity ⟨source⟩ := by
  obtain ⟨t, ht, hk⟩ := mentions_iff.1 h
  refine (arity_mem source).2 n (List.mem_cons_of_mem _ (List.mem_map.2 ⟨t, ht, ?_⟩))
  rw [argumentNumber, hk]

theorem mentions_arity (source : String) :
    arity ⟨source⟩ = 0 ∨ Mentions source.toList (arity ⟨source⟩) := by
  rcases List.mem_cons.1 (arity_mem source).1 with h | h
  · exact .inl h
  · obtain ⟨t, ht, hn⟩ := List.mem_map.1 h
    unfold argumentNumber at hn
    split at hn
    · next n hk => exact .inr (mentions_iff.2 ⟨t, ht, hn ▸ hk⟩)
    · exact .inl hn.symm

theorem arity_le {count : Nat} (h : ∀ n, Mentions source.toList n → n ≤ count) :
    arity ⟨source⟩ ≤ count := by
  rcases mentions_arity source with hzero | hmentions
  · exact hzero ▸ Nat.zero_le count
  · exact h _ hmentions

end Pattern

/-! ## Recipes -/

/-- The ways to make a template. -/
inductive Recipe where
  | pattern (source : String)
  | binaryTernary (binary ternary : String)
  | named (sqlName : String) (minArgs : Nat) (maxArgs : Option Nat)
  | joined (operator : String) (minArgs : Nat)
  deriving DecidableEq, Repr

/-- The text with the arguments in place of its marks. Arguments are numbered from one. -/
def Template.filled (source : String) (arguments : List String) : String :=
  String.ofList (substitute (fun n => (arguments[n - 1]?.getD "").toList) ([·]) source.toList)

namespace Recipe

def template (recipe : Recipe) (name : String) (resultType : Option SqlType) : FunctionTemplate :=
  match recipe with
  | pattern source => .pattern name source resultType
  | binaryTernary binary ternary => .binaryTernary name binary ternary resultType
  | named sqlName minArgs maxArgs => .named name sqlName minArgs maxArgs resultType
  | joined operator minArgs => .joined name operator minArgs resultType

/-- The pattern for two arguments mentions no third one, and that for three no fourth one. -/
def Fits : Recipe → Prop
  | binaryTernary binary ternary =>
    (∀ n, Mentions binary.toList n → n ≤ 2) ∧ ∀ n, Mentions ternary.toList n → n ≤ 3
  | _ => True

/-- A call has so many arguments. -/
def Takes (recipe : Recipe) (count : Nat) : Prop :=
  match recipe with
  | pattern source =>
    (count = 0 ∨ Mentions source.toList count) ∧ ∀ n, Mentions source.toList n → n ≤ count
  | binaryTernary _ _ => count = 2 ∨ count = 3
  | named _ minArgs maxArgs => minArgs ≤ count ∧ ∀ bound, maxArgs = some bound → count ≤ bound
  | joined _ minArgs => minArgs ≤ count

/-- What a call with these arguments is written as. -/
def text (recipe : Recipe) (arguments : List String) : String :=
  match recipe with
  | pattern source => Template.filled source arguments
  | binaryTernary binary ternary =>
    Template.filled (if arguments.length = 2 then binary else ternary) arguments
  | named sqlName _ _ => sqlName ++ "(" ++ ", ".intercalate arguments ++ ")"
  | joined operator _ => "(" ++ operator.intercalate arguments ++ ")"

end Recipe

/-! ## Filling -/

namespace Segment

/-- A place without an argument stays empty. -/
def write (arguments : List String) : Segment → String
  | text t => t
  | argument index => arguments[index]?.getD ""

variable {arguments : List String} {segments : List Segment}

theorem mapM_fill {missing : Nat → DialectError}
    (h : ∀ index, .argument index ∈ segments → index < arguments.length) :
    segments.mapM (fill id missing (arguments.map .ok)) = .ok (segments.map (write arguments)) := by
  induction segments with
  | nil => rfl
  | cons segment rest ih =>
    have hfirst : fill id missing (arguments.map .ok) segment = .ok (segment.write arguments) := by
      cases segment with
      | text t => rfl
      | argument index =>
        have hlt := h index List.mem_cons_self
        simp [fill, write, hlt]
    rw [List.mapM_cons, hfirst, ih fun index hi => h index (List.mem_cons_of_mem _ hi)]
    rfl

theorem join_separated {separator : String} {count : Nat} (h : count ≤ arguments.length) :
    String.join ((separated separator count).map (write arguments)) =
      separator.intercalate (arguments.take count) := by
  induction count with
  | zero => rfl
  | succ n ih =>
    have htake : arguments.take (n + 1) = arguments.take n ++ [arguments[n]] := by
      rw [List.take_add_one, List.getElem?_eq_getElem h]
      rfl
    have hlast : write arguments (.argument n) = arguments[n] := by
      simp only [write, List.getElem?_eq_getElem h, Option.getD_some]
    cases n with
    | zero =>
      simp only [htake, separated, List.map_singleton, hlast, String.join_cons, String.join_nil,
        String.append_empty, List.take_zero, List.nil_append, String.intercalate_singleton]
    | succ n =>
      have hne : arguments.take (n + 1) ≠ [] := by
        rw [← List.length_pos_iff, List.length_take]
        omega
      rw [htake, separated, List.map_append, String.join_append, ih (by omega),
        String.intercalate_append_of_ne_nil hne (List.cons_ne_nil _ _),
        String.intercalate_singleton, List.map_cons, List.map_singleton, hlast, String.append_assoc]
      simp only [String.join_cons, String.join_nil, String.append_empty, write]

end Segment

theorem Pattern.join_segments (source : String) (arguments : List String) :
    String.join ((Pattern.segments ⟨source⟩).map (Segment.write arguments)) =
      Template.filled source arguments := by
  have hsegment (t : Template.Token) : ((Pattern.segment t).write arguments).toList =
      t.replace (fun n => (arguments[n - 1]?.getD "").toList) ([·]) := by
    unfold Pattern.segment Template.Token.replace
    cases t.kind with
    | argument n => rfl
    | _ => exact String.toList_ofList.trans (List.flatMap_singleton' t.chars).symm
  rw [← String.toList_inj, String.toList_join, Template.filled, String.toList_ofList,
    ← Template.replaceAll_lexemes, ← Template.flatMap_tokens, segments]
  simp only [List.flatMap_map, hsegment]

/-! ## Calls -/

theorem FunctionTemplate.accepts_iff {template : FunctionTemplate} {count : Nat} :
    template.accepts count = true ↔
      template.minArgs ≤ count ∧ ∀ bound, template.maxArgs = some bound → count ≤ bound := by
  rw [accepts, Bool.and_eq_true, decide_eq_true_iff, Option.all_eq_true]
  simp only [decide_eq_true_iff]

namespace Recipe

variable {recipe : Recipe} {name : String} {resultType : Option SqlType}

theorem rendering_pattern (source : String) :
    ((pattern source).template name resultType).rendering =
      .patterns ⟨[(Pattern.arity ⟨source⟩, ⟨source⟩)]⟩ := rfl

theorem rendering_binaryTernary (binary ternary : String) :
    ((binaryTernary binary ternary).template name resultType).rendering =
      .patterns ⟨[(2, ⟨binary⟩), (3, ⟨ternary⟩)]⟩ := rfl

theorem fits_template (h : recipe.Fits) :
    (recipe.template name resultType).rendering.fits = true := by
  cases recipe with
  | pattern source => exact FunctionTemplate.fits_pattern
  | binaryTernary binary ternary =>
    rw [rendering_binaryTernary]
    simp [FunctionRendering.fits, Pattern.arity_le h.1, Pattern.arity_le h.2]
  | named sqlName minArgs maxArgs => rfl
  | joined operator minArgs => rfl

/-- The patterns are there for exactly the numbers of arguments that the recipe takes. -/
theorem takes_template (recipe : Recipe) (name : String) (resultType : Option SqlType)
    (count : Nat) : (recipe.template name resultType).takes count = true ↔
      (recipe.template name resultType).accepts count = true := by
  cases recipe with
  | pattern source =>
    simp only [FunctionTemplate.takes, rendering_pattern, SortedMap.contains, SortedMap.get?,
      List.lookup_isSome_iff, FunctionTemplate.accepts_iff]
    simp [template, FunctionTemplate.pattern]
    omega
  | binaryTernary binary ternary =>
    simp only [FunctionTemplate.takes, rendering_binaryTernary, SortedMap.contains, SortedMap.get?,
      List.lookup_isSome_iff, FunctionTemplate.accepts_iff]
    simp [template, FunctionTemplate.binaryTernary]
    omega
  | named sqlName minArgs maxArgs => rfl
  | joined operator minArgs => rfl

theorem accepts_template (recipe : Recipe) (name : String) (resultType : Option SqlType)
    (count : Nat) :
    (recipe.template name resultType).accepts count = true ↔ recipe.Takes count := by
  rw [FunctionTemplate.accepts_iff]
  cases recipe with
  | pattern source =>
    simp only [template, FunctionTemplate.pattern, Option.some_inj, forall_eq', Takes]
    constructor
    · rintro ⟨hmin, hmax⟩
      obtain rfl := Nat.le_antisymm hmax hmin
      exact ⟨Pattern.mentions_arity source, fun n => Pattern.le_arity⟩
    · rintro ⟨hcount, hmax⟩
      refine ⟨Pattern.arity_le hmax, ?_⟩
      rcases hcount with rfl | hcount
      · exact Nat.zero_le _
      · exact Pattern.le_arity hcount
  | binaryTernary binary ternary =>
    simp only [template, FunctionTemplate.binaryTernary, Option.some_inj, forall_eq', Takes]
    omega
  | named sqlName minArgs maxArgs => rfl
  | joined operator minArgs => simp [template, FunctionTemplate.joined, Takes]

/-- The segments of a call, filled with the arguments, are what the recipe says. -/
theorem join_expand {arguments : List String} {segments : List Segment}
    (h : (recipe.template name resultType).expand arguments.length = .ok segments) :
    String.join (segments.map (Segment.write arguments)) = recipe.text arguments := by
  have hlist (separator : String) :
      String.join ((Segment.separated separator arguments.length).map (Segment.write arguments)) =
        separator.intercalate arguments := by
    rw [Segment.join_separated (Nat.le_refl _), List.take_length]
  rcases FunctionTemplate.expand_ok_cases h with ⟨byCount, pattern, hr, hp, rfl⟩ |
    ⟨sqlName, hr, rfl⟩ | ⟨operator, hr, rfl⟩
  · cases recipe with
    | pattern source =>
      obtain rfl := FunctionRendering.patterns.inj hr
      obtain ⟨-, rfl⟩ := Prod.mk.inj (List.mem_singleton.1 (SortedMap.mem_of_get? hp))
      exact Pattern.join_segments source arguments
    | binaryTernary binary ternary =>
      obtain rfl := FunctionRendering.patterns.inj hr
      rcases List.mem_cons.1 (SortedMap.mem_of_get? hp) with hfirst | hsecond
      · obtain ⟨hcount, rfl⟩ := Prod.mk.inj hfirst
        rw [Pattern.join_segments, text, if_pos hcount]
      · obtain ⟨hcount, rfl⟩ := Prod.mk.inj (List.mem_singleton.1 hsecond)
        rw [Pattern.join_segments, text, if_neg (by omega)]
    | named sqlName minArgs maxArgs => cases hr
    | joined operator minArgs => cases hr
  · cases recipe with
    | named sqlName' minArgs maxArgs =>
      obtain rfl := FunctionRendering.named.inj hr
      simp [hlist, text, Segment.write, String.append_assoc]
    | _ => cases hr
  · cases recipe with
    | joined operator' minArgs =>
      obtain rfl := FunctionRendering.joined.inj hr
      simp [hlist, text, Segment.write, String.append_assoc]
    | _ => cases hr

theorem get?_register (recipe : Recipe) (name : String) (resultType : Option SqlType)
    (registry : FunctionRegistry) :
    (registry.register (recipe.template name resultType)).get? name =
      some (recipe.template name resultType) := by
  have hname : (recipe.template name resultType).name = Text.lower name := by
    cases recipe <;> rfl
  rw [FunctionRegistry.register, FunctionRegistry.get?, SortedMap.get?_insert, hname,
    if_pos (beq_self_eq_true _)]

/-- A call is written as its recipe says exactly if it has a number of arguments that the recipe
takes, and it is refused with the numbers that the template takes otherwise. -/
theorem render_template (recipe : Recipe) (h : recipe.Fits) (name : String)
    (resultType : Option SqlType) (arguments : List String) :
    let template := recipe.template name resultType
    template.render arguments =
        (if template.accepts arguments.length then .ok (recipe.text arguments)
        else .error (.functionArity template.name template.minArgs template.maxArgs
          arguments.length)) ∧
      (∀ count, template.accepts count = true ↔ recipe.Takes count) ∧
      ∀ registry : FunctionRegistry, (registry.register template).get? name = some template := by
  intro template
  refine ⟨?_, recipe.accepts_template name resultType, recipe.get?_register name resultType⟩
  have htakes := recipe.takes_template name resultType arguments.length
  unfold FunctionTemplate.render
  cases he : template.expand arguments.length with
  | error e =>
    obtain ⟨hnot, rfl⟩ := FunctionTemplate.expand_error_iff.1 he
    rw [if_neg fun haccepts => by simp [htakes.2 haccepts, template] at hnot]
    rfl
  | ok segments =>
    have haccepts : template.accepts arguments.length = true := by
      refine htakes.1 ?_
      by_contra hnot
      rw [FunctionTemplate.expand_error_iff.2 ⟨Bool.eq_false_iff.2 hnot, rfl⟩] at he
      cases he
    have hplaces : ∀ index, .argument index ∈ segments → index < arguments.length :=
      fun index => FunctionTemplate.lt_of_argument_mem (fits_template h) he
    rw [if_pos haccepts, ← join_expand he]
    simp only [bind, Except.bind, Segment.mapM_fill hplaces]
    rfl

/-- The place of a text in another one, from the start or from a position on. -/
def locate : Recipe :=
  .binaryTernary "position(?1 in ?2)" "(position(?1 in substring(?2 from ?3))+(?3)-1)"

/-- Marks in an argument stay as they are. -/
theorem locate_written : locate.Fits ∧
    (locate.template "Locate" (some .integer)).render ["'?2 $l'", "name"] =
      .ok "position('?2 $l' in name)" ∧
    (locate.template "Locate" (some .integer)).render ["name"] =
      .error (.functionArity "locate" 2 (some 3) 1) := by
  have hfits : locate.Fits :=
    ⟨fun n hn => Nat.le_trans (Pattern.le_arity hn) (by decide),
      fun n hn => Nat.le_trans (Pattern.le_arity hn) (by decide)⟩
  refine ⟨hfits, ?_, ?_⟩
  · refine (render_template locate hfits "Locate" (some .integer) ["'?2 $l'", "name"]).1.trans ?_
    decide +kernel
  · refine (render_template locate hfits "Locate" (some .integer) ["name"]).1.trans ?_
    decide +kernel

end Recipe

end SqlDialects
