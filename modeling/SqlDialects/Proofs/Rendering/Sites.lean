import SqlDialects.Proofs.Rendering.Refusals

/-!
# Where a node is written

A node that a statement shows has a site in the text of the statement: what is written before it
and what is written after it. Whatever ends in an order or a limit of its own is kept apart there
from what follows it.
-/

namespace SqlDialects.Sql

/-! ## Slots on both sides of a part -/

namespace Slot

variable {c : Context} {f : Fragment} {slots front back : List Slot} {slot : Slot}

theorem fill_append_ok_iff : fill c (front ++ back) = .ok f ↔
    ∃ g h, fill c front = .ok g ∧ fill c back = .ok h ∧ f = g ++ h := by
  rw [fill_append, Rendered.andThen_ok_iff]

theorem fill_cons_ok_iff : fill c (slot :: back) = .ok f ↔
    ∃ g h, slot.render c = .ok g ∧ fill c back = .ok h ∧ f = g ++ h := by
  rw [fill_cons, Rendered.andThen_ok_iff]

theorem fill_text_cons_ok_iff {t : String} : fill c (text t :: back) = .ok f ↔
    ∃ g, fill c back = .ok g ∧ f = .ofText t ++ g := by
  rw [fill_cons_ok_iff]
  constructor
  · rintro ⟨_, g, ht, hg, rfl⟩
    obtain rfl := Except.ok.inj ht
    exact ⟨g, hg, rfl⟩
  · rintro ⟨g, hg, rfl⟩
    exact ⟨_, g, rfl, hg, rfl⟩

/-- One of the slots stands for the node, with these fragments on both sides of it. -/
def Frames (c : Context) (slots : List Slot) (isInner : Bool) (n : Node)
    (before after : Fragment) : Prop :=
  ∃ front back, slots = front ++ part isInner n :: back ∧ fill c front = .ok before ∧
    fill c back = .ok after

variable {isInner : Bool} {n : Node} {before after : Fragment}

theorem Frames.render (h : Frames c slots isInner n before after) (hf : fill c slots = .ok f) :
    ∃ g, n.render (if isInner then c.nested else c) = .ok g ∧ f = before ++ g ++ after := by
  obtain ⟨front, back, rfl, hbefore, hafter⟩ := h
  obtain ⟨_, rest, hfront, hrest, rfl⟩ := fill_append_ok_iff.1 hf
  obtain ⟨g, _, hg, hback, rfl⟩ := fill_cons_ok_iff.1 hrest
  obtain rfl := Except.ok.inj (hbefore.symm.trans hfront)
  obtain rfl := Except.ok.inj (hafter.symm.trans hback)
  exact ⟨g, hg, (Fragment.append_assoc _ _ _).symm⟩

theorem exists_frames (hf : fill c slots = .ok f) (h : part isInner n ∈ slots) :
    ∃ before after, Frames c slots isInner n before after := by
  obtain ⟨front, back, rfl⟩ := List.append_of_mem h
  obtain ⟨before, rest, hbefore, hrest, -⟩ := fill_append_ok_iff.1 hf
  obtain ⟨-, after, -, hafter, -⟩ := fill_cons_ok_iff.1 hrest
  exact ⟨before, after, front, back, rfl, hbefore, hafter⟩

end Slot

/-! ## Sites -/

/-- A place in the text of a statement. -/
structure Site where
  context : Context
  /-- What a query at this place has behind its first table. -/
  hint : String := ""
  before : Fragment := {}
  after : Fragment := {}

namespace Site

/-- The text with a fragment at the site. -/
def around (site : Site) (f : Fragment) : Fragment := site.before ++ f ++ site.after

/-- A site in what stands at the site. -/
def inside (site : Site) (isInner : Bool) (before after : Fragment) : Site where
  context := if isInner then site.context.nested else site.context
  before := site.before ++ before
  after := after ++ site.after

/-- The site of a query whose rows are locked. -/
def locked (d : Dialect) (lock : LockOptions) : Site where
  context := { dialect := d }
  hint :=
    match d.rules.lockSyntax with
    | .tableHint _ _ => LockOptions.text d lock
    | _ => ""
  before := { warnings := LockOptions.warnings d lock }
  after :=
    match d.rules.lockSyntax with
    | .clause => .ofText (LockOptions.text d lock)
    | _ => {}

theorem around_inside (site : Site) (isInner : Bool) (before after f : Fragment) :
    (site.inside isInner before after).around f = site.around (before ++ f ++ after) := by
  simp only [around, inside, Fragment.append_assoc]

theorem around_of_empty {site : Site} (hb : site.before = {}) (ha : site.after = {})
    (f : Fragment) : site.around f = f := by
  rw [around, hb, ha, Fragment.append_empty, Fragment.empty_append]

end Site

namespace Node

def layoutAt (site : Site) : Node → List Slot
  | query q => q.layout site.context site.hint
  | n => n.layout site.context

def renderAt (site : Site) : Node → Rendered
  | query q => q.render site.context site.hint
  | n => n.render site.context

variable {site : Site} {n : Node}

theorem renderAt_eq_fill (site : Site) (n : Node) :
    n.renderAt site = Slot.fill site.context (n.layoutAt site) := by
  cases n with
  | query q => exact q.render_eq_fill site.context site.hint
  | expression e => exact e.render_eq_fill site.context
  | condition p => exact p.render_eq_fill site.context

theorem renderAt_of_no_hint (h : site.hint = "") : n.renderAt site = n.render site.context := by
  cases n with
  | query q => rw [renderAt, render, h]
  | expression | condition => rfl

theorem part_mem_layoutAt_iff {isInner : Bool} {m : Node} :
    .part isInner m ∈ n.layoutAt site ↔ .part isInner m ∈ n.layout site.context := by
  cases n with
  | query q => exact ⟨Query.part_mem_layout_of_hint, Query.part_mem_layout_of_hint⟩
  | expression | condition => rfl

end Node

/-- What is written for a lock stands before its query, behind it, or in its hint. -/
theorem lockedQuery_around {d : Dialect} {query : Query} {lock : LockOptions} {f : Fragment}
    (h : lockedQuery { dialect := d } query lock = .ok f) :
    ∃ g, (Node.query query).renderAt (.locked d lock) = .ok g ∧
      f = (Site.locked d lock).around g := by
  unfold Node.renderAt Site.around Site.locked
  unfold lockedQuery at h
  cases hq : query.isGroup with
  | true => simp [hq, Context.refuse] at h
  | false =>
    simp only [hq, Bool.false_eq_true, if_false] at h
    cases hs : d.rules.lockSyntax with
    | clause =>
      simp only [hs, LockOptions.optionWarning_eq lock (d := d) (by simp [hs]),
        Rendered.concat_cons, Rendered.concat_nil, Rendered.andThen_empty,
        Rendered.andThen_ok_iff, LockOptions.text] at h ⊢
      obtain ⟨w, rest, hw, ⟨g, t, hg, ht, rfl⟩, rfl⟩ := h
      obtain rfl := Except.ok.inj hw
      obtain rfl := Except.ok.inj ht
      exact ⟨g, hg, (Fragment.append_assoc _ _ _).symm⟩
    | tableHint update share =>
      simp only [hs, LockOptions.optionWarning_eq lock (d := d) (by simp [hs]),
        Rendered.concat_cons, Rendered.concat_nil, Rendered.andThen_empty,
        Rendered.andThen_ok_iff, LockOptions.text] at h ⊢
      obtain ⟨w, g, hw, hg, rfl⟩ := h
      obtain rfl := Except.ok.inj hw
      exact ⟨g, hg, (Fragment.append_empty _).symm⟩
    | omitted =>
      have hwarnings : LockOptions.warnings d lock = [.lockClauseOmitted d.name] := by
        rw [LockOptions.warnings, if_pos hs]
      simp only [hs, Rendered.concat_cons, Rendered.concat_nil, Rendered.andThen_empty,
        Rendered.andThen_ok_iff] at h ⊢
      obtain ⟨w, g, hw, hg, rfl⟩ := h
      obtain rfl := Except.ok.inj hw
      refine ⟨g, hg, ?_⟩
      rw [hwarnings, Fragment.append_empty]

/-! ## Written nodes -/

namespace Statement

/-- The statement writes the node at the site. -/
inductive WritesAt (d : Dialect) (statement : Statement) : Site → Node → Prop
  | selected {query : Query} (h : statement = .select query none) :
    WritesAt d statement { context := { dialect := d } } (.query query)
  | locked {query : Query} {lock : LockOptions} (h : statement = .select query (some lock)) :
    WritesAt d statement (.locked d lock) (.query query)
  | part {isInner : Bool} {n : Node} {before after : Fragment} (hs : statement.isSelect = false)
      (h : Slot.Frames (statement.context d) (statement.layout d) isInner n before after) :
    WritesAt d statement (Site.inside { context := statement.context d } isInner before after) n
  | inside {site : Site} {isInner : Bool} {n m : Node} {before after : Fragment}
      (hn : WritesAt d statement site n)
      (h : Slot.Frames site.context (n.layoutAt site) isInner m before after) :
    WritesAt d statement (site.inside isInner before after) m

variable {d : Dialect} {config : TranslationConfig} {statement : Statement} {isInner : Bool}
  {site : Site} {n : Node} {f : Fragment}

theorem WritesAt.dialect_eq (hw : statement.WritesAt d site n) : site.context.dialect = d := by
  induction hw with
  | selected | locked => rfl
  | part hs h =>
    rw [Site.inside]
    split <;> cases statement <;> rfl
  | inside hn h ih =>
    rw [Site.inside]
    split <;> exact ih

/-- A statement is the text around any of its sites, with what stands there. -/
theorem WritesAt.around (h : statement.render d = .ok f) (hw : statement.WritesAt d site n) :
    ∃ g, n.renderAt site = .ok g ∧ f = site.around g := by
  induction hw with
  | selected hs =>
    subst hs
    exact ⟨f, h, (Site.around_of_empty rfl rfl f).symm⟩
  | locked hs =>
    subst hs
    exact lockedQuery_around h
  | part hs hn =>
    rw [render_eq_fill] at h
    obtain ⟨g, hg, rfl⟩ := hn.render h
    refine ⟨g, ?_, ?_⟩
    · rw [Node.renderAt_of_no_hint rfl]
      exact hg
    · rw [Site.around_inside, Site.around_of_empty rfl rfl]
  | inside _ hm ih =>
    obtain ⟨g, hg, rfl⟩ := ih
    rw [Node.renderAt_eq_fill] at hg
    obtain ⟨g', hg', rfl⟩ := hm.render hg
    refine ⟨g', ?_, (Site.around_inside _ _ _ _ _).symm⟩
    rw [Node.renderAt_of_no_hint rfl]
    exact hg'

/-- Whatever a statement shows is written somewhere in its text. -/
theorem exists_writesAt (h : statement.render d = .ok f) (hs : statement.Shows d isInner n) :
    ∃ site, statement.WritesAt d site n ∧ site.context = statement.contextAt d isInner := by
  induction hs with
  | @outermost query lock hs =>
    subst hs
    cases lock with
    | none => exact ⟨_, .selected rfl, rfl⟩
    | some lock => exact ⟨_, .locked rfl, rfl⟩
  | part hs hpart =>
    rw [render_eq_fill] at h
    obtain ⟨before, after, hn⟩ := Slot.exists_frames h hpart
    refine ⟨_, .part hs hn, ?_⟩
    rw [(child_of_layout hs hpart).2]
    rfl
  | @inside isInner b n m _ hpart ih =>
    obtain ⟨site, hw, hc⟩ := ih
    obtain ⟨g, hg, -⟩ := hw.around h
    rw [← hc, ← Node.part_mem_layoutAt_iff] at hpart
    rw [Node.renderAt_eq_fill] at hg
    obtain ⟨before, after, hm⟩ := Slot.exists_frames hg hpart
    refine ⟨_, .inside hw hm, ?_⟩
    rw [Site.inside, hc, contextAt_part,
      Node.isInner_of_layout (Node.part_mem_layoutAt_iff.1 hpart)]

/-- What is written somewhere is shown. -/
theorem WritesAt.shows (hw : statement.WritesAt d site n) :
    ∃ isInner, statement.Shows d isInner n ∧ site.context = statement.contextAt d isInner := by
  induction hw with
  | selected hs => exact ⟨false, .outermost hs, by rw [hs]; rfl⟩
  | locked hs => exact ⟨false, .outermost hs, by rw [hs]; rfl⟩
  | @part isInner n before after hs h =>
    obtain ⟨front, back, hslots, -⟩ := h
    have hpart : .part isInner n ∈ statement.layout d := hslots ▸ List.mem_append_cons_self
    refine ⟨_, .part hs hpart, ?_⟩
    rw [← (child_of_layout hs hpart).2]
    rfl
  | @inside site isInner n m before after _ h ih =>
    obtain ⟨isOuter, hshown, hc⟩ := ih
    obtain ⟨front, back, hslots, -⟩ := h
    have hpart : .part isInner m ∈ n.layout (statement.contextAt d isOuter) := by
      rw [← hc, ← Node.part_mem_layoutAt_iff, hslots]
      exact List.mem_append_cons_self
    refine ⟨_, .inside hshown hpart, ?_⟩
    rw [Site.inside, hc, contextAt_part, Node.isInner_of_layout hpart]

end Statement

/-! ## Queries that are kept apart -/

namespace Slot

/-- Parentheses stand around each query in the slots that needs them. -/
def Encloses (slots : List Slot) : Prop :=
  ∀ front back isInner q, slots = front ++ part isInner (.query q) :: back →
    Context.needsParentheses q = true →
      ∃ front' back', front = front' ++ [text "("] ∧ back = text ")" :: back'

variable {slots slots' : List Slot}

theorem encloses_of_no_query (h : ∀ isInner q, part isInner (.query q) ∉ slots) :
    Encloses slots := by
  intro front back isInner q hslots
  exact absurd (hslots ▸ List.mem_append_cons_self) (h isInner q)

theorem Encloses.append (h : Encloses slots) (h' : Encloses slots') :
    Encloses (slots ++ slots') := by
  intro front back isInner q heq hq
  rcases List.append_eq_append_iff.1 heq with ⟨more, rfl, hright⟩ | ⟨more, hleft, hright⟩
  · -- The query is one of the slots behind.
    obtain ⟨front', back', rfl, rfl⟩ := h' more back isInner q hright hq
    exact ⟨slots ++ front', back', (List.append_assoc _ _ _).symm, rfl⟩
  · rcases List.cons_eq_append_iff.1 hright with ⟨rfl, hright⟩ | ⟨more', rfl, rfl⟩
    · obtain ⟨front', back', hfront, -⟩ := h' [] back isInner q hright.symm hq
      simp at hfront
    · obtain ⟨front', back', hfront, hback⟩ := h front more' isInner q hleft hq
      exact ⟨front', back' ++ slots', hfront, by rw [hback, List.cons_append]⟩

theorem Encloses.cons {slot : Slot} (hs : ∀ isInner q, slot ≠ part isInner (.query q))
    (h : Encloses slots) : Encloses (slot :: slots) := by
  have hslot : Encloses [slot] := by
    apply encloses_of_no_query
    intro isInner q hmem
    exact hs isInner q (List.mem_singleton.1 hmem).symm
  exact hslot.append h

theorem encloses_between {isInner : Bool} {n : Node} :
    Encloses [text "(", part isInner n, text ")"] := by
  intro front back isInner' q heq _
  have hopen : part isInner n ∉ [text "("] := by simp
  have hclose : part isInner n ∉ [text ")"] := by simp
  by_cases hn : part isInner' (.query q) = part isInner n
  · rw [hn] at heq
    obtain ⟨rfl, -, rfl⟩ := (List.append_cons_inj_of_notMem hopen hclose).1 heq
    exact ⟨[], [], rfl, rfl⟩
  · have hmem : part isInner' (.query q) ∈ [text "(", part isInner n, text ")"] :=
      heq ▸ List.mem_append_cons_self
    simp only [List.mem_cons, part_eq_text_iff, List.not_mem_nil, or_false, false_or] at hmem
    exact absurd hmem hn

theorem encloses_subquery (q : Query) : Encloses (subquery q) := encloses_between

theorem encloses_separated {separator : String} {rows : List (List Slot)}
    (h : ∀ row ∈ rows, Encloses row) : Encloses (separated separator rows) := by
  induction rows with
  | nil => exact encloses_of_no_query (by simp [separated])
  | cons row rest ih =>
    have hrow := h row List.mem_cons_self
    have hrest := ih fun row hr => h row (List.mem_cons_of_mem _ hr)
    cases rest with
    | nil => exact hrow
    | cons next rest => exact hrow.append (hrest.cons (by simp [text]))

end Slot

/-- An operand has its parentheses if it needs them. -/
theorem Context.encloses_operandQueryLayout (q : Query) :
    Slot.Encloses (operandQueryLayout q) := by
  unfold operandQueryLayout
  split
  · exact Slot.encloses_between
  · next hq =>
    intro front back isInner q' heq hq'
    have hmem : .part isInner (.query q') ∈ [Slot.part false (.query q)] :=
      heq ▸ List.mem_append_cons_self
    obtain ⟨-, rfl⟩ : isInner = false ∧ q' = q := by simpa using hmem
    exact absurd hq' hq

theorem Expression.encloses_layout (c : Context) (e : Expression) :
    Slot.Encloses (e.layout c) := by
  by_cases he : ∃ q, e = .subquery q
  · obtain ⟨q, rfl⟩ := he
    exact Slot.encloses_subquery q
  · apply Slot.encloses_of_no_query
    intro isInner q hq
    apply he
    have hchild := (child_of_layout hq).1
    cases e with
    | subquery q' => exact ⟨q', rfl⟩
    | column | literal | parameter | star | extract | format | cast | negate | timestampAdd |
        timestampDiff | binary | aggregate | call | tuple => simp [children] at hchild
    | case branches otherwise => simp [children, CaseBranch.nodes] at hchild

theorem Condition.encloses_layout (c : Context) (p : Condition) :
    Slot.Encloses (p.layout c) := by
  have hchild (h : ∀ q, .query q ∉ p.children) : Slot.Encloses (p.layout c) := by
    apply Slot.encloses_of_no_query
    intro isInner q hq
    cases (below_of_layout hq).1 with
    | child hmem => exact h q hmem
  cases p with
  | inQuery operand query isNegated =>
    have hslots : Slot.Encloses (.expression operand :: .own (Context.negatable isNegated "in ") ::
        Slot.subquery query) :=
      ((Slot.encloses_subquery query).cons (by simp)).cons (by simp [Slot.expression])
    have hrequiring {capability : Capability} {construct : String} {slots : List Slot}
        (h : Slot.Encloses slots) :
        Slot.Encloses (c.requiringLayout capability construct slots) := by
      unfold Context.requiringLayout
      split
      · exact h
      · exact Slot.encloses_of_no_query (by simp)
    rw [layout]
    unfold Context.memberLayout
    split
    · exact hrequiring hslots
    · exact hrequiring hslots
    · exact hslots
  | «exists» query isNegated => exact (Slot.encloses_subquery query).cons (by simp [Slot.text])
  | compare | all | any | not | isNull | inList | like | between | holds =>
    exact hchild (by simp [children])

theorem Query.encloses_layout (c : Context) (hint : String) (q : Query) :
    Slot.Encloses (q.layout c hint) := by
  cases q with
  | spec body =>
    apply Slot.encloses_of_no_query
    intro isInner q hq
    have hchild := (Query.child_of_layout hq).2
    simp [children, QuerySpec.children] at hchild
  | group operator parts orderBy limit offset =>
    rw [layout]
    split
    · exact Slot.encloses_of_no_query (by simp)
    · refine Slot.Encloses.append (Slot.encloses_separated ?_) (Slot.encloses_of_no_query ?_)
      · intro row hrow
        obtain ⟨part, -, rfl⟩ := List.mem_map.1 hrow
        exact Context.encloses_operandQueryLayout part
      · intro isInner q hq
        obtain ⟨-, e, -, hn⟩ := Context.part_mem_endLayout hq
        simp at hn

theorem Node.encloses_layoutAt (site : Site) (n : Node) : Slot.Encloses (n.layoutAt site) := by
  cases n with
  | expression e => exact e.encloses_layout site.context
  | condition p => exact p.encloses_layout site.context
  | query q => exact q.encloses_layout site.context site.hint

namespace Statement

/-- The query that a statement selects, or inserts the rows of. -/
def query? : Statement → Option Query
  | select q _ => some q
  | insert _ _ (.query q) => some q
  | _ => none

/-- Nothing that follows a query is taken for an end of it, nor its end for that of a query
around it. -/
inductive SetsApart (d : Dialect) (statement : Statement) (site : Site) (q : Query) : Prop
  | endless (h : Context.needsParentheses q = false)
  | enclosed {front back : Fragment} (hb : site.before = front ++ .ofText "(")
    (ha : site.after = .ofText ")" ++ back)
  | whole (h : statement.query? = some q)
    (ha : site.after = {} ∨ ∃ lock, site.after = .ofText (LockOptions.text d lock))

variable {d : Dialect} {statement : Statement} {site : Site} {q : Query}

/-- Of the statements that are no selects, only an insertion has a query of its own, and nothing
follows it. -/
theorem query?_of_frames {isInner : Bool} {before after : Fragment}
    (hs : statement.isSelect = false)
    (h : Slot.Frames (statement.context d) (statement.layout d) isInner (.query q) before after) :
    statement.query? = some q ∧ after = {} := by
  obtain ⟨front, back, hlayout, -, hback⟩ := h
  have hmem : .part isInner (.query q) ∈ statement.layout d :=
    hlayout ▸ List.mem_append_cons_self
  have hchild := (child_of_layout hs hmem).1
  cases statement with
  | select => simp [isSelect] at hs
  | update target assignments condition => simp [children] at hchild
  | delete target condition => simp [children] at hchild
  | insert table columns source =>
    cases source with
    | rows values => simp [children, InsertSource.children] at hchild
    | query source =>
      obtain rfl : q = source := by simpa [children, InsertSource.children] using hchild
      rw [layout] at hlayout hmem
      split at hlayout
      · next hc => simp [hc] at hmem
      · have hnot : .part isInner (.query q) ∉ .text "insert into " :: .own (.table table) ::
            .text " (" :: Slot.separated ", " (columns.map fun name => [.own (.name name)]) ++
              [.text ") "] := by simp
        obtain ⟨-, -, rfl⟩ := (List.append_cons_inj_of_notMem hnot (by simp)).1
          ((List.append_assoc _ _ _).trans hlayout)
        exact ⟨rfl, (Except.ok.inj hback).symm⟩

theorem WritesAt.setsApart (hw : statement.WritesAt d site (.query q)) :
    SetsApart d statement site q := by
  generalize hn : Node.query q = n at hw
  cases hw with
  | selected hs =>
    obtain rfl := Node.query.inj hn
    exact .whole (by rw [hs, query?]) (.inl rfl)
  | @locked query lock hs =>
    obtain rfl := Node.query.inj hn
    refine .whole (by rw [hs, query?]) ?_
    unfold Site.locked
    cases d.rules.lockSyntax with
    | clause => exact .inr ⟨lock, rfl⟩
    | tableHint | omitted => exact .inl rfl
  | part hs h =>
    subst hn
    obtain ⟨hq, rfl⟩ := query?_of_frames hs h
    exact .whole hq (.inl (Fragment.append_empty _))
  | @inside site isInner n m before after _ h =>
    subst hn
    cases hp : Context.needsParentheses q with
    | false => exact .endless hp
    | true =>
      obtain ⟨front, back, hlayout, hbefore, hafter⟩ := h
      obtain ⟨front', back', rfl, rfl⟩ := n.encloses_layoutAt site front back isInner q hlayout hp
      obtain ⟨f, t, -, ht, rfl⟩ := Slot.fill_append_ok_iff.1 hbefore
      obtain ⟨g, -, rfl⟩ := Slot.fill_text_cons_ok_iff.1 hafter
      obtain rfl := Except.ok.inj ht
      exact .enclosed (Fragment.append_assoc _ _ _).symm (Fragment.append_assoc _ _ _)

end Statement

end SqlDialects.Sql
