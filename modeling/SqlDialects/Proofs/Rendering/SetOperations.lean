import Mathlib.Data.List.Forall2
import SqlDialects.Proofs.Rendering.Limits

/-!
# Reading set operations back

How a written query is read: it is a `select`, or operands with one operator between them, and
behind them the order and the limits of the whole. An operand is a `select` that nothing follows,
or a query in parentheses. The text of a query has exactly one reading. It is the query itself,
without the orders that its dialect removes.
-/

namespace SqlDialects.Sql

open Slot (fill)

/-! ## Words of a query -/

/-- The words of a written query. What stands between `select` and the order is one word. -/
inductive Query.Word where
  | select (body : QuerySpec)
  | between (operator : SetOperator)
  | open
  | close
  | order (keys : List (SortKey Expression))
  /-- The limits at the end of a query. Without an order they may have to bring one along. -/
  | page (hasOrder : Bool) (limits : Option Expression × Option Expression)

namespace Query.Word

def layout (c : Context) : Word → List Slot
  | .select body => .text "select " ::
      (c.prefixLayout body.isDistinct body.limit ++ Context.bodyLayout "" body)
  | .between operator => [.text (" " ++ operator.sql ++ " ")]
  | .open => [.text "("]
  | .close => [.text ")"]
  | .order keys => .text " order by " :: Slot.separated ", " (keys.map c.keyLayout)
  | .page hasOrder limits => c.paginationLayout hasOrder limits.1 limits.2

def spell (c : Context) (ws : List Word) : Rendered := fill c (ws.flatMap (layout c))

/-- Rows of words with an operator between neighbours. -/
def chain (operator : SetOperator) : List (List Word) → List Word
  | [] => []
  | [ws] => ws
  | ws :: next :: rest => ws ++ .between operator :: chain operator (next :: rest)

def orderWords (keys : List (SortKey Expression)) : List Word :=
  if keys.isEmpty then [] else [.order keys]

def pageWords (hasOrder : Bool) (limits : Option Expression × Option Expression) : List Word :=
  if limits.1.isNone && limits.2.isNone then [] else [.page hasOrder limits]

/-- What follows a `select` or the last operand. -/
def ending (keys : List (SortKey Expression))
    (limits : Option Expression × Option Expression) : List Word :=
  orderWords keys ++ pageWords (!keys.isEmpty) limits

end Query.Word

namespace Context

/-- The sort list of a query, if it is written. -/
def keptKeys (c : Context) (keys : List (SortKey Expression)) (isPaginated : Bool) :
    List (SortKey Expression) :=
  if c.orderFate (!keys.isEmpty) isPaginated = .kept then keys else []

/-- The limits of a query, unless they are written behind its `select`. -/
def endLimits (c : Context) (limits : Option Expression × Option Expression) :
    Option Expression × Option Expression :=
  if c.dialect.rowLimit.leads then (none, none) else limits

end Context

namespace Query

/-- What is written behind the operands, or behind the conditions and groups of a spec. -/
def endWords (c : Context) (q : Query) : List Word :=
  Word.ending (c.keptKeys q.orderBy q.isPaginated) (c.endLimits q.limits)

mutual

/-- The words of a query, in the order of the text. -/
def words (c : Context) : Query → List Word
  | .spec body => .select body :: endWords c (.spec body)
  | .group operator parts orderBy limit offset =>
    Word.chain operator (operandWords c parts) ++
      endWords c (.group operator parts orderBy limit offset)

def operandWords (c : Context) : List Query → List (List Word)
  | [] => []
  | q :: rest =>
    (if Context.needsParentheses q then .open :: words c q ++ [.close] else words c q) ::
      operandWords c rest

end

mutual

/-- The query with the orders that are written. -/
def written (c : Context) : Query → Query
  | .spec body => .spec { body with orderBy := c.keptKeys body.orderBy body.isPaginated }
  | .group operator parts orderBy limit offset =>
    .group operator (writtenAll c parts)
      (c.keptKeys orderBy (limit.isSome || offset.isSome)) limit offset

def writtenAll (c : Context) : List Query → List Query
  | [] => []
  | q :: rest => written c q :: writtenAll c rest

end

def operand (c : Context) (q : Query) : List Word :=
  if Context.needsParentheses q then .open :: words c q ++ [.close] else words c q

theorem operandWords_eq (c : Context) (parts : List Query) :
    operandWords c parts = parts.map (operand c) := by
  induction parts <;> simp_all [operandWords, operand]

theorem writtenAll_eq (c : Context) (parts : List Query) :
    writtenAll c parts = parts.map (written c) := by
  induction parts <;> simp_all [writtenAll]

/-- Induction over set operations, with all operands at once. -/
theorem operand_induction {motive : Query → Prop} (spec : ∀ body, motive (.spec body))
    (group : ∀ operator parts orderBy limit offset, (∀ q ∈ parts, motive q) →
      motive (.group operator parts orderBy limit offset)) (q : Query) : motive q := by
  induction h : sizeOf q using Nat.strongRecOn generalizing q with
  | ind size ih =>
    subst h
    cases q with
    | spec body => exact spec body
    | group operator parts orderBy limit offset =>
      refine group operator parts orderBy limit offset fun q hq => ih _ ?_ q rfl
      have := List.sizeOf_lt_of_mem hq
      simp
      omega

/-! ## Reading -/

/-- What some words are read as. -/
inductive Phrase where
  | operand (q : Query)
  | chain (operator : SetOperator) (operands : List Query)
  | whole (q : Query)

end Query

/-- The spec that begins with the `select` of another one and goes on with an order and limits of
its own. -/
def QuerySpec.ended (d : Dialect) (body : QuerySpec) (keys : List (SortKey Expression))
    (limits : Option Expression × Option Expression) : QuerySpec :=
  { body with orderBy := keys
              limit := if d.rowLimit.leads then body.limit else limits.1
              offset := limits.2 }

namespace Query

/-- How words are read. A chain has one operator, and the order and the limits behind it are
those of the whole. -/
inductive Reads (d : Dialect) : List Word → Phrase → Prop
  | select (body : QuerySpec) :
    Reads d [.select body] (.operand (.spec (body.ended d [] (none, none))))
  | parentheses {ts : List Word} {q : Query} (h : Reads d ts (.whole q)) :
    Reads d (.open :: ts ++ [.close]) (.operand q)
  | last {operator : SetOperator} {ts : List Word} {q : Query} (h : Reads d ts (.operand q)) :
    Reads d ts (.chain operator [q])
  | next {operator : SetOperator} {ts us : List Word} {q : Query} {operands : List Query}
    (h : Reads d ts (.operand q)) (h' : Reads d us (.chain operator operands)) :
    Reads d (ts ++ .between operator :: us) (.chain operator (q :: operands))
  | spec (body : QuerySpec) (keys : List (SortKey Expression))
    (limits : Option Expression × Option Expression) :
    Reads d (.select body :: Word.ending keys limits) (.whole (.spec (body.ended d keys limits)))
  | group {operator : SetOperator} {ts : List Word} {operands : List Query}
    (keys : List (SortKey Expression)) (limits : Option Expression × Option Expression)
    (h : Reads d ts (.chain operator operands)) (hl : 2 ≤ operands.length) :
    Reads d (ts ++ Word.ending keys limits)
      (.whole (.group operator operands keys limits.1 limits.2))

/-! ## No two readings -/

/-- What is known of a query that is being read. -/
structure Pending where
  operands : List Query := []
  operator : Option SetOperator := none
  keys : List (SortKey Expression) := []
  limits : Option Expression × Option Expression := (none, none)

namespace Pending

def add (f : Pending) (q : Query) : Pending := { f with operands := f.operands ++ [q] }

def value (d : Dialect) (f : Pending) : Option Query :=
  match f.operator, f.operands with
  | some operator, operands => some (.group operator operands f.keys f.limits.1 f.limits.2)
  | none, [.spec body] => some (.spec (body.ended d f.keys f.limits))
  | none, _ => none

/-- One step of reading, with what is pending in the parentheses that are open around. -/
def step (d : Dialect) : Word → Pending × List Pending → Pending × List Pending
  | .select body, (f, outer) => (f.add (.spec (body.ended d [] (none, none))), outer)
  | .between operator, (f, outer) => ({ f with operator := some operator }, outer)
  | .open, (f, outer) => ({}, f :: outer)
  | .close, (f, g :: outer) => ((f.value d).elim g g.add, outer)
  | .close, (f, []) => (f, [])
  | .order keys, (f, outer) => ({ f with keys := keys }, outer)
  | .page _ limits, (f, outer) => ({ f with limits := limits }, outer)

def run (d : Dialect) (state : Pending × List Pending) (ts : List Word) :
    Pending × List Pending :=
  ts.foldl (fun state t => step d t state) state

variable {d : Dialect} {ts us : List Word}

theorem run_append (state : Pending × List Pending) :
    run d state (ts ++ us) = run d (run d state ts) us := List.foldl_append

theorem run_cons (state : Pending × List Pending) (t : Word) :
    run d state (t :: ts) = run d (step d t state) ts := rfl

theorem run_ending {f : Pending} (hk : f.keys = []) (hl : f.limits = (none, none))
    (outer : List Pending) (keys : List (SortKey Expression))
    (limits : Option Expression × Option Expression) :
    run d (f, outer) (Word.ending keys limits) =
      ({ f with keys := keys, limits := limits }, outer) := by
  obtain ⟨operands, operator, _, _⟩ := f
  obtain rfl : _ = [] := hk
  obtain rfl : _ = (none, none) := hl
  obtain ⟨limit, offset⟩ := limits
  rw [Word.ending, run_append]
  cases keys <;> cases limit <;> cases offset <;> rfl

end Pending

/-- What reading a phrase does to what is pending. -/
def Phrase.Effect (d : Dialect) (ts : List Word) : Phrase → Prop
  | operand q => ∀ f outer, Pending.run d (f, outer) ts = (f.add q, outer)
  | chain operator operands => operands ≠ [] ∧ ∀ f outer, Pending.run d (f, outer) ts =
      ({ f with operands := f.operands ++ operands
                operator := if operands.length < 2 then f.operator else some operator }, outer)
  | whole q => ∀ outer, ∃ f, Pending.run d ({}, outer) ts = (f, outer) ∧ f.value d = some q

namespace Reads

variable {d : Dialect} {ts : List Word} {q r : Query} {phrase : Phrase}

theorem effect (h : Reads d ts phrase) : phrase.Effect d ts := by
  induction h with
  | select body => exact fun f outer => rfl
  | @parentheses ts q h ih =>
    -- What is pending outside waits below until the parenthesis closes.
    intro f outer
    obtain ⟨g, hg, hvalue⟩ := ih (f :: outer)
    rw [List.cons_append, Pending.run_cons, Pending.run_append, Pending.step, hg,
      Pending.run_cons, Pending.step, hvalue]
    rfl
  | @last operator ts q h ih => exact ⟨List.cons_ne_nil _ _, ih⟩
  | @next operator ts us q operands h h' ih ih' =>
    obtain ⟨hne, ih'⟩ := ih'
    refine ⟨List.cons_ne_nil _ _, fun f outer => ?_⟩
    have hl : ¬ (q :: operands).length < 2 :=
      Nat.not_lt.2 (Nat.succ_le_succ (List.length_pos_of_ne_nil hne))
    rw [Pending.run_append, ih, Pending.run_cons, Pending.step, ih', if_neg hl, ite_self]
    simp only [Pending.add, List.append_assoc, List.singleton_append]
  | spec body keys limits =>
    intro outer
    refine ⟨_, Pending.run_ending rfl rfl outer keys limits, ?_⟩
    simp only [Pending.value, Pending.add, List.nil_append, QuerySpec.ended, Option.some.injEq,
      spec.injEq, QuerySpec.mk.injEq, and_true, true_and]
    split <;> rfl
  | @group operator ts operands keys limits h hl ih =>
    intro outer
    have hend : Pending.run d ({}, outer) (ts ++ Word.ending keys limits) =
        ({ operands := operands, operator := some operator, keys := keys, limits := limits },
          outer) := by
      rw [Pending.run_append, ih.2, if_neg (Nat.not_lt.2 hl), List.nil_append]
      exact Pending.run_ending rfl rfl outer keys limits
    exact ⟨_, hend, rfl⟩

theorem unique (h : Reads d ts (.whole q)) (h' : Reads d ts (.whole r)) : q = r := by
  -- One pass over the words has one outcome, and each of the readings gives its value.
  obtain ⟨f, hf, hq⟩ := h.effect []
  obtain ⟨g, hg, hr⟩ := h'.effect []
  rw [hf] at hg
  rw [(Prod.mk.inj hg).1] at hq
  exact Option.some.inj (hq.symm.trans hr)

end Reads

end Query

/-! ## Reading the words of a query -/

namespace Context

variable {c : Context}

/-- Without limits there is nothing to tell where they stand. -/
theorem endLimits_none : c.endLimits (none, none) = (none, none) := by
  unfold endLimits
  split <;> rfl

theorem keptKeys_nil (isPaginated : Bool) : c.keptKeys [] isPaginated = [] := by
  unfold keptKeys
  split <;> rfl

variable {keys : List (SortKey Expression)}

theorem keptKeys_of_kept (isPaginated : Bool)
    (hc : c.isNested = false ∨ c.dialect.supports .orderByInSubquery = true) :
    c.keptKeys keys isPaginated = keys := by
  have hkept : (!c.isNested || c.dialect.supports .orderByInSubquery) = true := by simpa using hc
  unfold keptKeys orderFate
  cases keys with
  | nil => rfl
  | cons => simp [hkept]

theorem keptKeys_of_removed (hn : c.isNested = true)
    (hs : c.dialect.supports .orderByInSubquery = false) : c.keptKeys keys false = [] := by
  unfold keptKeys orderFate
  cases keys with
  | nil => rfl
  | cons => simp [hn, hs]

end Context

namespace Query

variable {c : Context} {hint : String} {f : Fragment}

theorem part_mem_operands {separator : String} {parts : List Query} {q : Query} (hq : q ∈ parts) :
    .part false (.query q) ∈
      Slot.separated separator (parts.map Context.operandQueryLayout) := by
  refine Slot.part_mem_separated_iff.2 ⟨_, List.mem_map_of_mem hq, ?_⟩
  unfold Context.operandQueryLayout
  split <;> simp

/-- A set operation that is not refused has two operands or more, which are not refused either,
and no limit that would have to stand behind a `select`. -/
theorem group_ok {operator : SetOperator} {parts : List Query}
    {orderBy : List (SortKey Expression)} {limit offset : Option Expression}
    (h : (group operator parts orderBy limit offset).render c hint = .ok f) :
    2 ≤ parts.length ∧ c.endLimits (limit, offset) = (limit, offset) ∧
      (∃ g g', fill c (Slot.separated (" " ++ operator.sql ++ " ")
          (parts.map Context.operandQueryLayout)) = .ok g ∧
        fill c (c.endLayout orderBy limit offset) = .ok g' ∧ f = g ++ g') ∧
      ∀ q ∈ parts, ∃ g, q.render c "" = .ok g := by
  rw [render_eq_fill, layout] at h
  split at h
  · exact absurd (List.mem_singleton.2 rfl) (Slot.not_error_mem h)
  · next hcheck =>
    obtain ⟨g, g', hg, hg', rfl⟩ := Slot.fill_append_ok_iff.1 h
    refine ⟨Context.two_le_of_checkGroup hcheck, ?_, ⟨g, g', hg, hg', rfl⟩, ?_⟩
    · have hleads := (Context.checkGroup_ok_iff.1 hcheck).2
      unfold Context.endLimits
      split
      · next hl =>
        cases limit <;> cases offset <;> simp_all
      · rfl
    · intro q hq
      exact Slot.fill_renders hg (part_mem_operands hq)

/-- Where limits stand behind a `select`, there is no offset. -/
theorem spec_ok {body : QuerySpec} (h : (spec body).render c hint = .ok f) :
    body.ended c.dialect (c.keptKeys body.orderBy body.isPaginated)
      (c.endLimits (body.limit, body.offset)) =
      { body with orderBy := c.keptKeys body.orderBy body.isPaginated } := by
  rw [render_eq_fill, layout] at h
  obtain ⟨-, -, hcheck, -⟩ := QuerySpec.fill_layout_ok_iff.1 h
  unfold QuerySpec.ended Context.endLimits
  split
  · next hl =>
    have hoffset : body.offset = none := by
      cases hp : body.limit.isSome || body.offset.isSome with
      | false => simpa using (Bool.or_eq_false_iff.1 hp).2
      | true =>
        rcases Context.cases_of_checkPagination hp hcheck with
          ⟨-, -, -, -, ho⟩ | ⟨-, -, -, -, ho⟩ | hends
        · exact ho
        · exact ho
        · exact absurd hl (Bool.not_eq_true _ ▸ hends)
    rw [hoffset]
  · rfl

/-- An operand without parentheses is a `select` that nothing follows. -/
theorem operand_reads {q : Query} (hq : q.render c "" = .ok f)
    (h : Reads c.dialect (q.words c) (.whole (q.written c))) :
    Reads c.dialect (q.operand c) (.operand (q.written c)) := by
  unfold operand
  split
  · exact .parentheses h
  · next hp =>
    cases q with
    | group => exact absurd rfl hp
    | spec body =>
      have hspec := spec_ok hq
      obtain ⟨hk, hl, ho⟩ : body.orderBy = [] ∧ body.limit = none ∧ body.offset = none := by
        simpa [Context.needsParentheses, isGroup, Query.orderBy, isPaginated,
          QuerySpec.isPaginated] using hp
      have hend : endWords c (spec body) = [] := by
        rw [endWords, Query.orderBy, limits, hk, hl, ho, Context.keptKeys_nil,
          Context.endLimits_none]
        rfl
      rw [hk, hl, ho, Context.keptKeys_nil, Context.endLimits_none] at hspec
      rw [words, written, hend, hk, hl, ho, Context.keptKeys_nil, ← hspec]
      exact .select body

theorem chain_reads {d : Dialect} {operator : SetOperator} {parts : List Query}
    {ws : Query → List Word} {read : Query → Query} (hne : parts ≠ [])
    (h : ∀ q ∈ parts, Reads d (ws q) (.operand (read q))) :
    Reads d (Word.chain operator (parts.map ws)) (.chain operator (parts.map read)) := by
  induction parts with
  | nil => contradiction
  | cons q rest ih =>
    obtain ⟨hq, hrest⟩ := List.forall_mem_cons.1 h
    cases rest with
    | nil => exact .last hq
    | cons next rest => exact .next hq (ih (List.cons_ne_nil _ _) hrest)

theorem words_read (q : Query) (h : q.render c hint = .ok f) :
    Reads c.dialect (q.words c) (.whole (q.written c)) := by
  induction q using operand_induction generalizing hint f with
  | spec body =>
    rw [words, written, ← spec_ok h]
    exact .spec body _ _
  | group operator parts orderBy limit offset ih =>
    obtain ⟨hl, hlimits, -, hparts⟩ := group_ok h
    have hchain : Reads c.dialect (Word.chain operator (parts.map (operand c)))
        (.chain operator (parts.map (written c))) := by
      refine chain_reads (List.ne_nil_of_length_pos (by omega)) fun q hq => ?_
      obtain ⟨g, hg⟩ := hparts q hq
      exact operand_reads hg (ih q hq hg)
    rw [words, written, operandWords_eq, writtenAll_eq, endWords, limits, hlimits]
    exact .group _ (limit, offset) hchain (by rwa [List.length_map])

/-! ## Removed orders -/

theorem keptKeys_eq_or_warned {keys : List (SortKey Expression)} {limit offset : Option Expression}
    (h : fill c (c.endLayout keys limit offset) = .ok f) :
    c.keptKeys keys (limit.isSome || offset.isSome) = keys ∨
      .subqueryOrderByRemoved ∈ f.warnings := by
  obtain ⟨order, page, rfl, horder, -⟩ := Context.ordered_of_fill h
  cases horder with
  | absent hk => exact .inl (hk ▸ Context.keptKeys_nil _)
  | kept _ hc => exact .inl (Context.keptKeys_of_kept _ hc)
  | removed => exact .inr (by simp)

/-- A query is written with all its orders, or it is reported that one is missing. -/
theorem written_eq_or_warned (q : Query) (h : q.render c hint = .ok f) :
    q.written c = q ∨ .subqueryOrderByRemoved ∈ f.warnings := by
  induction q using operand_induction generalizing hint f with
  | spec body =>
    rw [render_eq_fill, layout] at h
    obtain ⟨-, -, -, hspec⟩ := QuerySpec.fill_layout_ok_iff.1 h
    obtain ⟨front, middle, back, -, -, hback, rfl⟩ := Context.fill_specLayout_ok_iff.1 hspec
    rcases keptKeys_eq_or_warned hback with hk | hw
    · left
      rw [written, QuerySpec.isPaginated, hk]
      cases body
      rfl
    · exact .inr (by simp [hw])
  | group operator parts orderBy limit offset ih =>
    obtain ⟨-, -, ⟨g, g', hg, hg', rfl⟩, hparts⟩ := group_ok h
    by_cases hp : ∀ q ∈ parts, q.written c = q
    · rcases keptKeys_eq_or_warned hg' with hk | hw
      · exact .inl (by rw [written, writtenAll_eq, hk, List.map_congr_left hp, List.map_id'])
      · exact .inr (by simp [hw])
    · simp only [not_forall] at hp
      obtain ⟨q, hq, hne⟩ := hp
      obtain ⟨k, hk⟩ := hparts q hq
      have hwarned := (ih q hq hk).resolve_left hne
      have hcarried : g.Carries (.warning .subqueryOrderByRemoved) :=
        (Slot.fill_carries hg).2 ⟨_, part_mem_operands hq, k, hk, hwarned⟩
      exact .inr (List.mem_append_left _ hcarried)

/-! ## The text -/

end Query

/-- What the first one writes, the second one writes with the same text. -/
def Rendered.SameText (r s : Rendered) : Prop :=
  ∀ f, r = .ok f → ∃ g, s = .ok g ∧ g.pieces = f.pieces

namespace Rendered.SameText

variable {r r' s s' : Rendered}

theorem refl (r : Rendered) : r.SameText r := fun f h => ⟨f, h, rfl⟩

theorem andThen (h : r.SameText s) (h' : r'.SameText s') :
    (r.andThen r').SameText (s.andThen s') := by
  intro f hf
  obtain ⟨g, g', hg, hg', rfl⟩ := andThen_ok_iff.1 hf
  obtain ⟨k, hk, hp⟩ := h g hg
  obtain ⟨k', hk', hp'⟩ := h' g' hg'
  refine ⟨k ++ k', andThen_ok_iff.2 ⟨k, k', hk, hk', rfl⟩, ?_⟩
  rw [Fragment.append_pieces, Fragment.append_pieces, hp, hp']

end Rendered.SameText

namespace Query

open Rendered (SameText)

variable {c : Context} {hint : String} {f : Fragment}

namespace Word

variable {ts us : List Word}

theorem spell_cons (w : Word) :
    spell c (w :: ts) = (fill c (w.layout c)).andThen (spell c ts) := by
  rw [spell, List.flatMap_cons, Slot.fill_append, spell]

theorem spell_append : spell c (ts ++ us) = (spell c ts).andThen (spell c us) := by
  rw [spell, List.flatMap_append, Slot.fill_append, spell, spell]

/-- Limits that are written behind a `select` are not written at the end as well. -/
theorem spell_pageWords (hasOrder : Bool) (limits : Option Expression × Option Expression) :
    spell c (pageWords hasOrder (c.endLimits limits)) =
      fill c (c.paginationLayout hasOrder limits.1 limits.2) := by
  unfold Context.endLimits
  cases hl : c.dialect.rowLimit.leads with
  | true =>
    rw [Context.paginationLayout_eq_nil (.inr hl)]
    rfl
  | false =>
    unfold pageWords
    cases hn : limits.1.isNone && limits.2.isNone with
    | true => simp [hn, spell, Context.paginationLayout]
    | false => simp [hn, spell, layout]

theorem sameText_chain {operator : SetOperator} {rows : List (List Slot)}
    {words : List (List Word)}
    (h : List.Forall₂ (fun row ws => (fill c row).SameText (spell c ws)) rows words) :
    (fill c (Slot.separated (" " ++ operator.sql ++ " ") rows)).SameText
      (spell c (chain operator words)) := by
  induction h with
  | nil => exact .refl _
  | @cons row ws rows words h hrows ih =>
    cases hrows with
    | nil => exact h
    | @cons row' ws' rows words h' hrows =>
      rw [Slot.separated, chain, Slot.fill_append, spell_append, Slot.fill_cons, spell_cons]
      exact h.andThen (.andThen (by simpa [layout] using SameText.refl _) ih)

end Word

/-- Of the end of a query, only a removed order is no text. -/
theorem sameText_endWords (q : Query) :
    (fill c (c.endLayout q.orderBy q.limits.1 q.limits.2)).SameText
      (Word.spell c (endWords c q)) := by
  intro f hf
  obtain ⟨order, page, rfl, horder, hpage⟩ := Context.ordered_of_fill hf
  rw [endWords, Word.ending, isPaginated_eq, Word.spell_append, Word.spell_pageWords]
  cases horder with
  | absent hk =>
    rw [hk, Context.keptKeys_nil]
    rw [hk] at hpage
    exact ⟨page, by simpa [Word.orderWords, Word.spell] using hpage, by simp⟩
  | @kept g hk hc hkeys =>
    rw [Context.keptKeys_of_kept _ hc, Word.orderWords, List.isEmpty_eq_false_iff.2 hk,
      if_neg Bool.false_ne_true]
    rw [List.isEmpty_eq_false_iff.2 hk] at hpage
    have horder : Word.spell c [.order q.orderBy] = .ok (.ofText " order by " ++ g) := by
      rw [Word.spell, List.flatMap_cons, List.flatMap_nil, List.append_nil, Word.layout]
      exact Context.fill_keys_ok_iff.2 ⟨g, hkeys, rfl⟩
    exact ⟨_, Rendered.andThen_ok_iff.2 ⟨_, page, horder, hpage, rfl⟩, rfl⟩
  | removed hk hn hs hp =>
    rw [hp, Context.keptKeys_of_removed hn hs, Context.paginationLayout_eq_nil (.inl hp)]
    rw [Context.paginationLayout_eq_nil (.inl hp)] at hpage
    exact ⟨page, hpage, rfl⟩

theorem sameText_operand {q : Query} (h : (q.render c "").SameText (Word.spell c (q.words c))) :
    (fill c (Context.operandQueryLayout q)).SameText (Word.spell c (q.operand c)) := by
  unfold Context.operandQueryLayout operand
  split
  · rw [List.cons_append, Word.spell_cons, Word.spell_append]
    simpa [Rendered.parenthesized, Word.layout, Word.spell] using
      (SameText.refl (.text "(")).andThen (h.andThen (.refl (.text ")")))
  · simpa using h

theorem sameText_words (q : Query) : (q.render c "").SameText (Word.spell c (q.words c)) := by
  induction q using operand_induction with
  | spec body =>
    intro f hf
    rw [render_eq_fill, layout] at hf
    obtain ⟨-, -, -, hspec⟩ := QuerySpec.fill_layout_ok_iff.1 hf
    obtain ⟨front, middle, back, hfront, hmiddle, hback, rfl⟩ :=
      Context.fill_specLayout_ok_iff.1 hspec
    obtain ⟨back', hback', hp⟩ := sameText_endWords (c := c) (.spec body) back hback
    rw [words, Word.spell_cons, Word.layout]
    have hselect : fill c (.text "select " :: (c.prefixLayout body.isDistinct body.limit ++
        Context.bodyLayout "" body)) = .ok (.ofText "select " ++ (front ++ middle)) :=
      Slot.fill_text_cons_ok_iff.2
        ⟨_, Slot.fill_append_ok_iff.2 ⟨front, middle, hfront, hmiddle, rfl⟩, rfl⟩
    refine ⟨_, Rendered.andThen_ok_iff.2 ⟨_, back', hselect, hback', rfl⟩, ?_⟩
    simp only [Fragment.append_pieces, hp, List.append_assoc]
  | group operator parts orderBy limit offset ih =>
    intro f hf
    obtain ⟨-, -, ⟨g, g', hg, hg', rfl⟩, -⟩ := group_ok hf
    have hrows : List.Forall₂ (fun row ws => (fill c row).SameText (Word.spell c ws))
        (parts.map Context.operandQueryLayout) (parts.map (operand c)) := by
      rw [List.forall₂_map_left_iff, List.forall₂_map_right_iff, List.forall₂_same]
      exact fun q hq => sameText_operand (ih q hq)
    obtain ⟨k, hk, hp⟩ := Word.sameText_chain hrows g hg
    obtain ⟨k', hk', hp'⟩ :=
      sameText_endWords (c := c) (.group operator parts orderBy limit offset) g' hg'
    rw [words, operandWords_eq, Word.spell_append]
    refine ⟨k ++ k', Rendered.andThen_ok_iff.2 ⟨k, k', hk, hk', rfl⟩, ?_⟩
    rw [Fragment.append_pieces, Fragment.append_pieces, hp, hp']

end Query

namespace Statement

variable {d : Dialect} {config : TranslationConfig} {statement : Statement} {t : Translation}

/-- The text of a set operation has exactly one reading, wherever a translated statement writes
it. It is the set operation itself, with the operands, orders and limits where they are in the
tree, except for orders whose removal is reported. -/
theorem translate_reads_back (h : statement.translate d config = .ok t) :
    (∀ isInner q, statement.Shows d isInner (.query q) → ∃ site,
      statement.WritesAt d site (.query q) ∧ site.context = statement.contextAt d isInner) ∧
    ∀ site q, statement.WritesAt d site (.query q) → q.isGroup = true →
      statement.SetsApart d site q ∧
      (q.written site.context = q ∨ .subqueryOrderByRemoved ∈ t.warnings) ∧
      ∃ f g, t = .ofFragment d config (site.around f) ∧
        Query.Word.spell site.context (q.words site.context) = .ok g ∧ g.pieces = f.pieces ∧
        ∀ r, Query.Reads d (q.words site.context) (.whole r) ↔ r = q.written site.context := by
  obtain ⟨f, hf, rfl⟩ := exists_render_of_translate h
  constructor
  · intro isInner q hs
    exact exists_writesAt hf hs
  · intro site q hw hgroup
    obtain ⟨g, hg, rfl⟩ := hw.around hf
    have hg : q.render site.context "" = .ok g := by
      cases q with
      | group => exact hg
      | spec => cases hgroup
    have hread := Query.words_read q hg
    rw [hw.dialect_eq] at hread
    obtain ⟨k, hk, hp⟩ := Query.sameText_words q g hg
    refine ⟨hw.setsApart, ?_, g, k, rfl, hk, hp, fun r => ⟨fun hr => hr.unique hread, ?_⟩⟩
    · rcases Query.written_eq_or_warned q hg with hq | hwarned
      · exact .inl hq
      · exact .inr (by simp [Translation.ofFragment, Site.around, hwarned])
    · rintro rfl
      exact hread

/-- The name of the oldest person. -/
def oldest : Query :=
  .spec { select := [⟨.of "t0" "name", none⟩], tables := [⟨⟨"person", "t0"⟩, []⟩]
          orderBy := [⟨.of "t0" "born", false, none⟩], limit := some (.literal (.integer 1)) }

def namesIn (table aliasName : String) : Query :=
  .spec { select := [⟨.of aliasName "name", none⟩], tables := [⟨⟨table, aliasName⟩, []⟩] }

/-- Five names: the oldest person and all tags, but no pets. -/
def fiveNames : Query :=
  .group .except [.group .unionAll [oldest, namesIn "tag" "t1"] [] none none, namesIn "pet" "t2"]
    [⟨.column none "name", true, none⟩] (some (.literal (.integer 5))) none

theorem fiveNames_reads_back : ∃ t site,
    (select fiveNames none).translate (Dialect.ofProduct .postgreSql ⟨16, 0, 0⟩)
      (.ofDialect (Dialect.ofProduct .postgreSql ⟨16, 0, 0⟩)) = .ok t ∧
    (select fiveNames none).WritesAt (Dialect.ofProduct .postgreSql ⟨16, 0, 0⟩) site
      (.query fiveNames) ∧
    t.sql = "((select t0.name from person t0 order by t0.born limit 1) union all " ++
      "select t1.name from tag t1) except select t2.name from pet t2 " ++
      "order by name desc limit 5" ∧
    ∀ r, Query.Reads (Dialect.ofProduct .postgreSql ⟨16, 0, 0⟩) (fiveNames.words site.context)
      (.whole r) ↔ r = fiveNames := by
  obtain ⟨t, ht, hsql, hwarnings⟩ : ∃ t,
      (select fiveNames none).translate (Dialect.ofProduct .postgreSql ⟨16, 0, 0⟩)
        (.ofDialect (Dialect.ofProduct .postgreSql ⟨16, 0, 0⟩)) = .ok t ∧
      t.sql = "((select t0.name from person t0 order by t0.born limit 1) union all " ++
        "select t1.name from tag t1) except select t2.name from pet t2 " ++
        "order by name desc limit 5" ∧ t.warnings = [] := ⟨_, rfl, by decide +kernel, rfl⟩
  obtain ⟨hwritten, hreads⟩ := translate_reads_back ht
  obtain ⟨site, hw, -⟩ := hwritten false fiveNames (.outermost rfl)
  obtain ⟨-, hkept, -, -, -, -, -, hread⟩ := hreads site fiveNames hw rfl
  have hkept := hkept.resolve_right (by simp [hwarnings])
  refine ⟨t, site, ht, hw, hsql, fun r => ?_⟩
  rw [hread, hkept]

end Statement

end SqlDialects.Sql
