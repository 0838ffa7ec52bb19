import Mathlib.Data.List.Forall2
import SqlDialects.Dialect.Resolve
import SqlDialects.Proofs.Rendering.Nodes

/-!
# Precedence in conditions

How a written condition is read: `not` binds tightest, then `and`, then `or`, and parentheses
override. The text of a condition has exactly one reading. It is the condition itself unless a
disjunction gets into a conjunction without parentheses, as it does inside of a list of one.
-/

namespace SqlDialects.Sql

/-! ## Words of a condition -/

/-- The words of a written condition. A condition that is no connective is one word. -/
inductive Token where
  | atom (p : Condition)
  | yes
  | no
  | and
  | or
  | not
  | open
  | close

namespace Token

/-- A parenthesis is written in one piece with the `not` in front of it. -/
def spell (c : Context) : List Token → Rendered
  | [] => .empty
  | .not :: .open :: rest => (Rendered.text "not (").andThen (spell c rest)
  | .not :: rest => (Rendered.text "not ").andThen (spell c rest)
  | .atom p :: rest => (p.render c).andThen (spell c rest)
  | .yes :: rest => (Rendered.text "1=1").andThen (spell c rest)
  | .no :: rest => (Rendered.text "1=0").andThen (spell c rest)
  | .and :: rest => (Rendered.text " and ").andThen (spell c rest)
  | .or :: rest => (Rendered.text " or ").andThen (spell c rest)
  | .open :: rest => (Rendered.text "(").andThen (spell c rest)
  | .close :: rest => (Rendered.text ")").andThen (spell c rest)

def separated (separator : Token) : List (List Token) → List Token
  | [] => []
  | [ts] => ts
  | ts :: next :: rest => ts ++ separator :: separated separator (next :: rest)

end Token

namespace Condition

mutual

/-- The words of a condition, in the order of the text. -/
def tokens : Condition → List Token
  | .all items => if items.isEmpty then [.yes] else Token.separated .and (operandTokens items)
  | .any items => if items.isEmpty then [.no] else Token.separated .or (tokensAll items)
  | .not operand => .not :: .open :: tokens operand ++ [.close]
  | p => [.atom p]

def tokensAll : List Condition → List (List Token)
  | [] => []
  | p :: rest => tokens p :: tokensAll rest

/-- Only a disjunction of several conditions gets parentheses. -/
def operandTokens : List Condition → List (List Token)
  | [] => []
  | p :: rest =>
    (if Context.isLooser p then .open :: tokens p ++ [.close] else tokens p) ::
      operandTokens rest

end

mutual

/-- The truth value of a condition, from those of the conditions that are no connectives. -/
def value (σ : Condition → Bool) : Condition → Bool
  | .all items => valueAll σ items
  | .any items => valueAny σ items
  | .not operand => !value σ operand
  | p => σ p

def valueAll (σ : Condition → Bool) : List Condition → Bool
  | [] => true
  | p :: rest => value σ p && valueAll σ rest

def valueAny (σ : Condition → Bool) : List Condition → Bool
  | [] => false
  | p :: rest => value σ p || valueAny σ rest

end

mutual

/-- The condition is written as a disjunction without parentheses around it. -/
def isOpen : Condition → Bool
  | .any items => isOpenAny items
  | .all items => isOpenAll items
  | _ => false

def isOpenAny : List Condition → Bool
  | [] => false
  | [p] => isOpen p
  | _ :: _ :: _ => true

def isOpenAll : List Condition → Bool
  | [p] => !Context.isLooser p && isOpen p
  | _ => false

end

mutual

/-- No disjunction gets into a conjunction of several conditions without parentheses. -/
def isGrouped : Condition → Bool
  | .all items => (items.length < 2 || items.all fun p => Context.isLooser p || !isOpen p) &&
    areGrouped items
  | .any items => areGrouped items
  | .not operand => isGrouped operand
  | _ => true

def areGrouped : List Condition → Bool
  | [] => true
  | p :: rest => isGrouped p && areGrouped rest

end

theorem tokensAll_eq (items : List Condition) : tokensAll items = items.map tokens := by
  induction items <;> simp_all [tokensAll]

def operand (p : Condition) : List Token :=
  if Context.isLooser p then .open :: tokens p ++ [.close] else tokens p

theorem operandTokens_eq (items : List Condition) : operandTokens items = items.map operand := by
  induction items <;> simp_all [operandTokens, operand]

theorem valueAll_eq (σ : Condition → Bool) (items : List Condition) :
    valueAll σ items = items.all (value σ) := by
  induction items <;> simp_all [valueAll]

theorem valueAny_eq (σ : Condition → Bool) (items : List Condition) :
    valueAny σ items = items.any (value σ) := by
  induction items <;> simp_all [valueAny]

theorem areGrouped_eq (items : List Condition) : areGrouped items = items.all isGrouped := by
  induction items <;> simp_all [areGrouped]

def isAtom : Condition → Bool
  | .all _ | .any _ | .not _ => false
  | _ => true

/-- Induction over connectives, with all items of a list at once. -/
theorem connective_induction {motive : Condition → Prop}
    (all : ∀ items, (∀ p ∈ items, motive p) → motive (.all items))
    (any : ∀ items, (∀ p ∈ items, motive p) → motive (.any items))
    (not : ∀ operand, motive operand → motive (.not operand))
    (atom : ∀ p, p.isAtom = true → motive p) (p : Condition) : motive p := by
  induction h : sizeOf p using Nat.strongRecOn generalizing p with
  | ind size ih =>
    subst h
    have below {q : Condition} (hq : .condition q ∈ p.children) : motive q :=
      ih _ (by have := sizeOf_children hq; simp at this; omega) q rfl
    cases p with
    | all items => exact all items fun q hq => below (List.mem_map_of_mem hq)
    | any items => exact any items fun q hq => below (List.mem_map_of_mem hq)
    | not operand => exact not operand (below (List.mem_singleton.2 rfl))
    | _ => exact atom _ rfl

end Condition

/-! ## Reading -/

inductive Level where
  | disjunction
  | conjunction
  | factor

/-- How words are read, with the truth value of the reading. -/
inductive Reads (σ : Condition → Bool) : Level → List Token → Bool → Prop
  | atom (p : Condition) : Reads σ .factor [.atom p] (σ p)
  | yes : Reads σ .factor [.yes] true
  | no : Reads σ .factor [.no] false
  | parentheses {ts : List Token} {v : Bool} (h : Reads σ .disjunction ts v) :
    Reads σ .factor (.open :: ts ++ [.close]) v
  | not {ts : List Token} {v : Bool} (h : Reads σ .factor ts v) :
    Reads σ .factor (.not :: ts) (!v)
  | factor {ts : List Token} {v : Bool} (h : Reads σ .factor ts v) : Reads σ .conjunction ts v
  | and {ts us : List Token} {v w : Bool} (h : Reads σ .conjunction ts v)
    (h' : Reads σ .factor us w) : Reads σ .conjunction (ts ++ .and :: us) (v && w)
  | conjunction {ts : List Token} {v : Bool} (h : Reads σ .conjunction ts v) :
    Reads σ .disjunction ts v
  | or {ts us : List Token} {v w : Bool} (h : Reads σ .disjunction ts v)
    (h' : Reads σ .conjunction us w) : Reads σ .disjunction (ts ++ .or :: us) (v || w)

variable {σ : Condition → Bool} {ts us : List Token} {v w : Bool}

namespace Reads

theorem and_conjunction (h : Reads σ .conjunction ts v) (h' : Reads σ .conjunction us w) :
    Reads σ .conjunction (ts ++ .and :: us) (v && w) := by
  generalize hl : Level.conjunction = l at h'
  induction h' with
  | factor h' => exact h.and h'
  | @and us us' w w' _ h' ih _ =>
    have ih := ih hl
    simpa [Bool.and_assoc] using ih.and h'
  | _ => contradiction

theorem or_disjunction (h : Reads σ .disjunction ts v) (h' : Reads σ .disjunction us w) :
    Reads σ .disjunction (ts ++ .or :: us) (v || w) := by
  generalize hl : Level.disjunction = l at h'
  induction h' with
  | conjunction h' => exact h.or h'
  | @or us us' w w' _ h' ih _ =>
    have ih := ih hl
    simpa [Bool.or_assoc] using ih.or h'
  | _ => contradiction

/-- A conjunction of disjunctions without parentheses can still be read, in some other way. -/
theorem and_disjunction (h : Reads σ .disjunction ts v) (h' : Reads σ .disjunction us w) :
    ∃ x, Reads σ .disjunction (ts ++ .and :: us) x := by
  generalize hl : Level.disjunction = l at h'
  induction h' with
  | @conjunction us w h' =>
    cases h with
    | conjunction h => exact ⟨_, .conjunction (h.and_conjunction h')⟩
    | @or ts ts' v v' h hts =>
      have := h.or (hts.and_conjunction h')
      rw [List.append_assoc, List.cons_append]
      exact ⟨_, this⟩
  | @or us us' w w' _ h' ih _ =>
    obtain ⟨x, ih⟩ := ih hl
    have := ih.or h'
    rw [List.append_assoc, List.cons_append] at this
    exact ⟨_, this⟩
  | _ => contradiction

theorem and_separated {rows : List (List Token)} {values : List Bool} (hne : rows ≠ [])
    (h : List.Forall₂ (Reads σ .conjunction) rows values) :
    Reads σ .conjunction (Token.separated .and rows) (values.all id) := by
  induction h with
  | nil => contradiction
  | @cons ts v rows values h hrows ih =>
    cases hrows with
    | nil => simpa [Token.separated] using h
    | cons h' hrows => exact h.and_conjunction (ih (List.cons_ne_nil _ _))

theorem or_separated {rows : List (List Token)} {values : List Bool} (hne : rows ≠ [])
    (h : List.Forall₂ (Reads σ .disjunction) rows values) :
    Reads σ .disjunction (Token.separated .or rows) (values.any id) := by
  induction h with
  | nil => contradiction
  | @cons ts v rows values h hrows ih =>
    cases hrows with
    | nil => simpa [Token.separated] using h
    | cons h' hrows => exact h.or_disjunction (ih (List.cons_ne_nil _ _))

theorem exists_and_separated {rows : List (List Token)} (hne : rows ≠ [])
    (h : ∀ row ∈ rows, ∃ v, Reads σ .disjunction row v) :
    ∃ v, Reads σ .disjunction (Token.separated .and rows) v := by
  induction rows with
  | nil => contradiction
  | cons row rest ih =>
    obtain ⟨⟨v, hv⟩, hrest⟩ := List.forall_mem_cons.1 h
    cases rest with
    | nil => exact ⟨v, hv⟩
    | cons next rest =>
      obtain ⟨w, hw⟩ := ih (List.cons_ne_nil _ _) hrest
      exact hv.and_disjunction hw

theorem exists_or_separated {rows : List (List Token)} (hne : rows ≠ [])
    (h : ∀ row ∈ rows, ∃ v, Reads σ .disjunction row v) :
    ∃ v, Reads σ .disjunction (Token.separated .or rows) v := by
  choose! value hvalue using h
  have hrows : List.Forall₂ (Reads σ .disjunction) rows (rows.map value) :=
    List.forall₂_map_right_iff.2 (List.forall₂_same.2 hvalue)
  exact ⟨_, or_separated hne hrows⟩

end Reads

/-! ## No two readings -/

/-- What is known of a disjunction that is being read. -/
structure Pending where
  /-- Some conjunction before the last one is true. -/
  isDone : Bool := false
  /-- The last conjunction is true so far. -/
  isHeld : Bool := true
  /-- An odd number of negations stands before the next factor. -/
  isNegated : Bool := false

namespace Pending

def value (f : Pending) : Bool := f.isDone || f.isHeld

def feed (f : Pending) (v : Bool) : Pending :=
  { f with isHeld := f.isHeld && (v ^^ f.isNegated), isNegated := false }

/-- One step of reading, with what is pending in the parentheses that are open around. -/
def step (σ : Condition → Bool) : Token → Pending × List Pending → Pending × List Pending
  | .atom p, (f, outer) => (f.feed (σ p), outer)
  | .yes, (f, outer) => (f.feed true, outer)
  | .no, (f, outer) => (f.feed false, outer)
  | .and, state => state
  | .or, (f, outer) => ({ isDone := f.value }, outer)
  | .not, (f, outer) => ({ f with isNegated := !f.isNegated }, outer)
  | .open, (f, outer) => ({}, f :: outer)
  | .close, (f, g :: outer) => (g.feed f.value, outer)
  | .close, (f, []) => (f, [])

def run (σ : Condition → Bool) (state : Pending × List Pending) (ts : List Token) :
    Pending × List Pending :=
  ts.foldl (fun state t => step σ t state) state

theorem run_append (state : Pending × List Pending) :
    run σ state (ts ++ us) = run σ (run σ state ts) us := List.foldl_append

theorem run_cons (state : Pending × List Pending) (t : Token) :
    run σ state (t :: ts) = run σ (step σ t state) ts := rfl

end Pending

/-- What reading words of some level does to what is pending. -/
def Level.Effect (σ : Condition → Bool) (ts : List Token) (v : Bool) : Level → Prop
  | factor => ∀ f outer, Pending.run σ (f, outer) ts = (f.feed v, outer)
  | conjunction => ∀ done outer, Pending.run σ ({ isDone := done }, outer) ts =
      ({ isDone := done, isHeld := v }, outer)
  | disjunction => ∀ outer, ∃ f, Pending.run σ ({}, outer) ts = (f, outer) ∧ f.value = v

namespace Reads

theorem effect {l : Level} (h : Reads σ l ts v) : l.Effect σ ts v := by
  induction h with
  | atom | yes | no => exact fun f outer => rfl
  | @parentheses ts v h ih =>
    -- What is pending outside waits below until the parenthesis closes.
    intro f outer
    obtain ⟨g, hg, hv⟩ := ih (f :: outer)
    rw [List.cons_append, Pending.run_cons, Pending.run_append, Pending.step, hg, ← hv]
    rfl
  | @not ts v h ih =>
    intro f outer
    rw [Pending.run_cons, Pending.step, ih]
    cases v <;> simp [Pending.feed]
  | @factor ts v h ih =>
    intro done outer
    rw [ih]
    simp [Pending.feed]
  | @and ts us v w h h' ih ih' =>
    intro done outer
    rw [Pending.run_append, ih, Pending.run_cons, Pending.step, ih']
    simp [Pending.feed]
  | @conjunction ts v h ih => exact fun outer => ⟨_, ih false outer, rfl⟩
  | @or ts us v w h h' ih ih' =>
    intro outer
    obtain ⟨f, hf, hv⟩ := ih outer
    refine ⟨{ isDone := v, isHeld := w }, ?_, rfl⟩
    rw [Pending.run_append, hf, Pending.run_cons, Pending.step, hv, ih']

theorem unique (h : Reads σ .disjunction ts v) (h' : Reads σ .disjunction ts w) : v = w := by
  -- One pass over the words has one outcome, and each of the readings gives its value.
  obtain ⟨f, hf, rfl⟩ := h.effect []
  obtain ⟨g, hg, rfl⟩ := h'.effect []
  rw [hf] at hg
  rw [(Prod.mk.inj hg).1]

end Reads

/-! ## Reading the words of a condition -/

namespace Condition

def level (p : Condition) : Level :=
  if p.isOpen then .disjunction else .conjunction

theorem reads_disjunction {p : Condition} (h : Reads σ p.level p.tokens v) :
    Reads σ .disjunction p.tokens v := by
  unfold level at h
  split at h
  · exact h
  · exact .conjunction h

theorem operand_reads {p : Condition} (h : Reads σ p.level p.tokens v)
    (hp : (Context.isLooser p || !p.isOpen) = true) : Reads σ .conjunction p.operand v := by
  unfold operand
  split
  · exact .factor (.parentheses (reads_disjunction h))
  · next hl =>
    have hopen : p.isOpen = false := by simpa [hl] using hp
    simpa [level, hopen] using h

theorem forall₂_reads {l : Level} {items : List Condition} {words : Condition → List Token}
    (h : ∀ p ∈ items, Reads σ l (words p) (p.value σ)) :
    List.Forall₂ (Reads σ l) (items.map words) (items.map (value σ)) := by
  rw [List.forall₂_map_left_iff, List.forall₂_map_right_iff, List.forall₂_same]
  exact h

/-- A conjunction keeps the level of a single item, unless that gets parentheses. -/
theorem level_all_singleton (p : Condition) :
    (all [p]).level = if Context.isLooser p then .conjunction else p.level := by
  unfold level
  cases hl : Context.isLooser p <;> simp [isOpen, isOpenAll, hl]

theorem reads_of_isGrouped (p : Condition) (h : p.isGrouped = true) :
    Reads σ p.level p.tokens (p.value σ) := by
  induction p using connective_induction with
  | all items ih =>
    rw [isGrouped, areGrouped_eq, Bool.and_eq_true, List.all_eq_true] at h
    obtain ⟨hopen, hitems⟩ := h
    have ih := fun p hp => ih p hp (hitems p hp)
    rw [tokens, value, valueAll_eq, operandTokens_eq]
    match items with
    | [] => exact .factor .yes
    | [p] =>
      have ih := ih p (List.mem_singleton.2 rfl)
      rw [level_all_singleton]
      simp only [List.isEmpty_cons, Bool.false_eq_true, if_false, List.map_cons, List.map_nil,
        Token.separated, List.all_cons, List.all_nil, Bool.and_true, operand]
      split
      · exact .factor (.parentheses (reads_disjunction ih))
      · exact ih
    | p :: q :: rest =>
      have hopen : ∀ p' ∈ p :: q :: rest, (Context.isLooser p' || !p'.isOpen) = true := by
        rw [Bool.or_eq_true, List.all_eq_true, decide_eq_true_eq] at hopen
        exact hopen.resolve_left (by simp)
      have hrows := Reads.and_separated (by simp) (forall₂_reads fun p' hp' =>
        operand_reads (ih p' hp') (hopen p' hp'))
      simpa [level, isOpen, isOpenAll] using hrows
  | any items ih =>
    rw [isGrouped, areGrouped_eq, List.all_eq_true] at h
    have ih := fun p hp => ih p hp (h p hp)
    rw [tokens, value, valueAny_eq, tokensAll_eq]
    match items with
    | [] => exact .factor .no
    | [p] =>
      have hlevel : (any [p]).level = p.level := rfl
      simpa [hlevel, Token.separated] using ih p (List.mem_singleton.2 rfl)
    | p :: q :: rest =>
      have hrows := Reads.or_separated (by simp)
        (forall₂_reads fun p' hp' => reads_disjunction (ih p' hp'))
      simpa [level, isOpen, isOpenAny] using hrows
  | not operand ih =>
    rw [isGrouped] at h
    exact .factor (.not (.parentheses (reads_disjunction (ih h))))
  | atom p hp => cases p <;> first | contradiction | exact .factor (.atom _)

theorem exists_reads (p : Condition) : ∃ v, Reads σ .disjunction p.tokens v := by
  induction p using connective_induction with
  | all items ih =>
    rw [tokens, operandTokens_eq]
    split
    · exact ⟨_, .conjunction (.factor .yes)⟩
    · next hne =>
      refine Reads.exists_and_separated (by simpa using hne) fun row hrow => ?_
      obtain ⟨p, hp, rfl⟩ := List.mem_map.1 hrow
      obtain ⟨v, hv⟩ := ih p hp
      unfold operand
      split
      · exact ⟨v, .conjunction (.factor (.parentheses hv))⟩
      · exact ⟨v, hv⟩
  | any items ih =>
    rw [tokens, tokensAll_eq]
    split
    · exact ⟨_, .conjunction (.factor .no)⟩
    · next hne =>
      refine Reads.exists_or_separated (by simpa using hne) fun row hrow => ?_
      obtain ⟨p, hp, rfl⟩ := List.mem_map.1 hrow
      exact ih p hp
  | not operand ih =>
    obtain ⟨v, hv⟩ := ih
    exact ⟨_, .conjunction (.factor (.not (.parentheses hv)))⟩
  | atom p hp => cases p <;> first | contradiction | exact ⟨_, .conjunction (.factor (.atom _))⟩

end Condition

/-! ## The text -/

namespace Token

variable {c : Context}

theorem spell_not (h : ts.head? ≠ some .open) :
    spell c (.not :: ts) = (Rendered.text "not ").andThen (spell c ts) := by
  cases ts with
  | nil => rfl
  | cons t ts =>
    cases t with
    | «open» => exact absurd rfl h
    | _ => rfl

theorem spell_append (h : us.head? ≠ some .open) :
    spell c (ts ++ us) = (spell c ts).andThen (spell c us) := by
  induction ts using spell.induct with
  | case1 => simp [spell]
  | case2 rest ih => simp [spell, ih]
  | case3 rest hrest ih =>
    have hhead : rest.head? ≠ some .open := by
      cases rest with
      | nil => simp
      | cons t rest =>
        rintro ht
        obtain rfl := Option.some.inj ht
        exact hrest rest rfl
    have happend : (rest ++ us).head? ≠ some .open := by
      cases rest with
      | nil => exact h
      | cons t rest => exact hhead
    rw [List.cons_append, spell_not happend, spell_not hhead, ih, Rendered.andThen_assoc]
  | case4 p rest ih => simp [spell, ih]
  | _ rest ih => simp [spell, ih]

theorem spell_separated (separator : Token) (t : String) (hs : separator ≠ .open)
    (hsep : ∀ us, spell c (separator :: us) = (Rendered.text t).andThen (spell c us))
    (rows : List (List Token)) :
    spell c (separated separator rows) = .separated t (rows.map (spell c)) := by
  induction rows with
  | nil => rfl
  | cons row rest ih =>
    cases rest with
    | nil => rfl
    | cons next rest =>
      rw [separated, spell_append (by simpa using hs), hsep, ih]
      simp [Rendered.separated]

end Token

namespace Condition

/-- The text of a condition is its words. -/
theorem render_eq_spell (p : Condition) (c : Context) : p.render c = Token.spell c p.tokens := by
  induction p using connective_induction with
  | all items ih =>
    have hoperand (p : Condition) (hp : p ∈ items) :
        Slot.fill c (Context.operandLayout p) = Token.spell c p.operand := by
      unfold Context.operandLayout operand
      split
      · have hclose : Token.spell c (p.tokens ++ [.close]) =
            (Token.spell c p.tokens).andThen (.text ")") := Token.spell_append (by simp)
        simp [ih p hp, Token.spell, hclose, Rendered.parenthesized]
      · simp [ih p hp]
    rw [render_eq_fill, layout, tokens]
    cases hitems : items.isEmpty with
    | true => rfl
    | false =>
      have hmap : items.map (Slot.fill c ∘ Context.operandLayout) =
          items.map (Token.spell c ∘ operand) := List.map_congr_left hoperand
      simp only [Bool.false_eq_true, if_false, operandTokens_eq]
      rw [Slot.fill_separated, Token.spell_separated .and " and " (by simp) fun _ => rfl,
        List.map_map, List.map_map, hmap]
  | any items ih =>
    rw [render_eq_fill, layout, tokens]
    cases hitems : items.isEmpty with
    | true => rfl
    | false =>
      have hmap : items.map (Slot.fill c ∘ fun p => [.condition p]) =
          items.map (Token.spell c ∘ tokens) :=
        List.map_congr_left fun p hp => by simp [ih p hp]
      simp only [Bool.false_eq_true, if_false, tokensAll_eq]
      rw [Slot.fill_separated, Token.spell_separated .or " or " (by simp) fun _ => rfl,
        List.map_map, List.map_map, hmap]
  | not operand ih =>
    have hclose : Token.spell c (operand.tokens ++ [.close]) =
        (Token.spell c operand.tokens).andThen (.text ")") := Token.spell_append (by simp)
    rw [render_eq_fill, layout, tokens]
    simp [ih, Token.spell, hclose]
  | atom p hp => cases p <;> first | contradiction | simp [tokens, Token.spell]

/-- The text of a condition has exactly one reading, and if its disjunctions are grouped, this is
the condition itself. -/
theorem render_reads (p : Condition) (c : Context) (σ : Condition → Bool) :
    p.render c = Token.spell c p.tokens ∧
      ∃ v, (∀ w, Reads σ .disjunction p.tokens w ↔ w = v) ∧
        (p.isGrouped = true → v = p.value σ) := by
  obtain ⟨v, hv⟩ := exists_reads (σ := σ) p
  refine ⟨render_eq_spell p c, v, fun w => ⟨fun hw => hw.unique hv, fun h => h ▸ hv⟩, fun h => ?_⟩
  exact hv.unique (reads_disjunction (reads_of_isGrouped p h))

/-! ## A choice beside another condition -/

def isNamed : Condition := .isNull (.of "t0" "name") true

def isUnborn : Condition := .isNull (.of "t0" "born") false

/-- Negated tests for null hold, and nothing else does. -/
def onlyNegated : Condition → Bool
  | .isNull _ isNegated => isNegated
  | _ => false

def choice : Condition := .all [.any [isNamed, isUnborn], isUnborn]

/-- The same, with the choice in a list of its own. -/
def nestedChoice : Condition := .all [.any [.any [isNamed, isUnborn]], isUnborn]

theorem choice_reads : choice.isGrouped = true ∧ choice.value onlyNegated = false ∧
    Reads onlyNegated .disjunction choice.tokens false := by
  have hgrouped : choice.isGrouped = true := rfl
  have htruth : choice.value onlyNegated = false := rfl
  obtain ⟨-, v, hv, htrue⟩ :=
    render_reads choice { dialect := Dialect.ofProduct .postgreSql ⟨16, 0, 0⟩ } onlyNegated
  exact ⟨hgrouped, htruth, (hv false).2 (htruth ▸ (htrue hgrouped).symm)⟩

/-- The choice gets no parentheses, and the conjunction takes in only its second half. -/
theorem nestedChoice_misread : nestedChoice.value onlyNegated = false ∧
    Reads onlyNegated .disjunction nestedChoice.tokens true :=
  ⟨rfl, .or (.conjunction (.factor (.atom isNamed)))
    (.and (.factor (.atom isUnborn)) (.atom isUnborn))⟩

end Condition

end SqlDialects.Sql
