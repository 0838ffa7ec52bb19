import SqlDialects.Proofs.Rendering.ClosedCalls
import SqlDialects.Proofs.Rendering.Nodes

/-!
# Reading arithmetic back

How written arithmetic is read: a sign binds tightest, then come `*` and `/`, then `+` and `-`, all
of them from the left, and parentheses override. A call is one operand if it is closed. The text of
an expression has at most one reading. It has the operands of the expression, in the groups in
which they are, unless a call that is not closed stands where it is taken apart.
-/

namespace SqlDialects

/-! ## Texts of any cut -/

namespace Sql

/-- The characters of a text, each on its own. -/
def Piece.glyphs : Piece → List Piece
  | .text t => t.toList.map fun c => .text (String.singleton c)
  | piece => [piece]

/-- What is written, however the texts in it are cut into pieces. -/
def Rendered.glyphs (r : Rendered) : Except DialectError (List Piece) :=
  r.map fun f => f.pieces.flatMap Piece.glyphs

namespace Rendered

variable {r r' s s' : Rendered}

theorem glyphs_andThen : (r.andThen s).glyphs = do
    let front ← r.glyphs
    let back ← s.glyphs
    return front ++ back := by
  cases r with
  | error e => rfl
  | ok f =>
    cases s with
    | error e => rfl
    | ok g => exact congrArg Except.ok List.flatMap_append

theorem glyphs_andThen_congr (h : r.glyphs = r'.glyphs) (h' : s.glyphs = s'.glyphs) :
    (r.andThen s).glyphs = (r'.andThen s').glyphs := by
  rw [glyphs_andThen, glyphs_andThen, h, h']

theorem glyphs_append (cs cs' : List Char) :
    ((text (String.ofList cs)).andThen (text (String.ofList cs'))).glyphs =
      (text (String.ofList (cs ++ cs'))).glyphs := by
  simp [text, andThen_ok, glyphs, Fragment.ofText, Except.map, Piece.glyphs]

theorem glyphs_nil : (text (String.ofList [])).glyphs = empty.glyphs := rfl

end Rendered

end Sql

/-! ## Operators -/

/-- `*` and `/` bind tighter than `+` and `-`. -/
def ArithmeticOperator.isProduct : ArithmeticOperator → Bool
  | multiply | divide => true
  | add | subtract => false

namespace CallShape

/-- A sign of an operator, or one that another language has for an operator. -/
def isSign (c : Char) : Bool := ['+', '-', '*', '/', '%', '|', '&', '^', '#', '~'].contains c

/-- An operator stands right in front of an argument or right behind it. -/
def touches (before behind : List Char) : Bool :=
  before.getLast?.any isSign || behind.head?.any isSign

/-- The arguments that have an operator beside them. -/
def touched (before : List Char) : List (Nat × List Char) → List Nat
  | [] => []
  | (index, cs) :: rest =>
    if touches before cs then index :: touched cs rest else touched cs rest

/-- A shape whose arguments are all there. -/
def ofSegments? (segments : List Segment) (count : Nat) : Option CallShape :=
  if (ofSegments segments).places.all (·.1 < count) then some (ofSegments segments) else none

theorem ofSegments?_eq_some_iff {segments : List Segment} {count : Nat} {shape : CallShape} :
    ofSegments? segments count = some shape ↔
      ofSegments segments = shape ∧ ∀ place ∈ shape.places, place.1 < count := by
  unfold ofSegments?
  rw [Option.ite_none_right_eq_some, Option.some_inj, List.all_eq_true]
  constructor
  · rintro ⟨hin, rfl⟩
    exact ⟨rfl, by simpa using hin⟩
  · rintro ⟨rfl, hin⟩
    exact ⟨by simpa using hin, rfl⟩

/-- What is in front of the operator in `hexLength`. -/
def hexDigits : CallShape := ⟨"octet_length(hex(".toList, [(0, "))".toList)]⟩

open Sql
open Sql.Rendered (text concat glyphs_andThen_congr glyphs_append)

/-- The texts of a call with its arguments between them. -/
def fill (shape : CallShape) (arguments : List Rendered) : Rendered :=
  (text (String.ofList shape.opening)).andThen (concat (shape.places.map fun place =>
    (arguments.getD place.1 .empty).andThen (text (String.ofList place.2))))

/-- Segments are filled to the texts of their call, if all of its arguments are there. -/
theorem glyphs_fill {segments : List Segment} {missing : Nat → DialectError}
    {arguments : List Rendered}
    (hin : ∀ place ∈ (ofSegments segments).places, place.1 < arguments.length) :
    (concat (segments.map (Segment.fill Fragment.ofText missing arguments))).glyphs =
      ((ofSegments segments).fill arguments).glyphs := by
  induction segments with
  | nil => rfl
  | cons segment rest ih =>
    rw [List.map_cons, Rendered.concat_cons]
    cases segment with
    | text t =>
      refine (glyphs_andThen_congr rfl (ih hin)).trans ?_
      rw [fill, ← Rendered.andThen_assoc]
      refine glyphs_andThen_congr ?_ rfl
      rw [ofSegments, addText, ← glyphs_append, String.ofList_toList]
      rfl
    | argument index =>
      obtain ⟨hindex, hrest⟩ := List.forall_mem_cons.1 hin
      refine (glyphs_andThen_congr rfl (ih hrest)).trans ?_
      rw [fill, fill, ofSegments, addArgument, List.map_cons, Rendered.concat_cons,
        Rendered.andThen_assoc]
      have harg : Segment.fill Fragment.ofText missing arguments (.argument index) =
          arguments.getD index .empty := by
        simp [Segment.fill, hindex]
      rw [harg]
      refine Eq.trans ?_ (glyphs_andThen_congr (Rendered.glyphs_nil).symm rfl)
      rw [Rendered.empty_andThen]

end CallShape

namespace Sql

namespace Context

theorem exists_call_eq {template : FunctionTemplate} {arguments : List Rendered}
    {segments : List Segment} (h : template.segments? arguments.length = some segments) :
    ∃ missing, call template arguments =
      .concat (segments.map (Segment.fill Fragment.ofText missing arguments)) := by
  unfold call
  rw [FunctionTemplate.segments?_eq_some_iff.1 h]
  exact ⟨_, rfl⟩

/-- A text in front of the value is as good as an argument. -/
theorem concat_withField {segments : List Segment} {missing : Nat → DialectError} {field : String}
    {source : Rendered} (missing' : Nat → DialectError)
    (hin : ∀ place ∈ (CallShape.ofSegments (segments.map (Segment.withField field))).places,
      place.1 < 1) :
    Rendered.concat (segments.map
        (Segment.fill Fragment.ofText missing [Rendered.text field, source])) =
      .concat ((segments.map (Segment.withField field)).map
        (Segment.fill Fragment.ofText missing' [source])) := by
  induction segments with
  | nil => rfl
  | cons segment rest ih =>
    rw [List.map_cons, List.map_cons, List.map_cons, Rendered.concat_cons, Rendered.concat_cons]
    match segment with
    | .text t => rw [ih hin]; rfl
    | .argument 0 => rw [ih hin]; rfl
    | .argument 1 => rw [ih fun place hp => hin place (List.mem_cons_of_mem _ hp)]; rfl
    | .argument (index + 2) =>
      have hlt := hin (index + 1, _) List.mem_cons_self
      dsimp only at hlt
      omega

def callShape? (c : Context) (name : String) (count : Nat) : Option CallShape := do
  let template ← c.dialect.functions.get? name
  CallShape.ofSegments? (← template.segments? count) count

def extractShape? (c : Context) (unit : TemporalUnit) : Option CallShape := do
  CallShape.ofSegments? (← c.dialect.extractSegments? unit) 1

end Context

namespace Expression

/-- The shape of an expression that is written as a call. -/
def shape? (c : Context) : Expression → Option CallShape
  | .call name arguments => c.callShape? name arguments.length
  | .extract unit _ => c.extractShape? unit
  | _ => none

/-! ## Words of an expression -/

/-- The words of a written expression. An expression that is no arithmetic is one word. -/
inductive Word where
  | atom (e : Expression)
  | minus
  | operator (operator : ArithmeticOperator) (isSpaced : Bool)
  | open
  | close
  /-- A call without arguments. -/
  | whole (cs : List Char)
  | opening (cs : List Char)
  | middle (cs : List Char)
  | closing (cs : List Char)

namespace Word

def render (c : Context) : Word → Rendered
  | .atom e => e.render c
  | .minus => .text "-"
  | .operator o isSpaced => .text (if isSpaced then " " ++ o.sql ++ " " else o.sql)
  | .open => .text "("
  | .close => .text ")"
  | .whole cs | .opening cs | .middle cs | .closing cs => .text (String.ofList cs)

def spell (c : Context) (ws : List Word) : Rendered := .concat (ws.map (render c))

/-- Arguments with the texts behind them. -/
def places (arguments : List (List Word)) : List (Nat × List Char) → List Word
  | [] => []
  | [(index, cs)] => arguments.getD index [] ++ [.closing cs]
  | (index, cs) :: next :: rest =>
    arguments.getD index [] ++ .middle cs :: places arguments (next :: rest)

def closedCall (shape : CallShape) (arguments : List (List Word)) : List Word :=
  if shape.places.isEmpty then [.whole shape.opening]
  else .opening shape.opening :: places arguments shape.places

/-- The number of bits in a byte, over the number of digits. -/
def four : Expression := .literal (.integer 4)

def call (shape : CallShape) (arguments : List (List Word)) : List Word :=
  if shape = .hexLength then
    closedCall .hexDigits arguments ++ [.operator .multiply false, .atom four]
  else closedCall shape arguments

end Word

mutual

/-- The words of an expression, in the order of the text. -/
def words (c : Context) : Expression → List Word
  | .binary left operator right =>
    .open :: words c left ++ .operator operator true :: words c right ++ [.close]
  | .negate operand => .minus :: .open :: words c operand ++ [.close]
  | .call name arguments => (c.callShape? name arguments.length).elim [.atom (.call name arguments)]
    (Word.call · (wordsAll c arguments))
  | .extract unit source => (c.extractShape? unit).elim [.atom (.extract unit source)]
    (Word.call · [words c source])
  | e => [.atom e]

def wordsAll (c : Context) : List Expression → List (List Word)
  | [] => []
  | e :: rest => words c e :: wordsAll c rest

end

/-! ## Groups -/

/-- Operands and the operations on them. A call has the arguments that its texts have between
them. -/
inductive Grouping where
  | atom (e : Expression)
  | call (texts : List (List Char)) (arguments : List Grouping)
  | negate (operand : Grouping)
  | binary (left : Grouping) (operator : ArithmeticOperator) (right : Grouping)

namespace Grouping

instance : Inhabited Grouping := ⟨.atom (.star none)⟩

def ofPlaces (arguments : List Grouping) (places : List (Nat × List Char)) : List Grouping :=
  places.map fun place => arguments.getD place.1 default

def closedCall (shape : CallShape) (arguments : List Grouping) : Grouping :=
  .call shape.texts (ofPlaces arguments shape.places)

def ofShape (shape : CallShape) (arguments : List Grouping) : Grouping :=
  if shape = .hexLength then .binary (closedCall .hexDigits arguments) .multiply (.atom Word.four)
  else closedCall shape arguments

end Grouping

mutual

/-- The groups of an expression, with the calls as its dialect writes them. -/
def grouping (c : Context) : Expression → Grouping
  | .binary left operator right => .binary (grouping c left) operator (grouping c right)
  | .negate operand => .negate (grouping c operand)
  | .call name arguments => (c.callShape? name arguments.length).elim (.atom (.call name arguments))
    (Grouping.ofShape · (groupings c arguments))
  | .extract unit source => (c.extractShape? unit).elim (.atom (.extract unit source))
    (Grouping.ofShape · [grouping c source])
  | e => .atom e

def groupings (c : Context) : List Expression → List Grouping
  | [] => []
  | e :: rest => grouping c e :: groupings c rest

end

/-- The text of the expression is a product that is not in parentheses. -/
def isOpen (c : Context) (e : Expression) : Bool := e.shape? c = some .hexLength

/-- No argument that has an operator beside it in a call is written as an open product. -/
def spares (c : Context) (arguments : List Expression) (shape : CallShape) : Bool :=
  (CallShape.touched shape.opening shape.places).all fun index =>
    !arguments[index]?.any (isOpen c)

mutual

/-- No open product stands to the right of `*` or `/`, nor beside an operator in a call. -/
def isSettled (c : Context) : Expression → Bool
  | .binary left operator right => isSettled c left && isSettled c right &&
    !(operator.isProduct && isOpen c right)
  | .negate operand => isSettled c operand
  | .call name arguments => areSettled c arguments &&
    (c.callShape? name arguments.length).all (spares c arguments)
  | .extract unit source => isSettled c source && (c.extractShape? unit).all (spares c [source])
  | _ => true

def areSettled (c : Context) : List Expression → Bool
  | [] => true
  | e :: rest => isSettled c e && areSettled c rest

end

theorem wordsAll_eq (c : Context) (items : List Expression) :
    wordsAll c items = items.map (words c) := by
  induction items <;> simp_all [wordsAll]

theorem groupings_eq (c : Context) (items : List Expression) :
    groupings c items = items.map (grouping c) := by
  induction items <;> simp_all [groupings]

theorem areSettled_eq (c : Context) (items : List Expression) :
    areSettled c items = items.all (isSettled c) := by
  induction items <;> simp_all [areSettled]

/-- The expression is written as a call of these arguments, if it has a shape. -/
structure IsCall (c : Context) (e : Expression) (items : List Expression) : Prop where
  words : e.words c = (e.shape? c).elim [.atom e] (Word.call · (items.map (words c)))
  grouping : e.grouping c =
    (e.shape? c).elim (.atom e) (Grouping.ofShape · (items.map (grouping c)))
  isSettled : e.isSettled c = (items.all (isSettled c) && (e.shape? c).all (spares c items))
  isPlaced : ∀ shape, e.shape? c = some shape → ∀ place ∈ shape.places, place.1 < items.length
  text : ∀ shape, e.shape? c = some shape →
    (e.render c).glyphs = (shape.fill (items.map (Expression.render c))).glyphs

theorem isCall_call (c : Context) (name : String) (arguments : List Expression) :
    IsCall c (.call name arguments) arguments where
  words := by rw [words, wordsAll_eq]; rfl
  grouping := by rw [grouping, groupings_eq]; rfl
  isSettled := by rw [isSettled, areSettled_eq]; rfl
  isPlaced shape h := by
    obtain ⟨_, -, h⟩ := Option.bind_eq_some_iff.1 h
    obtain ⟨_, -, h⟩ := Option.bind_eq_some_iff.1 h
    exact (CallShape.ofSegments?_eq_some_iff.1 h).2
  text shape h := by
    obtain ⟨template, ht, h⟩ := Option.bind_eq_some_iff.1 h
    obtain ⟨segments, he, h⟩ := Option.bind_eq_some_iff.1 h
    obtain ⟨rfl, hin⟩ := CallShape.ofSegments?_eq_some_iff.1 h
    have hname : c.dialect.function name = .ok template := by rw [Dialect.function, ht]
    rw [← List.length_map (Expression.render c)] at he
    obtain ⟨missing, hcall⟩ := Context.exists_call_eq he
    rw [Expression.render, Context.functionCall, hname, renderAll_eq]
    refine (congrArg Rendered.glyphs hcall).trans (CallShape.glyphs_fill ?_)
    simpa using hin

theorem isCall_extract (c : Context) (unit : TemporalUnit) (source : Expression) :
    IsCall c (.extract unit source) [source] where
  words := by rw [words]; rfl
  grouping := by rw [grouping]; rfl
  isSettled := by rw [isSettled, List.all_cons, List.all_nil, Bool.and_true]; rfl
  isPlaced shape h := by
    obtain ⟨_, -, h⟩ := Option.bind_eq_some_iff.1 h
    exact (CallShape.ofSegments?_eq_some_iff.1 h).2
  text shape h := by
    obtain ⟨segments, he, h⟩ := Option.bind_eq_some_iff.1 h
    obtain ⟨rfl, hin⟩ := CallShape.ofSegments?_eq_some_iff.1 h
    have hcall {template : FunctionTemplate} (ht : (template.segments? 2).map
        (fun segments => segments.map (Segment.withField (c.dialect.extractField unit))) =
          some segments) :
        (Context.call template [.text (c.dialect.extractField unit), source.render c]).glyphs =
          ((CallShape.ofSegments segments).fill [source.render c]).glyphs := by
      obtain ⟨written, hw, rfl⟩ := Option.map_eq_some_iff.1 ht
      obtain ⟨missing, hcall⟩ := @Context.exists_call_eq template
        [.text (c.dialect.extractField unit), source.render c] written hw
      rw [hcall, Context.concat_withField missing hin]
      exact CallShape.glyphs_fill hin
    rw [Expression.render]
    unfold Context.extract
    unfold Dialect.extractSegments? at he
    dsimp only at he ⊢
    cases hp : c.dialect.rules.extractPatterns unit with
    | some pattern =>
      rw [hp] at he
      exact hcall he
    | none =>
      cases ht : c.dialect.functions.get? "extract" with
      | some template =>
        rw [hp, ht] at he
        exact hcall he
      | none =>
        rw [hp, ht] at he
        obtain rfl := Option.some.inj he
        exact @CallShape.glyphs_fill _ (fun _ => .malformedTree "") [source.render c] hin

/-- What is no arithmetic is no call of anything. -/
theorem isCall_atom {c : Context} {e : Expression} (hs : e.shape? c = none)
    (hw : e.words c = [.atom e]) (hg : e.grouping c = .atom e) (hsettled : e.isSettled c = true) :
    IsCall c e [] where
  words := by rw [hs]; exact hw
  grouping := by rw [hs]; exact hg
  isSettled := by rw [hs]; exact hsettled
  isPlaced shape h := by rw [hs] at h; cases h
  text shape h := by rw [hs] at h; cases h

/-- Induction over arithmetic, with all arguments of a call at once. -/
theorem arithmetic_induction {motive : Expression → Prop}
    (binary : ∀ left operator right, motive left → motive right →
      motive (.binary left operator right))
    (negate : ∀ operand, motive operand → motive (.negate operand))
    (call : ∀ e items, (∀ c, IsCall c e items) → (∀ item ∈ items, motive item) → motive e)
    (e : Expression) : motive e := by
  induction h : sizeOf e using Nat.strongRecOn generalizing e with
  | ind size ih =>
    subst h
    have below {e' : Expression} (he : .expression e' ∈ e.children) : motive e' :=
      ih _ (by have := sizeOf_children he; simp at this; omega) e' rfl
    cases e with
    | binary left operator right =>
      exact binary _ _ _ (below List.mem_cons_self)
        (below (List.mem_cons_of_mem _ List.mem_cons_self))
    | negate operand => exact negate _ (below List.mem_cons_self)
    | call name arguments =>
      exact call _ arguments (isCall_call · name arguments) fun e he =>
        below (List.mem_map_of_mem he)
    | extract unit source =>
      exact call _ [source] (isCall_extract · unit source)
        (List.forall_mem_singleton.2 (below List.mem_cons_self))
    | _ => exact call _ [] (fun c => isCall_atom rfl rfl rfl rfl) (List.forall_mem_nil _)

/-! ## Reading -/

/-- What some words are read as. -/
inductive Phrase where
  | factor (g : Grouping)
  | term (g : Grouping)
  | sum (g : Grouping)
  /-- A call up to some argument, with the last text and those before it. -/
  | begun (earlier : List (List Char)) (latest : List Char) (arguments : List Grouping)

/-- What stands between two texts of a call. An operator beside it takes in a factor. -/
def Phrase.argument (before behind : List Char) (g : Grouping) : Phrase :=
  if CallShape.touches before behind then .factor g else .sum g

/-- How words are read. -/
inductive Reads : List Word → Phrase → Prop
  | atom (e : Expression) : Reads [.atom e] (.factor (.atom e))
  | parentheses {ws : List Word} {g : Grouping} (h : Reads ws (.sum g)) :
    Reads (.open :: ws ++ [.close]) (.factor g)
  | negate {ws : List Word} {g : Grouping} (h : Reads ws (.factor g)) :
    Reads (.minus :: ws) (.factor (.negate g))
  | whole {cs : List Char} (hc : CallShape.isClosed [cs] = true) :
    Reads [.whole cs] (.factor (.call [cs] []))
  | opening (cs : List Char) : Reads [.opening cs] (.begun [] cs [])
  | middle {ws us : List Word} {earlier : List (List Char)} {before : List Char}
    {arguments : List Grouping} {g : Grouping} (behind : List Char)
    (h : Reads ws (.begun earlier before arguments)) (h' : Reads us (.argument before behind g)) :
    Reads (ws ++ us ++ [.middle behind]) (.begun (earlier ++ [before]) behind (arguments ++ [g]))
  | closing {ws us : List Word} {earlier : List (List Char)} {before behind : List Char}
    {arguments : List Grouping} {g : Grouping} (h : Reads ws (.begun earlier before arguments))
    (h' : Reads us (.argument before behind g))
    (hc : CallShape.isClosed (earlier ++ [before, behind]) = true) :
    Reads (ws ++ us ++ [.closing behind])
      (.factor (.call (earlier ++ [before, behind]) (arguments ++ [g])))
  | factor {ws : List Word} {g : Grouping} (h : Reads ws (.factor g)) : Reads ws (.term g)
  | times {ws us : List Word} {g g' : Grouping} {operator : ArithmeticOperator} (isSpaced : Bool)
    (h : Reads ws (.term g)) (ho : operator.isProduct = true) (h' : Reads us (.factor g')) :
    Reads (ws ++ .operator operator isSpaced :: us) (.term (.binary g operator g'))
  | term {ws : List Word} {g : Grouping} (h : Reads ws (.term g)) : Reads ws (.sum g)
  | plus {ws us : List Word} {g g' : Grouping} {operator : ArithmeticOperator} (isSpaced : Bool)
    (h : Reads ws (.sum g)) (ho : operator.isProduct = false) (h' : Reads us (.term g')) :
    Reads (ws ++ .operator operator isSpaced :: us) (.sum (.binary g operator g'))

/-! ## No two readings -/

/-- What is known of a sum that is being read. -/
structure Pending where
  /-- What the last term becomes with the terms before it. -/
  sum : Grouping → Grouping := id
  /-- What the next factor becomes with the factors before it. -/
  term : Grouping → Grouping := id
  /-- What the next factor becomes with the signs before it. -/
  sign : Grouping → Grouping := id
  /-- The last term so far. -/
  read : Grouping := default

/-- What is open around a sum that is being read. -/
inductive Frame where
  | parentheses (f : Pending)
  | call (f : Pending) (earlier : List (List Char)) (latest : List Char)
    (arguments : List Grouping)

namespace Pending

def value (f : Pending) : Grouping := f.sum f.read

def feed (f : Pending) (g : Grouping) : Pending := { sum := f.sum, read := f.term (f.sign g) }

def push (f : Pending) (operator : ArithmeticOperator) : Pending :=
  if operator.isProduct then { f with term := Grouping.binary f.read operator }
  else { f with sum := Grouping.binary f.value operator }

/-- One step of reading. -/
def step : Word → Pending × List Frame → Pending × List Frame
  | .atom e, (f, outer) => (f.feed (.atom e), outer)
  | .minus, (f, outer) => ({ f with sign := fun g => f.sign (.negate g) }, outer)
  | .operator o _, (f, outer) => (f.push o, outer)
  | .open, (f, outer) => ({}, .parentheses f :: outer)
  | .close, (f, .parentheses g :: outer) => (g.feed f.value, outer)
  | .whole cs, (f, outer) => (f.feed (.call [cs] []), outer)
  | .opening cs, (f, outer) => ({}, .call f [] cs [] :: outer)
  | .middle cs, (f, .call g earlier before arguments :: outer) =>
    ({}, .call g (earlier ++ [before]) cs (arguments ++ [f.value]) :: outer)
  | .closing cs, (f, .call g earlier before arguments :: outer) =>
    (g.feed (.call (earlier ++ [before, cs]) (arguments ++ [f.value])), outer)
  | _, state => state

def run (state : Pending × List Frame) (ws : List Word) : Pending × List Frame :=
  ws.foldl (fun state w => step w state) state

variable {ws us : List Word}

theorem run_append (state : Pending × List Frame) :
    run state (ws ++ us) = run (run state ws) us := List.foldl_append

theorem run_cons (state : Pending × List Frame) (w : Word) :
    run state (w :: ws) = run (step w state) ws := rfl

end Pending

/-- What reading a phrase does to what is pending. -/
def Phrase.Effect (ws : List Word) : Phrase → Prop
  | factor g => ∀ f outer, Pending.run (f, outer) ws = (f.feed g, outer)
  | term g => ∀ s r outer,
    Pending.run ({ sum := s, read := r }, outer) ws = ({ sum := s, read := g }, outer)
  | sum g => ∀ outer, ∃ s r,
    Pending.run ({}, outer) ws = ({ sum := s, read := r }, outer) ∧ s r = g
  | begun earlier latest arguments => ∀ f outer,
    Pending.run (f, outer) ws = ({}, .call f earlier latest arguments :: outer)

namespace Reads

variable {ws us : List Word} {g g' : Grouping} {phrase : Phrase}

theorem effect_argument {before behind : List Char}
    (h : (Phrase.argument before behind g).Effect ws) (outer : List Frame) : ∃ f,
    Pending.run ({}, outer) ws = (f, outer) ∧ f.value = g := by
  unfold Phrase.argument at h
  split at h
  · exact ⟨_, h {} outer, rfl⟩
  · obtain ⟨s, r, hrun, hg⟩ := h outer
    exact ⟨_, hrun, hg⟩

theorem effect (h : Reads ws phrase) : phrase.Effect ws := by
  induction h with
  | atom | whole | opening => exact fun f outer => rfl
  | @parentheses ws g h ih =>
    -- What is pending outside waits below until the parenthesis closes.
    intro f outer
    obtain ⟨s, r, hrun, hg⟩ := ih (.parentheses f :: outer)
    rw [List.cons_append, Pending.run_cons, Pending.run_append, Pending.step, hrun, ← hg]
    rfl
  | @negate ws g h ih =>
    intro f outer
    rw [Pending.run_cons, Pending.step, ih]
    rfl
  | @middle ws us earlier before arguments g behind h h' ih ih' =>
    intro f outer
    obtain ⟨k, hrun, hg⟩ := effect_argument ih' (.call f earlier before arguments :: outer)
    rw [Pending.run_append, Pending.run_append, ih, hrun, ← hg]
    rfl
  | @closing ws us earlier before behind arguments g h h' hc ih ih' =>
    intro f outer
    obtain ⟨k, hrun, hg⟩ := effect_argument ih' (.call f earlier before arguments :: outer)
    rw [Pending.run_append, Pending.run_append, ih, hrun, ← hg]
    rfl
  | @factor ws g h ih =>
    intro s r outer
    rw [ih]
    rfl
  | @times ws us g g' operator isSpaced h ho h' ih ih' =>
    intro s r outer
    rw [Pending.run_append, ih, Pending.run_cons, Pending.step, Pending.push, if_pos ho, ih']
    rfl
  | @term ws g h ih => exact fun outer => ⟨id, g, ih id _ outer, rfl⟩
  | @plus ws us g g' operator isSpaced h ho h' ih ih' =>
    intro outer
    obtain ⟨s, r, hrun, hg⟩ := ih outer
    have hvalue : Pending.value { sum := s, read := r } = g := hg
    refine ⟨Grouping.binary g operator, g', ?_, rfl⟩
    rw [Pending.run_append, hrun, Pending.run_cons, Pending.step, Pending.push,
      if_neg (Bool.eq_false_iff.1 ho), hvalue]
    exact ih' _ _ outer

theorem unique (h : Reads ws (.sum g)) (h' : Reads ws (.sum g')) : g = g' := by
  -- One pass over the words has one outcome, and each of the readings gives its value.
  obtain ⟨s, r, hrun, rfl⟩ := h.effect []
  obtain ⟨s', r', hrun', rfl⟩ := h'.effect []
  rw [hrun] at hrun'
  obtain ⟨hs, -, -, hr⟩ := Pending.mk.inj (Prod.mk.inj hrun').1
  rw [hs, hr]

end Reads

/-! ## Reading the words of an expression -/

section

variable {arguments : List (List Word)} {gs : List Grouping}

/-- What is known of the arguments of a call: each can be read, and as a factor if an operator
stands beside it. -/
def Word.ReadArguments (arguments : List (List Word)) (gs : List Grouping) (before : List Char)
    (places : List (Nat × List Char)) : Prop :=
  (∀ place ∈ places, Reads (arguments.getD place.1 []) (.sum (gs.getD place.1 default))) ∧
    ∀ index ∈ CallShape.touched before places,
      Reads (arguments.getD index []) (.factor (gs.getD index default))

theorem places_read {ws : List Word} {earlier : List (List Char)} {before : List Char}
    {read : List Grouping} {places : List (Nat × List Char)} (hne : places ≠ [])
    (h : Reads ws (.begun earlier before read))
    (hargs : Word.ReadArguments arguments gs before places)
    (hc : CallShape.isClosed (earlier ++ before :: places.map (·.2)) = true) :
    Reads (ws ++ Word.places arguments places)
      (.factor (.call (earlier ++ before :: places.map (·.2))
        (read ++ Grouping.ofPlaces gs places))) := by
  induction places generalizing ws earlier before read with
  | nil => contradiction
  | cons place rest ih =>
    obtain ⟨index, behind⟩ := place
    obtain ⟨hsum, htouched⟩ := hargs
    have hfirst : Reads (arguments.getD index [])
        (.argument before behind (gs.getD index default)) := by
      unfold Phrase.argument
      split
      · next ht =>
        refine htouched index ?_
        rw [CallShape.touched, if_pos ht]
        exact List.mem_cons_self
      · exact hsum _ List.mem_cons_self
    have hrest : Word.ReadArguments arguments gs behind rest := by
      refine ⟨fun place hp => hsum place (List.mem_cons_of_mem _ hp), fun i hi => htouched i ?_⟩
      rw [CallShape.touched]
      split
      · exact List.mem_cons_of_mem _ hi
      · exact hi
    cases rest with
    | nil =>
      rw [Word.places, ← List.append_assoc]
      exact .closing h hfirst hc
    | cons next rest =>
      have hbegun := Reads.middle behind h hfirst
      have hclosed : CallShape.isClosed ((earlier ++ [before]) ++
          behind :: (next :: rest).map (·.2)) = true := by
        rw [List.append_assoc]
        exact hc
      have hread := ih (List.cons_ne_nil _ _) hbegun hrest hclosed
      rw [Word.places, ← List.append_assoc]
      simpa [Grouping.ofPlaces] using hread

theorem closedCall_read {shape : CallShape} (hc : CallShape.isClosed shape.texts = true)
    (hargs : Word.ReadArguments arguments gs shape.opening shape.places) :
    Reads (Word.closedCall shape arguments) (.factor (.closedCall shape gs)) := by
  unfold Word.closedCall Grouping.closedCall
  obtain ⟨opening, places⟩ := shape
  cases places with
  | nil => exact .whole hc
  | cons place rest => exact places_read (List.cons_ne_nil _ _) (.opening opening) hargs hc

end

/-- How the words of an expression are read. -/
def phrase (c : Context) (e : Expression) : Phrase :=
  if e.isOpen c then .term (e.grouping c) else .factor (e.grouping c)

end Expression

/-- Every call is closed, or is the one that ends in a product. -/
def Context.ClosesCalls (c : Context) : Prop :=
  ∀ e shape, Expression.shape? c e = some shape →
    CallShape.isClosed shape.texts = true ∨ shape = .hexLength

namespace Expression

variable {c : Context} {e : Expression} {arguments : List (List Word)} {gs : List Grouping}

theorem reads_term (h : Reads (e.words c) (e.phrase c)) :
    Reads (e.words c) (.term (e.grouping c)) := by
  unfold phrase at h
  split at h
  · exact h
  · exact .factor h

theorem reads_factor (h : Reads (e.words c) (e.phrase c)) (ho : e.isOpen c = false) :
    Reads (e.words c) (.factor (e.grouping c)) := by
  unfold phrase at h
  rwa [ho] at h

theorem call_read {shape : CallShape}
    (hc : CallShape.isClosed shape.texts = true ∨ shape = .hexLength)
    (hargs : Word.ReadArguments arguments gs shape.opening shape.places) :
    Reads (Word.call shape arguments)
      (if shape = .hexLength then .term (.ofShape shape gs) else .factor (.ofShape shape gs)) := by
  unfold Word.call Grouping.ofShape
  split
  · next hs =>
    subst hs
    have hdigits : Reads (Word.closedCall .hexDigits arguments)
        (.factor (.closedCall .hexDigits gs)) := by
      refine closedCall_read (by decide) ⟨fun place hp => ?_, fun index hi => ?_⟩
      · obtain rfl := List.mem_singleton.1 hp
        exact hargs.1 (0, "))*4".toList) (List.mem_singleton.2 rfl)
      · exact hargs.2 index hi
    exact .times false (.factor hdigits) rfl (.atom Word.four)
  · next hs => exact closedCall_read (hc.resolve_right hs) hargs

theorem index_of_touched {before : List Char} {places : List (Nat × List Char)} {index : Nat}
    (h : index ∈ CallShape.touched before places) : ∃ place ∈ places, place.1 = index := by
  induction places generalizing before with
  | nil => cases h
  | cons place rest ih =>
    rw [CallShape.touched] at h
    split at h
    · rcases List.mem_cons.1 h with rfl | h
      · exact ⟨place, List.mem_cons_self, rfl⟩
      · obtain ⟨place', hp, hi⟩ := ih h
        exact ⟨place', List.mem_cons_of_mem _ hp, hi⟩
    · obtain ⟨place', hp, hi⟩ := ih h
      exact ⟨place', List.mem_cons_of_mem _ hp, hi⟩

theorem readArguments {items : List Expression} {shape : CallShape}
    (hin : ∀ place ∈ shape.places, place.1 < items.length)
    (h : ∀ e ∈ items, Reads (e.words c) (e.phrase c)) (hs : spares c items shape = true) :
    Word.ReadArguments (items.map (words c)) (items.map (grouping c)) shape.opening
      shape.places := by
  have hitem {index : Nat} (hi : ∃ place ∈ shape.places, place.1 = index) : ∃ e,
      items[index]? = some e ∧ Reads (e.words c) (e.phrase c) ∧
        (items.map (words c)).getD index [] = e.words c ∧
        (items.map (grouping c)).getD index default = e.grouping c := by
    obtain ⟨place, hp, rfl⟩ := hi
    have hlt := hin place hp
    refine ⟨items[place.1], List.getElem?_eq_getElem hlt, h _ (List.getElem_mem hlt), ?_, ?_⟩ <;>
      simp [hlt]
  constructor
  · intro place hp
    obtain ⟨e, -, hread, hw, hg⟩ := hitem ⟨place, hp, rfl⟩
    rw [hw, hg]
    exact .term (reads_term hread)
  · intro index hi
    obtain ⟨e, he, hread, hw, hg⟩ := hitem (index_of_touched hi)
    have hopen : e.isOpen c = false := by
      simpa [he] using List.all_eq_true.1 hs index hi
    rw [hw, hg]
    exact reads_factor hread hopen

theorem words_read (hc : c.ClosesCalls) (e : Expression) (h : e.isSettled c = true) :
    Reads (e.words c) (e.phrase c) := by
  induction e using arithmetic_induction with
  | binary left operator right ihl ihr =>
    rw [isSettled, Bool.and_eq_true, Bool.and_eq_true, Bool.not_eq_true'] at h
    obtain ⟨⟨hl, hr⟩, hopen⟩ := h
    have hleft := reads_term (ihl hl)
    rw [words]
    refine .parentheses ?_
    cases hp : operator.isProduct with
    | false => exact .plus true (.term hleft) hp (reads_term (ihr hr))
    | true =>
      rw [hp, Bool.true_and] at hopen
      exact .term (.times true hleft hp (reads_factor (ihr hr) hopen))
  | negate operand ih =>
    rw [isSettled] at h
    rw [words]
    exact .negate (.parentheses (.term (reads_term (ih h))))
  | call e items hcall ih =>
    obtain ⟨hw, hg, hsettled, hin, -⟩ := hcall c
    rw [hsettled, Bool.and_eq_true, List.all_eq_true] at h
    obtain ⟨hitems, hspares⟩ := h
    unfold phrase isOpen
    rw [hw, hg]
    cases hs : e.shape? c with
    | none => exact .atom e
    | some shape =>
      rw [hs] at hspares
      have hargs := readArguments (hin shape hs) (fun e he => ih e he (hitems e he)) hspares
      simpa using call_read (hc e shape hs) hargs

/-! ## The text -/

namespace Word

open Rendered (text glyphs_andThen_congr)

variable {ws us : List Word} {rs : List Rendered}

theorem spell_cons (w : Word) : spell c (w :: ws) = (w.render c).andThen (spell c ws) := rfl

theorem spell_append : spell c (ws ++ us) = (spell c ws).andThen (spell c us) := by
  rw [spell, List.map_append, Rendered.concat_append, spell, spell]

theorem glyphs_places {places : List (Nat × List Char)}
    (h : ∀ place ∈ places,
      (rs.getD place.1 .empty).glyphs = (spell c (arguments.getD place.1 [])).glyphs) :
    (Rendered.concat (places.map fun place =>
      (rs.getD place.1 .empty).andThen (text (String.ofList place.2)))).glyphs =
      (spell c (Word.places arguments places)).glyphs := by
  induction places with
  | nil => rfl
  | cons place rest ih =>
    obtain ⟨hplace, hrest⟩ := List.forall_mem_cons.1 h
    rw [List.map_cons, Rendered.concat_cons, Rendered.andThen_assoc]
    cases rest with
    | nil =>
      rw [Word.places, spell_append]
      exact glyphs_andThen_congr hplace rfl
    | cons next rest =>
      rw [Word.places, spell_append, spell_cons]
      exact glyphs_andThen_congr hplace (glyphs_andThen_congr rfl (ih hrest))

theorem glyphs_closedCall {shape : CallShape}
    (h : ∀ place ∈ shape.places,
      (rs.getD place.1 .empty).glyphs = (spell c (arguments.getD place.1 [])).glyphs) :
    (shape.fill rs).glyphs = (spell c (closedCall shape arguments)).glyphs := by
  unfold closedCall CallShape.fill
  cases hp : shape.places with
  | nil => rfl
  | cons place rest =>
    rw [hp] at h
    rw [if_neg (by simp), spell_cons]
    exact glyphs_andThen_congr rfl (glyphs_places h)

theorem fill_singleton (opening closing : List Char) :
    CallShape.fill ⟨opening, [(0, closing)]⟩ rs = (text (String.ofList opening)).andThen
      ((rs.getD 0 .empty).andThen (text (String.ofList closing))) := by
  rw [CallShape.fill, List.map_cons, List.map_nil, Rendered.concat_cons, Rendered.concat_nil,
    Rendered.andThen_empty]

theorem spell_product : spell c [.operator .multiply false, .atom four] =
    (text (String.ofList ['*'])).andThen (text (String.ofList ['4'])) := by
  have hstar : ArithmeticOperator.sql .multiply = String.ofList ['*'] := by decide
  have hfour : toString (4 : Int) = String.ofList ['4'] := by decide
  rw [spell_cons, spell_cons, ← hstar, ← hfour]
  exact congrArg (Rendered.andThen _) Rendered.andThen_empty

/-- The product of `hexLength` is written behind its digits. -/
theorem glyphs_hexLength : (CallShape.hexLength.fill rs).glyphs =
    ((CallShape.hexDigits.fill rs).andThen
      (spell c [.operator .multiply false, .atom four])).glyphs := by
  have hchars : "))*4".toList = "))".toList ++ ['*'] ++ ['4'] := by decide
  unfold CallShape.hexLength CallShape.hexDigits
  rw [fill_singleton, fill_singleton, spell_product, hchars, Rendered.andThen_assoc,
    Rendered.andThen_assoc]
  refine glyphs_andThen_congr rfl (glyphs_andThen_congr rfl ?_)
  rw [← Rendered.andThen_assoc, ← Rendered.glyphs_append]
  exact glyphs_andThen_congr (Rendered.glyphs_append _ _).symm rfl

theorem glyphs_call {shape : CallShape}
    (h : ∀ place ∈ shape.places,
      (rs.getD place.1 .empty).glyphs = (spell c (arguments.getD place.1 [])).glyphs) :
    (shape.fill rs).glyphs = (spell c (call shape arguments)).glyphs := by
  unfold call
  split
  · next hs =>
    subst hs
    rw [glyphs_hexLength, spell_append]
    refine glyphs_andThen_congr (glyphs_closedCall fun place hp => ?_) rfl
    obtain rfl := List.mem_singleton.1 hp
    exact h (0, "))*4".toList) (List.mem_singleton.2 rfl)
  · exact glyphs_closedCall h

end Word

/-- The text of an expression is its words. -/
theorem glyphs_render (e : Expression) :
    (e.render c).glyphs = (Word.spell c (e.words c)).glyphs := by
  induction e using arithmetic_induction with
  | binary left operator right ihl ihr =>
    rw [Expression.render, words]
    simp only [Word.spell_append, Word.spell_cons, Rendered.parenthesized, Rendered.concat_cons,
      Rendered.concat_nil, Rendered.andThen_empty, Rendered.andThen_assoc]
    exact Rendered.glyphs_andThen_congr rfl (Rendered.glyphs_andThen_congr ihl
      (Rendered.glyphs_andThen_congr rfl (Rendered.glyphs_andThen_congr ihr
        (congrArg Rendered.glyphs Rendered.andThen_empty.symm))))
  | negate operand ih =>
    rw [Expression.render, words, Word.spell_append, Word.spell_cons, Word.spell_cons,
      ← Rendered.andThen_assoc, Rendered.andThen_assoc]
    simp only [Rendered.concat_cons, Rendered.concat_nil, Rendered.andThen_empty]
    refine Rendered.glyphs_andThen_congr (Rendered.glyphs_append ['-'] ['(']).symm
      (Rendered.glyphs_andThen_congr ih ?_)
    exact congrArg Rendered.glyphs Rendered.andThen_empty.symm
  | call e items hcall ih =>
    obtain ⟨hw, -, -, hin, htext⟩ := hcall c
    rw [hw]
    cases hs : e.shape? c with
    | none => exact congrArg Rendered.glyphs Rendered.andThen_empty.symm
    | some shape =>
      refine (htext shape hs).trans (Word.glyphs_call fun place hp => ?_)
      have hlt := hin shape hs place hp
      simpa [hlt] using ih _ (List.getElem_mem hlt)

/-! ## Products -/

variable {product : Product} {version : Version}

theorem closed_or_hexLength (hd : c.dialect = .ofProduct product version) {shape : CallShape}
    (h : e.shape? c = some shape) : CallShape.isClosed shape.texts = true ∨
      product = .ingres ∧ (∃ name arguments, e = .call name arguments ∧
        Text.lower name = "bit_length") ∧ shape = .hexLength := by
  cases e with
  | call name arguments =>
    obtain ⟨template, ht, h⟩ := Option.bind_eq_some_iff.1 h
    obtain ⟨segments, he, h⟩ := Option.bind_eq_some_iff.1 h
    obtain ⟨rfl, -⟩ := CallShape.ofSegments?_eq_some_iff.1 h
    have he := FunctionTemplate.segments?_eq_some_iff.1 he
    rw [hd] at ht
    rcases Dialect.isClosed_or_isHexLength ht with hclosed | ⟨hp, hname, hhex⟩
    · exact .inl (FunctionTemplate.isClosed_expand hclosed he)
    · exact .inr ⟨hp, ⟨name, arguments, rfl, hname⟩,
        FunctionTemplate.shape_of_isHexLength hhex he⟩
  | extract unit source =>
    obtain ⟨segments, he, h⟩ := Option.bind_eq_some_iff.1 h
    obtain ⟨rfl, -⟩ := CallShape.ofSegments?_eq_some_iff.1 h
    rw [hd] at he
    exact .inl (Dialect.isClosed_extract he)
  | _ => cases h

theorem isSettled_of_closed (h : ∀ e : Expression, e.isOpen c = false) (e : Expression) :
    e.isSettled c = true := by
  induction e using arithmetic_induction with
  | binary left operator right ihl ihr => rw [isSettled, ihl, ihr, h, Bool.and_false]; rfl
  | negate operand ih => rw [isSettled, ih]
  | call e items hcall ih =>
    have hspares (shape : CallShape) : spares c items shape = true := by
      refine List.all_eq_true.2 fun index _ => ?_
      cases items[index]? <;> simp [h]
    rw [(hcall c).isSettled, List.all_eq_true.2 ih]
    cases e.shape? c <;> simp [hspares]

/-- The text of an expression is its words, which have at most one reading. On every product this
groups the operands as the expression does. Only on Ingres an expression has to be settled for
that, since `bit_length` is written as a product there. All other calls are closed. -/
theorem render_groups (hd : c.dialect = .ofProduct product version) (e : Expression) :
    (e.render c).glyphs = (Word.spell c (e.words c)).glyphs ∧
      (∀ shape, e.shape? c = some shape → CallShape.isClosed shape.texts = true ∨
        product = .ingres ∧ (∃ name arguments, e = .call name arguments ∧
          Text.lower name = "bit_length") ∧ shape = .hexLength) ∧
      (∀ g g', Reads (e.words c) (.sum g) → Reads (e.words c) (.sum g') → g = g') ∧
      ((product = .ingres → e.isSettled c = true) →
        ∀ g, Reads (e.words c) (.sum g) ↔ g = e.grouping c) := by
  refine ⟨glyphs_render e, fun shape => closed_or_hexLength hd, fun g g' => Reads.unique,
    fun h g => ?_⟩
  have hcloses : c.ClosesCalls := fun e shape hs =>
    (closed_or_hexLength hd hs).imp_right fun hhex => hhex.2.2
  have hsettled : e.isSettled c = true := by
    by_cases hp : product = .ingres
    · exact h hp
    · refine isSettled_of_closed (fun e => ?_) e
      refine decide_eq_false fun hs => ?_
      rcases closed_or_hexLength hd hs with hclosed | ⟨hp', -⟩
      · exact absurd hclosed (by decide)
      · exact hp hp'
  have hread : Reads (e.words c) (.sum (e.grouping c)) :=
    .term (reads_term (words_read hcloses e hsettled))
  constructor
  · intro hg
    exact hg.unique hread
  · rintro rfl
    exact hread

/-! ### Bits beside a division -/

def bits : Expression := .call "bit_length" [.of "t0" "b"]

/-- The bits of one column over another column. -/
def bitsPerUnit : Expression := .binary bits .divide (.of "t0" "a")

/-- A column over the bits of another one. -/
def unitsPerBit : Expression := .binary (.of "t0" "a") .divide bits

def onIngres : Context := { dialect := .ofProduct .ingres ⟨10, 2, 0⟩ }

/-- The operand in the text of `bit_length`, without its factor. -/
def hexBytes : Grouping := .closedCall .hexDigits [.atom (.of "t0" "b")]

theorem callShape_bits : onIngres.callShape? "bit_length" 1 = some .hexLength := by decide +kernel

theorem bits_grouping : bits.grouping onIngres = .binary hexBytes .multiply (.atom Word.four) := by
  rw [bits, grouping]
  exact congrArg (Option.elim · _ _) callShape_bits

theorem bitsPerUnit_groups : bitsPerUnit.isSettled onIngres = true ∧
    ∀ g, Reads (bitsPerUnit.words onIngres) (.sum g) ↔
      g = .binary (.binary hexBytes .multiply (.atom Word.four)) .divide
        (.atom (.of "t0" "a")) := by
  have hd : onIngres.dialect = .ofProduct .ingres ⟨10, 2, 0⟩ := rfl
  have hsettled : bitsPerUnit.isSettled onIngres = true := by decide +kernel
  refine ⟨hsettled, fun g => ?_⟩
  rw [(render_groups hd bitsPerUnit).2.2.2 (fun _ => hsettled) g, bitsPerUnit, grouping,
    bits_grouping]
  rfl

/-- The division gets hold of the call in front of the factor. -/
theorem unitsPerBit_misread :
    (∀ g, Reads (unitsPerBit.words onIngres) (.sum g) ↔ g =
      .binary (.binary (.atom (.of "t0" "a")) .divide hexBytes) .multiply (.atom Word.four)) ∧
    unitsPerBit.grouping onIngres = .binary (.atom (.of "t0" "a")) .divide
      (.binary hexBytes .multiply (.atom Word.four)) := by
  have hbits : bits.words onIngres = Word.closedCall .hexDigits [[.atom (.of "t0" "b")]] ++
      [.operator .multiply false, .atom Word.four] := by
    rw [bits, words]
    exact congrArg (Option.elim · _ _) callShape_bits
  have hcall : Reads (Word.closedCall .hexDigits [[.atom (.of "t0" "b")]]) (.factor hexBytes) :=
    .closing (.opening _) (.term (.factor (.atom _))) (by decide)
  have hread : Reads (unitsPerBit.words onIngres) (.sum (.binary (.binary (.atom (.of "t0" "a"))
      .divide hexBytes) .multiply (.atom Word.four))) := by
    have hdivide : ArithmeticOperator.isProduct .divide = true := rfl
    have hmultiply : ArithmeticOperator.isProduct .multiply = true := rfl
    have hquotient := Reads.times true (.factor (.atom (.of "t0" "a"))) hdivide hcall
    have hproduct := Reads.times false hquotient hmultiply (.atom Word.four)
    rw [unitsPerBit, words, hbits]
    exact .term (.factor (.parentheses (.term hproduct)))
  refine ⟨fun g => ⟨fun hg => hg.unique hread, fun hg => hg ▸ hread⟩, ?_⟩
  rw [unitsPerBit, grouping, bits_grouping]
  rfl

end Expression

end Sql

end SqlDialects
