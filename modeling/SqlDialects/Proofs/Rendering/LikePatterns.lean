import Mathlib.Data.List.Infix
import SqlDialects.Dialect.Resolve
import SqlDialects.Proofs.Letters
import SqlDialects.Proofs.Rendering.Filled

/-!
# Patterns that ignore case

Where a dialect has no operator that ignores case, both sides of a `like` are put in small letters
and compared by the one that does not. The pattern changes as a whole but its escape character
stays as it is. So the condition is the one that was asked for, for all texts and patterns, if and
only if the escape character is no letter.
-/

namespace SqlDialects.Sql

/-! ## Patterns -/

inductive PatternItem where
  /-- Any text. -/
  | any
  | one
  | literal (c : Char)
  deriving DecidableEq, Repr

/-- When a character of a text stands for one of a pattern. -/
def sameCharacter (ignoresCase : Bool) (a b : Char) : Bool :=
  if ignoresCase then a.toLower == b.toLower else a == b

namespace PatternItem

def ofChar (c : Char) : PatternItem :=
  if c = '%' then .any else if c = '_' then .one else .literal c

/-- The items of a pattern. Nothing may be missing behind an escape character. -/
def parse (escape : Option Char) : List Char → Option (List PatternItem)
  | [] => some []
  | [c] => if escape = some c then none else some [ofChar c]
  | c :: next :: rest =>
    if escape = some c then (parse escape rest).map (PatternItem.literal next :: ·)
    else (parse escape (next :: rest)).map (ofChar c :: ·)

def matchesAll (ignoresCase : Bool) : List PatternItem → List Char → Bool
  | [], cs => cs.isEmpty
  | .any :: items, cs => cs.tails.any (matchesAll ignoresCase items)
  | .one :: _, [] => false
  | .one :: items, _ :: cs => matchesAll ignoresCase items cs
  | .literal _ :: _, [] => false
  | .literal p :: items, c :: cs =>
    sameCharacter ignoresCase p c && matchesAll ignoresCase items cs

def toLower : PatternItem → PatternItem
  | .any => .any
  | .one => .one
  | .literal c => .literal c.toLower

variable {escape : Option Char}

theorem ofChar_toLower (c : Char) : ofChar c.toLower = (ofChar c).toLower := by
  unfold ofChar
  have hany : c.toLower = '%' ↔ c = '%' := Text.toLower_eq_iff rfl c
  have hone : c.toLower = '_' ↔ c = '_' := Text.toLower_eq_iff rfl c
  simp only [hany, hone]
  split
  · rfl
  · split <;> rfl

/-- A pattern in small letters has its items in small letters, if no character of it becomes the
escape character or stops to be it. -/
theorem parse_map_toLower {cs : List Char}
    (h : ∀ c ∈ cs, escape = some c.toLower ↔ escape = some c) :
    parse escape (cs.map Char.toLower) = (parse escape cs).map (List.map toLower) := by
  fun_induction parse escape cs with
  | case1 => rfl
  | case2 c hc =>
    have hsmall := (h c (List.mem_singleton_self c)).2 hc
    rw [List.map_singleton, parse, if_pos hsmall]
    rfl
  | case3 c hc =>
    have hsmall := mt (h c (List.mem_singleton_self c)).1 hc
    rw [List.map_singleton, parse, if_neg hsmall, ofChar_toLower]
    rfl
  | case4 c next rest hc ih =>
    obtain ⟨hhead, -, hrest⟩ : _ ∧ _ ∧ _ := by simpa using h
    rw [List.map_cons, List.map_cons, parse, if_pos (hhead.2 hc), ih hrest, Option.map_map,
      Option.map_map]
    rfl
  | case5 c next rest hc ih =>
    obtain ⟨hhead, hrest⟩ := List.forall_mem_cons.1 h
    rw [List.map_cons, List.map_cons, parse, if_neg (mt hhead.1 hc), ← List.map_cons, ih hrest,
      Option.map_map, Option.map_map, ofChar_toLower]
    rfl

theorem matchesAll_map_toLower (items : List PatternItem) (cs : List Char) :
    matchesAll false (items.map toLower) (cs.map Char.toLower) = matchesAll true items cs := by
  induction items generalizing cs with
  | nil => cases cs <;> rfl
  | cons item items ih =>
    cases item with
    | any =>
      rw [List.map_cons, toLower, matchesAll, matchesAll, List.map_tails, List.any_map]
      exact congrArg (List.any _ ·) (funext fun rest => ih rest)
    | one =>
      cases cs with
      | nil => rfl
      | cons c cs => exact ih cs
    | literal p =>
      cases cs with
      | nil => rfl
      | cons c cs => exact congrArg (_ && ·) (ih cs)

end PatternItem

/-- Whether a text is like a pattern. Unknown if one of them is null, or if the pattern ends in its
escape character. -/
def likeTruth (ignoresCase : Bool) (escape : Option Char) :
    Option String → Option String → Option Bool
  | some text, some pattern => (PatternItem.parse escape pattern.toList).map
      (PatternItem.matchesAll ignoresCase · text.toList)
  | _, _ => none

def negated (isNegated : Bool) (truth : Option Bool) : Option Bool :=
  if isNegated then truth.map (!·) else truth

theorem negated_inj {isNegated : Bool} {a b : Option Bool} :
    negated isNegated a = negated isNegated b ↔ a = b := by
  cases isNegated with
  | false => exact Iff.rfl
  | true => cases a <;> cases b <;> simp [negated]

theorem likeTruth_folded {escape : Option Char} {text pattern : Option String}
    (h : ∀ p ∈ pattern, ∀ c ∈ p.toList, escape = some c.toLower ↔ escape = some c) :
    likeTruth false escape (text.map Text.folded) (pattern.map Text.folded) =
      likeTruth true escape text pattern := by
  cases text with
  | none => rfl
  | some text =>
    cases pattern with
    | none => rfl
    | some pattern =>
      have hparse := PatternItem.parse_map_toLower (h pattern rfl)
      simp only [likeTruth, Option.map_some, Text.folded, Text.foldAscii, String.toList_ofList,
        hparse, Option.map_map]
      exact congrArg (Option.map · _) (funext fun items =>
        PatternItem.matchesAll_map_toLower items text.toList)

/-- A letter as the escape character of a pattern that begins with its capital. The capital is one
before the pattern is put in small letters and not afterwards, its small letter afterwards and not
before. -/
theorem parse_letter_escape : ∀ n < 128, (Char.ofNat n).isAlpha = true →
    let pattern := [(Char.ofNat n).toUpper, '%']
    (PatternItem.parse (some (Char.ofNat n)) (pattern.map Char.toLower)).map
        (PatternItem.matchesAll false · ['%']) ≠
      (PatternItem.parse (some (Char.ofNat n)) pattern).map
        (PatternItem.matchesAll true · ['%']) := by
  decide +kernel

theorem likeTruth_letter_escape {e : Char} (he : e.isAlpha = true) :
    let pattern := String.ofList [e.toUpper, '%']
    likeTruth false (some e) (some (Text.folded "%")) (some (Text.folded pattern)) ≠
      likeTruth true (some e) (some "%") (some pattern) := by
  have hne := parse_letter_escape e.toNat (Text.toNat_lt_of_isAlpha he)
  rw [Char.ofNat_toNat] at hne
  have hfolded : (Text.folded "%").toList = ['%'] := by decide
  simpa [likeTruth, hfolded, Text.folded, Text.foldAscii] using hne he

/-! ## Words of a like -/

/-- The words of a written `like`. -/
inductive LikeWord where
  | operand (e : Expression)
  /-- The name of a function and a parenthesis. -/
  | apply (function : String)
  | close
  | like (ignoresCase isNegated : Bool)
  | escape (c : Char)

namespace LikeWord

def layout : LikeWord → List Slot
  | .operand e => [.expression e]
  | .apply function => [.text (function ++ "(")]
  | .close => [.text ")"]
  | .like ignoresCase isNegated =>
    [.own (Context.negatable isNegated (if ignoresCase then "ilike " else "like "))]
  | .escape c => [.text " escape ", .own (.string (toString c))]

def spell (c : Context) (ws : List LikeWord) : Rendered := Slot.fill c (ws.flatMap layout)

section

-- What the functions of the database make of texts, and what the expressions come to.
variable (functions : String → String → String) (value : Expression → Option String)

/-- The value at the beginning of some words, and the words behind it. -/
def readSide : List LikeWord → Option (Option String × List LikeWord)
  | .operand e :: rest => some (value e, rest)
  | .apply function :: rest =>
    match readSide rest with
    | some (text, .close :: rest) => some (text.map (functions function), rest)
    | _ => none
  | _ => none

/-- What the words of a condition say. -/
def meaning (ws : List LikeWord) : Option (Option Bool) :=
  match readSide functions value ws with
  | some (text, .like ignoresCase isNegated :: rest) =>
    match readSide functions value rest with
    | some (pattern, []) => some (negated isNegated (likeTruth ignoresCase none text pattern))
    | some (pattern, [.escape c]) =>
      some (negated isNegated (likeTruth ignoresCase (some c) text pattern))
    | _ => none
  | _ => none

end

end LikeWord

namespace Context

def sideWords (c : Context) (isLowered : Bool) (e : Expression) : List LikeWord :=
  if isLowered then [.apply c.dialect.rules.lowercaseFunction, .operand e, .close] else [.operand e]

/-- The words of a `like`, in the order of the text. -/
def likeWords (c : Context) (operand pattern : Expression) (escape : Option Char)
    (ignoresCase isNegated : Bool) : List LikeWord :=
  let isNative := ignoresCase && c.dialect.supports .caseInsensitiveLike
  let isLowered := ignoresCase && !isNative
  c.sideWords isLowered operand ++ .like isNative isNegated ::
    c.sideWords isLowered pattern ++ (escape.map LikeWord.escape).toList

variable {c : Context} {functions : String → String → String} {value : Expression → Option String}

theorem flatMap_sideWords (isLowered : Bool) (e : Expression) :
    (c.sideWords isLowered e).flatMap LikeWord.layout = c.sideLayout isLowered e := by
  cases isLowered <;> rfl

theorem flatMap_likeWords (operand pattern : Expression) (escape : Option Char)
    (ignoresCase isNegated : Bool) :
    (c.likeWords operand pattern escape ignoresCase isNegated).flatMap LikeWord.layout =
      c.likeLayout operand pattern escape ignoresCase isNegated := by
  have hescape : (escape.map LikeWord.escape).toList.flatMap LikeWord.layout =
      Slot.clause " escape " (escape.map fun e => [.own (.string (toString e))]) := by
    cases escape <;> rfl
  simp only [likeWords, likeLayout, List.flatMap_append, List.flatMap_cons, flatMap_sideWords,
    hescape]
  rfl

theorem readSide_sideWords (isLowered : Bool) (e : Expression) (rest : List LikeWord) :
    LikeWord.readSide functions value (c.sideWords isLowered e ++ rest) =
      some (if isLowered then (value e).map (functions c.dialect.rules.lowercaseFunction)
        else value e, rest) := by
  cases isLowered <;> rfl

theorem meaning_likeWords_of_supports (hc : c.dialect.supports .caseInsensitiveLike = true)
    (operand pattern : Expression) (escape : Option Char) (isNegated : Bool) :
    LikeWord.meaning functions value (c.likeWords operand pattern escape true isNegated) =
      some (negated isNegated (likeTruth true escape (value operand) (value pattern))) := by
  rw [likeWords, hc, LikeWord.meaning, List.append_assoc, readSide_sideWords]
  simp only [List.cons_append, readSide_sideWords]
  cases escape <;> rfl

theorem meaning_likeWords_of_not_supports
    (hc : c.dialect.supports .caseInsensitiveLike = false)
    (hf : functions c.dialect.rules.lowercaseFunction = Text.folded)
    (operand pattern : Expression) (escape : Option Char) (isNegated : Bool) :
    LikeWord.meaning functions value (c.likeWords operand pattern escape true isNegated) =
      some (negated isNegated (likeTruth false escape ((value operand).map Text.folded)
        ((value pattern).map Text.folded))) := by
  rw [likeWords, hc, LikeWord.meaning, List.append_assoc, readSide_sideWords]
  simp only [List.cons_append, readSide_sideWords, hf]
  cases escape <;> rfl

end Context

theorem Condition.render_like (c : Context) (operand pattern : Expression) (escape : Option Char)
    (ignoresCase isNegated : Bool) :
    (Condition.like operand pattern escape ignoresCase isNegated).render c =
      LikeWord.spell c (c.likeWords operand pattern escape ignoresCase isNegated) := by
  rw [Condition.render_eq_fill, Condition.layout, LikeWord.spell, Context.flatMap_likeWords]

/-- The values in a row with a name. -/
def valueWithName (name : String) : Expression → Option String
  | .literal (.string text) => some text
  | .column _ "name" => some name
  | _ => none

/-- Without an operator that ignores case, a `like` that is to ignore it says so of the texts in
small letters. That is what it is to say, for all texts and patterns, unless its escape character
is a letter. -/
theorem Condition.render_like_means {c : Context} {functions : String → String → String}
    (hc : c.dialect.supports .caseInsensitiveLike = false)
    (hf : functions c.dialect.rules.lowercaseFunction = Text.folded)
    (escape : Option Char) (isNegated : Bool) :
    (∀ operand pattern, (Condition.like operand pattern escape true isNegated).render c =
      LikeWord.spell c (c.likeWords operand pattern escape true isNegated)) ∧
    (∀ (native : Context) (operand pattern : Expression) (value : Expression → Option String),
      native.dialect.supports .caseInsensitiveLike = true →
      (Condition.like operand pattern escape true isNegated).render native =
        LikeWord.spell native (native.likeWords operand pattern escape true isNegated) ∧
      LikeWord.meaning functions value
        (native.likeWords operand pattern escape true isNegated) =
          some (negated isNegated (likeTruth true escape (value operand) (value pattern)))) ∧
    (∀ (operand pattern : Expression) (value : Expression → Option String),
      (∀ p ∈ value pattern, ∀ ch ∈ p.toList, escape = some ch.toLower ↔ escape = some ch) →
      LikeWord.meaning functions value (c.likeWords operand pattern escape true isNegated) =
        some (negated isNegated (likeTruth true escape (value operand) (value pattern)))) ∧
    ((∀ (operand pattern : Expression) (value : Expression → Option String),
      LikeWord.meaning functions value (c.likeWords operand pattern escape true isNegated) =
        some (negated isNegated (likeTruth true escape (value operand) (value pattern)))) ↔
      ∀ e ∈ escape, e.isAlpha = false) := by
  have hmeans : ∀ (operand pattern : Expression) (value : Expression → Option String),
      (∀ p ∈ value pattern, ∀ ch ∈ p.toList, escape = some ch.toLower ↔ escape = some ch) →
      LikeWord.meaning functions value (c.likeWords operand pattern escape true isNegated) =
        some (negated isNegated (likeTruth true escape (value operand) (value pattern))) := by
    intro operand pattern value h
    rw [Context.meaning_likeWords_of_not_supports hc hf, likeTruth_folded h]
  refine ⟨fun operand pattern => render_like c .., fun native operand pattern value hn =>
    ⟨render_like native .., Context.meaning_likeWords_of_supports hn ..⟩, hmeans, ?_, ?_⟩
  · intro h e he
    obtain rfl : escape = some e := he
    by_contra hletter
    -- The text is the one character that the pattern stands for if its capital escapes.
    have hsame := h (.of "t0" "name") (.literal (.string (String.ofList [e.toUpper, '%'])))
      (valueWithName "%")
    rw [Context.meaning_likeWords_of_not_supports hc hf, Option.some_inj, negated_inj] at hsame
    exact likeTruth_letter_escape (by simpa using hletter) hsame
  · intro h operand pattern value
    refine hmeans operand pattern value fun p _ ch _ => ?_
    cases escape with
    | none => exact iff_of_false (Option.some_ne_none _).symm (Option.some_ne_none _).symm
    | some e =>
      have hiff := Text.toLower_eq_iff (h e rfl) ch
      simpa [eq_comm] using hiff

/-- A database whose only function is the one for small letters. -/
def lowerOnly (function text : String) : String :=
  if function = "lower" then Text.folded text else text

/-- With `A` as its escape character `A%` stands for a percent sign. In small letters it stands for
every name with an `a` at its beginning. -/
theorem escapedByCapital_misread :
    let c : Context := { dialect := Dialect.ofProduct .mySql ⟨8, 0, 0⟩ }
    let pattern : Expression := .literal (.string "A%")
    c.dialect.supports .caseInsensitiveLike = false ∧
    (Condition.like (.of "t0" "name") pattern (some 'A') true false).render c =
      LikeWord.spell c (c.likeWords (.of "t0" "name") pattern (some 'A') true false) ∧
    LikeWord.meaning lowerOnly (valueWithName "Anna")
      (c.likeWords (.of "t0" "name") pattern (some 'A') true false) = some (some true) ∧
    likeTruth true (some 'A') (valueWithName "Anna" (.of "t0" "name"))
      (valueWithName "Anna" pattern) = some false ∧
    (∀ value, LikeWord.meaning lowerOnly value
      (c.likeWords (.of "t0" "name") pattern (some '!') true false) =
        some (likeTruth true (some '!') (value (.of "t0" "name")) (value pattern))) := by
  intro c pattern
  have hc : c.dialect.supports .caseInsensitiveLike = false := by decide
  have hf : lowerOnly c.dialect.rules.lowercaseFunction = Text.folded := rfl
  obtain ⟨hspell, -⟩ := Condition.render_like_means hc hf (some 'A') false
  obtain ⟨-, -, -, hmeans⟩ := Condition.render_like_means hc hf (some '!') false
  refine ⟨hc, hspell _ _, by decide +kernel, by decide +kernel, ?_⟩
  refine fun value => hmeans.2 ?_ (.of "t0" "name") pattern value
  rintro e ⟨⟩
  rfl

end SqlDialects.Sql
