import Mathlib.Logic.Function.Basic
import SqlDialects.Dialect.Resolve

/-!
# Tokens in quotes

A reader takes a token from its opening quote up to the first closing quote that is not doubled. A
text in quotes is such a token wherever it stands, as long as no further closing quote follows: what
is in it never ends the token, and the reader finds it again.
-/

namespace SqlDialects.Text

namespace Quoted

/-! ## Reading -/

/-- What stands up to the first closing quote that is not doubled, and what follows this quote. -/
def content (close : Char) : List Char → Option (List Char × List Char)
  | [] => none
  | [c] => if c = close then some ([], []) else none
  | c :: d :: rest =>
    if c ≠ close then (content close (d :: rest)).map fun read => (c :: read.1, read.2)
    else if d = close then (content close rest).map fun read => (close :: read.1, read.2)
    else some ([], d :: rest)

/-- What is in the token that a text begins with, and what follows the token. -/
def token (opening close : Char) : List Char → Option (List Char × List Char)
  | [] => none
  | c :: rest => if c = opening then content close rest else none

variable {opening close c : Char} {cs rest text : List Char}

theorem content_cons (h : c ≠ close) (rest : List Char) :
    content close (c :: rest) = (content close rest).map fun read => (c :: read.1, read.2) := by
  cases rest with
  | nil =>
    rw [content, content, if_neg h]
    rfl
  | cons d rest => rw [content, if_pos h]

theorem content_close_close (close : Char) (rest : List Char) :
    content close (close :: close :: rest) =
      (content close rest).map fun read => (close :: read.1, read.2) := by
  rw [content, if_neg (not_not.2 rfl), if_pos rfl]

theorem content_close (h : rest.head? ≠ some close) :
    content close (close :: rest) = some ([], rest) := by
  cases rest with
  | nil => rw [content, if_pos rfl]
  | cons d rest =>
    have hd : d ≠ close := fun hd => h (congrArg some hd)
    rw [content, if_neg (not_not.2 rfl), if_neg hd]

/-- Doubled quotes do not end a token, so reading goes on behind them. -/
theorem content_doubled (cs rest : List Char) : content close (doubled close cs ++ rest) =
    (content close rest).map fun read => (cs ++ read.1, read.2) := by
  induction cs with
  | nil => simp [doubled]
  | cons c cs ih =>
    rw [doubled]
    split
    · next h =>
      rw [List.cons_append, List.cons_append, content_close_close, ih, Option.map_map, h]
      rfl
    · next h =>
      rw [List.cons_append, content_cons h, ih, Option.map_map]
      rfl

/-- What is read was written with its closing quotes doubled. -/
theorem eq_of_content (h : content close text = some (cs, rest)) :
    text = doubled close cs ++ close :: rest := by
  fun_induction content close text generalizing cs with
  | case1 => cases h
  | case2 => cases h; rfl
  | case3 => cases h
  | case4 c d more hc ih =>
    obtain ⟨⟨cs', rest'⟩, hread, hpair⟩ := Option.map_eq_some_iff.1 h
    obtain ⟨rfl, rfl⟩ := Prod.mk.inj hpair
    rw [doubled, if_neg hc, List.cons_append, ← ih hread]
  | case5 c more hc ih =>
    obtain ⟨⟨cs', rest'⟩, hread, hpair⟩ := Option.map_eq_some_iff.1 h
    obtain ⟨rfl, rfl⟩ := Prod.mk.inj hpair
    rw [doubled, if_pos rfl, List.cons_append, List.cons_append, ← ih hread, not_not.1 hc]
  | case6 c d more hc hd =>
    obtain ⟨rfl, rfl⟩ := Prod.mk.inj (Option.some.inj h)
    rw [doubled, List.nil_append, not_not.1 hc]

/-! ## Tokens -/

theorem token_enclosed (cs rest : List Char) :
    token opening close (enclosed opening close cs ++ rest) =
      (content close (close :: rest)).map fun read => (cs ++ read.1, read.2) := by
  rw [enclosed, List.cons_append, token, if_pos rfl, List.append_assoc, List.singleton_append,
    content_doubled]

theorem eq_of_token (h : token opening close text = some (cs, rest)) :
    text = enclosed opening close cs ++ rest := by
  cases text with
  | nil => cases h
  | cons c text =>
    rw [token] at h
    split at h
    · next hc =>
      rw [hc, eq_of_content h, enclosed, List.cons_append, List.append_assoc, List.singleton_append]
    · cases h

/-- A token ends behind all that was written for it, even where another quote follows. -/
theorem suffix_of_token {cs' rest' : List Char}
    (h : token opening close (enclosed opening close cs ++ rest) = some (cs', rest')) :
    cs <+: cs' ∧ rest' <:+ rest := by
  rw [token_enclosed] at h
  obtain ⟨⟨read, left⟩, hread, hpair⟩ := Option.map_eq_some_iff.1 h
  obtain ⟨rfl, rfl⟩ := Prod.mk.inj hpair
  refine ⟨List.prefix_append _ _, ?_⟩
  by_cases hrest : rest.head? = some close
  · obtain ⟨more, rfl⟩ := List.head?_eq_some_iff.1 hrest
    rw [content_close_close] at hread
    obtain ⟨⟨read', left'⟩, hmore, hpair⟩ := Option.map_eq_some_iff.1 hread
    obtain ⟨rfl, rfl⟩ := Prod.mk.inj hpair
    rw [eq_of_content hmore]
    exact ⟨close :: (doubled close read' ++ [close]), by simp⟩
  · rw [content_close hrest] at hread
    obtain ⟨-, rfl⟩ := Prod.mk.inj (Option.some.inj hread)
    exact List.suffix_refl _

end Quoted

/-! ## Quoting -/

/-- The function puts texts in these quotes. -/
structure Quotes (opening close : Char) (quote : String → String) : Prop where
  /-- A text is found again in its token, and so is what follows the token. -/
  token : ∀ (s : String) (rest : List Char), rest.head? ≠ some close →
    Quoted.token opening close ((quote s).toList ++ rest) = some (s.toList, rest)
  /-- All that is read as a token is a text in quotes. -/
  eq_of_token : ∀ text cs rest, Quoted.token opening close text = some (cs, rest) →
    text = (quote (String.ofList cs)).toList ++ rest
  injective : Function.Injective quote
  /-- Whatever follows, a token never ends inside of what is written for a text. -/
  notEarly : ∀ (s : String) (rest cs left : List Char),
    Quoted.token opening close ((quote s).toList ++ rest) = some (cs, left) →
      s.toList <+: cs ∧ left <:+ rest

theorem quotes_delimited (opening close : Char) :
    Quotes opening close (delimited opening close) := by
  have htoken (s : String) (rest : List Char) (h : rest.head? ≠ some close) :
      Quoted.token opening close ((delimited opening close s).toList ++ rest) =
        some (s.toList, rest) := by
    rw [delimited, String.toList_ofList, Quoted.token_enclosed, Quoted.content_close h,
      Option.map_some, List.append_nil]
  refine ⟨htoken, fun text cs rest h => ?_, fun s t h => ?_, fun s rest cs left h => ?_⟩
  · rw [delimited, String.toList_ofList, String.toList_ofList]
    exact Quoted.eq_of_token h
  · have hs := htoken s [] nofun
    rw [h, htoken t [] nofun] at hs
    exact String.toList_inj.1 (Prod.mk.inj (Option.some.inj hs)).1.symm
  · rw [delimited, String.toList_ofList] at h
    exact Quoted.suffix_of_token h

/-- Identifiers and string literals are tokens in quotes, whatever they are made of. -/
theorem quotes_identifiers_and_literals (d : Dialect) :
    Quotes d.rules.openQuote d.rules.closeQuote d.quoteIdentifier ∧ Quotes '\x27' '\x27' literal :=
  ⟨quotes_delimited _ _, quotes_delimited _ _⟩

/-- A name with a closing bracket in it, in front of more text. -/
theorem bracketedName_token :
    (" from".toList).head? ≠ some ']' ∧
      Quoted.token '[' ']' "[a]]b] from".toList = some ("a]b".toList, " from".toList) :=
  ⟨by decide, (quotes_identifiers_and_literals (.ofProduct .sqlServer ⟨16, 0, 0⟩)).1.token
    "a]b" " from".toList (by decide)⟩

end SqlDialects.Text
