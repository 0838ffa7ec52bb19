import Mathlib.Data.List.Basic
import SqlDialects.Temporal.Format

/-!
# What a datetime pattern says

A pattern is read from left to right: text between apostrophes is literal, a letter is taken with
all its repetitions, which are one field if the style has it, and every other character is literal.
Each pattern can be read in one way, and a style writes what it reads part by part.
-/

namespace SqlDialects

/-- A part of what a pattern says in a style. -/
inductive FormatPart where
  | literal (c : Char)
  | specifier (text : String)
  deriving DecidableEq, Repr

namespace DatetimeFormat

/-- The pattern says these parts in the style. -/
inductive Says (style : DatetimeFormat) : List Char → List FormatPart → Prop
  | nil : Says style [] []
  | quoted {text rest : List Char} {parts : List FormatPart} (htext : '\x27' ∉ text)
    (h : Says style rest parts) :
    Says style ('\x27' :: (text ++ '\x27' :: rest)) (text.map .literal ++ parts)
  /-- Without a second apostrophe the text runs on to the end. -/
  | unclosed {text : List Char} (htext : '\x27' ∉ text) :
    Says style ('\x27' :: text) (text.map .literal)
  | field {letter : Char} {count : Nat} {specifier : String} {rest : List Char}
    {parts : List FormatPart} (hletter : letter.isAlpha = true) (hcount : 0 < count)
    (hrest : rest.head? ≠ some letter) (hfield : style.field? letter count = some specifier)
    (h : Says style rest parts) :
    Says style (List.replicate count letter ++ rest) (.specifier specifier :: parts)
  | letters {letter : Char} {count : Nat} {rest : List Char} {parts : List FormatPart}
    (hletter : letter.isAlpha = true) (hcount : 0 < count) (hrest : rest.head? ≠ some letter)
    (hfield : style.field? letter count = none) (h : Says style rest parts) :
    Says style (List.replicate count letter ++ rest)
      (List.replicate count (.literal letter) ++ parts)
  | other {c : Char} {rest : List Char} {parts : List FormatPart} (hletter : c.isAlpha = false)
    (hquote : c ≠ '\x27') (h : Says style rest parts) : Says style (c :: rest) (.literal c :: parts)

end DatetimeFormat

/-! ## Reading -/

namespace FormatItem

variable {c letter : Char} {text rest : List Char} {count : Nat}

theorem read_quoted (h : '\x27' ∉ text) (rest : List Char) :
    read true (text ++ '\x27' :: rest) = text.map .literal ++ read false rest := by
  induction text with
  | nil => rfl
  | cons c text ih =>
    obtain ⟨hc, htext⟩ := not_or.1 (mt List.mem_cons.2 h)
    rw [List.cons_append, read, if_neg (Ne.symm hc), Bool.true_or, if_pos rfl, ih htext]
    rfl

theorem read_unclosed (h : '\x27' ∉ text) : read true text = text.map .literal := by
  induction text with
  | nil => rfl
  | cons c text ih =>
    obtain ⟨hc, htext⟩ := not_or.1 (mt List.mem_cons.2 h)
    rw [read, if_neg (Ne.symm hc), Bool.true_or, if_pos rfl, ih htext]
    rfl

theorem read_apostrophe (rest : List Char) : read false ('\x27' :: rest) = read true rest := rfl

theorem read_other (hletter : c.isAlpha = false) (hquote : c ≠ '\x27') (rest : List Char) :
    read false (c :: rest) = .literal c :: read false rest := by
  rw [read, if_neg hquote, hletter, Bool.not_false, Bool.or_true, if_pos rfl]

/-- All repetitions of a letter make one field. -/
theorem read_run (hletter : letter.isAlpha = true) (hrest : rest.head? ≠ some letter)
    (count : Nat) : read false (List.replicate (count + 1) letter ++ rest) =
      .field letter (count + 1) :: read false rest := by
  have hquote : letter ≠ '\x27' := by
    rintro rfl
    revert hletter
    decide
  induction count with
  | zero =>
    rw [List.replicate_one, List.singleton_append, read, if_neg hquote, hletter, if_neg (by decide),
      if_neg hrest]
  | succ n ih =>
    have hnext : (List.replicate (n + 1) letter ++ rest).head? = some letter := rfl
    rw [List.replicate_succ, List.cons_append, read, if_neg hquote, hletter, if_neg (by decide),
      if_pos hnext, ih, lengthen]

/-- The letters of a field that the style does not have stand for themselves. -/
def parts (style : DatetimeFormat) : FormatItem → List FormatPart
  | literal c => [.literal c]
  | field letter count =>
    match style.field? letter count with
    | some specifier => [.specifier specifier]
    | none => List.replicate count (.literal letter)

end FormatItem

namespace DatetimeFormat

variable {style : DatetimeFormat} {pattern : List Char} {parts : List FormatPart}

def partsOf (style : DatetimeFormat) (pattern : List Char) : List FormatPart :=
  (FormatItem.read false pattern).flatMap (FormatItem.parts style)

theorem flatMap_parts_literal (text : List Char) :
    (text.map FormatItem.literal).flatMap (FormatItem.parts style) =
      text.map FormatPart.literal := by
  induction text with
  | nil => rfl
  | cons c text ih => rw [List.map_cons, List.flatMap_cons, ih, FormatItem.parts]; rfl

theorem partsOf_quoted {text : List Char} (htext : '\x27' ∉ text) (rest : List Char) :
    style.partsOf ('\x27' :: (text ++ '\x27' :: rest)) =
      text.map .literal ++ style.partsOf rest := by
  rw [partsOf, FormatItem.read_apostrophe, FormatItem.read_quoted htext, List.flatMap_append,
    flatMap_parts_literal, partsOf]

theorem partsOf_unclosed {text : List Char} (htext : '\x27' ∉ text) :
    style.partsOf ('\x27' :: text) = text.map .literal := by
  rw [partsOf, FormatItem.read_apostrophe, FormatItem.read_unclosed htext, flatMap_parts_literal]

theorem partsOf_run {letter : Char} {rest : List Char} (hletter : letter.isAlpha = true)
    (hrest : rest.head? ≠ some letter) {count : Nat} (hcount : 0 < count) :
    style.partsOf (List.replicate count letter ++ rest) =
      (FormatItem.field letter count).parts style ++ style.partsOf rest := by
  obtain ⟨n, rfl⟩ := Nat.exists_eq_add_one.2 hcount
  rw [partsOf, FormatItem.read_run hletter hrest, List.flatMap_cons, partsOf]

theorem partsOf_other {c : Char} (hletter : c.isAlpha = false) (hquote : c ≠ '\x27')
    (rest : List Char) : style.partsOf (c :: rest) = .literal c :: style.partsOf rest := by
  rw [partsOf, FormatItem.read_other hletter hquote, List.flatMap_cons, partsOf]
  rfl

theorem Says.eq_partsOf (h : style.Says pattern parts) : parts = style.partsOf pattern := by
  induction h with
  | nil => rfl
  | quoted htext h ih => rw [partsOf_quoted htext, ih]
  | unclosed htext => rw [partsOf_unclosed htext]
  | field hletter hcount hrest hfield h ih =>
    rw [partsOf_run hletter hrest hcount, FormatItem.parts, hfield, ih]
    rfl
  | letters hletter hcount hrest hfield h ih =>
    rw [partsOf_run hletter hrest hcount, FormatItem.parts, hfield, ih]
  | other hletter hquote h ih => rw [partsOf_other hletter hquote, ih]

/-- A text begins with all repetitions of a character that it begins with. -/
theorem exists_run (c : Char) (cs : List Char) :
    ∃ count rest, cs = List.replicate count c ++ rest ∧ rest.head? ≠ some c := by
  induction cs with
  | nil => exact ⟨0, [], rfl, nofun⟩
  | cons d cs ih =>
    by_cases hd : d = c
    · obtain ⟨count, rest, rfl, hrest⟩ := ih
      exact ⟨count + 1, rest, by rw [hd]; rfl, hrest⟩
    · exact ⟨0, d :: cs, rfl, fun h => hd (Option.some.inj h)⟩

theorem says_partsOf (style : DatetimeFormat) (pattern : List Char) :
    style.Says pattern (style.partsOf pattern) := by
  induction hn : pattern.length using Nat.strongRecOn generalizing pattern with
  | ind n ih =>
    cases pattern with
    | nil => exact .nil
    | cons c rest =>
      by_cases hquote : c = '\x27'
      · subst hquote
        by_cases hclosed : '\x27' ∈ rest
        · obtain ⟨text, rest, rfl, htext⟩ := List.eq_append_cons_of_mem hclosed
          rw [partsOf_quoted htext]
          exact .quoted htext (ih _ (by simp at hn; omega) rest rfl)
        · rw [partsOf_unclosed hclosed]
          exact .unclosed hclosed
      · cases hletter : c.isAlpha with
        | false =>
          rw [partsOf_other hletter hquote]
          exact .other hletter hquote (ih _ (by simp at hn; omega) rest rfl)
        | true =>
          obtain ⟨count, rest, rfl, hrest⟩ := exists_run c rest
          have hcount : 0 < count + 1 := Nat.succ_pos count
          have hlater := ih _ (by simp at hn; omega) rest rfl
          rw [← List.cons_append, ← List.replicate_succ, partsOf_run hletter hrest hcount,
            FormatItem.parts]
          cases hfield : style.field? c (count + 1) with
          | some specifier => exact .field hletter hcount hrest hfield hlater
          | none => exact .letters hletter hcount hrest hfield hlater

/-- Each pattern says one row of parts. -/
theorem says_iff : style.Says pattern parts ↔ parts = style.partsOf pattern :=
  ⟨Says.eq_partsOf, fun h => h ▸ says_partsOf style pattern⟩

/-- A character that is no letter and no apostrophe stands for itself wherever it is. -/
theorem Says.literal_mem (h : style.Says pattern parts) {c : Char} (hletter : c.isAlpha = false)
    (hquote : c ≠ '\x27') : .literal c ∈ parts ↔ c ∈ pattern := by
  have hne {letter : Char} (hl : letter.isAlpha = true) : c ≠ letter := by
    rintro rfl
    simp [hl] at hletter
  induction h with
  | nil => simp
  | quoted htext h ih => simp [ih, hquote]
  | unclosed htext => simp [hquote]
  | field hl hcount hrest hfield h ih => simp [ih, hne hl]
  | letters hl hcount hrest hfield h ih => simp [ih, hne hl]
  | other hl hq h ih => simp [ih]

/-- What holds of each specifier of a style holds of those that a pattern says. -/
theorem forall_specifier_partsOf {p : String → Bool}
    (h : ∀ letter count, (style.field? letter count).all p = true) (pattern : List Char)
    (text : String) (ht : .specifier text ∈ style.partsOf pattern) : p text = true := by
  obtain ⟨item, -, hitem⟩ := List.mem_flatMap.1 ht
  cases item with
  | literal c => cases List.mem_singleton.1 hitem
  | field letter count =>
    rw [FormatItem.parts] at hitem
    cases hfield : style.field? letter count with
    | some specifier =>
      rw [hfield] at hitem
      cases List.mem_singleton.1 hitem
      exact (Option.all_eq_true ..).1 (h letter count) text hfield
    | none =>
      rw [hfield] at hitem
      cases List.eq_of_mem_replicate hitem

end DatetimeFormat

/-! ## Writing -/

def FormatPart.write (style : DatetimeFormat) : FormatPart → List Char
  | .literal c => style.writeLiteral c
  | .specifier text => text.toList

namespace DatetimeFormat

variable {style : DatetimeFormat}

/-- A style writes what it reads, part by part. -/
theorem write_eq (h : style ≠ .passThrough) (pattern : String) : (style.write pattern).toList =
    (style.partsOf pattern.toList).flatMap (FormatPart.write style) := by
  have hitem (item : FormatItem) :
      style.writeItem item = (item.parts style).flatMap (FormatPart.write style) := by
    cases item with
    | literal c => exact (List.flatMap_singleton ..).symm
    | field letter count =>
      rw [writeItem, FormatItem.parts]
      cases style.field? letter count with
      | some specifier => exact (List.flatMap_singleton ..).symm
      | none =>
        rw [← List.map_replicate, List.flatMap_map]
        rfl
  have hwrite : style.write pattern =
      String.ofList ((FormatItem.ofPattern pattern).flatMap style.writeItem) := by
    cases style with
    | passThrough => exact absurd rfl h
    | _ => rfl
  rw [hwrite, String.toList_ofList, FormatItem.ofPattern, partsOf, List.flatMap_assoc,
    funext hitem]

end DatetimeFormat

end SqlDialects
