import Mathlib.Data.List.Chain
import SqlDialects.Proofs.Formats.Parts

/-!
# Formats with quoted text

One style writes fields as letters and puts every literal letter between double quotes. A reader
tells the two apart by the double quotes before them, so it sees what the pattern says exactly if
the pattern has no double quote of its own.
-/

namespace SqlDialects

/-- A character as a reader sees it, in quoted text or outside of it. -/
structure Glyph where
  char : Char
  isQuoted : Bool
  deriving DecidableEq, Repr

namespace Glyph

/-- A double quote opens quoted text, and the next one closes it. -/
def split (isQuoted : Bool) : List Char → List Glyph
  | [] => []
  | c :: rest =>
    if c = '"' then split (!isQuoted) rest else ⟨c, isQuoted⟩ :: split isQuoted rest

/-- The same, but a double quote behind a backslash is a character, and so is every character
behind a backslash in quoted text. -/
def splitEscaped (isQuoted : Bool) : List Char → List Glyph
  | [] => []
  | '\\' :: c :: rest =>
    if isQuoted = true ∨ c = '"' then ⟨c, isQuoted⟩ :: splitEscaped isQuoted rest
    else ⟨'\\', isQuoted⟩ :: splitEscaped isQuoted (c :: rest)
  | c :: rest =>
    if c = '"' then splitEscaped (!isQuoted) rest else ⟨c, isQuoted⟩ :: splitEscaped isQuoted rest

variable {isQuoted : Bool} {c : Char} {text : List Char}

theorem split_append (h : '"' ∉ text) (rest : List Char) :
    split isQuoted (text ++ rest) = text.map (⟨·, isQuoted⟩) ++ split isQuoted rest := by
  induction text with
  | nil => rfl
  | cons c text ih =>
    obtain ⟨hc, htext⟩ := not_or.1 (mt List.mem_cons.2 h)
    rw [List.cons_append, split, if_neg (Ne.symm hc), ih htext]
    rfl

/-- A double quote is never seen. -/
theorem quote_not_mem_split (isQuoted : Bool) (text : List Char) :
    '"' ∉ (split isQuoted text).map Glyph.char := by
  induction text generalizing isQuoted with
  | nil => exact List.not_mem_nil
  | cons c text ih =>
    rw [split]
    split
    · exact ih _
    · next hc => exact List.not_mem_cons_of_ne_of_not_mem (Ne.symm hc) (ih isQuoted)

theorem splitEscaped_of_ne (h : c ≠ '\\') (rest : List Char) : splitEscaped isQuoted (c :: rest) =
    if c = '"' then splitEscaped (!isQuoted) rest
    else ⟨c, isQuoted⟩ :: splitEscaped isQuoted rest :=
  splitEscaped.eq_3 isQuoted c rest fun _ _ hc => absurd hc h

theorem splitEscaped_backslash {rest : List Char} (h : rest.head? ≠ some '"') :
    splitEscaped false ('\\' :: rest) = ⟨'\\', false⟩ :: splitEscaped false rest := by
  cases rest with
  | nil => rfl
  | cons c rest =>
    have hc : ¬(false = true ∨ c = '"') := by simpa using h
    rw [splitEscaped, if_neg hc]

theorem splitEscaped_append (h : ∀ c ∈ text, c ≠ '"' ∧ c ≠ '\\') (rest : List Char) :
    splitEscaped isQuoted (text ++ rest) =
      text.map (⟨·, isQuoted⟩) ++ splitEscaped isQuoted rest := by
  induction text with
  | nil => rfl
  | cons c text ih =>
    obtain ⟨hc, htext⟩ := List.forall_mem_cons.1 h
    rw [List.cons_append, splitEscaped_of_ne hc.2, if_neg hc.1, ih htext]
    rfl

/-- Each double quote costs a character: itself, or the backslash before it. -/
theorem length_splitEscaped (isQuoted : Bool) (text : List Char) :
    (splitEscaped isQuoted text).length + text.count '"' ≤ text.length := by
  fun_induction splitEscaped isQuoted text with
  | case1 => simp
  | case2 isQuoted c rest h ih =>
    have hc : [c].count '"' ≤ 1 := List.count_le_length
    have hcount : ('\\' :: c :: rest).count '"' = [c].count '"' + rest.count '"' := by
      rw [List.count_cons_of_ne (by decide), ← List.count_append, List.singleton_append]
    simp only [hcount, List.length_cons]
    omega
  | case3 isQuoted c rest h ih =>
    rw [List.count_cons_of_ne (by decide)]
    simp only [List.length_cons] at ih ⊢
    omega
  | case4 isQuoted rest hslash ih =>
    rw [List.count_cons_self, List.length_cons]
    omega
  | case5 isQuoted c rest hslash hc ih =>
    rw [List.count_cons_of_ne hc]
    simp only [List.length_cons]
    omega

end Glyph

open Glyph (split splitEscaped)

/-! ## What should be seen -/

namespace FormatPart

def chars : FormatPart → List Char
  | literal c => [c]
  | specifier text => text.toList

/-- What a reader has to see of a part: a specifier outside of quoted text, a letter in it, and
another character anywhere. -/
inductive Shows : FormatPart → List Glyph → Prop
  | specifier (text : String) : Shows (.specifier text) (text.toList.map (⟨·, false⟩))
  | letter {c : Char} (h : c.isAlpha = true) : Shows (.literal c) [⟨c, true⟩]
  | other {c : Char} (h : c.isAlpha = false) (isQuoted : Bool) : Shows (.literal c) [⟨c, isQuoted⟩]

/-- A reader sees the parts one after the other and nothing else. -/
inductive AreShown : List FormatPart → List Glyph → Prop
  | nil : AreShown [] []
  | cons {part : FormatPart} {parts : List FormatPart} {piece glyphs : List Glyph}
    (hpart : part.Shows piece) (h : AreShown parts glyphs) :
    AreShown (part :: parts) (piece ++ glyphs)

/-- What a reader sees of the parts in or outside of quoted text. A double quote of the pattern
turns the one into the other for all that follows. -/
def glyphs (isQuoted : Bool) : List FormatPart → List Glyph
  | [] => []
  | .specifier text :: parts => text.toList.map (⟨·, isQuoted⟩) ++ glyphs isQuoted parts
  | .literal c :: parts =>
    if c = '"' then glyphs (!isQuoted) parts
    else ⟨c, if c.isAlpha then !isQuoted else isQuoted⟩ :: glyphs isQuoted parts

/-- A backslash does not stand in front of a letter, which is written with a double quote first. -/
def Apart (part next : FormatPart) : Prop :=
  ∀ c, part = .literal '\\' → next = .literal c → c.isAlpha = false

variable {parts : List FormatPart} {gs : List Glyph} {c : Char} {isQuoted : Bool}

theorem areShown_specifier {text : String} :
    AreShown (.specifier text :: parts) (text.toList.map (⟨·, false⟩) ++ gs) ↔
      AreShown parts gs := by
  constructor
  · intro h
    generalize heq : text.toList.map (fun c => (⟨c, false⟩ : Glyph)) ++ gs = all at h
    cases h with
    | cons hpart h =>
      cases hpart
      exact List.append_cancel_left heq ▸ h
  · exact .cons (.specifier text)

theorem areShown_literal {c' : Char} :
    AreShown (.literal c :: parts) (⟨c', isQuoted⟩ :: gs) ↔
      c' = c ∧ (c.isAlpha = true → isQuoted = true) ∧ AreShown parts gs := by
  constructor
  · intro h
    generalize heq : (⟨c', isQuoted⟩ : Glyph) :: gs = all at h
    cases h with
    | cons hpart h =>
      cases hpart with
      | letter hc =>
        obtain ⟨hglyph, rfl⟩ := List.cons.inj heq
        obtain ⟨rfl, rfl⟩ := Glyph.mk.inj hglyph
        exact ⟨rfl, fun _ => rfl, h⟩
      | other hc =>
        obtain ⟨hglyph, rfl⟩ := List.cons.inj heq
        obtain ⟨rfl, -⟩ := Glyph.mk.inj hglyph
        exact ⟨rfl, fun hletter => absurd hletter (by simp [hc]), h⟩
  · rintro ⟨rfl, hquoted, h⟩
    cases hc : c'.isAlpha with
    | true =>
      obtain rfl := hquoted hc
      exact .cons (.letter hc) h
    | false => exact .cons (.other hc isQuoted) h

theorem AreShown.map_char (h : AreShown parts gs) : gs.map Glyph.char = parts.flatMap chars := by
  induction h with
  | nil => rfl
  | cons hpart h ih =>
    rw [List.map_append, List.flatMap_cons, ih]
    congr 1
    cases hpart with
    | specifier text =>
      rw [List.map_map]
      exact List.map_id _
    | letter | other => rfl

/-! ## What is seen -/

/-- Each specifier has a character and no double quote or backslash. -/
def isPlain (text : String) : Bool :=
  !text.toList.isEmpty && text.toList.all fun c => c != '"' && c != '\\'

def Plain (parts : List FormatPart) : Prop := ∀ text, .specifier text ∈ parts → isPlain text = true

theorem not_mem_of_isPlain {text : String} (h : isPlain text = true) :
    ∀ c ∈ text.toList, c ≠ '"' ∧ c ≠ '\\' := by
  simpa [isPlain] using (Bool.and_eq_true_iff.1 h).2

theorem write_letter (h : c.isAlpha = true) :
    (literal c).write .postgres = ['"', c, '"'] := if_pos h

theorem write_other (h : c.isAlpha = false) : (literal c).write .postgres = [c] :=
  if_neg (by simp [h])

theorem ne_of_isAlpha (h : c.isAlpha = true) : c ≠ '"' ∧ c ≠ '\\' := by
  constructor <;> (rintro rfl; revert h; decide)

theorem Plain.quote_not_mem {text : String} (h : Plain (.specifier text :: parts)) :
    '"' ∉ text.toList :=
  fun hquote => (not_mem_of_isPlain (h text List.mem_cons_self) '"' hquote).1 rfl

theorem Plain.tail {part : FormatPart} (h : Plain (part :: parts)) : Plain parts :=
  fun text ht => h text (List.mem_cons_of_mem _ ht)

theorem split_flatMap (h : Plain parts) (isQuoted : Bool) :
    split isQuoted (parts.flatMap (write .postgres)) = glyphs isQuoted parts := by
  induction parts generalizing isQuoted with
  | nil => rfl
  | cons part parts ih =>
    have hlater := ih h.tail
    rw [List.flatMap_cons]
    cases part with
    | specifier text =>
      rw [write, Glyph.split_append h.quote_not_mem, hlater, glyphs]
    | literal c =>
      rw [glyphs]
      cases hc : c.isAlpha with
      | true =>
        have hne := (ne_of_isAlpha hc).1
        simp [write_letter hc, split, hne, hlater]
      | false =>
        rw [write_other hc, List.singleton_append, split, hlater, hlater]
        rfl

/-- A reader that only counts double quotes sees the parts if none of them is a double quote. -/
theorem areShown_split (h : Plain parts) :
    AreShown parts (split false (parts.flatMap (write .postgres))) ↔ .literal '"' ∉ parts := by
  constructor
  · intro hshown hquote
    have hseen : '"' ∈ parts.flatMap chars :=
      List.mem_flatMap.2 ⟨_, hquote, List.mem_singleton.2 rfl⟩
    rw [← hshown.map_char] at hseen
    exact Glyph.quote_not_mem_split false _ hseen
  · intro hquote
    rw [split_flatMap h]
    clear h
    induction parts with
    | nil => exact .nil
    | cons part parts ih =>
      obtain ⟨hne, hlater⟩ := not_or.1 (mt List.mem_cons.2 hquote)
      cases part with
      | specifier text => exact areShown_specifier.2 (ih hlater)
      | literal c =>
        have hc : c ≠ '"' := fun hc => hne (by rw [hc])
        rw [glyphs, if_neg hc]
        exact areShown_literal.2 ⟨rfl, fun hletter => by simp [hletter], ih hlater⟩

/-! ## With backslashes -/

/-- Only double quotes come on top of the characters of the parts. -/
theorem length_flatMap_write (h : Plain parts) :
    (parts.flatMap (write .postgres)).length + parts.count (.literal '"') =
      (parts.flatMap chars).length + (parts.flatMap (write .postgres)).count '"' := by
  induction parts with
  | nil => rfl
  | cons part parts ih =>
    have hlater := ih h.tail
    have hpart : (part.write .postgres).length + [part].count (.literal '"') =
        part.chars.length + (part.write .postgres).count '"' := by
      cases part with
      | specifier text =>
        simp [write, chars, List.count_eq_zero.2 h.quote_not_mem]
      | literal c =>
        cases hc : c.isAlpha with
        | true =>
          have hne := (ne_of_isAlpha hc).1
          simp [write_letter hc, chars, hne]
        | false =>
          rw [write_other hc]
          by_cases hquote : c = '"' <;> simp [chars, hquote]
    rw [← List.singleton_append, List.count_append]
    simp only [List.singleton_append, List.flatMap_cons, List.length_append, List.count_append]
    omega

theorem head?_flatMap_write (h : Plain parts) (hquote : .literal '"' ∉ parts)
    (hnext : ∀ next ∈ parts.head?, Apart (.literal '\\') next) :
    (parts.flatMap (write .postgres)).head? ≠ some '"' := by
  cases parts with
  | nil => exact nofun
  | cons next parts =>
    rw [List.flatMap_cons]
    cases next with
    | specifier text =>
      have hplain := h text List.mem_cons_self
      obtain ⟨c, cs, htext⟩ : ∃ c cs, text.toList = c :: cs := by
        refine List.exists_cons_of_ne_nil fun hnil => ?_
        simp [isPlain, hnil] at hplain
      have hc := (not_mem_of_isPlain hplain c (htext ▸ List.mem_cons_self)).1
      rw [write, htext]
      exact fun heq => hc (Option.some.inj heq)
    | literal c =>
      rw [write_other (hnext (.literal c) rfl c rfl rfl)]
      exact fun heq => hquote (Option.some.inj heq ▸ List.mem_cons_self)

/-- A backslash and the quote before a letter are taken together. -/
theorem not_areShown_backslash (h : c.isAlpha = true) (behind : List Char) :
    ¬AreShown (.literal '\\' :: parts)
      (splitEscaped false ('\\' :: ((literal c).write .postgres ++ behind))) := by
  intro hshown
  rw [write_letter h, List.cons_append, splitEscaped, if_pos (.inr rfl)] at hshown
  exact absurd (areShown_literal.1 hshown).1 (by decide)

theorem splitEscaped_letter (h : c.isAlpha = true) (behind : List Char) :
    splitEscaped false ((literal c).write .postgres ++ behind) =
      ⟨c, true⟩ :: splitEscaped false behind := by
  obtain ⟨hquote, hslash⟩ := ne_of_isAlpha h
  rw [write_letter h, List.cons_append, List.cons_append, List.singleton_append,
    Glyph.splitEscaped_of_ne (by decide), if_pos rfl, Glyph.splitEscaped_of_ne hslash,
    if_neg hquote, Glyph.splitEscaped_of_ne (by decide), if_pos rfl]
  rfl

theorem isChain_apart_cons {part : FormatPart} (h : part ≠ .literal '\\') :
    (part :: parts).IsChain Apart ↔ parts.IsChain Apart := by
  rw [List.isChain_cons]
  exact and_iff_right fun next _ c hslash => absurd hslash h

/-- Without double quotes the reader is never in quoted text between two parts. -/
theorem areShown_splitEscaped_iff (h : Plain parts) (hquote : .literal '"' ∉ parts) :
    AreShown parts (splitEscaped false (parts.flatMap (write .postgres))) ↔
      parts.IsChain Apart := by
  induction parts with
  | nil => exact iff_of_true .nil .nil
  | cons part parts ih =>
    obtain ⟨hne, hlater⟩ := not_or.1 (mt List.mem_cons.2 hquote)
    have ih := ih h.tail hlater
    rw [List.flatMap_cons]
    cases part with
    | specifier text =>
      have htext := not_mem_of_isPlain (h text List.mem_cons_self)
      have hpart : specifier text ≠ .literal '\\' := nofun
      rw [write, Glyph.splitEscaped_append htext, areShown_specifier, ih, isChain_apart_cons hpart]
    | literal c =>
      by_cases hslash : c = '\\'
      · subst hslash
        by_cases hnext : ∀ next ∈ parts.head?, Apart (.literal '\\') next
        · have hhead := head?_flatMap_write h.tail hlater hnext
          rw [write_other (by decide), List.singleton_append, Glyph.splitEscaped_backslash hhead,
            areShown_literal, ih, List.isChain_cons, and_iff_right hnext]
          exact ⟨fun hshown => hshown.2.2, fun hchain => ⟨rfl, by decide, hchain⟩⟩
        · refine iff_of_false (fun hshown => ?_) fun hchain => hnext (List.isChain_cons.1 hchain).1
          unfold Apart at hnext
          push Not at hnext
          obtain ⟨next, hmem, d, -, rfl, hd⟩ := hnext
          obtain ⟨rest, rfl⟩ := List.head?_eq_some_iff.1 hmem
          exact not_areShown_backslash (by simpa using hd) _ hshown
      · have hpart : literal c ≠ .literal '\\' := fun heq => hslash (literal.inj heq)
        rw [isChain_apart_cons hpart]
        cases hc : c.isAlpha with
        | true =>
          rw [splitEscaped_letter hc, areShown_literal, ih]
          exact ⟨fun hshown => hshown.2.2, fun hchain => ⟨rfl, fun _ => rfl, hchain⟩⟩
        | false =>
          have hnequote : c ≠ '"' := fun heq => hne (by rw [heq])
          rw [write_other hc, List.singleton_append, Glyph.splitEscaped_of_ne hslash,
            if_neg hnequote, areShown_literal, ih]
          exact ⟨fun hshown => hshown.2.2, fun hchain => ⟨rfl, by simp [hc], hchain⟩⟩

/-- A reader that minds backslashes sees the parts if none of them is a double quote or a backslash
in front of a letter. -/
theorem areShown_splitEscaped (h : Plain parts) :
    AreShown parts (splitEscaped false (parts.flatMap (write .postgres))) ↔
      .literal '"' ∉ parts ∧ parts.IsChain Apart := by
  constructor
  · intro hshown
    have hquote : .literal '"' ∉ parts := by
      have hseen := congrArg List.length hshown.map_char
      have hlength := Glyph.length_splitEscaped false (parts.flatMap (write .postgres))
      have hwritten := length_flatMap_write h
      rw [List.length_map] at hseen
      exact List.count_eq_zero.1 (by omega)
    exact ⟨hquote, (areShown_splitEscaped_iff h hquote).1 hshown⟩
  · rintro ⟨hquote, hapart⟩
    exact (areShown_splitEscaped_iff h hquote).2 hapart

end FormatPart

namespace DatetimeFormat

open FormatPart (AreShown Apart glyphs isPlain)

theorem isPlain_field? (letter : Char) (count : Nat) :
    (postgres.field? letter count).all isPlain = true := by
  rw [field?]
  unfold postgresField?
  split <;> decide

/-- Each double quote of a pattern exchanges quoted text and what is outside of it for all that
follows. So specifiers are seen outside, letters inside and every character of the pattern once
exactly if the pattern has no double quote, and, for a reader that minds backslashes, no backslash
in front of a literal letter. -/
theorem write_areShown (pattern : String) :
    ∃ parts, (∀ parts', postgres.Says pattern.toList parts' ↔ parts' = parts) ∧
      split false (postgres.write pattern).toList = glyphs false parts ∧
      (AreShown parts (split false (postgres.write pattern).toList) ↔ '"' ∉ pattern.toList) ∧
      (AreShown parts (splitEscaped false (postgres.write pattern).toList) ↔
        '"' ∉ pattern.toList ∧ parts.IsChain Apart) := by
  have hplain : FormatPart.Plain (postgres.partsOf pattern.toList) :=
    forall_specifier_partsOf isPlain_field? pattern.toList
  have hquote : .literal '"' ∈ postgres.partsOf pattern.toList ↔ '"' ∈ pattern.toList :=
    (says_partsOf postgres pattern.toList).literal_mem (by decide) (by decide)
  refine ⟨postgres.partsOf pattern.toList, fun _ => says_iff, ?_⟩
  rw [write_eq (by decide), FormatPart.areShown_splitEscaped hplain,
    FormatPart.areShown_split hplain, hquote]
  exact ⟨FormatPart.split_flatMap hplain false, Iff.rfl, Iff.rfl⟩

/-- The year stands in quoted text if there is a double quote before it. A backslash before the
double quote would keep it outside. -/
theorem quote_before_year :
    postgres.write "\"yyyy" = "\"YYYY" ∧
      Says postgres "\"yyyy".toList [.literal '"', .specifier "YYYY"] ∧
      split false "\"YYYY".toList = [⟨'Y', true⟩, ⟨'Y', true⟩, ⟨'Y', true⟩, ⟨'Y', true⟩] ∧
      ¬AreShown [.literal '"', .specifier "YYYY"] (split false "\"YYYY".toList) ∧
      ¬AreShown [.literal '"', .specifier "YYYY"] (splitEscaped false "\"YYYY".toList) ∧
      AreShown [.literal '"', .specifier "YYYY"] (splitEscaped false "\\\"YYYY".toList) := by
  have hwrite : postgres.write "\"yyyy" = "\"YYYY" := by decide
  have hsays : Says postgres "\"yyyy".toList [.literal '"', .specifier "YYYY"] :=
    says_iff.2 (by decide)
  obtain ⟨parts, hparts, -, hsplit, hescaped⟩ := write_areShown "\"yyyy"
  obtain rfl := (hparts _).1 hsays
  rw [hwrite] at hsplit hescaped
  refine ⟨hwrite, hsays, by decide, ?_, ?_, ?_⟩
  · exact fun h => hsplit.1 h (by decide)
  · exact fun h => (hescaped.1 h).1 (by decide)
  · exact .cons (.other (by decide) false) (.cons (.specifier "YYYY") .nil)

end DatetimeFormat

end SqlDialects
