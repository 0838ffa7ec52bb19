import SqlDialects.Proofs.Formats.Parts

/-!
# Formats of specifiers

Two styles write a field as a percent sign with a letter and a percent sign as two of them. Such a
text has one reading, and it is what the pattern says.
-/

namespace SqlDialects

namespace FormatPart

/-- A percent sign with a letter is a specifier, two percent signs are one of the text, and every
other character is itself. -/
def ofSpecifiers : List Char → List FormatPart
  | [] => []
  | '%' :: c :: rest =>
    if c.isAlpha then .specifier (String.ofList ['%', c]) :: ofSpecifiers rest
    else if c = '%' then .literal '%' :: ofSpecifiers rest
    else .literal '%' :: ofSpecifiers (c :: rest)
  | c :: rest => .literal c :: ofSpecifiers rest

/-- A percent sign with a letter. -/
def isSpecifier (text : String) : Bool :=
  match text.toList with
  | ['%', c] => c.isAlpha
  | _ => false

theorem exists_of_isSpecifier {text : String} (h : isSpecifier text = true) :
    ∃ c, c.isAlpha = true ∧ text.toList = ['%', c] := by
  unfold isSpecifier at h
  split at h
  · next c htext => exact ⟨c, h, htext⟩
  · cases h

end FormatPart

open FormatPart (ofSpecifiers isSpecifier exists_of_isSpecifier)

namespace DatetimeFormat

variable {style : DatetimeFormat}

theorem isSpecifier_field? (hs : style = .mySql ∨ style = .sqlite) (letter : Char) (count : Nat) :
    (style.field? letter count).all isSpecifier = true := by
  rcases hs with rfl | rfl
  · rw [field?]
    unfold mySqlField?
    split <;> decide
  · rw [field?]
    unfold sqliteField?
    split <;> decide

end DatetimeFormat

/-! ## Reading back -/

namespace FormatPart

variable {style : DatetimeFormat} {c : Char} {rest : List Char}

theorem ofSpecifiers_of_ne (h : c ≠ '%') :
    ofSpecifiers (c :: rest) = .literal c :: ofSpecifiers rest := by
  cases rest <;> simp [ofSpecifiers, h]

theorem ofSpecifiers_literal (hs : style = .mySql ∨ style = .sqlite) :
    ofSpecifiers ((literal c).write style ++ rest) = .literal c :: ofSpecifiers rest := by
  have hwrite : (literal c).write style = if c = '%' then ['%', '%'] else [c] := by
    rcases hs with rfl | rfl <;> rfl
  rw [hwrite]
  split
  · next hc => subst hc; rfl
  · next hc => exact ofSpecifiers_of_ne hc

theorem ofSpecifiers_specifier {text : String} (h : isSpecifier text = true) :
    ofSpecifiers ((specifier text).write style ++ rest) = .specifier text :: ofSpecifiers rest := by
  obtain ⟨c, hc, htext⟩ := exists_of_isSpecifier h
  rw [write, htext, List.cons_append, List.singleton_append, ofSpecifiers, if_pos hc, ← htext,
    String.ofList_toList]

/-- No part runs into the next one. -/
theorem ofSpecifiers_flatMap (hs : style = .mySql ∨ style = .sqlite) {parts : List FormatPart}
    (h : ∀ text, .specifier text ∈ parts → isSpecifier text = true) :
    ofSpecifiers (parts.flatMap (write style)) = parts := by
  induction parts with
  | nil => rfl
  | cons part parts ih =>
    have hlater := ih fun text ht => h text (List.mem_cons_of_mem _ ht)
    rw [List.flatMap_cons]
    cases part with
    | literal c => rw [ofSpecifiers_literal hs, hlater]
    | specifier text => rw [ofSpecifiers_specifier (h text List.mem_cons_self), hlater]

end FormatPart

namespace DatetimeFormat

/-- What is written is read as what the pattern says, and as nothing else. -/
theorem ofSpecifiers_write {style : DatetimeFormat} (hs : style = .mySql ∨ style = .sqlite)
    (pattern : String) (parts : List FormatPart) :
    ofSpecifiers (style.write pattern).toList = parts ↔ style.Says pattern.toList parts := by
  have hstyle : style ≠ .passThrough := by
    rcases hs with rfl | rfl <;> decide
  have hspecifiers := forall_specifier_partsOf (isSpecifier_field? hs) pattern.toList
  rw [write_eq hstyle, FormatPart.ofSpecifiers_flatMap hs hspecifiers, says_iff, eq_comm]

/-- A percent sign between two fields and one in a text, and a field that there is not. -/
theorem says_percentSigns :
    (sqlite = .mySql ∨ sqlite = .sqlite) ∧ sqlite.write "dd%MM'T%'yyy" = "%d%%%mT%%yyy" ∧
      Says sqlite "dd%MM'T%'yyy".toList
        [.specifier "%d", .literal '%', .specifier "%m", .literal 'T', .literal '%', .literal 'y',
          .literal 'y', .literal 'y'] :=
  ⟨.inr rfl, by decide, (ofSpecifiers_write (.inr rfl) "dd%MM'T%'yyy" _).1 (by decide)⟩

end DatetimeFormat

end SqlDialects
