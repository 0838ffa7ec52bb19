import Mathlib.Data.List.Basic
import SqlDialects.Template

/-!
# Argument marks in a template

An argument mark is a question mark with all the digits behind it, if their number is a machine
word and not zero. Lexemes are put together from the right, but what they are can be said from the
left: where a mark stands, and what becomes of a template if each of its marks is replaced.
-/

namespace SqlDialects.Template

variable {α : Type}

/-- The number that a question mark in front of these digits refers to. -/
def markNumber? (digits : List Char) : Option Nat :=
  (Number.ofDigits? digits).filter fun n => 0 < n ∧ n < Number.wordBound

/-- The number of the mark that a text begins with. -/
def markAhead? : List Char → Option Nat
  | '?' :: rest => markNumber? (rest.takeWhile Char.isDigit)
  | _ => none

/-- A mark with this number begins somewhere in the text. -/
def Mentions (source : List Char) (n : Nat) : Prop :=
  ∃ rest, rest <:+ source ∧ markAhead? rest = some n

/-- What is put together for the marks of a text and for its other characters. What is put for a
mark is not read again. -/
def substitute (ofMark : Nat → List α) (ofChar : Char → List α) : List Char → List α
  | [] => []
  | c :: rest =>
    match markAhead? (c :: rest) with
    | some n => ofMark n ++ substitute ofMark ofChar (rest.dropWhile Char.isDigit)
    | none => ofChar c ++ substitute ofMark ofChar rest
termination_by source => source.length
decreasing_by
  · exact Nat.lt_succ_of_le (List.dropWhile_sublist _).length_le
  · exact Nat.lt_succ_self _

variable {c : Char} {source rest digits : List Char} {n : Nat}

theorem isDigits_of_markNumber? (h : markNumber? digits = some n) :
    digits ≠ [] ∧ digits.all Char.isDigit = true := by
  unfold markNumber? Number.ofDigits? at h
  exact (Option.ite_none_right_eq_some.1 (Option.filter_eq_some_iff.1 h).1).1

theorem markAhead?_of_ne (h : c ≠ '?') (rest : List Char) : markAhead? (c :: rest) = none := by
  unfold markAhead?
  split
  · next heq => exact absurd (List.cons.inj heq).1 h
  · rfl

theorem mentions_nil : ¬Mentions [] n := by
  rintro ⟨rest, hsuffix, hmark⟩
  rw [List.suffix_nil.1 hsuffix] at hmark
  cases hmark

theorem mentions_cons : Mentions (c :: rest) n ↔
    markAhead? (c :: rest) = some n ∨ Mentions rest n := by
  unfold Mentions
  simp only [List.suffix_cons_iff, or_and_right, exists_or, exists_eq_left]

/-! ## Lexemes from the left -/

/-- The digits that lexemes begin with. -/
def digitsAhead : List Lexeme → List Char
  | .run chars :: _ => chars.takeWhile Char.isDigit
  | _ => []

def withoutDigits : List Lexeme → List Lexeme
  | .run chars :: rest => withRun (chars.dropWhile Char.isDigit) rest
  | rest => rest

/-- Digits are only in runs. -/
theorem digitsAhead_of_not_run {rest : List Lexeme}
    (h : ∀ chars more, rest = .run chars :: more → False) :
    digitsAhead rest = [] ∧ withoutDigits rest = rest := by
  unfold digitsAhead withoutDigits
  split
  · next chars more => exact (h chars more rfl).elim
  · exact ⟨rfl, rfl⟩

theorem pushQuestion_eq (rest : List Lexeme) : pushQuestion rest =
    if digitsAhead rest = [] then .question :: rest
    else .argument (digitsAhead rest) :: withoutDigits rest := by
  unfold pushQuestion
  split
  · next chars more =>
    by_cases h : chars.takeWhile Char.isDigit = [] <;> simp [digitsAhead, withoutDigits, h]
  · next hrun => rw [(digitsAhead_of_not_run hrun).1, if_pos rfl]

theorem ne_of_isDigit (h : c.isDigit = true) : c ≠ '?' ∧ c ≠ '$' := by
  constructor <;> (rintro rfl; cases h)

theorem digitsAhead_push (h : c.isDigit = true) (rest : List Lexeme) :
    digitsAhead (push c rest) = c :: digitsAhead rest ∧
      withoutDigits (push c rest) = withoutDigits rest := by
  obtain ⟨hquestion, hdollar⟩ := ne_of_isDigit h
  rw [push, if_neg hquestion, if_neg hdollar]
  unfold pushPlain
  split
  · simp [digitsAhead, withoutDigits, h]
  · next hrun =>
    obtain ⟨hnone, hself⟩ := digitsAhead_of_not_run hrun
    rw [hnone, hself]
    simp [digitsAhead, withoutDigits, withRun, h]

theorem digitsAhead_push_of_not_isDigit (h : c.isDigit = false) (rest : List Lexeme) :
    digitsAhead (push c rest) = [] ∧ withoutDigits (push c rest) = push c rest := by
  unfold push
  split
  · rw [pushQuestion_eq]
    split <;> exact ⟨rfl, rfl⟩
  · split
    · unfold pushDollar
      split <;> exact ⟨rfl, rfl⟩
    · unfold pushPlain
      split <;> simp [digitsAhead, withoutDigits, withRun, h]

/-- Taking lexemes and taking digits away from the front can change places. -/
theorem digitsAhead_lexemes (source : List Char) :
    digitsAhead (lexemes source) = source.takeWhile Char.isDigit ∧
      withoutDigits (lexemes source) = lexemes (source.dropWhile Char.isDigit) := by
  induction source with
  | nil => exact ⟨rfl, rfl⟩
  | cons c rest ih =>
    have hlexemes : lexemes (c :: rest) = push c (lexemes rest) := rfl
    rw [hlexemes]
    cases h : c.isDigit with
    | true =>
      obtain ⟨hahead, hwithout⟩ := digitsAhead_push h (lexemes rest)
      rw [hahead, hwithout, ih.1, ih.2, List.takeWhile_cons_of_pos h, List.dropWhile_cons_of_pos h]
      exact ⟨rfl, rfl⟩
    | false =>
      have hneg : ¬c.isDigit = true := by simp [h]
      obtain ⟨hahead, hwithout⟩ := digitsAhead_push_of_not_isDigit h (lexemes rest)
      rw [hahead, hwithout, List.takeWhile_cons_of_neg hneg, List.dropWhile_cons_of_neg hneg]
      exact ⟨rfl, rfl⟩

/-- A question mark goes with all the digits behind it. -/
theorem lexemes_question (rest : List Char) : lexemes ('?' :: rest) =
    if rest.takeWhile Char.isDigit = [] then .question :: lexemes rest
    else .argument (rest.takeWhile Char.isDigit) :: lexemes (rest.dropWhile Char.isDigit) := by
  obtain ⟨hahead, hwithout⟩ := digitsAhead_lexemes rest
  rw [lexemes, List.foldr_cons, ← lexemes, push, if_pos rfl, pushQuestion_eq, hahead, hwithout]

/-! ## Replacing -/

/-- What is put for a token. -/
def Token.replace (ofMark : Nat → List α) (ofChar : Char → List α) (t : Token) : List α :=
  match t.kind with
  | .argument n => ofMark n
  | _ => t.chars.flatMap ofChar

variable {ofMark : Nat → List α} {ofChar : Char → List α}

theorem Token.replace_of_isText {t : Token} (h : t.isText = true) :
    t.replace ofMark ofChar = t.chars.flatMap ofChar := by
  unfold replace
  split
  · next hk => simp [isText, hk, TokenKind.isText] at h
  · rfl

theorem Token.flatMap_pushMerged (t : Token) (rest : List Token) :
    (t.pushMerged rest).flatMap (replace ofMark ofChar) =
      t.replace ofMark ofChar ++ rest.flatMap (replace ofMark ofChar) := by
  unfold pushMerged
  split
  · next ht =>
    rw [replace_of_isText ht]
    split <;> simp [replace]
  · rfl

def replaceAll (ofMark : Nat → List α) (ofChar : Char → List α) (lexemes : List Lexeme) : List α :=
  lexemes.flatMap fun lexeme => (Token.ofLexeme lexeme).replace ofMark ofChar

theorem replaceAll_cons (lexeme : Lexeme) (rest : List Lexeme) :
    replaceAll ofMark ofChar (lexeme :: rest) =
      (Token.ofLexeme lexeme).replace ofMark ofChar ++ replaceAll ofMark ofChar rest := rfl

theorem flatMap_tokens (source : String) :
    (tokens source).flatMap (Token.replace ofMark ofChar) =
      replaceAll ofMark ofChar (lexemes source.toList) := by
  rw [tokens, rawTokens]
  induction lexemes source.toList with
  | nil => rfl
  | cons lexeme rest ih =>
    rw [List.map_cons, List.foldr_cons, Token.flatMap_pushMerged, ih, replaceAll_cons]

theorem replaceAll_withRun (chars : List Char) (rest : List Lexeme) :
    replaceAll ofMark ofChar (withRun chars rest) =
      chars.flatMap ofChar ++ replaceAll ofMark ofChar rest := by
  unfold withRun
  split
  · next h =>
    rw [List.isEmpty_iff.1 h]
    rfl
  · rfl

/-- Only question marks are more than the character that they are. -/
theorem replaceAll_push (hc : c ≠ '?') (rest : List Lexeme) :
    replaceAll ofMark ofChar (push c rest) = ofChar c ++ replaceAll ofMark ofChar rest := by
  rw [push, if_neg hc]
  split
  · next hc =>
    subst hc
    unfold pushDollar
    split <;> simp [replaceAll_cons, replaceAll_withRun, Token.ofLexeme, Token.replace]
  · unfold pushPlain
    split <;> simp [replaceAll_cons, Token.ofLexeme, Token.replace]

theorem replaceAll_eq (rest : List Lexeme) : replaceAll ofMark ofChar rest =
    (digitsAhead rest).flatMap ofChar ++ replaceAll ofMark ofChar (withoutDigits rest) := by
  unfold digitsAhead withoutDigits
  split
  · next chars more =>
    rw [replaceAll_withRun, ← List.append_assoc, ← List.flatMap_append,
      List.takeWhile_append_dropWhile]
    rfl
  · rfl

theorem replace_argument (h : digits ≠ [] ∧ digits.all Char.isDigit = true) :
    (Token.ofLexeme (.argument digits)).replace ofMark ofChar =
      match markNumber? digits with
      | some n => ofMark n
      | none => ofChar '?' ++ digits.flatMap ofChar := by
  rw [markNumber?, Number.ofDigits?, if_pos h, Option.filter_some]
  by_cases hn : 0 < Number.ofDigits digits ∧ Number.ofDigits digits < Number.wordBound
  · simp [Token.replace, Token.ofLexeme, Token.argumentBound, hn]
  · simp only [Token.replace, Token.ofLexeme, Token.argumentBound, hn]
    rfl

theorem isDigits_takeWhile (h : rest.takeWhile Char.isDigit ≠ []) :
    rest.takeWhile Char.isDigit ≠ [] ∧ (rest.takeWhile Char.isDigit).all Char.isDigit = true :=
  ⟨h, List.all_takeWhile⟩

/-- Putting something for the tokens is the same as putting it for the marks, from left to right. -/
theorem replaceAll_lexemes (source : List Char) :
    replaceAll ofMark ofChar (lexemes source) = substitute ofMark ofChar source := by
  fun_induction substitute ofMark ofChar source with
  | case1 => rfl
  | case2 c rest n hn ih =>
    obtain rfl : c = '?' := by
      by_contra hc
      simp [markAhead?_of_ne hc] at hn
    rw [markAhead?] at hn
    have hdigits := isDigits_of_markNumber? hn
    rw [lexemes_question, if_neg hdigits.1, replaceAll_cons, replace_argument hdigits, hn, ih]
  | case3 c rest hnone ih =>
    by_cases hc : c = '?'
    · subst hc
      obtain ⟨hahead, hwithout⟩ := digitsAhead_lexemes rest
      rw [markAhead?] at hnone
      rw [lexemes_question, ← ih]
      split
      · simp [replaceAll_cons, Token.ofLexeme, Token.replace]
      · next hne =>
        rw [replaceAll_cons, replace_argument (isDigits_takeWhile hne), hnone,
          replaceAll_eq (lexemes rest), hahead, hwithout]
        exact List.append_assoc ..
    · rw [lexemes, List.foldr_cons, ← lexemes, replaceAll_push hc, ih]

/-! ## Numbers of marks -/

/-- No mark begins with a digit. -/
theorem mentions_dropWhile : Mentions (source.dropWhile Char.isDigit) n ↔ Mentions source n := by
  induction source with
  | nil => rfl
  | cons c rest ih =>
    cases hc : c.isDigit with
    | false => rw [List.dropWhile_cons_of_neg (by simp [hc])]
    | true =>
      rw [List.dropWhile_cons_of_pos hc, ih, mentions_cons, markAhead?_of_ne (ne_of_isDigit hc).1]
      simp

theorem mem_substitute :
    n ∈ substitute (fun n => [n]) (fun _ => []) source ↔ Mentions source n := by
  fun_induction substitute (fun n => [n]) (fun _ => []) source with
  | case1 => simp [mentions_nil]
  | case2 c rest number hnumber ih =>
    rw [List.mem_append, ih, mentions_dropWhile, mentions_cons, hnumber, List.mem_singleton,
      Option.some_inj, eq_comm]
  | case3 c rest hnone ih =>
    rw [List.nil_append, ih, mentions_cons, hnone]
    simp

/-- The numbers of the argument tokens are those of the marks. -/
theorem mentions_iff {source : String} : Mentions source.toList n ↔
    ∃ t ∈ tokens source, t.kind = .argument n := by
  have htoken (t : Token) :
      n ∈ t.replace (fun n => [n]) (fun _ => []) ↔ t.kind = .argument n := by
    unfold Token.replace
    split
    · next number hk => simp [hk, eq_comm]
    · next hk => simpa using hk n
  rw [← mem_substitute, ← replaceAll_lexemes, ← flatMap_tokens, List.mem_flatMap]
  simp only [htoken]

end SqlDialects.Template
