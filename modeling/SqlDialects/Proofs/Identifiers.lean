import Mathlib.Data.List.Basic
import SqlDialects.Text.Quoted

/-!
# Delimited identifiers in a text

A reader takes what stands between an opening quote and a closing one for an identifier. A closing
quote in it is doubled. What is put together from identifiers in quotes and words without quotes is
read as those identifiers and words again, if there is a word between two identifiers.
-/

namespace SqlDialects.Text

/-! ## Reading -/

/-- What a reader makes of a text. -/
inductive Lexeme where
  /-- A character that belongs to no identifier. -/
  | sign (c : Char)
  | name (name : String)
  /-- An identifier that the text ends in. -/
  | unclosed
  deriving DecidableEq, Repr

/-- An identifier without its name. -/
def Lexeme.blank : Lexeme → Lexeme
  | name _ => name ""
  | lexeme => lexeme

/-- Where a reader is, with what has been read of an identifier. -/
inductive Reading where
  | outside
  | inside (read : List Char)
  /-- Behind a closing quote, which ends the identifier unless another one follows. -/
  | closing (read : List Char)

variable (opening close : Char)

def lexemesFrom : Reading → List Char → List Lexeme
  | .outside, [] => []
  | .inside _, [] => [.unclosed]
  | .closing read, [] => [.name (String.ofList read)]
  | .outside, c :: rest =>
    if c = opening then lexemesFrom (.inside []) rest else .sign c :: lexemesFrom .outside rest
  | .inside read, c :: rest =>
    if c = close then lexemesFrom (.closing read) rest
    else lexemesFrom (.inside (read ++ [c])) rest
  | .closing read, c :: rest =>
    if c = close then lexemesFrom (.inside (read ++ [c])) rest
    else
      .name (String.ofList read) ::
        if c = opening then lexemesFrom (.inside []) rest
        else .sign c :: lexemesFrom .outside rest

def lexemes (text : String) : List Lexeme := lexemesFrom opening close .outside text.toList

variable {opening close}

theorem lexemesFrom_closing {read rest : List Char} (h : rest.head? ≠ some close) :
    lexemesFrom opening close (.closing read) rest =
      .name (String.ofList read) :: lexemesFrom opening close .outside rest := by
  cases rest with
  | nil => rfl
  | cons c rest =>
    have hc : c ≠ close := fun hc => h (congrArg some hc)
    simp only [lexemesFrom, if_neg hc]

theorem lexemesFrom_doubled (cs : List Char) {read rest : List Char} (h : rest.head? ≠ some close) :
    lexemesFrom opening close (.inside read) (Quoted.doubled close cs ++ close :: rest) =
      .name (String.ofList (read ++ cs)) :: lexemesFrom opening close .outside rest := by
  induction cs generalizing read with
  | nil =>
    rw [Quoted.doubled, List.nil_append, List.append_nil, lexemesFrom, if_pos rfl]
    exact lexemesFrom_closing h
  | cons c cs ih =>
    have happend : read ++ c :: cs = read ++ [c] ++ cs := by simp
    rw [Quoted.doubled, happend, ← ih]
    split
    · next hc => simp [lexemesFrom, hc]
    · next hc => simp [lexemesFrom, hc]

/-- Quotes around a name make one identifier of it, whatever is in the name. -/
theorem lexemesFrom_enclosed (cs : List Char) {rest : List Char} (h : rest.head? ≠ some close) :
    lexemesFrom opening close .outside (Quoted.enclosed opening close cs ++ rest) =
      .name (String.ofList cs) :: lexemesFrom opening close .outside rest := by
  rw [Quoted.enclosed, List.cons_append, lexemesFrom, if_pos rfl, List.append_assoc,
    List.singleton_append, lexemesFrom_doubled cs h, List.nil_append]

theorem lexemesFrom_append {cs : List Char} (h : opening ∉ cs) (rest : List Char) :
    lexemesFrom opening close .outside (cs ++ rest) =
      cs.map .sign ++ lexemesFrom opening close .outside rest := by
  induction cs with
  | nil => rfl
  | cons c cs ih =>
    rw [List.mem_cons, not_or] at h
    rw [List.cons_append, lexemesFrom, if_neg (Ne.symm h.1), ih h.2]
    rfl

/-! ## Pieces -/

/-- A part of a text. -/
inductive Piece where
  | words (text : String)
  | name (name : String)
  deriving DecidableEq, Repr

namespace Piece

/-- Names are written in quotes. -/
def chars (opening close : Char) : Piece → List Char
  | words text => text.toList
  | name text => Quoted.enclosed opening close text.toList

def lexemes : Piece → List Lexeme
  | words text => text.toList.map .sign
  | name text => [.name text]

/-- An identifier without its name. -/
def blank : Piece → Piece
  | name _ => name ""
  | words text => words text

@[simp]
theorem chars_words (text : String) : (words text).chars opening close = text.toList := rfl

/-- Quotes make a name longer. -/
theorem length_lt_chars_name (opening close : Char) (text : String) :
    text.length < ((name text).chars opening close).length := by
  have hdoubled (cs : List Char) : cs.length ≤ (Quoted.doubled close cs).length := by
    induction cs with
    | nil => exact Nat.le_refl _
    | cons c cs ih =>
      unfold Quoted.doubled
      split
      · simp only [List.length_cons]
        omega
      · simp only [List.length_cons]
        omega
  have htext := hdoubled text.toList
  rw [String.length_toList] at htext
  simp only [chars, Quoted.enclosed, List.length_cons, List.length_append, List.length_nil]
  omega

theorem map_blank_lexemes (piece : Piece) :
    piece.lexemes.map Lexeme.blank = piece.blank.lexemes := by
  cases piece with
  | words text =>
    unfold blank lexemes
    rw [List.map_map]
    rfl
  | name => rfl

end Piece

/-- A text that has no quote in it. -/
def Spares (opening close : Char) (text : String) : Prop :=
  opening ∉ text.toList ∧ close ∉ text.toList

/-- The pieces are found again in their text, wherever it stands. -/
def AreRead (opening close : Char) (pieces : List Piece) : Prop :=
  ∀ rest : List Char, rest.head? ≠ some close →
    lexemesFrom opening close .outside (pieces.flatMap (Piece.chars opening close) ++ rest) =
      pieces.flatMap Piece.lexemes ++ lexemesFrom opening close .outside rest

variable {pieces pieces' : List Piece} {text : String}

theorem areRead_nil : AreRead opening close [] := fun _ _ => rfl

theorem areRead_name (name : String) : AreRead opening close [.name name] := by
  intro rest hrest
  simp only [List.flatMap_cons, List.flatMap_nil, List.append_nil, Piece.chars, Piece.lexemes]
  rw [lexemesFrom_enclosed _ hrest, String.ofList_toList]
  rfl

theorem AreRead.words_cons (h : AreRead opening close pieces) (ht : Spares opening close text) :
    AreRead opening close (.words text :: pieces) := by
  intro rest hrest
  rw [List.flatMap_cons, List.flatMap_cons, List.append_assoc, List.append_assoc, ← h rest hrest]
  exact lexemesFrom_append ht.1 _

/-- Words keep identifiers apart. -/
theorem AreRead.append_words (h : AreRead opening close pieces) (ht : Spares opening close text)
    (hne : text ≠ "") (h' : AreRead opening close pieces') :
    AreRead opening close (pieces ++ .words text :: pieces') := by
  intro rest hrest
  obtain ⟨c, cs, hcs⟩ : ∃ c cs, text.toList = c :: cs := by
    refine List.exists_cons_of_ne_nil fun hnil => hne ?_
    rwa [String.toList_eq_nil_iff] at hnil
  have hhead : ((Piece.words text :: pieces').flatMap (Piece.chars opening close) ++ rest).head? ≠
      some close := by
    have hc : c ≠ close := by
      rintro rfl
      exact ht.2 (hcs ▸ List.mem_cons_self)
    simp [Piece.chars, hcs, hc]
  rw [List.flatMap_append, List.flatMap_append, List.append_assoc, List.append_assoc, h _ hhead,
    h'.words_cons ht rest hrest]

theorem areRead_intercalate {parts : List (List Piece)} (ht : Spares opening close text)
    (hne : text ≠ "") (h : ∀ part ∈ parts, AreRead opening close part) :
    AreRead opening close ([Piece.words text].intercalate parts) := by
  induction parts with
  | nil => exact areRead_nil
  | cons part rest ih =>
    rw [List.forall_mem_cons] at h
    cases rest with
    | nil =>
      rw [List.intercalate_singleton]
      exact h.1
    | cons part' rest =>
      rw [List.intercalate_cons_cons, List.append_assoc, List.singleton_append]
      exact h.1.append_words ht hne (ih h.2)

/-- An identifier without quotes is not found. -/
theorem AreRead.lexemesFrom_ne (h : AreRead opening close pieces) {c : Char} (ho : c ≠ opening)
    (hc : c ≠ close) (cs : List Char) (name : String) (back : List Lexeme) :
    lexemesFrom opening close .outside (pieces.flatMap (Piece.chars opening close) ++ c :: cs) ≠
      pieces.flatMap Piece.lexemes ++ .name name :: back := by
  have hhead : (c :: cs).head? ≠ some close := fun heq => hc (Option.some.inj heq)
  rw [h _ hhead, lexemesFrom, if_neg ho]
  intro heq
  cases List.append_cancel_left heq

/-- The pieces are all that a reader finds in their text. -/
theorem AreRead.lexemes_eq (h : AreRead opening close pieces) :
    lexemes opening close (String.ofList (pieces.flatMap (Piece.chars opening close))) =
      pieces.flatMap Piece.lexemes := by
  have hread := h [] nofun
  rw [lexemesFrom, List.append_nil, List.append_nil] at hread
  rw [lexemes, String.toList_ofList, hread]

end SqlDialects.Text
