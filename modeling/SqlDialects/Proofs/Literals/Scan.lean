import Mathlib.Data.List.Basic
import SqlDialects.Sql.Translation

/-!
# String literals in a text

A string literal runs from an apostrophe to the next one that is not doubled. What stands outside
of the literals is the rest of the text, with one apostrophe for each literal, and placeholders are
read there. A writer that never leaves a literal open between two pieces shows nothing of the
contents of its strings.
-/

namespace SqlDialects

/-! ## Outside of literals -/

namespace Text

inductive Region where
  | code
  | literal
  /-- Behind an apostrophe in a literal, which ends it unless another one follows. -/
  | apostrophe
  deriving DecidableEq, Repr

namespace Region

def after (r : Region) (c : Char) : Region :=
  match r with
  | literal => if c = '\x27' then apostrophe else literal
  | code | apostrophe => if c = '\x27' then literal else code

/-- The character starts a literal or is in none. -/
def shows (r : Region) (c : Char) : Bool :=
  match r with
  | code => true
  | literal => false
  | apostrophe => c != '\x27'

def afterAll (r : Region) (cs : List Char) : Region := cs.foldl after r

end Region

def outsideFrom : Region → List Char → List Char
  | _, [] => []
  | r, c :: rest =>
    if r.shows c then c :: outsideFrom (r.after c) rest else outsideFrom (r.after c) rest

/-- A text without the contents of its literals. -/
def outside (s : String) : List Char := outsideFrom .code s.toList

theorem outsideFrom_append (r : Region) (cs cs' : List Char) :
    outsideFrom r (cs ++ cs') = outsideFrom r cs ++ outsideFrom (r.afterAll cs) cs' := by
  induction cs generalizing r with
  | nil => rfl
  | cons c cs ih =>
    simp only [List.cons_append, outsideFrom, ih, Region.afterAll, List.foldl_cons]
    split <;> rfl

theorem through_doubled (cs : List Char) :
    Region.literal.afterAll (Quoted.doubled '\x27' cs ++ ['\x27']) = .apostrophe ∧
      outsideFrom .literal (Quoted.doubled '\x27' cs ++ ['\x27']) = [] := by
  induction cs with
  | nil => exact ⟨rfl, rfl⟩
  | cons c cs ih =>
    rw [Quoted.doubled]
    split
    · -- The first apostrophe seems to end the literal, and the second one goes on with it.
      exact ih
    · next h => simpa [Region.afterAll, outsideFrom, Region.after, Region.shows, h] using ih

/-- Nothing of a string is seen from the outside. -/
theorem through_literal (content : String) :
    Region.code.afterAll (literal content).toList = .apostrophe ∧
      outsideFrom .code (literal content).toList = ['\x27'] := by
  obtain ⟨hafter, houtside⟩ := through_doubled content.toList
  rw [literal, String.toList_ofList, Quoted.enclosed]
  exact ⟨hafter, congrArg (_ :: ·) houtside⟩

end Text

/-! ## Placeholders -/

namespace PlaceholderStyle

def sign : PlaceholderStyle → Char
  | jdbc | numbered => '?'
  | dollar => '$'

/-- What belongs to a placeholder behind its sign. -/
def number (style : PlaceholderStyle) (rest : List Char) : List Char :=
  match style with
  | jdbc => []
  | numbered | dollar => rest.takeWhile Char.isDigit

/-- The placeholders in some characters, each as long as it can be. -/
def read (style : PlaceholderStyle) : List Char → List String
  | [] => []
  | c :: rest =>
    if c = style.sign then String.ofList (c :: style.number rest) :: read style rest
    else read style rest

variable {style : PlaceholderStyle}

theorem read_append {cs rest : List Char} (h : ∀ c ∈ cs, c ≠ style.sign) :
    style.read (cs ++ rest) = style.read rest := by
  induction cs with
  | nil => rfl
  | cons c cs ih =>
    rw [List.forall_mem_cons] at h
    rw [List.cons_append, read, if_neg h.1, ih h.2]

theorem ne_sign_of_isDigit {c : Char} (h : c.isDigit = true) : c ≠ style.sign := by
  rintro rfl
  cases style <;> simp [sign] at h

theorem toList_placeholder (style : PlaceholderStyle) (position : Nat) :
    ∃ digits, (style.placeholder position).toList = style.sign :: digits ∧
      (∀ c ∈ digits, c.isDigit = true) ∧
      ∀ rest, style.number (digits ++ rest) = digits ++ style.number rest := by
  have hdigits : ∀ c ∈ Nat.toDigits 10 position, c.isDigit = true :=
    fun _ hc => Nat.isDigit_of_mem_toDigits (by omega) (by omega) hc
  cases style with
  | jdbc => exact ⟨[], by simp [placeholder, sign], nofun, fun _ => rfl⟩
  | numbered | dollar =>
    refine ⟨Nat.toDigits 10 position, ?_, hdigits, fun rest => ?_⟩
    · simp [placeholder, sign]
    · exact List.takeWhile_append_of_pos hdigits

theorem number_eq_nil {rest : List Char} (h : ∀ c, rest.head? = some c → c.isDigit = false) :
    style.number rest = [] := by
  cases rest with
  | nil => cases style <;> rfl
  | cons c rest => cases style <;> simp [number, h c rfl]

theorem read_placeholder {position : Nat} {rest : List Char}
    (h : ∀ c, rest.head? = some c → c.isDigit = false) :
    style.read ((style.placeholder position).toList ++ rest) =
      style.placeholder position :: style.read rest := by
  obtain ⟨digits, htext, hdigits, hnumber⟩ := toList_placeholder style position
  have hread : style.read (digits ++ rest) = style.read rest :=
    read_append fun c hc => ne_sign_of_isDigit (hdigits c hc)
  rw [htext, List.cons_append, read, if_pos rfl, hread, hnumber, number_eq_nil h,
    List.append_nil, ← htext, String.ofList_toList]

end PlaceholderStyle

namespace Sql

/-! ## Going through pieces -/

inductive Spot where
  | code
  | literal
  | apostrophe
  /-- In code, right behind a placeholder. -/
  | placeholder
  deriving DecidableEq, Repr

namespace Spot

def region : Spot → Text.Region
  | code | placeholder => .code
  | literal => .literal
  | apostrophe => .apostrophe

def isSign (c : Char) : Bool := c == '?' || c == '$'

/-- A text has no placeholder in code, and does not lengthen the one in front of it. -/
def refuses : Spot → Char → Bool
  | literal, _ => false
  | code, c | apostrophe, c => isSign c
  | placeholder, c => isSign c || c.isDigit

def ofRegion : Text.Region → Spot
  | .code => code
  | .literal => literal
  | .apostrophe => apostrophe

def pass (s : Spot) (c : Char) : Option Spot :=
  if s.refuses c then none else some (ofRegion (s.region.after c))

def passText (s : Spot) (t : String) : Option Spot := t.toList.foldlM pass s

/-- A string or a parameter comes in code, and not right behind another one. -/
def passPiece (s : Spot) : Piece → Option Spot
  | .text t | .name t => s.passText t
  | .string _ => if s = code then some apostrophe else none
  | .parameter _ => if s = code then some placeholder else none

def passAll (s : Spot) (pieces : List Piece) : Option Spot := pieces.foldlM passPiece s

@[simp]
theorem region_ofRegion (r : Text.Region) : (ofRegion r).region = r := by cases r <;> rfl

theorem passAll_append (s : Spot) (pieces pieces' : List Piece) :
    s.passAll (pieces ++ pieces') = (s.passAll pieces).bind (passAll · pieces') :=
  List.foldlM_append

theorem passAll_cons_eq_some_iff {s s' : Spot} {piece : Piece} {rest : List Piece} :
    s.passAll (piece :: rest) = some s' ↔
      ∃ t, s.passPiece piece = some t ∧ t.passAll rest = some s' := by
  rw [passAll, List.foldlM_cons]
  exact Option.bind_eq_some_iff

theorem pass_eq_some_iff {s s' : Spot} {c : Char} :
    s.pass c = some s' ↔ s.refuses c = false ∧ s' = ofRegion (s.region.after c) := by
  unfold pass
  cases s.refuses c <;> simp [eq_comm]

theorem passChars_cons {s s' : Spot} {c : Char} {cs : List Char} :
    (c :: cs).foldlM pass s = some s' ↔
      s.refuses c = false ∧ cs.foldlM pass (ofRegion (s.region.after c)) = some s' := by
  rw [List.foldlM_cons]
  refine Option.bind_eq_some_iff.trans ?_
  simp [pass_eq_some_iff]

variable {s s' : Spot} {cs : List Char}

theorem region_of_passChars (h : cs.foldlM pass s = some s') :
    s'.region = s.region.afterAll cs := by
  induction cs generalizing s with
  | nil =>
    obtain rfl := Option.some.inj h
    rfl
  | cons c cs ih =>
    have ih := ih (passChars_cons.1 h).2
    rwa [region_ofRegion] at ih

/-- What a text shows outside of literals has no sign of a placeholder. -/
theorem not_isSign_of_passChars (h : cs.foldlM pass s = some s') :
    ∀ c ∈ Text.outsideFrom s.region cs, isSign c = false := by
  induction cs generalizing s with
  | nil => simp [Text.outsideFrom]
  | cons c cs ih =>
    obtain ⟨hc, h⟩ := passChars_cons.1 h
    have ih := ih h
    rw [region_ofRegion] at ih
    rw [Text.outsideFrom]
    split
    · next hshows =>
      refine List.forall_mem_cons.2 ⟨?_, ih⟩
      cases s <;> simp_all [refuses, region, Text.Region.shows]
    · exact ih

end Spot

/-! ## What is written for pieces -/

namespace Piece

def blank : Piece → Piece
  | string _ => string " "
  | piece => piece

/-- The characters of a piece, with a placeholder for a position and a name without quotes. -/
def spell (style : PlaceholderStyle) (position : Nat) : Piece → List Char
  | text t | name t => t.toList
  | string content => (Text.literal content).toList
  | parameter _ => (style.placeholder position).toList

def next (position : Nat) : Piece → Nat
  | parameter _ => position + 1
  | _ => position

def placeholder? (style : PlaceholderStyle) (position : Nat) : Piece → Option String
  | parameter _ => some (style.placeholder position)
  | _ => none

variable {style : PlaceholderStyle} {position : Nat} {s t : Spot} {piece : Piece}

theorem through_placeholder (style : PlaceholderStyle) (position : Nat) :
    Text.Region.code.afterAll (style.placeholder position).toList = .code ∧
      Text.outsideFrom .code (style.placeholder position).toList =
        (style.placeholder position).toList := by
  have hcode {cs : List Char} (h : ∀ c ∈ cs, c ≠ '\x27') :
      Text.Region.code.afterAll cs = .code ∧ Text.outsideFrom .code cs = cs := by
    induction cs with
    | nil => exact ⟨rfl, rfl⟩
    | cons c cs ih =>
      rw [List.forall_mem_cons] at h
      simpa [Text.Region.afterAll, Text.outsideFrom, Text.Region.after, Text.Region.shows, h.1]
        using ih h.2
  obtain ⟨digits, htext, hdigits, -⟩ := style.toList_placeholder position
  rw [htext]
  refine hcode (List.forall_mem_cons.2 ⟨by cases style <;> decide, ?_⟩)
  rintro c hc rfl
  exact absurd (hdigits _ hc) (by decide)

theorem passPiece_string {content : String} (h : s.passPiece (.string content) = some t) :
    s = .code ∧ t = .apostrophe := by
  simp only [Spot.passPiece] at h
  split at h
  · next hs => exact ⟨hs, (Option.some.inj h).symm⟩
  · simp at h

theorem passPiece_parameter {p : BindParameter} (h : s.passPiece (.parameter p) = some t) :
    s = .code ∧ t = .placeholder := by
  simp only [Spot.passPiece] at h
  split at h
  · next hs => exact ⟨hs, (Option.some.inj h).symm⟩
  · simp at h

theorem passPiece_blank : s.passPiece piece.blank = s.passPiece piece := by cases piece <;> rfl

theorem next_blank : piece.blank.next position = piece.next position := by cases piece <;> rfl

theorem region_of_passPiece (h : s.passPiece piece = some t) :
    t.region = s.region.afterAll (piece.spell style position) := by
  cases piece with
  | text | name => exact Spot.region_of_passChars h
  | string content =>
    obtain ⟨rfl, rfl⟩ := passPiece_string h
    exact (Text.through_literal content).1.symm
  | parameter p =>
    obtain ⟨rfl, rfl⟩ := passPiece_parameter h
    exact (through_placeholder style position).1.symm

theorem outside_spell_blank (h : s.passPiece piece = some t) :
    Text.outsideFrom s.region (piece.blank.spell style position) =
      Text.outsideFrom s.region (piece.spell style position) := by
  cases piece with
  | text | name | parameter => rfl
  | string content =>
    obtain ⟨rfl, rfl⟩ := passPiece_string h
    exact (Text.through_literal " ").2.trans (Text.through_literal content).2.symm

/-- Of the pieces, only a parameter shows a placeholder outside of literals. -/
theorem read_outside_spell (h : s.passPiece piece = some t) {rest : List Char}
    (hrest : t = .placeholder → ∀ c, rest.head? = some c → c.isDigit = false) :
    style.read (Text.outsideFrom s.region (piece.spell style position) ++ rest) =
      (piece.placeholder? style position).toList ++ style.read rest := by
  have hplain {cs : List Char} (h : ∀ c ∈ cs, Spot.isSign c = false) :
      style.read (cs ++ rest) = style.read rest := by
    refine PlaceholderStyle.read_append fun c hc => ?_
    rintro rfl
    exact absurd (h _ hc) (by cases style <;> decide)
  cases piece with
  | text | name => exact hplain (Spot.not_isSign_of_passChars h)
  | string content =>
    obtain ⟨rfl, rfl⟩ := passPiece_string h
    rw [Spot.region, spell, (Text.through_literal content).2]
    exact hplain (List.forall_mem_singleton.2 rfl)
  | parameter p =>
    obtain ⟨rfl, rfl⟩ := passPiece_parameter h
    rw [Spot.region, spell, (through_placeholder style position).2,
      PlaceholderStyle.read_placeholder (hrest rfl)]
    rfl

end Piece

section Spelled

variable {style : PlaceholderStyle} {position : Nat} {s s' : Spot} {pieces : List Piece}

def spelled (style : PlaceholderStyle) (position : Nat) : List Piece → List Char
  | [] => []
  | piece :: rest => piece.spell style position ++ spelled style (piece.next position) rest

def placeholdersFrom (style : PlaceholderStyle) (position : Nat) : List Piece → List String
  | [] => []
  | piece :: rest =>
    (piece.placeholder? style position).toList ++ placeholdersFrom style (piece.next position) rest

theorem outside_spelled_cons {piece : Piece} {t : Spot} (h : s.passPiece piece = some t) :
    Text.outsideFrom s.region (spelled style position (piece :: pieces)) =
      Text.outsideFrom s.region (piece.spell style position) ++
        Text.outsideFrom t.region (spelled style (piece.next position) pieces) := by
  rw [spelled, Text.outsideFrom_append, Piece.region_of_passPiece h]

/-- The contents of strings make no difference outside of literals. -/
theorem outside_spelled_blank (h : s.passAll pieces = some s') :
    Text.outsideFrom s.region (spelled style position (pieces.map Piece.blank)) =
      Text.outsideFrom s.region (spelled style position pieces) := by
  induction pieces generalizing s position with
  | nil => rfl
  | cons piece rest ih =>
    obtain ⟨t, ht, h⟩ := Spot.passAll_cons_eq_some_iff.1 h
    have hblank : s.passPiece piece.blank = some t := Piece.passPiece_blank.trans ht
    rw [List.map_cons, outside_spelled_cons hblank, outside_spelled_cons ht,
      Piece.outside_spell_blank ht, Piece.next_blank, ih h]

theorem head_outside_spelled (h : Spot.placeholder.passAll pieces = some s') (c : Char)
    (hc : (Text.outsideFrom .code (spelled style position pieces)).head? = some c) :
    c.isDigit = false := by
  induction pieces generalizing position with
  | nil => simp [spelled, Text.outsideFrom] at hc
  | cons piece rest ih =>
    obtain ⟨t, ht, h⟩ := Spot.passAll_cons_eq_some_iff.1 h
    have htext {u : String} (ht : Spot.placeholder.passText u = some t)
        (hc : (Text.outsideFrom .code (u.toList ++ spelled style position rest)).head? =
          some c) : c.isDigit = false := by
      unfold Spot.passText at ht
      cases hu : u.toList with
      | nil =>
        -- An empty text: what comes behind the placeholder is in the rest.
        rw [hu] at ht hc
        obtain rfl := Option.some.inj ht
        exact ih h hc
      | cons c' cs =>
        rw [hu] at ht hc
        obtain rfl : c' = c := by simpa [Text.outsideFrom, Text.Region.shows] using hc
        have hrefuses := (Spot.passChars_cons.1 ht).1
        simpa [Spot.refuses] using (Bool.or_eq_false_iff.1 hrefuses).2
    cases piece with
    | text u | name u => exact htext ht hc
    | string content => exact absurd (Piece.passPiece_string ht).1 (by decide)
    | parameter p => exact absurd (Piece.passPiece_parameter ht).1 (by decide)

/-- What a reader finds outside of literals are the placeholders of the parameters. -/
theorem read_outside_spelled (h : s.passAll pieces = some s') :
    style.read (Text.outsideFrom s.region (spelled style position pieces)) =
      placeholdersFrom style position pieces := by
  induction pieces generalizing s position with
  | nil => rfl
  | cons piece rest ih =>
    obtain ⟨t, ht, h⟩ := Spot.passAll_cons_eq_some_iff.1 h
    rw [outside_spelled_cons ht, Piece.read_outside_spell ht, ih h, placeholdersFrom]
    -- It remains that nothing behind a placeholder lengthens it.
    rintro rfl c hc
    exact head_outside_spelled h c hc

end Spelled

/-! ## Translations -/

def Fragment.blank (f : Fragment) : Fragment := { f with pieces := f.pieces.map Piece.blank }

namespace Translation

variable {d : Dialect} {position : Nat} {pieces : List Piece} {f : Fragment}

theorem toList_join_textsFrom :
    (String.join (textsFrom d (.ofDialect d) position pieces)).toList =
      spelled d.rules.placeholderStyle position pieces := by
  rw [String.toList_join]
  induction pieces generalizing position with
  | nil => rfl
  | cons piece rest ih =>
    rw [spelled]
    cases piece with
    | text | string => simp only [textsFrom, List.flatMap_cons, ih, Piece.spell, Piece.next]
    | name | parameter =>
      simp only [textsFrom, List.flatMap_cons, ih, Piece.spell, Piece.next]
      rfl

theorem placeholder_parametersFrom :
    (parametersFrom (.ofDialect d) position pieces).map (·.placeholder) =
      placeholdersFrom d.rules.placeholderStyle position pieces := by
  induction pieces generalizing position with
  | nil => rfl
  | cons piece rest ih =>
    cases piece with
    | parameter p => exact congrArg (_ :: ·) ih
    | text | name | string => exact ih

theorem outside_ofFragment (f : Fragment) :
    Text.outside (ofFragment d (.ofDialect d) f).sql =
      Text.outsideFrom .code (spelled d.rules.placeholderStyle 1 f.pieces) :=
  congrArg (Text.outsideFrom .code) toList_join_textsFrom

/-- Outside of literals stand the placeholders of the recorded parameters and no other ones. -/
theorem read_outside_ofFragment {s : Spot} (h : Spot.code.passAll f.pieces = some s) :
    d.rules.placeholderStyle.read (Text.outside (ofFragment d (.ofDialect d) f).sql) =
      (ofFragment d (.ofDialect d) f).parameters.map (·.placeholder) := by
  rw [outside_ofFragment, ofFragment, placeholder_parametersFrom]
  exact read_outside_spelled h

theorem outside_ofFragment_blank {s : Spot} (h : Spot.code.passAll f.pieces = some s) :
    Text.outside (ofFragment d (.ofDialect d) f.blank).sql =
      Text.outside (ofFragment d (.ofDialect d) f).sql := by
  rw [outside_ofFragment, outside_ofFragment, Fragment.blank]
  exact outside_spelled_blank h

end Translation

end Sql

end SqlDialects
