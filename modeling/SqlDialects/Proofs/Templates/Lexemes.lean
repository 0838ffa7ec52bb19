import SqlDialects.Proofs.Marks
import SqlDialects.Proofs.Runs

/-!
# The longest match

The lexemes of a template are those that a reader finds who takes, at each place from left to right,
the longest of all lexemes that the rest of the text begins with.
-/

namespace SqlDialects.Template

/-- A character that begins no mark. -/
def isPlain (c : Char) : Bool := c != '?' && c != '$'

namespace Lexeme

def chars : Lexeme → List Char
  | run chars => chars
  | argument digits => '?' :: digits
  | length => ['$', 'l']
  | precision => ['$', 'p']
  | scale => ['$', 's']
  | question => ['?']
  | dollar => ['$']

/-- What the characters of a lexeme can be. -/
def IsMatch : Lexeme → Prop
  | run chars => chars ≠ [] ∧ ∀ c ∈ chars, isPlain c = true
  | argument digits => digits ≠ [] ∧ ∀ c ∈ digits, c.isDigit = true
  | _ => True

/-- No lexeme that the text begins with is longer. -/
def IsLongest (lexeme : Lexeme) (source : List Char) : Prop :=
  lexeme.IsMatch ∧ ∀ other : Lexeme, other.IsMatch → other.chars <+: source →
    other.chars.length ≤ lexeme.chars.length

/-- A lexeme does not go on with this character. -/
def Stops (lexeme : Lexeme) (c : Char) : Prop :=
  match lexeme with
  | run _ => isPlain c = false
  | argument _ | question => c.isDigit = false
  | length | precision | scale => True
  | dollar => c ≠ 'l' ∧ c ≠ 'p' ∧ c ≠ 's'

def EndsBefore (lexeme : Lexeme) (rest : List Char) : Prop := ∀ c ∈ rest.head?, lexeme.Stops c

end Lexeme

/-- Each lexeme is the longest at its place. -/
inductive Reads : List Char → List Lexeme → Prop
  | nil : Reads [] []
  | cons {lexeme : Lexeme} {rest : List Char} {lexemes : List Lexeme}
    (hlongest : lexeme.IsLongest (lexeme.chars ++ rest)) (h : Reads rest lexemes) :
    Reads (lexeme.chars ++ rest) (lexeme :: lexemes)

/-! ## Runs -/

variable {c : Char} {source rest : List Char} {lexeme other : Lexeme}

theorem lexemes_cons (c : Char) (rest : List Char) : lexemes (c :: rest) = push c (lexemes rest) :=
  rfl

theorem push_plain (h : isPlain c = true) (rest : List Lexeme) :
    push c rest = pushPlain c rest := by
  unfold isPlain at h
  rw [Bool.and_eq_true, bne_iff_ne, bne_iff_ne] at h
  rw [push, if_neg h.1, if_neg h.2]

/-- Only plain characters make a run. -/
theorem push_ne_run (h : isPlain c = false) (rest : List Lexeme) (chars : List Char)
    (more : List Lexeme) : push c rest ≠ .run chars :: more := by
  unfold push
  split
  · rw [pushQuestion_eq]
    split <;> simp
  · split
    · unfold pushDollar
      split <;> simp
    · next hquestion hdollar =>
      simp [isPlain, hquestion, hdollar] at h

theorem lexemes_ne_run (h : ∀ c ∈ source.head?, isPlain c = false) (chars : List Char)
    (more : List Lexeme) : lexemes source ≠ .run chars :: more := by
  cases source with
  | nil => exact List.cons_ne_nil _ _ |>.symm
  | cons c rest => exact push_ne_run (h c rfl) _ _ _

/-- A text begins with the longest run that there is. -/
theorem lexemes_run (source : List Char) : lexemes source =
    withRun (source.takeWhile isPlain) (lexemes (source.dropWhile isPlain)) := by
  induction source with
  | nil => rfl
  | cons c rest ih =>
    cases h : isPlain c with
    | false =>
      rw [List.takeWhile_cons_of_neg (by simp [h]), List.dropWhile_cons_of_neg (by simp [h])]
      rfl
    | true =>
      rw [List.takeWhile_cons_of_pos h, List.dropWhile_cons_of_pos h, lexemes_cons, push_plain h,
        ih]
      unfold withRun
      split
      · next hempty =>
        have hrun := lexemes_ne_run (Text.head_dropWhile isPlain rest)
        rw [List.isEmpty_iff.1 hempty]
        unfold pushPlain
        split
        · next chars more heq => exact absurd heq (hrun chars more)
        · rfl
      · rfl

/-- The first run of a text begins with the first character of the text. -/
theorem head_of_lexemes_run {cs : List Char} {more : List Lexeme}
    (h : lexemes source = .run (c :: cs) :: more) : source.head? = some c := by
  cases source with
  | nil => cases h
  | cons d rest =>
    cases hd : isPlain d with
    | false => exact absurd h (push_ne_run hd _ _ _)
    | true =>
      rw [lexemes_run, List.takeWhile_cons_of_pos hd] at h
      injection h with hrun
      injection hrun with hcs
      rw [List.head?_cons, (List.cons.inj hcs).1]

/-! ## Lexemes from left to right -/

theorem pushDollar_eq {rest : List Lexeme}
    (h : ∀ c cs more, rest = .run (c :: cs) :: more → Lexeme.dollar.Stops c) :
    pushDollar rest = .dollar :: rest := by
  unfold pushDollar
  split
  · exact absurd rfl (h _ _ _ rfl).1
  · exact absurd rfl (h _ _ _ rfl).2.1
  · exact absurd rfl (h _ _ _ rfl).2.2
  · rfl

theorem lexemes_dollar_plain (h : isPlain c = true) (rest : List Char) :
    lexemes ('$' :: c :: rest) = pushDollar
      (.run (c :: rest.takeWhile isPlain) :: lexemes (rest.dropWhile isPlain)) := by
  rw [lexemes_cons, lexemes_run (c :: rest), List.takeWhile_cons_of_pos h,
    List.dropWhile_cons_of_pos h]
  rfl

/-- A lexeme is read where the text has one that is at its end. -/
theorem lexemes_append (hm : lexeme.IsMatch) (he : lexeme.EndsBefore rest) :
    lexemes (lexeme.chars ++ rest) = lexeme :: lexemes rest := by
  cases lexeme with
  | run cs =>
    rw [Lexeme.chars, lexemes_run, Text.takeWhile_run hm.2 he, Text.dropWhile_run hm.2 he,
      withRun, if_neg (by simp [hm.1])]
  | argument digits =>
    rw [Lexeme.chars, List.cons_append, lexemes_question, Text.takeWhile_run hm.2 he,
      Text.dropWhile_run hm.2 he, if_neg hm.1]
  | length | precision | scale =>
    rw [lexemes_run rest]
    exact lexemes_dollar_plain rfl rest
  | question =>
    have htake : rest.takeWhile Char.isDigit = [] := Text.takeWhile_run (List.forall_mem_nil _) he
    rw [Lexeme.chars, List.singleton_append, lexemes_question, if_pos htake]
  | dollar =>
    have hstops (c : Char) (cs : List Char) (more : List Lexeme)
        (h : lexemes rest = .run (c :: cs) :: more) : Lexeme.dollar.Stops c :=
      he c (head_of_lexemes_run h)
    exact pushDollar_eq hstops

/-! ## The longest lexeme -/

theorem push_ne_nil (c : Char) (rest : List Lexeme) : push c rest ≠ [] := by
  unfold push
  split
  · rw [pushQuestion_eq]
    split <;> simp
  · split
    · unfold pushDollar
      split <;> simp
    · unfold pushPlain
      split <;> simp

/-- Where a lexeme is at its end, no longer one can be read. -/
theorem isLongest_of_ends (hm : lexeme.IsMatch) (he : lexeme.EndsBefore rest) :
    lexeme.IsLongest (lexeme.chars ++ rest) := by
  refine ⟨hm, fun other ho hother => ?_⟩
  by_contra hlonger
  obtain ⟨more, hmore⟩ : lexeme.chars <+: other.chars :=
    List.prefix_of_prefix_length_le (List.prefix_append _ _) hother (by omega)
  cases more with
  | nil => simp [← hmore] at hlonger
  | cons c more =>
    -- Reading the longer lexeme would have to stop in it.
    have hc : lexeme.EndsBefore (c :: more) := by
      intro d hd
      obtain rfl : c = d := Option.some.inj hd
      rw [← hmore, List.prefix_append_right_inj] at hother
      obtain ⟨behind, rfl⟩ := hother
      exact he c rfl
    have hone : lexemes (other.chars ++ []) = [other] := lexemes_append ho nofun
    rw [List.append_nil, ← hmore, lexemes_append hm hc] at hone
    exact push_ne_nil c _ (List.cons.inj hone).2

/-- A dollar sign goes on with the letters of the sizes, which end where they stand. -/
theorem exists_size (hc : ¬Lexeme.dollar.Stops c) : ∃ other : Lexeme, other.IsMatch ∧
    other.chars = ['$', c] ∧ ∀ rest, other.EndsBefore rest := by
  unfold Lexeme.Stops at hc
  by_cases hl : c = 'l'
  · exact ⟨.length, trivial, by rw [hl]; rfl, fun _ _ _ => trivial⟩
  · by_cases hp : c = 'p'
    · exact ⟨.precision, trivial, by rw [hp]; rfl, fun _ _ _ => trivial⟩
    · by_cases hs : c = 's'
      · exact ⟨.scale, trivial, by rw [hs]; rfl, fun _ _ _ => trivial⟩
      · exact absurd ⟨hl, hp, hs⟩ hc

/-- A lexeme that goes on is not the longest. -/
theorem exists_longer (hm : lexeme.IsMatch) (hc : ¬lexeme.Stops c) :
    ∃ other : Lexeme, other.IsMatch ∧ other.chars = lexeme.chars ++ [c] := by
  cases lexeme with
  | run cs =>
    have hplain : isPlain c = true := by simpa [Lexeme.Stops] using hc
    refine ⟨.run (cs ++ [c]), ⟨by simp, ?_⟩, rfl⟩
    rw [List.forall_mem_append, List.forall_mem_singleton]
    exact ⟨hm.2, hplain⟩
  | argument digits =>
    have hdigit : c.isDigit = true := by simpa [Lexeme.Stops] using hc
    refine ⟨.argument (digits ++ [c]), ⟨by simp, ?_⟩, rfl⟩
    rw [List.forall_mem_append, List.forall_mem_singleton]
    exact ⟨hm.2, hdigit⟩
  | length | precision | scale => exact absurd trivial hc
  | question =>
    have hdigit : c.isDigit = true := by simpa [Lexeme.Stops] using hc
    exact ⟨.argument [c], ⟨by simp, by simpa using hdigit⟩, rfl⟩
  | dollar =>
    obtain ⟨other, ho, hchars, -⟩ := exists_size hc
    exact ⟨other, ho, hchars⟩

theorem isLongest_iff : lexeme.IsLongest (lexeme.chars ++ rest) ↔
    lexeme.IsMatch ∧ lexeme.EndsBefore rest := by
  constructor
  · rintro ⟨hm, hlongest⟩
    refine ⟨hm, fun c hc => ?_⟩
    by_contra hstops
    obtain ⟨other, ho, hchars⟩ := exists_longer hm hstops
    obtain ⟨more, rfl⟩ := List.head?_eq_some_iff.1 hc
    have hle := hlongest other ho ⟨more, by rw [hchars]; simp⟩
    rw [hchars, List.length_append, List.length_singleton] at hle
    omega
  · rintro ⟨hm, he⟩
    exact isLongest_of_ends hm he

/-- There is always a lexeme to read. -/
theorem exists_lexeme (c : Char) (source : List Char) : ∃ (lexeme : Lexeme) (rest : List Char),
    c :: source = lexeme.chars ++ rest ∧ lexeme.IsMatch ∧ lexeme.EndsBefore rest ∧
      lexeme.chars ≠ [] := by
  by_cases hquestion : c = '?'
  · subst hquestion
    have hhead := Text.head_dropWhile Char.isDigit source
    by_cases hdigits : source.takeWhile Char.isDigit = []
    · refine ⟨.question, source, rfl, trivial, ?_, List.cons_ne_nil _ _⟩
      rwa [← List.takeWhile_append_dropWhile (p := Char.isDigit) (l := source), hdigits]
    · refine ⟨.argument (source.takeWhile Char.isDigit), source.dropWhile Char.isDigit, ?_,
        ⟨hdigits, fun d hd => List.mem_takeWhile_imp hd⟩, hhead, List.cons_ne_nil _ _⟩
      rw [Lexeme.chars, List.cons_append, List.takeWhile_append_dropWhile]
  · by_cases hdollar : c = '$'
    · subst hdollar
      by_cases hends : Lexeme.dollar.EndsBefore source
      · exact ⟨.dollar, source, rfl, trivial, hends, List.cons_ne_nil _ _⟩
      · obtain ⟨d, hd, hstops⟩ : ∃ d ∈ source.head?, ¬Lexeme.dollar.Stops d := by
          simpa only [Lexeme.EndsBefore, not_forall, exists_prop] using hends
        obtain ⟨rest, rfl⟩ := List.head?_eq_some_iff.1 hd
        obtain ⟨other, ho, hchars, hother⟩ := exists_size hstops
        exact ⟨other, rest, by rw [hchars]; rfl, ho, hother rest, by simp [hchars]⟩
    · have hplain : isPlain c = true := by simp [isPlain, hquestion, hdollar]
      refine ⟨.run (c :: source.takeWhile isPlain), source.dropWhile isPlain, ?_, ⟨by simp, ?_⟩,
        Text.head_dropWhile isPlain source, List.cons_ne_nil _ _⟩
      · rw [Lexeme.chars, List.cons_append, List.takeWhile_append_dropWhile]
      · rw [List.forall_mem_cons]
        exact ⟨hplain, fun d hd => List.mem_takeWhile_imp hd⟩

/-! ## All lexemes -/

theorem Reads.eq_lexemes {ls : List Lexeme} (h : Reads source ls) : ls = lexemes source := by
  induction h with
  | nil => rfl
  | cons hlongest _ ih =>
    obtain ⟨hm, he⟩ := isLongest_iff.1 hlongest
    rw [lexemes_append hm he, ih]

theorem reads_lexemes (source : List Char) : Reads source (lexemes source) := by
  induction hn : source.length using Nat.strongRecOn generalizing source with
  | ind n ih =>
    cases source with
    | nil => exact .nil
    | cons c source =>
      obtain ⟨lexeme, rest, hsource, hm, he, hne⟩ := exists_lexeme c source
      have hlt : rest.length < n := by
        have hpos := List.length_pos_iff.2 hne
        rw [← hn, hsource, List.length_append]
        omega
      rw [hsource, lexemes_append hm he]
      exact .cons (isLongest_of_ends hm he) (ih rest.length hlt rest rfl)

end SqlDialects.Template
