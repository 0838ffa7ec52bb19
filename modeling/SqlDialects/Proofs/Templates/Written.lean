import SqlDialects.ColumnType
import SqlDialects.Proofs.Calls
import SqlDialects.Proofs.Templates.Spans

/-!
# What is written for a template

A reader of a template writes something for the marks that it knows and copies the rest. A pattern
whose arguments are its own marks is written as it stands, and a column type loses nothing but the
marks of its sizes.
-/

namespace SqlDialects

namespace Template

variable {t : Token} {source : String} {lexeme : Lexeme} {ls : List Lexeme}

/-! ## Lexemes of a template -/

theorem Lexeme.IsMatch.chars_ne_nil (h : lexeme.IsMatch) : lexeme.chars ≠ [] := by
  cases lexeme with
  | run chars => exact h.1
  | _ => exact List.cons_ne_nil _ _

theorem Reads.isMatch {cs : List Char} (h : Reads cs ls) : ∀ lexeme ∈ ls, lexeme.IsMatch := by
  induction h with
  | nil => exact nofun
  | cons hlongest _ ih =>
    rw [List.forall_mem_cons]
    exact ⟨hlongest.1, ih⟩

theorem chars_rawTokens_ne_nil (source : String) : ∀ t ∈ rawTokens source, t.chars ≠ [] := by
  intro t ht
  obtain ⟨lexeme, hlexeme, rfl⟩ := List.mem_map.1 ht
  rw [Token.chars_ofLexeme]
  exact ((reads_lexemes _).isMatch lexeme hlexeme).chars_ne_nil

theorem joined_rawTokens (source : String) : joined (rawTokens source) = source := by
  rw [joined, rawTokens, List.flatMap_map]
  simp only [Token.chars_ofLexeme, flatMap_chars_lexemes, String.ofList_toList]

theorem joined_tokens (source : String) : joined (tokens source) = source := by
  rw [joined, tokens_eq_merged, flatMap_merged fun _ _ => rfl]
  exact joined_rawTokens source

/-- A token is text, or the mark of an argument or of a size. -/
theorem kind_of_mem_tokens (h : t ∈ tokens source) :
    t.kind = .text ∨ (∃ n, t.kind = .argument n) ∨ t.kind ∈ TokenKind.sizes := by
  rcases mem_merged h with htext | ⟨ht, -⟩
  · exact .inl htext
  · rw [Token.isText] at ht
    cases hk : t.kind with
    | argument n => exact .inr (.inl ⟨n, rfl⟩)
    | length | precision | scale => exact .inr (.inr (by simp [TokenKind.sizes]))
    | _ => simp [hk, TokenKind.isText] at ht

end Template

open Template (Lexeme Reads Token TokenKind)

/-! ## Column types -/

namespace ColumnSize

/-- A text with the sizes in place of their marks, from left to right. -/
def fill (size : ColumnSize) : List Char → List Char
  | '$' :: 'l' :: rest => (toString size.length).toList ++ size.fill rest
  | '$' :: 'p' :: rest => (toString size.precision).toList ++ size.fill rest
  | '$' :: 's' :: rest => (toString size.scale).toList ++ size.fill rest
  | c :: rest => c :: size.fill rest
  | [] => []

variable {size : ColumnSize} {c : Char} {cs rest : List Char} {lexeme : Lexeme}

theorem fill_cons (h : c = '$' → ∀ d ∈ rest.head?, Lexeme.dollar.Stops d) :
    size.fill (c :: rest) = c :: size.fill rest := by
  rw [fill]
  · rintro more hc rfl
    exact (h hc _ rfl).1 rfl
  · rintro more hc rfl
    exact (h hc _ rfl).2.1 rfl
  · rintro more hc rfl
    exact (h hc _ rfl).2.2 rfl

theorem fill_append (h : ∀ c ∈ cs, c ≠ '$') (rest : List Char) :
    size.fill (cs ++ rest) = cs ++ size.fill rest := by
  induction cs with
  | nil => rfl
  | cons c cs ih =>
    rw [List.forall_mem_cons] at h
    rw [List.cons_append, fill_cons fun hc => absurd hc h.1, ih h.2, List.cons_append]

theorem write_of_notMem_sizes {t : Token} (h : t.kind ∉ TokenKind.sizes) :
    size.write t = t.chars := by
  unfold write
  split <;> simp_all [Template.mem_sizes]

/-- The next lexeme is written, and then what follows it. -/
theorem fill_lexeme (hm : lexeme.IsMatch) (he : lexeme.EndsBefore rest) :
    size.fill (lexeme.chars ++ rest) = size.write (Token.ofLexeme lexeme) ++ size.fill rest := by
  cases lexeme with
  | run cs =>
    refine fill_append (fun c hc => ?_) rest
    have hplain := hm.2 c hc
    rintro rfl
    cases hplain
  | argument digits =>
    rw [write_of_notMem_sizes (Template.kind_argument_notMem_sizes digits), Token.chars_ofLexeme,
      fill_append]
    rintro c hc rfl
    rcases List.mem_cons.1 hc with hc | hc
    · cases hc
    · cases hm.2 '$' hc
  | length | precision | scale =>
    rw [Lexeme.chars, List.cons_append, List.singleton_append, fill]
    rfl
  | question => exact fill_cons fun hc => absurd hc (by decide)
  | dollar => exact fill_cons fun _ => he

theorem fill_of_reads {ls : List Lexeme} (h : Reads cs ls) :
    size.fill cs = (ls.map Token.ofLexeme).flatMap size.write := by
  induction h with
  | nil => rfl
  | cons hlongest _ ih =>
    obtain ⟨hm, he⟩ := Template.isLongest_iff.1 hlongest
    rw [fill_lexeme hm he, ih, List.map_cons, List.flatMap_cons]

end ColumnSize

/-- A column type is the template with the sizes in place of their marks. -/
theorem ColumnTemplate.render_eq_fill (source : String) (size : ColumnSize) :
    (⟨source⟩ : ColumnTemplate).render size = String.ofList (size.fill source.toList) := by
  have hcopies (t : Token) (ht : t.isText = true) : size.write t = t.chars := by
    refine ColumnSize.write_of_notMem_sizes fun hsize => ?_
    rcases Template.mem_sizes.1 hsize with hk | hk | hk <;>
      simp [Token.isText, hk, TokenKind.isText] at ht
  rw [render, Template.tokens_eq_merged, Template.flatMap_merged hcopies,
    ColumnSize.fill_of_reads (Template.reads_lexemes _)]

/-! ## Patterns -/

/-- The marks `?1`, `?2` and so on, as many as a call has arguments. -/
def Pattern.marks (count : Nat) : List String :=
  (List.range count).map fun index => "?" ++ toString (index + 1)

namespace Template

variable {t : Token} {source : String}

/-- No number of an argument begins with a zero. -/
def HasPlainNumbers (source : String) : Prop :=
  ∀ t ∈ tokens source, ∀ n, t.kind = .argument n → ¬['?', '0'] <+: t.chars

theorem mem_rawTokens_of_argument {n : Nat} (ht : t ∈ tokens source) (hk : t.kind = .argument n) :
    t ∈ rawTokens source := by
  rcases mem_merged ht with htext | ⟨-, hraw⟩
  · cases hk.symm.trans htext
  · exact hraw

/-- An argument token with a plain number is the mark that its number has. -/
theorem text_of_argument {n : Nat} (ht : t ∈ tokens source) (hk : t.kind = .argument n)
    (hplain : ¬['?', '0'] <+: t.chars) : t.text = "?" ++ toString n := by
  obtain ⟨lexeme, hlexeme, rfl⟩ := List.mem_map.1 (mem_rawTokens_of_argument ht hk)
  obtain ⟨digits, rfl, rfl, -⟩ := exists_of_argument hk
  obtain ⟨hne, hdigits⟩ := (reads_lexemes _).isMatch _ hlexeme
  rw [Token.chars_ofLexeme, Lexeme.chars] at hplain
  have hzero : digits.head? ≠ some '0' := by
    intro hhead
    obtain ⟨rest, rfl⟩ := List.head?_eq_some_iff.1 hhead
    exact hplain ⟨rest, rfl⟩
  rw [Token.text, Token.chars_ofLexeme, Lexeme.chars, Nat.toString_eq_ofList_toDigits,
    Number.toDigits_ofDigitChars hne hdigits hzero, String.ofList_cons]
  rfl

theorem write_segment {count : Nat} (ht : t ∈ tokens source) (hplain : HasPlainNumbers source)
    (hcount : Pattern.arity ⟨source⟩ ≤ count) :
    (Pattern.segment t).write (Pattern.marks count) = t.text := by
  unfold Pattern.segment
  split
  · next n hk =>
    have hpos := argument_pos ht hk
    have hn := Pattern.le_arity (mentions_iff.2 ⟨t, ht, hk⟩)
    have hlt : n - 1 < (Pattern.marks count).length := by
      rw [Pattern.marks, List.length_map, List.length_range]
      omega
    rw [Segment.write, List.getElem?_eq_getElem hlt, Option.getD_some,
      text_of_argument ht hk (hplain t ht n hk)]
    simp [Pattern.marks, Nat.sub_add_cancel hpos]
  · rfl

/-- A pattern is written as it stands if each argument is its own mark. -/
theorem render_marks {template : FunctionTemplate} {byCount : SortedMap Nat Pattern} {count : Nat}
    (hr : template.rendering = .patterns byCount) (hp : byCount.get? count = some ⟨source⟩)
    (hcount : Pattern.arity ⟨source⟩ ≤ count) (hplain : HasPlainNumbers source) :
    template.render (Pattern.marks count) = .ok source := by
  have hlength : (Pattern.marks count).length = count := by simp [Pattern.marks]
  have hexpand : template.expand count = .ok (Pattern.segments ⟨source⟩) := by
    have htakes : template.takes count = true := by
      rw [FunctionTemplate.takes, hr]
      exact Option.isSome_of_eq_some hp
    simp [FunctionTemplate.expand, FunctionTemplate.checkArity, htakes, hr, hp, bind, Except.bind]
  have hplaces (index : Nat) (hi : .argument index ∈ Pattern.segments ⟨source⟩) :
      index < (Pattern.marks count).length := by
    rw [hlength]
    exact Nat.lt_of_lt_of_le (Pattern.lt_arity hi) hcount
  have hwritten : (Pattern.segments ⟨source⟩).map (Segment.write (Pattern.marks count)) =
      (tokens source).map Token.text := by
    rw [Pattern.segments, List.map_map]
    exact List.map_congr_left fun t ht => write_segment ht hplain hcount
  have hjoined : String.join ((tokens source).map Token.text) = source := by
    have htokens : String.join ((tokens source).map Token.text) = joined (tokens source) := by
      simp [← String.toList_inj, joined, Token.text, List.flatMap_map]
    rw [htokens, joined_tokens]
  unfold FunctionTemplate.render
  rw [hlength, hexpand]
  simp only [bind, Except.bind, Segment.mapM_fill hplaces, hwritten, hjoined]
  rfl

/-! ## Everything about a template -/

/-- What the tokens of a template are, and what is written for it. -/
structure IsTokenized (source : String) : Prop where
  /-- There is one way to take the longest lexeme at each place, and it gives the raw tokens. -/
  longest : ∃ ls, Reads source.toList ls ∧ (∀ other, Reads source.toList other → other = ls) ∧
    rawTokens source = ls.map Token.ofLexeme
  tiles : ∀ ts ∈ [rawTokens source, tokens source],
    Tiles 0 (spans 0 ts) source.utf8ByteSize ∧
      ∀ t start stop, (t, start, stop) ∈ spans 0 ts →
        ∃ after, StandsAt source start stop t.text after
  apart : (tokens source).IsChain fun t u => ¬(t.kind = .text ∧ u.kind = .text)
  arguments : ∀ n start stop,
    (∃ t, (t, start, stop) ∈ spans 0 (tokens source) ∧ t.kind = .argument n) ↔
      (∃ text after, StandsAt source start stop text after ∧ IsArgument text after n) ∧
        0 < n ∧ n < Number.wordBound
  sizes : ∀ kind ∈ TokenKind.sizes, ∀ start stop,
    (∃ t, (t, start, stop) ∈ spans 0 (tokens source) ∧ t.kind = kind) ↔
      ∃ after, StandsAt source start stop kind.label after
  others : ∀ t ∈ tokens source,
    t.kind = .text ∨ (∃ n, t.kind = .argument n) ∨ t.kind ∈ TokenKind.sizes
  /-- A pattern comes back if each argument is its own mark. -/
  pattern : HasPlainNumbers source → ∀ (template : FunctionTemplate)
    (byCount : SortedMap Nat Pattern) (count : Nat), template.rendering = .patterns byCount →
      byCount.get? count = some ⟨source⟩ → Pattern.arity ⟨source⟩ ≤ count →
        template.render (Pattern.marks count) = .ok source
  column : ∀ size : ColumnSize,
    (⟨source⟩ : ColumnTemplate).render size = String.ofList (size.fill source.toList)

/-- No byte of a template is lost, said twice or taken for something that it is not. -/
theorem isTokenized (source : String) : IsTokenized source where
  longest := ⟨_, reads_lexemes _, fun _ h => h.eq_lexemes, rfl⟩
  tiles := by
    have hall (ts : List Token) (hne : ∀ t ∈ ts, t.chars ≠ []) (hjoined : joined ts = source) :
        Tiles 0 (spans 0 ts) source.utf8ByteSize ∧ ∀ t start stop, (t, start, stop) ∈ spans 0 ts →
          ∃ after, StandsAt source start stop t.text after := by
      have htiles := tiles_spans hne 0
      rw [hjoined, Nat.zero_add] at htiles
      exact ⟨htiles, fun t start stop h => standsAt_of_mem_spans hjoined h⟩
    have hraw := chars_rawTokens_ne_nil source
    rw [List.forall_mem_cons, List.forall_mem_singleton]
    exact ⟨hall _ hraw (joined_rawTokens source),
      hall _ (ne_nil_of_merged hraw) (joined_tokens source)⟩
  apart := isChain_merged (rawTokens source)
  arguments := fun _ _ _ => argument_span_iff
  sizes := fun _ hkind _ _ => size_span_iff hkind
  others := fun _ => kind_of_mem_tokens
  pattern := fun hplain _ _ _ hr hp hcount => render_marks hr hp hcount hplain
  column := ColumnTemplate.render_eq_fill source

/-- A mark of zero is text, and so are the marks that stand alone. -/
theorem locate_isTokenized :
    HasPlainNumbers "position(?1 in ?2) $? ?0" ∧
      (FunctionTemplate.pattern "locate" "position(?1 in ?2) $? ?0").render ["?1", "?2"] =
        .ok "position(?1 in ?2) $? ?0" := by
  have hzero : ∀ t ∈ tokens "position(?1 in ?2) $? ?0", ¬['?', '0'] <+: t.chars := by decide
  have hplain : HasPlainNumbers "position(?1 in ?2) $? ?0" := fun t ht _ _ => hzero t ht
  exact ⟨hplain, (isTokenized _).pattern hplain _ _ 2 rfl (by decide) (by decide)⟩

end Template

end SqlDialects
