import SqlDialects.Proofs.Templates.Tokens

/-!
# Where tokens stand

Each token has the bytes that it takes in the template. These spans follow each other without a gap
from the first byte to the last. A mark is at some bytes exactly if it is written there.
-/

namespace SqlDialects.Template

variable {t : Token} {ts : List Token} {source : List Char} {lexeme : Lexeme} {c : Char}
  {rest before after : List Char}

/-! ## Marks among lexemes -/

theorem Reads.flatMap_chars {ls : List Lexeme} (h : Reads source ls) :
    ls.flatMap Lexeme.chars = source := by
  induction h with
  | nil => rfl
  | cons _ _ ih => rw [List.flatMap_cons, ih]

theorem flatMap_chars_lexemes (source : List Char) :
    (lexemes source).flatMap Lexeme.chars = source :=
  (reads_lexemes source).flatMap_chars

/-- Every lexeme is at its end in front of a mark. -/
theorem stops_of_mark (h : isPlain c = false) (lexeme : Lexeme) : lexeme.Stops c := by
  have hc : c = '?' ∨ c = '$' := by
    by_cases hquestion : c = '?'
    · exact .inl hquestion
    · simpa [isPlain, hquestion] using h
  rcases hc with rfl | rfl <;> cases lexeme <;> simp [Lexeme.Stops, isPlain]

theorem Reads.append {ls ms : List Lexeme} (hls : Reads source ls) (hms : Reads rest ms)
    (hmark : ∀ c ∈ rest.head?, isPlain c = false) : Reads (source ++ rest) (ls ++ ms) := by
  induction hls with
  | nil => exact hms
  | @cons lexeme more ls hlongest _ ih =>
    obtain ⟨hm, he⟩ := isLongest_iff.1 hlongest
    rw [List.append_assoc]
    refine .cons (isLongest_of_ends hm fun c hc => ?_) ih
    cases more with
    | nil => exact stops_of_mark (hmark c hc) lexeme
    | cons d more => exact he c hc

theorem Reads.split {pre post : List Lexeme} (h : Reads source (pre ++ lexeme :: post)) :
    ∃ after, source = pre.flatMap Lexeme.chars ++ (lexeme.chars ++ after) ∧ lexeme.IsMatch ∧
      lexeme.EndsBefore after ∧ Reads after post := by
  induction pre generalizing source with
  | nil =>
    cases h with
    | @cons _ rest _ hlongest h =>
      obtain ⟨hm, he⟩ := isLongest_iff.1 hlongest
      exact ⟨rest, rfl, hm, he, h⟩
  | cons first pre ih =>
    cases h with
    | cons _ h =>
      obtain ⟨after, rfl, hm, he, h⟩ := ih h
      exact ⟨after, by rw [List.flatMap_cons, List.append_assoc], hm, he, h⟩

/-! ## Marks among tokens -/

theorem head_of_isText (h : (Token.ofLexeme lexeme).isText = false) (rest : List Char) :
    ∀ c ∈ (lexeme.chars ++ rest).head?, isPlain c = false := by
  cases lexeme with
  | run chars => cases h
  | _ =>
    rintro c hc
    obtain rfl := Option.some.inj hc
    rfl

theorem tokens_eq_merged (source : String) :
    tokens source = merged ((lexemes source.toList).map Token.ofLexeme) := rfl

/-- What is a mark among the tokens is a mark of the template, and the other way round. -/
theorem mark_iff {source : String} (ht : t.isText = false) :
    (∃ pre post, tokens source = pre ++ t :: post ∧ pre.flatMap Token.chars = before ∧
      post.flatMap Token.chars = after) ↔
    ∃ lexeme : Lexeme, Token.ofLexeme lexeme = t ∧
      source.toList = before ++ (lexeme.chars ++ after) ∧ lexeme.IsMatch ∧
      lexeme.EndsBefore after := by
  have hchars (ls : List Lexeme) :
      (merged (ls.map Token.ofLexeme)).flatMap Token.chars = ls.flatMap Lexeme.chars := by
    rw [flatMap_merged fun _ _ => rfl, List.flatMap_map]
    simp only [Token.chars_ofLexeme]
  rw [tokens_eq_merged]
  constructor
  · rintro ⟨pre, post, h, rfl, rfl⟩
    obtain ⟨pre', post', hraw, rfl, rfl⟩ := exists_of_merged_eq ht h
    obtain ⟨ls, ms, hlexemes, rfl, hms⟩ := List.map_eq_append_iff.1 hraw
    obtain ⟨lexeme, ms, rfl, rfl, rfl⟩ := List.map_eq_cons_iff.1 hms
    obtain ⟨after, hsource, hm, he, hafter⟩ := (hlexemes ▸ reads_lexemes source.toList).split
    rw [hchars, hchars, hafter.flatMap_chars]
    exact ⟨lexeme, rfl, hsource, hm, he⟩
  · rintro ⟨lexeme, rfl, hsource, hm, he⟩
    have hreads := (reads_lexemes before).append
      (.cons (isLongest_of_ends hm he) (reads_lexemes after)) (head_of_isText ht after)
    rw [hsource, ← hreads.eq_lexemes, List.map_append, List.map_cons, merged_append ht]
    refine ⟨_, _, rfl, ?_, ?_⟩
    · rw [hchars, flatMap_chars_lexemes]
    · rw [hchars, flatMap_chars_lexemes]

/-! ## Bytes -/

/-- What tokens stand for together. -/
def joined (ts : List Token) : String := String.ofList (ts.flatMap Token.chars)

theorem joined_cons (t : Token) (ts : List Token) : joined (t :: ts) = t.text ++ joined ts := by
  rw [joined, List.flatMap_cons, String.ofList_append]
  rfl

theorem Token.utf8Size_eq (t : Token) : t.utf8Size = t.text.utf8ByteSize := by
  have hfrom (chars : List Char) (size : Nat) : chars.foldl (fun size c => size + c.utf8Size) size =
      size + (String.ofList chars).utf8ByteSize := by
    induction chars generalizing size with
    | nil => rfl
    | cons c chars ih =>
      rw [List.foldl_cons, ih, String.ofList_cons, String.utf8ByteSize_append,
        String.utf8ByteSize_singleton, Nat.add_assoc]
  rw [utf8Size, hfrom, Nat.zero_add, text]

/-- The text is in the source from one byte to another, in front of what is after it. -/
def StandsAt (source : String) (start stop : Nat) (text after : String) : Prop :=
  ∃ before, source = before ++ (text ++ after) ∧ before.utf8ByteSize = start ∧
    start + text.utf8ByteSize = stop

/-- Each span has a byte at least, and begins where the one before it ends. -/
def Tiles (start : Nat) (spans : List (Token × Nat × Nat)) (stop : Nat) : Prop :=
  match spans with
  | [] => start = stop
  | (_, first, last) :: rest => first = start ∧ first < last ∧ Tiles last rest stop

theorem mem_spans_iff {i start stop : Nat} : (t, start, stop) ∈ spans i ts ↔
    ∃ pre post, ts = pre ++ t :: post ∧ start = i + (joined pre).utf8ByteSize ∧
      stop = start + t.text.utf8ByteSize := by
  induction ts generalizing i with
  | nil => simp [spans]
  | cons first rest ih =>
    rw [spans, List.mem_cons, ih, Prod.mk.injEq, Prod.mk.injEq, Token.utf8Size_eq]
    constructor
    · rintro (⟨rfl, rfl, rfl⟩ | ⟨pre, post, rfl, hstart, hstop⟩)
      · exact ⟨[], rest, rfl, rfl, rfl⟩
      · refine ⟨first :: pre, post, rfl, ?_, hstop⟩
        rw [joined_cons, String.utf8ByteSize_append, hstart, Nat.add_assoc]
    · rintro ⟨pre, post, hts, hstart, hstop⟩
      cases pre with
      | nil =>
        obtain ⟨rfl, rfl⟩ := List.cons.inj hts
        exact .inl ⟨rfl, hstart, by rw [hstop, hstart]; rfl⟩
      | cons u pre =>
        obtain ⟨rfl, rfl⟩ := List.cons.inj hts
        refine .inr ⟨pre, post, rfl, ?_, hstop⟩
        rw [hstart, joined_cons, String.utf8ByteSize_append, Nat.add_assoc]

theorem tiles_spans (h : ∀ t ∈ ts, t.chars ≠ []) (start : Nat) :
    Tiles start (spans start ts) (start + (joined ts).utf8ByteSize) := by
  induction ts generalizing start with
  | nil => rfl
  | cons t rest ih =>
    rw [List.forall_mem_cons] at h
    have hpos : 0 < t.text.utf8ByteSize := by
      rw [Nat.pos_iff_ne_zero, ne_eq, String.utf8ByteSize_eq_zero_iff, Token.text,
        String.ofList_eq_empty_iff]
      exact h.1
    have hrest := ih h.2 (start + t.utf8Size)
    rw [Token.utf8Size_eq, Nat.add_assoc, ← String.utf8ByteSize_append, ← joined_cons] at hrest
    refine ⟨rfl, ?_, ?_⟩
    · rw [Token.utf8Size_eq]
      omega
    · rw [Token.utf8Size_eq]
      exact hrest

/-- What stands at a span is the text of its token. -/
theorem standsAt_of_mem_spans {source : String} {start stop : Nat} (hts : joined ts = source)
    (h : (t, start, stop) ∈ spans 0 ts) : ∃ after, StandsAt source start stop t.text after := by
  obtain ⟨pre, post, rfl, hstart, hstop⟩ := mem_spans_iff.1 h
  refine ⟨joined post, joined pre, ?_, ?_, hstop.symm⟩
  · rw [← hts, ← joined_cons]
    simp [joined, String.ofList_append]
  · rw [hstart, Nat.zero_add]

/-! ## Where marks stand -/

/-- A mark is where the text has a lexeme that is at its end. -/
theorem mem_spans_tokens_iff {source : String} {start stop : Nat} (ht : t.isText = false) :
    (t, start, stop) ∈ spans 0 (tokens source) ↔ ∃ (lexeme : Lexeme) (after : String),
      Token.ofLexeme lexeme = t ∧ StandsAt source start stop (String.ofList lexeme.chars) after ∧
        lexeme.IsMatch ∧ lexeme.EndsBefore after.toList := by
  rw [mem_spans_iff]
  constructor
  · rintro ⟨pre, post, hts, hstart, hstop⟩
    obtain ⟨lexeme, rfl, hsource, hm, he⟩ := (mark_iff ht).1 ⟨pre, post, hts, rfl, rfl⟩
    rw [Token.text, Token.chars_ofLexeme] at hstop
    refine ⟨lexeme, joined post, rfl, ⟨joined pre, ?_, ?_, hstop.symm⟩, hm, ?_⟩
    · rw [← String.toList_inj, hsource]
      simp [joined]
    · rw [hstart, Nat.zero_add]
    · rwa [joined, String.toList_ofList]
  · rintro ⟨lexeme, after, rfl, ⟨before, rfl, hstart, hstop⟩, hm, he⟩
    have hsource : (before ++ (String.ofList lexeme.chars ++ after)).toList =
        before.toList ++ (lexeme.chars ++ after.toList) := by simp
    obtain ⟨pre, post, hts, hpre, -⟩ := (mark_iff ht).2 ⟨lexeme, rfl, hsource, hm, he⟩
    refine ⟨pre, post, hts, ?_, ?_⟩
    · rw [joined, hpre, String.ofList_toList, Nat.zero_add, hstart]
    · rw [← hstop, Token.text, Token.chars_ofLexeme]

/-- A question mark with digits that are all that follow it, and their number. -/
def IsArgument (text after : String) (n : Nat) : Prop :=
  ∃ digits : List Char, text.toList = '?' :: digits ∧ digits ≠ [] ∧
    (∀ c ∈ digits, c.isDigit = true) ∧ (∀ c ∈ after.toList.head?, c.isDigit = false) ∧
    Nat.ofDigitChars 10 digits 0 = n

theorem ofLexeme_argument {digits : List Char} {n : Nat}
    (h : Nat.ofDigitChars 10 digits 0 = n) (hpos : 0 < n) (hbound : n < Number.wordBound) :
    Token.ofLexeme (.argument digits) = ⟨.argument n, '?' :: digits⟩ := by
  have hn : Number.ofDigits digits = n := h
  rw [Token.ofLexeme]
  simp only [hn, Token.argumentBound, if_pos (And.intro hpos hbound)]

theorem exists_of_argument {n : Nat} (h : (Token.ofLexeme lexeme).kind = .argument n) :
    ∃ digits, lexeme = .argument digits ∧ Nat.ofDigitChars 10 digits 0 = n ∧ 0 < n ∧
      n < Number.wordBound := by
  cases lexeme with
  | argument digits =>
    simp only [Token.ofLexeme] at h
    split at h
    · next hn =>
      obtain rfl := TokenKind.argument.inj h
      exact ⟨digits, rfl, rfl, hn⟩
    · cases h
  | _ => cases h

/-- The argument tokens are the argument marks whose numbers are words and not zero. -/
theorem argument_span_iff {source : String} {n start stop : Nat} :
    (∃ t, (t, start, stop) ∈ spans 0 (tokens source) ∧ t.kind = .argument n) ↔
      (∃ text after, StandsAt source start stop text after ∧ IsArgument text after n) ∧
        0 < n ∧ n < Number.wordBound := by
  constructor
  · rintro ⟨t, ht, hk⟩
    have hmark : t.isText = false := by rw [Token.isText, hk]; rfl
    obtain ⟨lexeme, after, rfl, hstands, hm, he⟩ := (mem_spans_tokens_iff hmark).1 ht
    obtain ⟨digits, rfl, hn, hbounds⟩ := exists_of_argument hk
    refine ⟨⟨_, after, hstands, digits, String.toList_ofList, hm.1, hm.2, he, hn⟩, hbounds⟩
  · rintro ⟨⟨text, after, hstands, digits, htext, hne, hdigits, he, hn⟩, hpos, hbound⟩
    have hmark := ofLexeme_argument hn hpos hbound
    have hchars : text = String.ofList (Lexeme.argument digits).chars := by
      rw [Lexeme.chars, ← htext, String.ofList_toList]
    rw [hchars] at hstands
    exact ⟨_, (mem_spans_tokens_iff rfl).2
      ⟨.argument digits, after, hmark, hstands, ⟨hne, hdigits⟩, he⟩, rfl⟩

/-! ## Where sizes stand -/

/-- The kinds of tokens that a column type has a number for. -/
def TokenKind.sizes : List TokenKind := [.length, .precision, .scale]

theorem mem_sizes {kind : TokenKind} :
    kind ∈ TokenKind.sizes ↔ kind = .length ∨ kind = .precision ∨ kind = .scale := by
  simp [TokenKind.sizes]

theorem kind_argument_notMem_sizes (digits : List Char) :
    (Token.ofLexeme (.argument digits)).kind ∉ TokenKind.sizes := by
  rw [Token.ofLexeme, mem_sizes]
  dsimp only
  split <;> simp

/-- There is one lexeme for a size, and it is at its end wherever it stands. -/
theorem exists_of_size {kind : TokenKind} (hkind : kind ∈ TokenKind.sizes) : ∃ size : Lexeme,
    String.ofList size.chars = kind.label ∧ size.IsMatch ∧ (∀ rest, size.EndsBefore rest) ∧
      ∀ lexeme, (Token.ofLexeme lexeme).kind = kind ↔ lexeme = size := by
  have hsizes (lexeme : Lexeme) (h : (Token.ofLexeme lexeme).kind = kind) :
      lexeme = .length ∨ lexeme = .precision ∨ lexeme = .scale := by
    rw [← h] at hkind
    cases lexeme with
    | argument digits => exact absurd hkind (kind_argument_notMem_sizes digits)
    | _ => simp_all [mem_sizes, Token.ofLexeme]
  have honly (size : Lexeme) (hsize : (Token.ofLexeme size).kind = kind) (lexeme : Lexeme) :
      (Token.ofLexeme lexeme).kind = kind ↔ lexeme = size := by
    constructor
    · intro h
      rcases hsizes lexeme h with rfl | rfl | rfl <;>
        rcases hsizes size hsize with rfl | rfl | rfl <;> first | rfl | cases hsize.trans h.symm
    · rintro rfl
      exact hsize
  rcases mem_sizes.1 hkind with rfl | rfl | rfl
  · exact ⟨.length, rfl, trivial, fun _ _ _ => trivial, honly .length rfl⟩
  · exact ⟨.precision, rfl, trivial, fun _ _ _ => trivial, honly .precision rfl⟩
  · exact ⟨.scale, rfl, trivial, fun _ _ _ => trivial, honly .scale rfl⟩

/-- The tokens of a size are the places where its mark is written. -/
theorem size_span_iff {source : String} {kind : TokenKind} {start stop : Nat}
    (hkind : kind ∈ TokenKind.sizes) :
    (∃ t, (t, start, stop) ∈ spans 0 (tokens source) ∧ t.kind = kind) ↔
      ∃ after, StandsAt source start stop kind.label after := by
  obtain ⟨size, hlabel, hm, he, hsize⟩ := exists_of_size hkind
  have hmark (t : Token) (hk : t.kind = kind) : t.isText = false := by
    rw [Token.isText, hk]
    rcases mem_sizes.1 hkind with rfl | rfl | rfl <;> rfl
  constructor
  · rintro ⟨t, ht, hk⟩
    obtain ⟨lexeme, after, rfl, hstands, -⟩ := (mem_spans_tokens_iff (hmark t hk)).1 ht
    obtain rfl := (hsize lexeme).1 hk
    exact ⟨after, hlabel ▸ hstands⟩
  · rintro ⟨after, hstands⟩
    have hk := (hsize size).2 rfl
    refine ⟨Token.ofLexeme size, ?_, hk⟩
    rw [mem_spans_tokens_iff (hmark _ hk)]
    exact ⟨size, after, rfl, hlabel.symm ▸ hstands, hm, he _⟩

end SqlDialects.Template
