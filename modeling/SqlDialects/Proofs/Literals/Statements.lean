import SqlDialects.Proofs.Literals.BlankStatements
import SqlDialects.Proofs.Literals.Readers

/-!
# What a statement shows outside of its literals

Outside of the literals of its text a statement shows the placeholders of its parameters and no
others, and nothing of the contents of its strings. A pattern that puts an argument into quotes of
its own breaks both, unless the argument can stand there.
-/

namespace SqlDialects.Sql

theorem Spot.passAll_blank (s : Spot) (pieces : List Piece) :
    s.passAll (pieces.map Piece.blank) = s.passAll pieces := by
  simp only [passAll, List.foldlM_map, Piece.passPiece_blank]

/-- Fragments that differ in the contents of strings are the same outside of literals. -/
theorem Translation.outside_eq_of_blank {d : Dialect} {f f' : Fragment} {s : Spot}
    (h : Spot.code.passAll f.pieces = some s) (hblank : f'.blank = f.blank) :
    Text.outside (ofFragment d (.ofDialect d) f').sql =
      Text.outside (ofFragment d (.ofDialect d) f).sql := by
  have hpieces : f'.pieces.map Piece.blank = f.pieces.map Piece.blank :=
    congrArg Fragment.pieces hblank
  have h' : Spot.code.passAll f'.pieces = some s := by
    rw [← Spot.passAll_blank, hpieces, Spot.passAll_blank, h]
  rw [← outside_ofFragment_blank h', hblank, outside_ofFragment_blank h]

namespace Statement

variable {d : Dialect} {s s' : Statement}

theorem translate_eq_map (config : TranslationConfig) :
    s.translate d config = (s.render d).map (.ofFragment d config) := by
  unfold translate
  cases s.render d <;> rfl

/-- Statements that differ in the contents of strings fail alike, or their fragments differ in
nothing else. -/
theorem render_cases (hblank : s'.blank = s.blank) :
    (∃ e, s'.render d = .error e ∧ s.render d = .error e) ∨
      ∃ f f', s'.render d = .ok f' ∧ s.render d = .ok f ∧ f'.blank = f.blank := by
  have h : (s'.render d).blank = (s.render d).blank := by
    rw [← render_blank, hblank, render_blank]
  cases hs' : s'.render d with
  | error e' =>
    cases hs : s.render d with
    | error e =>
      rw [hs', hs] at h
      obtain rfl := Except.error.inj h
      exact .inl ⟨_, rfl, rfl⟩
    | ok f =>
      rw [hs', hs] at h
      cases h
  | ok f' =>
    cases hs : s.render d with
    | error e =>
      rw [hs', hs] at h
      cases h
    | ok f =>
      rw [hs', hs] at h
      exact .inr ⟨f, f', rfl, rfl, Except.ok.inj h⟩

/-- If the names are plain, and what the patterns of the product put into quotes can stand there,
then a reader finds the parameters outside of literals, in order, and nothing of the contents of
strings: another statement that differs in these alone fails alike or has the same text there. -/
theorem translate_outside_literals (product : Product) (version : Version) (s : Statement)
    (hnames : ∀ name, s.Names name → Text.isPlain name = true)
    (hquotes : ∀ e, s.Contains (.expression e) → e.QuotesQuiet (.ofProduct product version)) :
    let d := Dialect.ofProduct product version
    (∀ t, s.translate d (.ofDialect d) = .ok t →
      d.rules.placeholderStyle.read (Text.outside t.sql) = t.parameters.map (·.placeholder)) ∧
    ∀ s' : Statement, s'.blank = s.blank →
      (s'.translate d (.ofDialect d)).map (fun t => Text.outside t.sql) =
        (s.translate d (.ofDialect d)).map fun t => Text.outside t.sql := by
  intro d
  have hleads := leads_layout (Dialect.isClean_ofProduct product version) hnames hquotes
  have hpass {f : Fragment} (hf : s.render d = .ok f) :
      ∃ spot, Spot.code.passAll f.pieces = some spot := by
    rw [render_eq_fill] at hf
    obtain ⟨spot, -, hspot⟩ := hleads f hf .code (List.mem_singleton.2 rfl)
    exact ⟨spot, hspot⟩
  simp only [translate_eq_map]
  refine ⟨fun t ht => ?_, fun s' hblank => ?_⟩
  · -- Each piece shows its placeholder or none.
    cases hs : s.render d with
    | error e => simp [hs, Except.map] at ht
    | ok f =>
      obtain ⟨spot, hspot⟩ := hpass hs
      obtain rfl : Translation.ofFragment d (.ofDialect d) f = t := by
        simpa [hs, Except.map] using ht
      exact Translation.read_outside_ofFragment hspot
  · -- The pieces are the same but for the contents of strings, so a reader passes them alike.
    rcases render_cases (d := d) hblank with ⟨e, hs', hs⟩ | ⟨f, f', hs', hs, hf⟩
    · rw [hs', hs]
    · obtain ⟨spot, hspot⟩ := hpass hs
      rw [hs', hs]
      exact congrArg Except.ok (Translation.outside_eq_of_blank hspot hf)

/-! ## Truncated timestamps -/

/-- A note on the day of a moment. -/
def insertNote (content : String) : Statement :=
  .insert "note" ["day", "content"] (.rows [[.call "date_trunc"
    [.column none "day", .parameter ⟨.named "moment", some .timestamp⟩],
    .literal (.string content)]])

theorem nodes_of_insertNote {content : String} {n : Node} (h : (insertNote content).Contains n) :
    n = .expression (.call "date_trunc"
        [.column none "day", .parameter ⟨.named "moment", some .timestamp⟩]) ∨
      n = .expression (.column none "day") ∨
      n = .expression (.parameter ⟨.named "moment", some .timestamp⟩) ∨
      n = .expression (.literal (.string content)) := by
  obtain ⟨m, hm, h⟩ := h
  simp only [insertNote, children, InsertSource.children, List.flatten_cons, List.flatten_nil,
    List.append_nil, List.map_cons, List.map_nil, List.mem_cons, List.not_mem_nil, or_false] at hm
  rcases hm with rfl | rfl
  · rcases Node.within_cases h with rfl | ⟨k, hk, h⟩
    · exact .inl rfl
    · simp only [Node.children, Expression.children, List.map_cons, List.map_nil,
        List.mem_cons, List.not_mem_nil, or_false] at hk
      rcases hk with rfl | rfl <;> rcases Node.within_cases h with rfl | ⟨j, hj, -⟩ <;>
        simp_all [Node.children, Expression.children]
  · rcases Node.within_cases h with rfl | ⟨k, hk, -⟩ <;>
      simp_all [Node.children, Expression.children]

theorem insertNote_outside_literals :
    let d := Dialect.ofProduct .postgreSql ⟨16, 0, 0⟩
    ∃ t u, (insertNote "it's").translate d (.ofDialect d) = .ok t ∧
      (insertNote "'), ('").translate d (.ofDialect d) = .ok u ∧
      Text.outside u.sql = Text.outside t.sql ∧
      d.rules.placeholderStyle.read (Text.outside t.sql) = ["$1"] := by
  intro d
  have hnames : ∀ name, (insertNote "it's").Names name → Text.isPlain name = true := by
    rintro name (hname | ⟨n, hn, hname⟩)
    · simp only [insertNote, identifiers, List.mem_cons, List.not_mem_nil, or_false] at hname
      rcases hname with rfl | rfl | rfl <;> rfl
    · rcases nodes_of_insertNote hn with rfl | rfl | rfl | rfl
      all_goals simp [Node.identifiers] at hname
      subst hname
      rfl
  have hquotes : ∀ e, (insertNote "it's").Contains (.expression e) → e.QuotesQuiet d := by
    intro e he template arguments htemplate index argument hargument hindex
    rcases nodes_of_insertNote he with he | he | he | he <;> obtain rfl := Node.expression.inj he
    · obtain ⟨rfl, rfl⟩ := Prod.mk.inj (Option.some.inj htemplate)
      rcases index with _ | _ | index
      · obtain rfl : .column none "day" = argument := by simpa using hargument
        intro c hc f hf
        obtain rfl : { pieces := [.name "day"] } = f := Except.ok.inj hf
        exact List.forall_mem_singleton.2 (Text.not_mem_of_isPlain rfl)
      · exact absurd hindex (by decide)
      · simp at hargument
    all_goals simp [Expression.template?] at htemplate
  obtain ⟨hread, hcontents⟩ :=
    translate_outside_literals .postgreSql ⟨16, 0, 0⟩ (insertNote "it's") hnames hquotes
  have hu := hcontents (insertNote "'), ('") rfl
  exact ⟨_, _, rfl, rfl, Except.ok.inj hu, hread _ rfl⟩

/-- Reads the time of birth of each person, truncated to a unit. -/
def selectTruncated (unit : Expression) : Statement :=
  .select (.spec {
    select := [⟨.call "date_trunc" [unit, .of "t0" "born"], none⟩]
    tables := [⟨⟨"person", "t0"⟩, []⟩] }) none

/-- A parameter in the quotes of a pattern is not seen. -/
theorem selectTruncated_hides_parameter :
    let d := Dialect.ofProduct .postgreSql ⟨16, 0, 0⟩
    ((selectTruncated (.parameter ⟨.named "unit", none⟩)).translate d (.ofDialect d)).map
        (fun t => (t.parameters.map (·.placeholder),
          d.rules.placeholderStyle.read (Text.outside t.sql))) =
      .ok (["$1"], []) := by
  decide +kernel

/-- A string in the quotes of a pattern is seen. -/
theorem selectTruncated_shows_string :
    let d := Dialect.ofProduct .postgreSql ⟨16, 0, 0⟩
    ((selectTruncated (.literal (.string "day"))).translate d (.ofDialect d)).map
        (fun t => Text.outside t.sql) =
      .ok "select date_trunc('day',t0.born) from person t0".toList := by
  decide +kernel

end Statement

end SqlDialects.Sql
