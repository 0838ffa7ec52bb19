import SqlDialects.Proofs.ColumnTemplates
import SqlDialects.Proofs.Identifiers
import SqlDialects.Proofs.Schema.Columns

/-!
# Names of the mapping in the text of a schema

With quotes asked for, tables, columns and indexes are named in quotes wherever a statement names
them, and a reader finds their names there, whatever they are. Foreign keys have names of the same
kind, and these are written as they are.
-/

namespace SqlDialects

/-! ## Words without quotes -/

namespace Text

/-- A character of keywords and column types. -/
def isWordSign (c : Char) : Bool :=
  c.isAlphanum || c == ' ' || c == '_' || c == ',' || c == '(' || c == ')'

def isWorded (text : String) : Bool := text.toList.all isWordSign

@[simp]
theorem isWorded_append (s t : String) : isWorded (s ++ t) = (isWorded s && isWorded t) := by
  unfold isWorded
  rw [String.toList_append, List.all_append]

end Text

/-- The template is words but for the sizes. -/
def ColumnTemplate.isWorded (template : ColumnTemplate) : Bool := template.keepsTo Text.isWordSign

namespace Dialect

/-- Quotes are no characters of words, and what the dialect writes in a column is words. -/
structure SparesQuotes (d : Dialect) : Prop where
  opening : Text.isWordSign d.rules.openQuote = false
  close : Text.isWordSign d.rules.closeQuote = false
  nullColumn : Text.isWorded d.rules.nullColumn = true
  columnTypes : d.columnTypes.All ColumnTemplate.isWorded
  identity : ∀ clause select, d.identity = .generated clause select → Text.isWorded clause = true

namespace SparesQuotes

variable {d : Dialect} {text : String}

theorem spares (hd : d.SparesQuotes) (ht : Text.isWorded text = true) :
    Text.Spares d.rules.openQuote d.rules.closeQuote text := by
  have hall := List.all_eq_true.1 ht
  constructor
  · intro hmem
    exact Bool.eq_false_iff.1 hd.opening (hall _ hmem)
  · intro hmem
    exact Bool.eq_false_iff.1 hd.close (hall _ hmem)

section

variable {pieces : List Text.Piece}

theorem words_cons (hd : d.SparesQuotes) (ht : Text.isWorded text = true)
    (h : Text.AreRead d.rules.openQuote d.rules.closeQuote pieces) :
    Text.AreRead d.rules.openQuote d.rules.closeQuote (.words text :: pieces) :=
  h.words_cons (hd.spares ht)

theorem name_cons (hd : d.SparesQuotes) (name : String) (ht : Text.isWorded text = true)
    (hne : text ≠ "") (h : Text.AreRead d.rules.openQuote d.rules.closeQuote pieces) :
    Text.AreRead d.rules.openQuote d.rules.closeQuote (.name name :: .words text :: pieces) :=
  (Text.areRead_name name).append_words (hd.spares ht) hne h

end

theorem columnType (hd : d.SparesQuotes) {code : SqlType} {length precision scale : Option Nat}
    (h : d.columnType code length precision scale = .ok text) : Text.isWorded text = true := by
  unfold Dialect.columnType at h
  dsimp only at h
  split at h
  · next type hget =>
    cases h
    obtain ⟨template, htemplate, rfl⟩ := hd.columnTypes.get hget
    refine ColumnTemplate.all_render htemplate (fun c hc => ?_) _
    simp [Text.isWordSign, Char.isAlphanum, hc]
  · cases h

theorem definition (hd : d.SparesQuotes) (ht : Text.isWorded text = true) {isBig : Bool}
    {definition : String} (h : d.identity.definition? text isBig = some definition) :
    Text.isWorded definition = true := by
  cases hi : d.identity with
  | unsupported =>
    rw [hi] at h
    cases h
  | generated clause select =>
    rw [hi] at h
    cases h
    rw [Text.isWorded_append, Text.isWorded_append, ht, hd.identity clause select hi]
    rfl
  | serial =>
    rw [hi] at h
    cases h
    cases isBig <;> decide
  | rowId =>
    rw [hi] at h
    cases h
    decide

end SparesQuotes

/-! ## Products -/

variable {base : Dialect}

theorem sparesQuotes_standard (product : Product) (version : Version) :
    (Standard.dialect product version).SparesQuotes where
  opening := rfl
  close := rfl
  nullColumn := rfl
  columnTypes := ColumnTypeRegistry.all_empty.registerAll (by decide +kernel)
  identity := nofun

theorem SparesQuotes.ingres (h : base.SparesQuotes) : (Ingres.layer base).SparesQuotes where
  opening := by exact h.opening
  close := by exact h.close
  nullColumn := by
    simp only [Ingres.layer, Ingres.rules]
    decide
  columnTypes := by
    have hnew : (Ingres.columnTypes base.version).all
        (fun t => ColumnTemplate.isWorded ⟨t.2.2⟩) = true := by
      unfold Ingres.columnTypes
      split <;> split <;> decide +kernel
    simp only [Ingres.layer, offer, declare, allow]
    exact (h.columnTypes.registerAll hnew).declareFixed (by decide +kernel)
  identity := by
    simp only [Ingres.layer, Ingres.identity]
    rintro clause select hclause
    split at hclause
    · cases hclause
      decide
    · split at hclause <;> cases hclause
      decide

theorem SparesQuotes.postgreSql (h : base.SparesQuotes) :
    (PostgreSql.layer base).SparesQuotes where
  opening := by exact h.opening
  close := by exact h.close
  nullColumn := by exact h.nullColumn
  columnTypes := by
    simp only [PostgreSql.layer, offer, declare, allow]
    exact h.columnTypes.registerAll (by decide +kernel)
  identity := by
    simp only [PostgreSql.layer, PostgreSql.identity]
    rintro clause select hclause
    split at hclause <;> cases hclause
    decide

theorem SparesQuotes.mySql (h : base.SparesQuotes) : (MySql.layer base).SparesQuotes where
  opening := by rfl
  close := by rfl
  nullColumn := by exact h.nullColumn
  columnTypes := by
    simp only [MySql.layer, offer, declare, allow]
    exact h.columnTypes.registerAll (by decide +kernel)
  identity := by
    rintro clause select hclause
    cases hclause
    decide

theorem SparesQuotes.sqlite (h : base.SparesQuotes) : (Sqlite.layer base).SparesQuotes where
  opening := by exact h.opening
  close := by exact h.close
  nullColumn := by exact h.nullColumn
  columnTypes := by
    simp only [Sqlite.layer, offer, declare, allow]
    exact h.columnTypes.registerAll (by decide +kernel)
  identity := nofun

theorem SparesQuotes.sqlServer (h : base.SparesQuotes) : (SqlServer.layer base).SparesQuotes where
  opening := by rfl
  close := by rfl
  nullColumn := by exact h.nullColumn
  columnTypes := by
    have hnew : (SqlServer.columnTypes base.version).all
        (fun t => ColumnTemplate.isWorded ⟨t.2.2⟩) = true := by
      unfold SqlServer.columnTypes
      split <;> decide +kernel
    simp only [SqlServer.layer, offer, declare, allow]
    exact h.columnTypes.registerAll hnew
  identity := by
    rintro clause select hclause
    cases hclause
    decide

/-- No product writes a quote of its own. -/
theorem sparesQuotes_ofProduct (product : Product) (version : Version) :
    (ofProduct product version).SparesQuotes := by
  have h := sparesQuotes_standard product version
  cases product with
  | ingres => exact h.ingres
  | postgreSql => exact h.postgreSql
  | mySql => exact h.mySql
  | sqlite => exact h.sqlite
  | sqlServer => exact h.sqlServer

end Dialect

namespace Schema

open Mapping Text

/-! ## Statements in pieces -/

namespace Column

def pieces (d : Dialect) : Column → List Piece
  | plain name typeName isNullable isUnique =>
    [.name name, .words " ", .words typeName,
      .words (if isNullable then d.rules.nullColumn else " not null"),
      .words (if isUnique then " unique" else "")]
  | generated name definition => [.name name, .words " ", .words definition]

/-- The text behind the name. -/
def sqlText : Column → String
  | plain _ typeName _ _ => typeName
  | generated _ definition => definition

def mapName (f : String → String) : Column → Column
  | plain name typeName isNullable isUnique => plain (f name) typeName isNullable isUnique
  | generated name definition => generated (f name) definition

end Column

/-- Lists of columns have commas in between. -/
def separated (parts : List (List Piece)) : List Piece := [.words ", "].intercalate parts

def keyPieces : List String → List (List Piece)
  | [] => []
  | key =>
    [[.words "primary key ("] ++ separated (key.map fun name => [.name name]) ++ [.words ")"]]

namespace Statement

/-- The words of a statement, and the names that it gets from tables and columns of the mapping. -/
def pieces (d : Dialect) : Statement → List Piece
  | createSequence name start increment =>
    [.words (SequenceSupport.creation name start increment)]
  | createTable name columns key =>
    [.words "create table ", .name name, .words " ("] ++
      separated (columns.map (Column.pieces d) ++ keyPieces key) ++ [.words ")"]
  | addForeignKey key =>
    [.words "alter table ", .name key.table, .words " add constraint ",
      .name (foreignKeyName key.table key.column), .words " foreign key (", .name key.column,
      .words ") references ", .name key.targetTable, .words " (", .name key.targetColumn,
      .words ")"]
  | createIndex table column =>
    [.words "create index ", .name (indexName table column), .words " on ", .name table,
      .words " (", .name column, .words ")"]
  | dropForeignKey table column =>
    [.words "alter table ", .name table, .words " ", .words (dropForeignKeyWords d.product),
      .words " ", .name (foreignKeyName table column)]
  | dropTable name =>
    if d.supports .ifExistsBeforeTableName then [.words "drop table if exists ", .name name]
    else if d.supports .ifExistsAfterTableName then
      [.words "drop table ", .name name, .words " if exists"]
    else [.words "drop table ", .name name]
  | dropSequence name => [.words (SequenceSupport.removal name)]

/-- Every name is written in quotes. -/
def IsQuoted (d : Dialect) (s : Statement) : Prop :=
  s.text d true = String.ofList
    ((s.pieces d).flatMap (Piece.chars d.rules.openQuote d.rules.closeQuote))

/-- What a reader makes of the statement. -/
def lexemes (d : Dialect) (s : Statement) : List Lexeme :=
  Text.lexemes d.rules.openQuote d.rules.closeQuote (s.text d true)

/-- A reader finds the names and the words of the statement. -/
def IsReadBack (d : Dialect) (s : Statement) : Prop :=
  s.lexemes d = (s.pieces d).flatMap Piece.lexemes

/-- The table and the column that a constraint is named after. -/
def constraint? : Statement → Option (String × String)
  | addForeignKey key => some (key.table, key.column)
  | dropForeignKey table column => some (table, column)
  | _ => none

/-- The sequence that is made or dropped. Its name is not that of a table or a column. -/
def sequence? : Statement → Option String
  | createSequence name _ _ | dropSequence name => some name
  | _ => none

/-- The same statement for other tables and columns. -/
def mapNames (f : String → String) : Statement → Statement
  | createTable name columns key =>
    createTable (f name) (columns.map (Column.mapName f)) (key.map f)
  | addForeignKey key =>
    addForeignKey ⟨f key.table, f key.column, f key.targetTable, f key.targetColumn⟩
  | createIndex table column => createIndex (f table) (f column)
  | dropForeignKey table column => dropForeignKey (f table) (f column)
  | dropTable name => dropTable (f name)
  | s => s

end Statement

/-! ## What is written in quotes -/

variable {d : Dialect} {s : Statement}

theorem identifier_eq (name : String) : d.identifier true name =
    String.ofList (Piece.chars d.rules.openQuote d.rules.closeQuote (.name name)) := rfl

theorem Column.text_eq (column : Column) : (column.text d true).toList =
    (column.pieces d).flatMap (Piece.chars d.rules.openQuote d.rules.closeQuote) := by
  cases column <;>
    simp [Column.text, Column.pieces, identifier_eq, Piece.chars, String.toList_append]

theorem flatMap_intercalate {α β : Type} (f : α → List β) (separator : List α)
    (parts : List (List α)) : (separator.intercalate parts).flatMap f =
      (separator.flatMap f).intercalate (parts.map (List.flatMap f)) := by
  induction parts with
  | nil => rfl
  | cons part rest ih =>
    cases rest with
    | nil => simp
    | cons part' rest =>
      rw [List.map_cons, List.map_cons, List.intercalate_cons_cons, List.intercalate_cons_cons,
        ← List.map_cons, List.flatMap_append, List.flatMap_append, ih]

theorem keyTexts_eq (key : List String) : (Statement.keyTexts d true key).map String.toList =
    (keyPieces key).map
      (List.flatMap (Piece.chars d.rules.openQuote d.rules.closeQuote)) := by
  cases key with
  | nil => rfl
  | cons name rest =>
    simp only [Statement.keyTexts, keyPieces, separated, List.map_singleton, List.flatMap_append,
      flatMap_intercalate, String.toList_append, String.toList_intercalate, List.map_map,
      Function.comp_def, identifier_eq, String.toList_ofList, List.flatMap_singleton, Piece.chars]

/-- Only names of constraints are not in quotes. -/
theorem Statement.isQuoted_of_constraint? (h : s.constraint? = none) : s.IsQuoted d := by
  unfold IsQuoted
  rw [← String.toList_inj, String.toList_ofList]
  unfold text pieces
  cases s with
  | createSequence | dropSequence => exact (List.append_nil _).symm
  | createTable name columns key =>
    have hcolumns : (columns.map (Column.text d true)).map String.toList =
        (columns.map (Column.pieces d)).map
          (List.flatMap (Piece.chars d.rules.openQuote d.rules.closeQuote)) := by
      rw [List.map_map, List.map_map]
      exact List.map_congr_left fun column _ => column.text_eq
    simp only [separated, String.toList_append, String.toList_intercalate, List.map_append,
      hcolumns, keyTexts_eq, List.flatMap_append, flatMap_intercalate]
    simp [identifier_eq, Piece.chars]
  | createIndex => simp [identifier_eq, Piece.chars]
  | dropTable name =>
    simp only [dropTableText]
    split
    · simp [identifier_eq, Piece.chars]
    · split <;> simp [identifier_eq, Piece.chars]
  | addForeignKey | dropForeignKey => cases h

/-- The name of a constraint is too short to be in quotes. -/
theorem Statement.isQuoted_iff : s.IsQuoted d ↔ s.constraint? = none := by
  refine ⟨fun h => ?_, isQuoted_of_constraint?⟩
  unfold IsQuoted at h
  have hlength := congrArg String.length h
  unfold text pieces at hlength
  have hname := Piece.length_lt_chars_name d.rules.openQuote d.rules.closeQuote
  cases s with
  | addForeignKey key =>
    have hlt := hname (foreignKeyName key.table key.column)
    simp only [identifier_eq, String.length_append, String.length_ofList, List.flatMap_cons,
      List.flatMap_nil, List.length_append, List.length_nil, Piece.chars_words,
      String.length_toList] at hlength
    omega
  | dropForeignKey table column =>
    have hlt := hname (foreignKeyName table column)
    simp only [identifier_eq, String.length_append, String.length_ofList, List.flatMap_cons,
      List.flatMap_nil, List.length_append, List.length_nil, Piece.chars_words,
      String.length_toList] at hlength
    omega
  | _ => rfl

/-! ## What a reader finds -/

/-- The statement has no other words than keywords and column types. -/
def Statement.IsWorded : Statement → Prop
  | createTable _ columns _ => ∀ column ∈ columns, isWorded column.sqlText = true
  | createSequence _ _ _ | dropSequence _ => False
  | _ => True

variable (hd : d.SparesQuotes)

section

include hd

theorem Column.areRead_pieces {column : Column} (hw : isWorded column.sqlText = true) :
    AreRead d.rules.openQuote d.rules.closeQuote (column.pieces d) := by
  cases column with
  | plain name typeName isNullable isUnique =>
    have hnull : isWorded (if isNullable then d.rules.nullColumn else " not null") = true := by
      cases isNullable with
      | true => exact hd.nullColumn
      | false =>
        change isWorded " not null" = true
        decide
    have hunique : isWorded (if isUnique then " unique" else "") = true := by
      cases isUnique <;> decide
    exact hd.name_cons name (by decide) (by decide)
      (hd.words_cons hw (hd.words_cons hnull (hd.words_cons hunique areRead_nil)))
  | generated name definition =>
    exact hd.name_cons name (by decide) (by decide) (hd.words_cons hw areRead_nil)

theorem areRead_separated {parts : List (List Piece)}
    (h : ∀ part ∈ parts, AreRead d.rules.openQuote d.rules.closeQuote part) :
    AreRead d.rules.openQuote d.rules.closeQuote (separated parts) :=
  areRead_intercalate (hd.spares (by decide)) (by decide) h

theorem areRead_keyPieces (key : List String) : ∀ part ∈ keyPieces key,
    AreRead d.rules.openQuote d.rules.closeQuote part := by
  cases key with
  | nil => exact nofun
  | cons name rest =>
    refine List.forall_mem_singleton.2 (hd.words_cons (by decide) ?_)
    refine (areRead_separated hd ?_).append_words (hd.spares (by decide)) (by decide) areRead_nil
    exact List.forall_mem_map.2 fun name _ => areRead_name name

theorem Statement.areRead_pieces (hw : s.IsWorded) :
    AreRead d.rules.openQuote d.rules.closeQuote (s.pieces d) := by
  unfold pieces
  cases s with
  | createSequence | dropSequence => exact absurd hw not_false
  | createTable name columns key =>
    have hparts : ∀ part ∈ columns.map (Column.pieces d) ++ keyPieces key,
        AreRead d.rules.openQuote d.rules.closeQuote part := by
      refine List.forall_mem_append.2 ⟨List.forall_mem_map.2 fun column hc => ?_, ?_⟩
      · exact Column.areRead_pieces hd (hw column hc)
      · exact areRead_keyPieces hd key
    refine hd.words_cons (by decide) (hd.name_cons name (by decide) (by decide) ?_)
    exact (areRead_separated hd hparts).append_words (hd.spares (by decide)) (by decide)
      areRead_nil
  | addForeignKey key =>
    exact hd.words_cons (by decide) (hd.name_cons _ (by decide) (by decide)
      (hd.name_cons _ (by decide) (by decide) (hd.name_cons _ (by decide) (by decide)
        (hd.name_cons _ (by decide) (by decide)
          (hd.name_cons _ (by decide) (by decide) areRead_nil)))))
  | createIndex table column =>
    exact hd.words_cons (by decide) (hd.name_cons _ (by decide) (by decide)
      (hd.name_cons _ (by decide) (by decide) (hd.name_cons _ (by decide) (by decide) areRead_nil)))
  | dropForeignKey table column =>
    have hwords : isWorded (dropForeignKeyWords d.product) = true := by
      cases d.product <;> decide
    exact hd.words_cons (by decide) (hd.name_cons _ (by decide) (by decide)
      (hd.words_cons hwords (hd.words_cons (by decide) (areRead_name _))))
  | dropTable name =>
    dsimp only
    split
    · exact hd.words_cons (by decide) (areRead_name name)
    · split
      · exact hd.words_cons (by decide) (hd.name_cons name (by decide) (by decide) areRead_nil)
      · exact hd.words_cons (by decide) (areRead_name name)

/-- In front of the name of a constraint are pieces that are read, and it starts without a quote. -/
theorem Statement.constraint_front {place : String × String} (h : s.constraint? = some place) :
    ∃ front back, AreRead d.rules.openQuote d.rules.closeQuote front ∧
      s.pieces d = front ++ .name (foreignKeyName place.1 place.2) :: back ∧
      ∃ cs, (s.text d true).toList =
        front.flatMap (Piece.chars d.rules.openQuote d.rules.closeQuote) ++ 'f' :: cs := by
  have hname (table column : String) : (foreignKeyName table column).toList =
      'f' :: ("k_" ++ table ++ "_" ++ column).toList := by
    simp [foreignKeyName]
  cases s with
  | addForeignKey key =>
    cases h
    refine ⟨[.words "alter table ", .name key.table, .words " add constraint "], _,
      hd.words_cons (by decide) (hd.name_cons _ (by decide) (by decide) areRead_nil), rfl, ?_⟩
    unfold text
    simp only [identifier_eq, String.toList_append, String.toList_ofList, hname, Piece.chars_words,
      List.flatMap_cons, List.flatMap_nil, List.append_assoc, List.append_nil, List.cons_append]
    exact ⟨_, rfl⟩
  | dropForeignKey table column =>
    cases h
    have hwords : isWorded (dropForeignKeyWords d.product) = true := by
      cases d.product <;> decide
    refine ⟨[.words "alter table ", .name table, .words " ",
      .words (dropForeignKeyWords d.product), .words " "], _,
      hd.words_cons (by decide) (hd.name_cons _ (by decide) (by decide)
        (hd.words_cons hwords (hd.words_cons (by decide) areRead_nil))), rfl, ?_⟩
    unfold text
    simp only [identifier_eq, String.toList_append, String.toList_ofList, hname, Piece.chars_words,
      List.flatMap_cons, List.flatMap_nil, List.append_assoc, List.append_nil]
    exact ⟨_, rfl⟩
  | _ => cases h

/-- A reader finds all names of a statement exactly if it names no constraint. -/
theorem Statement.isReadBack_iff (hw : s.IsWorded) :
    s.IsReadBack d ↔ s.constraint? = none := by
  constructor
  · intro hread
    cases hconstraint : s.constraint? with
    | none => rfl
    | some place =>
      obtain ⟨front, back, hfront, hpieces, cs, htext⟩ := constraint_front hd hconstraint
      have hquotes : Spares d.rules.openQuote d.rules.closeQuote "f" := hd.spares (by decide)
      refine absurd ?_ (hfront.lexemesFrom_ne (c := 'f') ?_ ?_ cs
        (foreignKeyName place.1 place.2) (back.flatMap Piece.lexemes))
      · unfold IsReadBack lexemes Text.lexemes at hread
        rw [← htext, hread, hpieces, List.flatMap_append, List.flatMap_cons]
        rfl
      · rintro heq
        exact hquotes.1 (heq ▸ List.mem_singleton_self _)
      · rintro heq
        exact hquotes.2 (heq ▸ List.mem_singleton_self _)
  · intro h
    unfold IsReadBack lexemes
    rw [isQuoted_of_constraint? h]
    exact (areRead_pieces hd hw).lexemes_eq

end

/-! ## Other names -/

theorem map_blank_separated (parts : List (List Piece)) :
    (separated parts).map Piece.blank = separated (parts.map (List.map Piece.blank)) := by
  have hmap (pieces : List Piece) : pieces.map Piece.blank =
      pieces.flatMap fun piece => [piece.blank] := List.map_eq_flatMap
  unfold separated
  rw [hmap, flatMap_intercalate]
  exact congrArg _ (List.map_congr_left fun part _ => (hmap part).symm)

theorem map_blank_pieces_mapName (f : String → String) (column : Column) :
    ((column.mapName f).pieces d).map Piece.blank = (column.pieces d).map Piece.blank := by
  cases column <;> rfl

theorem map_blank_keyPieces (f : String → String) (key : List String) :
    (keyPieces (key.map f)).map (List.map Piece.blank) =
      (keyPieces key).map (List.map Piece.blank) := by
  cases key with
  | nil => rfl
  | cons name rest =>
    simp only [List.map_cons, keyPieces, List.map_nil, List.map_append, map_blank_separated,
      List.map_map, Function.comp_def, Piece.blank]

theorem Statement.map_blank_pieces_mapNames (f : String → String) (s : Statement) :
    ((s.mapNames f).pieces d).map Piece.blank = (s.pieces d).map Piece.blank := by
  cases s with
  | createTable name columns key =>
    simp only [mapNames, pieces, List.map_append, map_blank_separated, map_blank_keyPieces,
      List.map_map, Function.comp_def, map_blank_pieces_mapName]
    rfl
  | dropTable name =>
    simp only [mapNames, pieces]
    split
    · rfl
    · split <;> rfl
  | _ => rfl

theorem Statement.constraint?_mapNames (f : String → String) (h : s.constraint? = none) :
    (s.mapNames f).constraint? = none := by
  cases s with
  | addForeignKey | dropForeignKey => cases h
  | _ => rfl

theorem Statement.IsWorded.mapNames (hw : s.IsWorded) (f : String → String) :
    (s.mapNames f).IsWorded := by
  cases s with
  | createTable name columns key =>
    refine List.forall_mem_map.2 fun column hc => ?_
    have htext : (column.mapName f).sqlText = column.sqlText := by cases column <;> rfl
    rw [htext]
    exact hw column hc
  | _ => exact hw

/-- With other names of tables and columns, a statement that names no constraint has the same words
in the same places. -/
theorem Statement.map_blank_lexemes_mapNames (hd : d.SparesQuotes) (hw : s.IsWorded)
    (h : s.constraint? = none) (f : String → String) :
    ((s.mapNames f).lexemes d).map Lexeme.blank = (s.lexemes d).map Lexeme.blank := by
  have hblank (pieces : List Piece) : (pieces.flatMap Piece.lexemes).map Lexeme.blank =
      (pieces.map Piece.blank).flatMap Piece.lexemes := by
    rw [List.map_flatMap, List.flatMap_map]
    exact List.flatMap_congr fun piece _ => piece.map_blank_lexemes
  have hread := (isReadBack_iff hd hw).2 h
  have hread' := (isReadBack_iff hd (hw.mapNames f)).2 (constraint?_mapNames f h)
  unfold IsReadBack at hread hread'
  rw [hread, hread', hblank, hblank, map_blank_pieces_mapNames]

/-! ## The statements of a schema -/

variable {model : Model} {statements : List Statement}

theorem isWorded_ofAttribute (hd : d.SparesQuotes) {a : Attribute} {column : Column}
    (h : Column.ofAttribute d a = .ok column) : isWorded column.sqlText = true := by
  obtain ⟨type, htype, h⟩ := bind_eq_ok_iff.1 h
  cases h
  exact hd.columnType htype

theorem isWorded_idColumn (hd : d.SparesQuotes) {entity : Entity} {column : Column}
    (h : idColumn d entity = .ok column) : isWorded column.sqlText = true := by
  unfold idColumn at h
  split at h
  · obtain ⟨type, htype, h⟩ := bind_eq_ok_iff.1 h
    split at h
    · next definition hdefinition =>
      cases h
      exact hd.definition (hd.columnType htype) hdefinition
    · cases h
  · exact isWorded_ofAttribute hd h

theorem Source.Declares.isWorded (hd : d.SparesQuotes) {source : Source} {column : Column}
    (h : source.Declares d column) : Text.isWorded column.sqlText = true := by
  cases source with
  | id entity => exact isWorded_idColumn hd h
  | basic a => exact isWorded_ofAttribute hd h
  | reference role name target =>
    obtain ⟨entity, type, -, htype, rfl⟩ := h
    exact hd.columnType htype

theorem exists_of_forall₂ {α β : Type} {r : α → β → Prop} {as : List α} {bs : List β}
    (h : List.Forall₂ r as bs) : ∀ b ∈ bs, ∃ a ∈ as, r a b := by
  induction h with
  | nil => exact nofun
  | cons hr _ ih =>
    refine List.forall_mem_cons.2 ⟨⟨_, List.mem_cons_self, hr⟩, fun b hb => ?_⟩
    obtain ⟨a, ha, hr⟩ := ih b hb
    exact ⟨a, List.mem_cons_of_mem _ ha, hr⟩

/-- Sequences have names of their own. -/
theorem isWorded_of_mem_create (hd : d.SparesQuotes) (h : create d model = .ok statements)
    (hs : s ∈ statements) (hsequence : s.sequence? = none) : s.IsWorded := by
  cases s with
  | createSequence | dropSequence => cases hsequence
  | createTable name columns key =>
    have hcreated : (name, columns) ∈ createdTables statements :=
      List.mem_filterMap.2 ⟨_, hs, rfl⟩
    obtain ⟨sources, -, -, hcolumns⟩ := exists_of_forall₂ (create_areColumns h) _ hcreated
    intro column hc
    obtain ⟨source, -, hdeclares⟩ := exists_of_forall₂ hcolumns column hc
    exact hdeclares.isWorded hd
  | _ => exact trivial

/-- The tables and columns that constraints are named after. -/
def constraintPlaces (statements : List Statement) : List (String × String) :=
  statements.filterMap Statement.constraint?

theorem constraintPlaces_append (statements statements' : List Statement) :
    constraintPlaces (statements ++ statements') =
      constraintPlaces statements ++ constraintPlaces statements' :=
  List.filterMap_append

theorem constraintPlaces_eq_nil_iff : constraintPlaces statements = [] ↔
    ∀ s ∈ statements, s.IsQuoted d := by
  simp only [constraintPlaces, List.filterMap_eq_nil_iff, Statement.isQuoted_iff]

theorem constraint?_sequenceCreation {entity : Entity}
    (h : sequenceCreation d entity = .ok statements) : ∀ s ∈ statements, s.constraint? = none := by
  unfold sequenceCreation createSequence at h
  split at h
  · split at h
    · cases h
      exact List.forall_mem_singleton.2 rfl
    · cases h
  · cases h
    exact nofun

theorem constraint?_table {entity : Entity} (h : table d model entity = .ok s) :
    s.constraint? = none := by
  simp only [table, bind_eq_ok_iff] at h
  obtain ⟨_, -, _, -, _, -, _, -, h⟩ := h
  cases h
  rfl

theorem constraint?_joinTables {entity : Entity} (h : joinTables d model entity = .ok statements) :
    ∀ s ∈ statements, s.constraint? = none := by
  simp only [joinTables, bind_eq_ok_iff] at h
  obtain ⟨parts, hparts, h⟩ := h
  cases h
  intro s hs
  obtain ⟨part, hpart, hs⟩ := List.mem_flatMap.1 hs
  obtain ⟨collection, -, hpart⟩ := (mem_iff_of_mapM hparts).1 hpart
  unfold joinTable? at hpart
  split at hpart
  · cases hpart
    cases hs
  · simp only [bind_eq_ok_iff] at hpart
    obtain ⟨_, -, _, -, _, -, hpart⟩ := hpart
    cases hpart
    obtain rfl := List.mem_singleton.1 hs
    rfl

theorem constraintPlaces_foreignKeys {entity : Entity}
    (h : foreignKeys d model entity = .ok statements) : constraintPlaces statements =
      if d.supports .foreignKeyConstraints then
        entity.toOne.map (fun a => (entity.table, a.column)) ++
          entity.toMany.flatMap (collectionColumns model)
      else [] := by
  obtain ⟨keys, rfl, hkeys⟩ := foreignKeys_eq_map h
  rw [← hkeys, constraintPlaces, List.filterMap_map, ← List.filterMap_eq_map]
  rfl

/-- Constraints are made for all columns with a key. -/
theorem constraintPlaces_create (h : create d model = .ok statements) :
    constraintPlaces statements =
      if d.supports .foreignKeyConstraints then keyColumns model else [] := by
  simp only [create, bind_eq_ok_iff] at h
  obtain ⟨sequences, hsequences, tables, htables, joins, hjoins, keys, hkeys, h⟩ := h
  cases h
  have hs : constraintPlaces sequences.flatten = [] := by
    refine List.filterMap_eq_nil_iff.2 fun s hs => ?_
    obtain ⟨part, hpart, hs⟩ := List.mem_flatten.1 hs
    obtain ⟨entity, -, hpart⟩ := (mem_iff_of_mapM hsequences).1 hpart
    exact constraint?_sequenceCreation hpart s hs
  have ht : constraintPlaces tables = [] := by
    refine List.filterMap_eq_nil_iff.2 fun s hs => ?_
    obtain ⟨entity, -, htable⟩ := (mem_iff_of_mapM htables).1 hs
    exact constraint?_table htable
  have hj : constraintPlaces joins.flatten = [] := by
    refine List.filterMap_eq_nil_iff.2 fun s hs => ?_
    obtain ⟨part, hpart, hs⟩ := List.mem_flatten.1 hs
    obtain ⟨entity, -, hpart⟩ := (mem_iff_of_mapM hjoins).1 hpart
    exact constraint?_joinTables hpart s hs
  have hi : constraintPlaces (model.entities.flatMap indexes) = [] := by
    refine List.filterMap_eq_nil_iff.2 fun s hs => ?_
    obtain ⟨entity, -, hs⟩ := List.mem_flatMap.1 hs
    obtain ⟨association, -, rfl⟩ := List.mem_map.1 hs
    rfl
  have hk : constraintPlaces keys.flatten =
      if d.supports .foreignKeyConstraints then keyColumns model else [] := by
    have hmap := map_eq_map_of_mapM hkeys fun _ _ h => (constraintPlaces_foreignKeys h).symm
    rw [constraintPlaces, List.filterMap_flatten]
    refine (congrArg List.flatten hmap).trans ?_
    split
    · rw [keyColumns, List.flatMap_def]
    · simp
  rw [constraintPlaces_append, constraintPlaces_append, constraintPlaces_append,
    constraintPlaces_append, hs, ht, hj, hi, hk, List.append_nil]
  rfl

theorem constraintPlaces_drop (h : drop d model = .ok statements) :
    constraintPlaces statements =
      if d.rules.dropConstraints && d.supports .foreignKeyConstraints then
        associationColumns model else [] := by
  have hkeys (places : List (String × String)) :
      constraintPlaces (places.map fun p => .dropForeignKey p.1 p.2) = places := by
    rw [constraintPlaces, List.filterMap_map]
    exact List.filterMap_some
  have hnone {make : String → Statement} (hmake : ∀ name, (make name).constraint? = none)
      (names : List String) : constraintPlaces (names.map make) = [] := by
    refine List.filterMap_eq_nil_iff.2 (List.forall_mem_map.2 fun name _ => hmake name)
  rw [drop_eq_append h, constraintPlaces_append, constraintPlaces_append, hkeys,
    hnone fun _ => rfl, hnone fun _ => rfl, List.append_nil, List.append_nil]

theorem isWorded_of_mem_drop (h : drop d model = .ok statements) (hs : s ∈ statements)
    (hsequence : s.sequence? = none) : s.IsWorded := by
  rw [drop_eq_append h, List.mem_append, List.mem_append] at hs
  simp only [List.mem_map] at hs
  rcases hs with (⟨p, -, rfl⟩ | ⟨name, -, rfl⟩) | ⟨name, -, rfl⟩
  · trivial
  · trivial
  · cases hsequence

/-! ## Whole schemas -/

/-- A statement names tables, columns and indexes in quotes and foreign keys without them. So all
names of a schema are in quotes exactly if it makes or drops no foreign key by its name. A reader
finds the names that are in quotes, and other names make no difference to what else it finds. -/
theorem schema_isQuoted_iff (d : Dialect) (model : Model) :
    (∀ s : Statement, s.IsQuoted d ↔ s.constraint? = none) ∧
    (∀ created, create d model = .ok created →
      ((∀ s ∈ created, s.IsQuoted d) ↔
        (d.supports .foreignKeyConstraints = true → keyColumns model = []))) ∧
    (∀ dropped, drop d model = .ok dropped →
      ((∀ s ∈ dropped, s.IsQuoted d) ↔
        (d.rules.dropConstraints = true → d.supports .foreignKeyConstraints = true →
          associationColumns model = []))) ∧
    (d.SparesQuotes → ∀ statements,
      create d model = .ok statements ∨ drop d model = .ok statements →
      ∀ s ∈ statements, s.sequence? = none →
        (s.IsReadBack d ↔ s.IsQuoted d) ∧
        (s.IsQuoted d → ∀ f : String → String,
          ((s.mapNames f).lexemes d).map Lexeme.blank = (s.lexemes d).map Lexeme.blank)) := by
  refine ⟨fun s => s.isQuoted_iff, fun created h => ?_, fun dropped h => ?_, ?_⟩
  · rw [← constraintPlaces_eq_nil_iff, constraintPlaces_create h, ite_eq_right_iff]
  · rw [← constraintPlaces_eq_nil_iff, constraintPlaces_drop h, ite_eq_right_iff,
      Bool.and_eq_true, and_imp]
  · intro hd statements h s hs hsequence
    have hw : s.IsWorded := by
      rcases h with h | h
      · exact isWorded_of_mem_create hd h hs hsequence
      · exact isWorded_of_mem_drop h hs hsequence
    rw [s.isReadBack_iff hd hw, s.isQuoted_iff]
    exact ⟨Iff.rfl, s.map_blank_lexemes_mapNames hd hw⟩

def salesPerson : Entity :=
  { Entity.ofName "Person" with
      table := "sales person", toOne := [.ofTarget "address" "Address"] }

/-- The table of the persons has a blank in its name, and persons have an address. -/
def salesModel : Model := .ofList [salesPerson, .ofName "Address"]

example : (Statement.dropForeignKey "sales person" "address_id").text
    (.ofProduct .postgreSql ⟨16, 0, 0⟩) true =
      "alter table \"sales person\" drop constraint fk_sales person_address_id" := by
  decide +kernel

/-- The blank is in the name of the constraint too, which a reader does not find. -/
theorem salesModel_not_isReadBack :
    let d := Dialect.ofProduct .postgreSql ⟨16, 0, 0⟩
    d.SparesQuotes ∧ ∃ created dropped, create d salesModel = .ok created ∧
      drop d salesModel = .ok dropped ∧
      (∃ s ∈ created, s.sequence? = none ∧ ¬ s.IsReadBack d) ∧
      ∃ s ∈ dropped, s.sequence? = none ∧ ¬ s.IsReadBack d := by
  intro d
  have hd : d.SparesQuotes := Dialect.sparesQuotes_ofProduct _ _
  obtain ⟨created, hcreate⟩ : ∃ created, create d salesModel = .ok created :=
    exists_eq_ok (by decide +kernel)
  obtain ⟨dropped, hdrop⟩ : ∃ dropped, drop d salesModel = .ok dropped :=
    exists_eq_ok (by decide +kernel)
  obtain ⟨hnamed, hcreated, hdropped, hread⟩ := schema_isQuoted_iff d salesModel
  have hfound {statements : List Statement}
      (h : create d salesModel = .ok statements ∨ drop d salesModel = .ok statements)
      (hraw : ¬ ∀ s ∈ statements, s.IsQuoted d) :
      ∃ s ∈ statements, s.sequence? = none ∧ ¬ s.IsReadBack d := by
    obtain ⟨s, hs, hraw⟩ := not_forall₂.1 hraw
    have hsequence : s.sequence? = none := by
      cases s with
      | createSequence | dropSequence => exact absurd ((hnamed _).2 rfl) hraw
      | _ => rfl
    exact ⟨s, hs, hsequence, mt (hread hd statements h s hs hsequence).1.1 hraw⟩
  refine ⟨hd, created, dropped, hcreate, hdrop, hfound (.inl hcreate) ?_, hfound (.inr hdrop) ?_⟩
  · intro hquoted
    have hnone := (hcreated created hcreate).1 hquoted (by decide +kernel)
    exact absurd hnone (by decide +kernel)
  · intro hquoted
    have hnone := (hdropped dropped hdrop).1 hquoted (by decide +kernel) (by decide +kernel)
    exact absurd hnone (by decide +kernel)

end Schema

end SqlDialects
