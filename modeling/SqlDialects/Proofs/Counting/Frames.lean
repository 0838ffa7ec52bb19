import SqlDialects.Proofs.Evaluation
import SqlDialects.Proofs.Lowering.Scopes

/-!
# Frames of lowered joins

A lowered join compares two columns, so what it finds depends on two records only.
-/

namespace SqlDialects.Sql

open Entity (equiJoin HangsOn)

variable {σ : Type} [DecidableEq σ] (db : Database σ)

/-! ## Names of a frame -/

namespace Frame

variable {σ : Type}

def names (frame : Frame σ) : List String := frame.map (·.1)

/-- The same records are seen under these names. -/
def Agree (visible : List String) (frame frame' : Frame σ) : Prop :=
  ∀ a ∈ visible, frame.lookup a = frame'.lookup a

/-- The frame without the tables that are hidden. -/
def without (hidden : List String) (frame : Frame σ) : Frame σ :=
  frame.filter fun named => !hidden.contains named.1

@[simp]
theorem names_append (frame frame' : Frame σ) :
    names (frame ++ frame') = names frame ++ names frame' :=
  List.map_append

@[simp]
theorem names_singleton (a : String) (record : Record σ) : names [(a, record)] = [a] := rfl

theorem names_concat {frame : Frame σ} {names : List String} (h : frame.names = names) (a : String)
    (record : Record σ) : (frame ++ [(a, record)]).names = names ++ [a] := by
  rw [names_append, h, names_singleton]

theorem names_root {a : String} {records : List (Record σ)} {frame : Frame σ}
    (h : frame ∈ records.map fun record => [(a, record)]) : frame.names = [a] := by
  obtain ⟨record, -, rfl⟩ := List.mem_map.1 h
  rfl

theorem lookup_eq_none {frame : Frame σ} {a : String} :
    frame.lookup a = none ↔ a ∉ frame.names := by
  simp [names, List.lookup_eq_none_iff]
  grind

theorem lookup_append_right {frame frame' : Frame σ} {a : String} (h : a ∉ frame.names) :
    (frame ++ frame').lookup a = frame'.lookup a := by
  rw [List.lookup_append, lookup_eq_none.2 h, Option.none_or]

theorem lookup_append_left {frame frame' : Frame σ} {a : String} (h : a ∈ frame.names) :
    (frame ++ frame').lookup a = frame.lookup a := by
  rw [List.lookup_append]
  cases hl : frame.lookup a with
  | none => exact absurd h (lookup_eq_none.1 hl)
  | some record => rfl

theorem lookup_append_of_eq_some {frame : Frame σ} {a : String} {record : Record σ}
    (h : frame.lookup a = some record) (frame' : Frame σ) :
    (frame ++ frame').lookup a = some record := by
  rw [List.lookup_append, h, Option.some_or]

theorem lookup_concat {frame : Frame σ} {a : String} (h : a ∉ frame.names) (record : Record σ) :
    (frame ++ [(a, record)]).lookup a = some record := by
  rw [lookup_append_right h, List.lookup_cons_self]

theorem Agree.mono {visible visible' : List String} {frame frame' : Frame σ}
    (h : Agree visible frame frame') (hv : visible' ⊆ visible) : Agree visible' frame frame' :=
  fun a ha => h a (hv ha)

@[simp]
theorem without_append (hidden : List String) (frame frame' : Frame σ) :
    without hidden (frame ++ frame') = without hidden frame ++ without hidden frame' :=
  List.filter_append ..

theorem without_concat_of_mem {hidden : List String} {a : String} (h : a ∈ hidden)
    (frame : Frame σ) (record : Record σ) :
    without hidden (frame ++ [(a, record)]) = without hidden frame := by
  simp [without, h]

theorem without_concat {hidden : List String} {a : String} (h : a ∉ hidden) (frame : Frame σ)
    (record : Record σ) :
    without hidden (frame ++ [(a, record)]) = without hidden frame ++ [(a, record)] := by
  simp [without, h]

theorem without_eq_self {hidden : List String} {frame : Frame σ}
    (h : ∀ a ∈ frame.names, a ∉ hidden) : frame.without hidden = frame := by
  refine List.filter_eq_self.2 fun named hn => ?_
  simpa using h named.1 (List.mem_map.2 ⟨named, hn, rfl⟩)

theorem lookup_without {hidden : List String} {a : String} (h : a ∉ hidden) :
    ∀ frame : Frame σ, (frame.without hidden).lookup a = frame.lookup a
  | [] => rfl
  | (b, record) :: frame => by
    have ih := lookup_without h frame
    unfold without at ih ⊢
    by_cases hb : b = a
    · subst hb
      simp [h]
    · have hne : (a == b) = false := by simpa using Ne.symm hb
      rw [List.filter_cons]
      split
      · rw [List.lookup_cons, List.lookup_cons, hne, ih]
      · rw [List.lookup_cons, hne, ih]

end Frame

/-! ## Conditions of joins -/

theorem truth_equal (a column other otherColumn : String) (view : View σ) :
    (Condition.equal (.of a column) (.of other otherColumn)).truth db view =
      equalCells ((view.seen.lookup a).bind (·.cell column))
        ((view.seen.lookup other).bind (·.cell otherColumn)) := by
  simp [Condition.equal, Condition.truth, Database.compareValues, equalValues, Expression.of,
    Expression.value, View.cell]

omit [DecidableEq σ] in
theorem seen_single (outer frame : Frame σ) : (View.single outer frame).seen = frame ++ outer := rfl

/-- The join finds its records by a column of a table that is there already. -/
theorem holds_equiJoin {kind : JoinKind} {table a column other otherColumn : String}
    {frame outer : Frame σ} (ha : a ∉ frame.names) (ho : other ∈ frame.names) (record : Record σ) :
    Condition.holdsOption db (equiJoin kind table a column (.of other otherColumn)).on
        (.single outer (frame ++ [(a, record)])) =
      (equalCells (record.cell column) ((frame.lookup other).bind (·.cell otherColumn)) ==
        some true) := by
  have hrecord : (frame ++ [(a, record)] ++ outer).lookup a = some record :=
    Frame.lookup_append_of_eq_some (Frame.lookup_concat ha record) outer
  have hother : (frame ++ [(a, record)] ++ outer).lookup other = frame.lookup other := by
    rw [List.append_assoc, Frame.lookup_append_left ho]
  simp only [equiJoin, Condition.holdsOption, truth_equal, seen_single, hrecord, hother,
    Option.bind_some]
  exact (beq_eq_decide _ _).symm

/-! ## Names of the tables of a query -/

section

omit [DecidableEq σ]

theorem mem_extendFrames {a : String} {records : Frame σ → List (Record σ)}
    {frames : List (Frame σ)} {frame : Frame σ} : frame ∈ extendFrames a records frames ↔
      ∃ f ∈ frames, ∃ record ∈ records f, frame = f ++ [(a, record)] := by
  simp only [extendFrames, List.mem_flatMap, List.mem_map, eq_comm]

theorem extendFrames_congr {a : String} {records records' : Frame σ → List (Record σ)}
    {frames : List (Frame σ)} (h : ∀ frame ∈ frames, records frame = records' frame) :
    extendFrames a records frames = extendFrames a records' frames :=
  List.flatMap_congr fun frame hf => by rw [h frame hf]

theorem names_of_mem_extendFrames {a : String} {records : Frame σ → List (Record σ)}
    {frames : List (Frame σ)} {names : List String} (hf : ∀ frame ∈ frames, frame.names = names)
    {frame : Frame σ} (h : frame ∈ extendFrames a records frames) :
    frame.names = names ++ [a] := by
  obtain ⟨f, hmem, record, -, rfl⟩ := mem_extendFrames.1 h
  exact Frame.names_concat (hf f hmem) a record

theorem names_of_mem_joinFrames {kind : JoinKind} {a : String} {table : Table σ} {nulls : Frame σ}
    {holds : Frame σ → Record σ → Bool} {frames : List (Frame σ)} {names : List String}
    (hn : nulls.names = names) (hf : ∀ frame ∈ frames, frame.names = names) {frame : Frame σ}
    (h : frame ∈ joinFrames kind a table nulls holds frames) : frame.names = names ++ [a] := by
  have hunmatched {records : List (Record σ)} (h : frame ∈ records.map fun record =>
      nulls ++ [(a, record)]) : frame.names = names ++ [a] := by
    obtain ⟨record, -, rfl⟩ := List.mem_map.1 h
    exact Frame.names_concat hn a record
  unfold joinFrames at h
  cases kind
  case inner => exact names_of_mem_extendFrames hf h
  case cross => exact names_of_mem_extendFrames hf h
  case left => exact names_of_mem_extendFrames hf h
  case right => exact (List.mem_append.1 h).elim (names_of_mem_extendFrames hf) hunmatched
  case full => exact (List.mem_append.1 h).elim (names_of_mem_extendFrames hf) hunmatched

theorem joinFrames_congr {kind : JoinKind} {a : String} {table : Table σ} {nulls : Frame σ}
    {holds holds' : Frame σ → Record σ → Bool} {frames : List (Frame σ)}
    (h : ∀ frame ∈ frames, ∀ record, holds frame record = holds' frame record) :
    joinFrames kind a table nulls holds frames = joinFrames kind a table nulls holds' frames := by
  have hfound : ∀ frame ∈ frames,
      table.records.filter (holds frame) = table.records.filter (holds' frame) :=
    fun frame hf => List.filter_congr fun record _ => h frame hf record
  have hinner := extendFrames_congr (a := a) hfound
  have houter : extendFrames a (fun frame => if (table.records.filter (holds frame)).isEmpty then
        [table.nullRecord] else table.records.filter (holds frame)) frames =
      extendFrames a (fun frame => if (table.records.filter (holds' frame)).isEmpty then
        [table.nullRecord] else table.records.filter (holds' frame)) frames :=
    extendFrames_congr fun frame hf => by rw [hfound frame hf]
  have hany : ∀ record, (frames.any fun frame => holds frame record) =
      frames.any fun frame => holds' frame record := by
    intro record
    rw [Bool.eq_iff_iff, List.any_eq_true, List.any_eq_true]
    exact exists_congr fun frame => and_congr_right fun hf => by rw [h frame hf record]
  cases kind <;> simp only [joinFrames, hinner, houter, hany]

end

theorem names_of_mem_joins : ∀ {joins : List Join} {outer nulls : Frame σ}
    {frames : List (Frame σ)} {names : List String}, nulls.names = names →
      (∀ frame ∈ frames, frame.names = names) →
      ∀ frame ∈ Join.frames db joins outer nulls frames,
        frame.names = names ++ joins.map (·.table.aliasName)
  | [], _, _, _, _, _, hf, frame, h => by simpa using hf frame h
  | join :: joins, _, nulls, _, names, hn, hf, frame, h => by
    have hn' := Frame.names_concat hn join.table.aliasName
      (db.table join.table.table).nullRecord
    rw [Join.frames_cons] at h
    simpa using names_of_mem_joins hn' (fun g hg => names_of_mem_joinFrames hn hf hg) frame h

theorem names_of_mem_frames : ∀ {tables : List FromItem} {outer frame : Frame σ},
    frame ∈ FromItem.frames db tables outer → frame.names = tables.flatMap FromItem.names
  | [], _, frame, h => by
    obtain rfl := List.mem_singleton.1 h
    rfl
  | item :: tables, outer, frame, h => by
    rw [FromItem.frames_cons] at h
    simp only [List.mem_flatMap, List.mem_map] at h
    obtain ⟨first, hfirst, rest, hrest, rfl⟩ := h
    rw [Frame.names_append, names_of_mem_joins db rfl (fun _ => Frame.names_root) first hfirst,
      names_of_mem_frames hrest]
    rfl

/-! ## What a query sees of the queries around it -/

/-- Joins that compare columns find the same where the same records are seen around them. -/
theorem joins_congr : ∀ {joins : List Join} {outer outer' nulls : Frame σ}
    {frames : List (Frame σ)} {names visible : List String}, nulls.names = names →
      (∀ frame ∈ frames, frame.names = names) → HangsOn visible joins →
      (∀ a ∈ visible, a ∈ names ∨ outer.lookup a = outer'.lookup a) →
      Join.frames db joins outer nulls frames = Join.frames db joins outer' nulls frames
  | [], _, _, _, _, _, _, _, _, _, _ => rfl
  | join :: joins, outer, outer', nulls, frames, names, visible, hn, hf, ⟨hj, hjs⟩, hv => by
    have hn' := Frame.names_concat hn join.table.aliasName
      (db.table join.table.table).nullRecord
    have hjoined : joinFrames join.kind join.table.aliasName (db.table join.table.table) nulls
        (fun frame record => Condition.holdsOption db join.on
          (.single outer (frame ++ [(join.table.aliasName, record)]))) frames =
        joinFrames join.kind join.table.aliasName (db.table join.table.table) nulls
          (fun frame record => Condition.holdsOption db join.on
            (.single outer' (frame ++ [(join.table.aliasName, record)]))) frames := by
      refine joinFrames_congr fun frame hframe record => ?_
      obtain ⟨kind, table, a, column, other, otherColumn, ho, rfl⟩ := hj
      have hagree : Frame.Agree [a, other] (frame ++ [(a, record)] ++ outer)
          (frame ++ [(a, record)] ++ outer') := by
        intro b hb
        by_cases hin : b ∈ Frame.names (frame ++ [(a, record)])
        · rw [Frame.lookup_append_left hin, Frame.lookup_append_left hin]
        · rw [Frame.lookup_append_right hin, Frame.lookup_append_right hin]
          rw [Frame.names_concat (hf frame hframe)] at hin
          rcases List.mem_cons.1 hb with rfl | hb
          · simp at hin
          · obtain rfl := List.mem_singleton.1 hb
            exact (hv _ ho).resolve_left fun h => hin (List.mem_append_left _ h)
      simp only [equiJoin, Condition.holdsOption, truth_equal, seen_single,
        hagree a (by simp), hagree other (by simp)]
    rw [Join.frames_cons, Join.frames_cons, hjoined]
    refine joins_congr hn' (fun g hg => names_of_mem_joinFrames hn hf hg) hjs fun a ha => ?_
    rcases List.mem_cons.1 ha with rfl | ha
    · exact .inl (by simp)
    · exact (hv a ha).imp_left (List.mem_append_left _)

/-- The frames of a query with such joins. -/
theorem frames_congr : ∀ {tables : List FromItem} {outer outer' : Frame σ} {visible : List String},
    (∀ item ∈ tables, HangsOn (item.root.aliasName :: visible) item.joins) →
      Frame.Agree visible outer outer' →
      FromItem.frames db tables outer = FromItem.frames db tables outer'
  | [], _, _, _, _, _ => rfl
  | item :: tables, outer, outer', visible, h, hv => by
    obtain ⟨hitem, htables⟩ := List.forall_mem_cons.1 h
    rw [FromItem.frames_cons, FromItem.frames_cons, frames_congr htables hv]
    congr 1
    refine joins_congr db rfl (fun _ => Frame.names_root) hitem fun a ha => ?_
    rcases List.mem_cons.1 ha with rfl | ha
    · exact .inl (List.mem_singleton.2 rfl)
    · exact .inr (hv a ha)

end SqlDialects.Sql
