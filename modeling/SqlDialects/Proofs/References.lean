import SqlDialects.Proofs.Counting.Keys

/-!
# Joins along references

An inner join by the id of an entity adds at most one record, the one that a foreign key refers to.
So joins of this kind, beside those that a query has without them, leave out the frames in which a
foreign key refers to nothing, and add the records that the others refer to.
-/

namespace SqlDialects.Sql

open Entity (equiJoin HangsOn)

variable {σ : Type}

/-! ## References -/

/-- From a column of the record under one alias to the record of a table that has its value for an
id. -/
structure Reference where
  table : String
  aliasName : String
  idColumn : String
  start : String
  column : String
  deriving DecidableEq, Repr

/-- What a join refers to that compares two columns. -/
def Join.reference? : Join → Option Reference
  | ⟨_, ⟨table, aliasName⟩,
      some (.compare (.column _ idColumn) .equal (.column (some start) column))⟩ =>
    some ⟨table, aliasName, idColumn, start, column⟩
  | _ => none

@[simp]
theorem reference?_equiJoin (kind : JoinKind) (table a column other otherColumn : String) :
    (equiJoin kind table a column (.of other otherColumn)).reference? =
      some ⟨table, a, column, other, otherColumn⟩ := rfl

variable [DecidableEq σ]

namespace Reference

variable (r : Reference) (db : Database σ) {frame frame' : Frame σ}

/-- The records that have the value of the foreign key for an id. -/
def targets (frame : Frame σ) : List (Record σ) :=
  (db.table r.table).matching r.idColumn ((frame.lookup r.start).bind (·.cell r.column))

/-- The record that is referred to. There is none if the foreign key is null, or dangles. -/
def target? (frame : Frame σ) : Option (Record σ) := (r.targets db frame).head?

theorem targets_congr (h : frame.lookup r.start = frame'.lookup r.start) :
    r.targets db frame = r.targets db frame' := by
  rw [targets, targets, h]

/-- No two records have the same id. -/
theorem targets_eq (hkey : (db.table r.table).HasKey [r.idColumn]) (frame : Frame σ) :
    r.targets db frame = (r.target? db frame).toList := by
  have hnodup : ((r.targets db frame).map (·.cell r.idColumn)).Nodup :=
    hkey.nodup_matching (List.subset_cons_self _ _) _
  have hvalue (record : Record σ) (hr : record ∈ r.targets db frame) :
      record.cell r.idColumn = (frame.lookup r.start).bind (·.cell r.column) :=
    (Table.cell_of_mem_matching hr).2
  rcases hl : r.targets db frame with _ | ⟨first, _ | ⟨second, rest⟩⟩
  · simp [target?, hl]
  · simp [target?, hl]
  · have hsame : first.cell r.idColumn = second.cell r.idColumn :=
      (hvalue first (by simp [hl])).trans (hvalue second (by simp [hl])).symm
    simp [hl, hsame] at hnodup

end Reference

/-- The records that the references lead to, one after the other, if there are such. -/
def follow (db : Database σ) : List Reference → Frame σ → Option (Frame σ)
  | [], _ => some []
  | r :: rest, frame => (r.target? db frame).bind fun record =>
    (follow db rest (frame ++ [(r.aliasName, record)])).map ((r.aliasName, record) :: ·)

variable {db : Database σ}

theorem follow_congr : ∀ {references : List Reference} {frame frame' : Frame σ},
    (∀ r ∈ references, frame.lookup r.start = frame'.lookup r.start) →
      follow db references frame = follow db references frame'
  | [], _, _, _ => rfl
  | r :: rest, frame, frame', h => by
    obtain ⟨hr, hrest⟩ := List.forall_mem_cons.1 h
    have hrest' (record : Record σ) : follow db rest (frame ++ [(r.aliasName, record)]) =
        follow db rest (frame' ++ [(r.aliasName, record)]) :=
      follow_congr fun r' h' => by rw [List.lookup_append, List.lookup_append, hrest r' h']
    simp only [follow, Reference.target?, r.targets_congr db hr, hrest']

theorem follow_append : ∀ (references references' : List Reference) (frame : Frame σ),
    follow db (references ++ references') frame =
      (follow db references frame).bind fun added =>
        (follow db references' (frame ++ added)).map (added ++ ·)
  | [], references', frame => by simp [follow]
  | r :: rest, references', frame => by
    simp only [List.cons_append, follow, follow_append rest]
    cases r.target? db frame with
    | none => rfl
    | some record =>
      simp only [Option.bind_some]
      cases follow db rest (frame ++ [(r.aliasName, record)]) with
      | none => rfl
      | some more => simp [Function.comp_def]

theorem names_of_follow : ∀ {references : List Reference} {frame added : Frame σ},
    follow db references frame = some added → added.names = references.map (·.aliasName)
  | [], _, _, h => by
    obtain rfl := Option.some.inj h
    rfl
  | r :: rest, frame, _, h => by
    simp only [follow, Option.bind_eq_some_iff, Option.map_eq_some_iff] at h
    obtain ⟨record, -, more, hmore, rfl⟩ := h
    rw [List.map_cons, ← names_of_follow hmore]
    rfl

/-! ## References that are found -/

/-- The row has a record at the start of the reference, and under its alias one that the foreign key
there refers to. -/
def Reference.IsFound (r : Reference) (db : Database σ) (frame : Frame σ) : Prop :=
  ∃ source record, frame.lookup r.start = some source ∧ frame.lookup r.aliasName = some record ∧
    record ∈ (db.table r.table).matching r.idColumn (source.cell r.column)

namespace Reference.IsFound

variable {r : Reference} {frame frame' : Frame σ}

theorem append (h : r.IsFound db frame) (frame' : Frame σ) : r.IsFound db (frame ++ frame') := by
  obtain ⟨source, record, hs, hr, hmem⟩ := h
  exact ⟨source, record, Frame.lookup_append_of_eq_some hs _,
    Frame.lookup_append_of_eq_some hr _, hmem⟩

theorem append_right (h : r.IsFound db frame') (hn : frame.names.Disjoint frame'.names) :
    r.IsFound db (frame ++ frame') := by
  obtain ⟨source, record, hs, hr, hmem⟩ := h
  have hnew {a : String} {found : Record σ} (hf : frame'.lookup a = some found) :
      a ∉ frame.names := fun ha => hn ha (by
    by_contra hnot
    rw [Frame.lookup_eq_none.2 hnot] at hf
    cases hf)
  refine ⟨source, record, ?_, ?_, hmem⟩
  · rw [Frame.lookup_append_right (hnew hs), hs]
  · rw [Frame.lookup_append_right (hnew hr), hr]

end Reference.IsFound

/-! ## Parts of a frame -/

namespace Frame

omit [DecidableEq σ]

/-- The tables that are hidden. -/
def only (hidden : List String) (frame : Frame σ) : Frame σ :=
  frame.filter fun named => hidden.contains named.1

@[simp]
theorem only_append (hidden : List String) (frame frame' : Frame σ) :
    only hidden (frame ++ frame') = only hidden frame ++ only hidden frame' :=
  List.filter_append ..

theorem only_concat_of_mem {hidden : List String} {a : String} (h : a ∈ hidden) (frame : Frame σ)
    (record : Record σ) :
    only hidden (frame ++ [(a, record)]) = only hidden frame ++ [(a, record)] := by
  simp [only, h]

theorem only_concat {hidden : List String} {a : String} (h : a ∉ hidden) (frame : Frame σ)
    (record : Record σ) : only hidden (frame ++ [(a, record)]) = only hidden frame := by
  simp [only, h]

theorem only_eq_nil {hidden : List String} {frame : Frame σ}
    (h : ∀ a ∈ frame.names, a ∉ hidden) : frame.only hidden = [] := by
  refine List.filter_eq_nil_iff.2 fun named hn => ?_
  simpa using h named.1 (List.mem_map.2 ⟨named, hn, rfl⟩)

theorem lookup_only {hidden : List String} {a : String} (h : a ∈ hidden) :
    ∀ frame : Frame σ, (frame.only hidden).lookup a = frame.lookup a
  | [] => rfl
  | (b, record) :: frame => by
    have ih := lookup_only h frame
    unfold only at ih ⊢
    by_cases hb : b = a
    · subst hb
      simp [h]
    · have hne : (a == b) = false := by simpa using Ne.symm hb
      rw [List.filter_cons]
      split
      · rw [List.lookup_cons, List.lookup_cons, hne, ih]
      · rw [List.lookup_cons, hne, ih]

theorem names_without (hidden : List String) (frame : Frame σ) :
    (frame.without hidden).names = frame.names.filter fun a => !hidden.contains a := by
  rw [names, names, without, List.filter_map]
  rfl

/-- Both parts together see what the frame sees. -/
theorem lookup_parts (hidden : List String) (frame : Frame σ) (a : String) :
    (frame.without hidden ++ frame.only hidden).lookup a = frame.lookup a := by
  by_cases h : a ∈ hidden
  · rw [lookup_append_right, lookup_only h]
    simp [names_without, h]
  · have hnone : (frame.only hidden).lookup a = none := by
      rw [lookup_eq_none]
      simp only [names, only, List.mem_map, List.mem_filter]
      rintro ⟨named, ⟨-, hn⟩, rfl⟩
      exact h (by simpa using hn)
    rw [List.lookup_append, lookup_without h, hnone, Option.or_none]

theorem parts_perm (hidden : List String) (frame : Frame σ) :
    (frame.without hidden ++ frame.only hidden).Perm frame :=
  List.perm_append_comm.trans
    (List.filter_append_perm (fun named : String × Record σ => hidden.contains named.1) frame)

end Frame

/-! ## Frames with and without references -/

section

omit [DecidableEq σ]

theorem extendFrames_filter {a : String} {records : Frame σ → List (Record σ)}
    {p : Frame σ → Bool} (h : ∀ frame record, p (frame ++ [(a, record)]) = p frame)
    (frames : List (Frame σ)) :
    (extendFrames a records frames).filter p = extendFrames a records (frames.filter p) := by
  induction frames with
  | nil => rfl
  | cons frame frames ih =>
    have hfirst : ((records frame).map fun record => frame ++ [(a, record)]).filter p =
        if p frame then (records frame).map fun record => frame ++ [(a, record)] else [] := by
      rw [List.filter_map]
      split <;> simp_all [Function.comp_def]
    unfold extendFrames at ih ⊢
    rw [List.flatMap_cons, List.filter_append, hfirst, ih, List.filter_cons]
    split <;> simp

/-- Where each frame is joined with at most one record, the others are left out. -/
theorem map_without_extendFrames {hidden : List String} {a : String} (ha : a ∈ hidden)
    (record? : Frame σ → Option (Record σ)) (frames : List (Frame σ)) :
    (extendFrames a (fun frame => (record? frame).toList) frames).map (Frame.without hidden) =
      (frames.filter fun frame => (record? frame).isSome).map (Frame.without hidden) := by
  induction frames with
  | nil => rfl
  | cons frame frames ih =>
    unfold extendFrames at ih ⊢
    rw [List.flatMap_cons, List.map_append, ih, List.filter_cons]
    cases hr : record? frame with
    | none => simp [hr]
    | some record => simp [hr, Frame.without_concat_of_mem ha]

theorem filter_product {l l' : List (Frame σ)} {p q q' : Frame σ → Bool}
    (h : ∀ g ∈ l, ∀ g' ∈ l', p (g ++ g') = (q g && q' g')) :
    (l.flatMap fun g => l'.map (g ++ ·)).filter p =
      (l.filter q).flatMap fun g => (l'.filter q').map (g ++ ·) := by
  induction l with
  | nil => rfl
  | cons g l ih =>
    obtain ⟨hg, hl⟩ := List.forall_mem_cons.1 h
    have hfirst : (l'.map (g ++ ·)).filter p =
        if q g then (l'.filter q').map (g ++ ·) else [] := by
      rw [List.filter_map]
      split
      case isTrue hq => exact congrArg _ (List.filter_congr fun g' hg' => by simp [hg g' hg', hq])
      case isFalse hq =>
        rw [List.filter_eq_nil_iff.2 fun g' hg' => by simp [hg g' hg', hq], List.map_nil]
    rw [List.flatMap_cons, List.filter_append, hfirst, ih hl, List.filter_cons]
    split <;> simp

end

/-- The frames in `full` have the tables of these references in addition. Those tables are hidden in
`base`, where the references lead from. -/
structure Led (db : Database σ) (hidden : List String) (references : List Reference)
    (aliases : List String) (full base : List (Frame σ)) : Prop where
  names : ∀ f ∈ full, Frame.names f = aliases
  names_base : ∀ g ∈ base, Frame.names g = aliases.filter fun a => !hidden.contains a
  among : ∀ r ∈ references, r.start ∈ aliases ∧ r.aliasName ∈ aliases
  kept : full.map (Frame.without hidden) = base.filter fun g => (follow db references g).isSome
  followed : ∀ f ∈ full, follow db references (f.without hidden) = some (f.only hidden)

namespace Led

variable {hidden aliases aliases' : List String} {references references' : List Reference}
  {full base full' base' : List (Frame σ)}

theorem start {frames : List (Frame σ)} (hf : ∀ frame ∈ frames, Frame.names frame = aliases)
    (hn : ∀ a ∈ aliases, a ∉ hidden) : Led db hidden [] aliases frames frames where
  names := hf
  names_base g hg := by
    rw [hf g hg, eq_comm, List.filter_eq_self]
    simpa using hn
  among := by simp
  kept := by
    have hid : frames.map (Frame.without hidden) = frames.map id :=
      List.map_congr_left fun frame hframe => Frame.without_eq_self (by rwa [hf frame hframe])
    simp [hid, follow]
  followed f hmem := by
    rw [Frame.only_eq_nil (by rwa [hf f hmem])]
    rfl

/-- A table more on both sides, by a column that both see. -/
theorem visible (h : Led db hidden references aliases full base) (a other : String)
    (records : Option (Record σ) → List (Record σ)) (ha : a ∉ hidden) (hnew : a ∉ aliases)
    (ho : other ∉ hidden) :
    Led db hidden references (aliases ++ [a])
      (extendFrames a (fun f => records (f.lookup other)) full)
      (extendFrames a (fun g => records (g.lookup other)) base) := by
  have hsame (g : Frame σ) (record : Record σ) :
      follow db references (g ++ [(a, record)]) = follow db references g := by
    refine follow_congr fun r hr => ?_
    have hne : (r.start == a) = false :=
      beq_false_of_ne fun heq => hnew (heq ▸ (h.among r hr).1)
    rw [List.lookup_append, List.lookup_cons, hne, List.lookup_nil, Option.or_none]
  refine ⟨fun f hf => names_of_mem_extendFrames h.names hf, fun g hg => ?_, fun r hr => ?_, ?_, ?_⟩
  · rw [names_of_mem_extendFrames h.names_base hg, List.filter_append]
    simp [ha]
  · exact ⟨List.mem_append_left _ (h.among r hr).1, List.mem_append_left _ (h.among r hr).2⟩
  · have hextend : (extendFrames a (fun f => records (f.lookup other)) full).map
        (Frame.without hidden) = extendFrames a (fun f => records (f.lookup other))
          (full.map (Frame.without hidden)) := by
      unfold extendFrames
      rw [List.map_flatMap, List.flatMap_map]
      refine List.flatMap_congr fun f _ => ?_
      beta_reduce
      rw [Frame.lookup_without ho, List.map_map]
      exact List.map_congr_left fun r _ => Frame.without_concat ha f r
    rw [hextend, h.kept, extendFrames_filter fun g record => by rw [hsame]]
  · intro f hf
    obtain ⟨f, hmem, record, -, rfl⟩ := mem_extendFrames.1 hf
    rw [Frame.without_concat ha, Frame.only_concat ha, hsame, h.followed f hmem]

/-- A reference more. -/
theorem reference (h : Led db hidden references aliases full base) (r : Reference)
    (hkey : (db.table r.table).HasKey [r.idColumn]) (ha : r.aliasName ∈ hidden)
    (hs : r.start ∈ aliases) :
    Led db hidden (references ++ [r]) (aliases ++ [r.aliasName])
      (extendFrames r.aliasName (r.targets db) full) base := by
  have hfollow {f : Frame σ} (hf : f ∈ full) : follow db (references ++ [r]) (f.without hidden) =
      (r.target? db f).map fun record => f.only hidden ++ [(r.aliasName, record)] := by
    have htarget : r.target? db (f.without hidden ++ f.only hidden) = r.target? db f := by
      rw [Reference.target?, r.targets_congr db (Frame.lookup_parts hidden f r.start)]
      rfl
    simp only [follow_append, h.followed f hf, follow, Option.bind_some, htarget]
    cases r.target? db f <;> simp
  have htargets : r.targets db = fun f => (r.target? db f).toList := funext (r.targets_eq db hkey)
  refine ⟨fun f hf => names_of_mem_extendFrames h.names hf, fun g hg => ?_, ?_, ?_, ?_⟩
  · rw [h.names_base g hg, List.filter_append]
    simp [ha]
  · refine List.forall_mem_append.2 ⟨fun r' hr => ?_, List.forall_mem_singleton.2 ?_⟩
    · exact ⟨List.mem_append_left _ (h.among r' hr).1, List.mem_append_left _ (h.among r' hr).2⟩
    · exact ⟨List.mem_append_left _ hs, List.mem_append_right _ (List.mem_singleton.2 rfl)⟩
  · have hfilter : (full.filter fun f => (r.target? db f).isSome) = full.filter
        ((fun g => (follow db (references ++ [r]) g).isSome) ∘ Frame.without hidden) :=
      List.filter_congr fun f hf => by simp [hfollow hf]
    rw [htargets, map_without_extendFrames ha, hfilter, ← List.filter_map, h.kept,
      List.filter_filter]
    refine List.filter_congr fun g _ => ?_
    rw [follow_append]
    cases follow db references g <;> simp
  · intro f' hf'
    obtain ⟨f, hf, record, hr, rfl⟩ := mem_extendFrames.1 hf'
    rw [htargets] at hr
    rw [Frame.without_concat_of_mem ha, Frame.only_concat_of_mem ha, hfollow hf,
      Option.mem_toList.1 hr]
    rfl

/-- All frames of some tables with all frames of others. -/
theorem product (h : Led db hidden references aliases full base)
    (h' : Led db hidden references' aliases' full' base') (hn : aliases.Disjoint aliases') :
    Led db hidden (references ++ references') (aliases ++ aliases')
      (full.flatMap fun f => full'.map (f ++ ·)) (base.flatMap fun g => base'.map (g ++ ·)) := by
  have hfollow {g g' : Frame σ} (hg : g.names ⊆ aliases) (hg' : g'.names ⊆ aliases') :
      follow db (references ++ references') (g ++ g') = (follow db references g).bind fun added =>
        (follow db references' g').map (added ++ ·) := by
    have hfirst : follow db references (g ++ g') = follow db references g :=
      follow_congr fun r hr => by
        have hnone : g'.lookup r.start = none :=
          Frame.lookup_eq_none.2 fun hmem => hn (h.among r hr).1 (hg' hmem)
        rw [List.lookup_append, hnone, Option.or_none]
    rw [follow_append, hfirst]
    refine Option.bind_congr fun added hadded => ?_
    congr 1
    refine follow_congr fun r hr => ?_
    have hstart := (h'.among r hr).1
    have hnone : g.lookup r.start = none :=
      Frame.lookup_eq_none.2 fun hmem => hn (hg hmem) hstart
    have hnone' : added.lookup r.start = none := Frame.lookup_eq_none.2 fun hmem => by
      rw [names_of_follow hadded, List.mem_map] at hmem
      obtain ⟨r', hr', heq⟩ := hmem
      exact hn (heq ▸ (h.among r' hr').2) hstart
    rw [List.lookup_append, List.lookup_append, hnone, hnone', Option.none_or, Option.or_none]
  refine ⟨fun f hf => ?_, fun g hg => ?_, List.forall_mem_append.2 ⟨fun r hr => ?_, fun r hr => ?_⟩,
    ?_, fun f hf => ?_⟩
  · obtain ⟨f, hmem, f', hf', rfl⟩ := Spread.mem_product.1 hf
    rw [Frame.names_append, h.names f hmem, h'.names f' hf']
  · obtain ⟨g, hmem, g', hg', rfl⟩ := Spread.mem_product.1 hg
    rw [Frame.names_append, h.names_base g hmem, h'.names_base g' hg', List.filter_append]
  · exact ⟨List.mem_append_left _ (h.among r hr).1, List.mem_append_left _ (h.among r hr).2⟩
  · exact ⟨List.mem_append_right _ (h'.among r hr).1, List.mem_append_right _ (h'.among r hr).2⟩
  · have hmap : (full.flatMap fun f => full'.map (f ++ ·)).map (Frame.without hidden) =
        (full.map (Frame.without hidden)).flatMap fun g =>
          (full'.map (Frame.without hidden)).map (g ++ ·) := by
      rw [List.map_flatMap, List.flatMap_map]
      refine List.flatMap_congr fun f _ => ?_
      rw [List.map_map, List.map_map]
      exact List.map_congr_left fun f' _ => Frame.without_append hidden f f'
    rw [hmap, h.kept, h'.kept, ← filter_product]
    intro g hg g' hg'
    rw [hfollow (h.names_base g hg ▸ List.filter_sublist.subset)
      (h'.names_base g' hg' ▸ List.filter_sublist.subset)]
    cases follow db references g <;> cases follow db references' g' <;> rfl
  · obtain ⟨f, hmem, f', hf', rfl⟩ := Spread.mem_product.1 hf
    have hsub : (f.without hidden).names ⊆ aliases := by
      rw [Frame.names_without, h.names f hmem]
      exact List.filter_sublist.subset
    have hsub' : (f'.without hidden).names ⊆ aliases' := by
      rw [Frame.names_without, h'.names f' hf']
      exact List.filter_sublist.subset
    rw [Frame.without_append, Frame.only_append, hfollow hsub hsub', h.followed f hmem,
      h'.followed f' hf']
    rfl

/-- The frames are those from which all references lead to a record, with these records. -/
theorem perm (h : Led db hidden references aliases full base) : List.Forall₂ List.Perm full
    (base.filterMap fun g => (follow db references g).map (g ++ ·)) := by
  have hbase : (base.filterMap fun g => (follow db references g).map (g ++ ·)) =
      full.map fun f => f.without hidden ++ f.only hidden := by
    have hled : (base.filterMap fun g => (follow db references g).map (g ++ ·)) =
        (base.filter fun g => (follow db references g).isSome).filterMap fun g =>
          (follow db references g).map (g ++ ·) := by
      rw [List.filterMap_filter]
      refine List.filterMap_congr fun g _ => ?_
      cases follow db references g <;> rfl
    rw [hled, ← h.kept, List.filterMap_map, ← List.filterMap_eq_map]
    exact List.filterMap_congr fun f hf => by simp [h.followed f hf]
  rw [hbase, List.forall₂_map_right_iff]
  exact List.forall₂_same.2 fun f _ => (Frame.parts_perm hidden f).symm

end Led

/-! ## Joins that are hidden -/

def Join.IsHidden (hidden : List String) (join : Join) : Prop := join.table.aliasName ∈ hidden

instance (hidden : List String) : DecidablePred (Join.IsHidden hidden) := fun join =>
  inferInstanceAs (Decidable (join.table.aliasName ∈ hidden))

/-- Inner joins that find records by their ids can be hidden, with all that hangs on them. -/
structure Join.Hideable (db : Database σ) (hidden : List String) (join : Join) : Prop where
  kind : join.kind = .inner ∨ join.kind = .left
  key : join.IsHidden hidden → join.kind = .inner ∧
    ∀ r ∈ join.reference?, (db.table r.table).HasKey [r.idColumn]
  closed : ∀ r ∈ join.reference?, r.start ∈ hidden → join.IsHidden hidden

/-- What the hidden ones of these joins refer to. -/
def Join.references (hidden : List String) (joins : List Join) : List Reference :=
  (joins.filter fun join => join.IsHidden hidden).filterMap Join.reference?

def Join.shown (hidden : List String) (joins : List Join) : List Join :=
  joins.filter fun join => ¬ join.IsHidden hidden

section

variable {hidden : List String} {join : Join}

theorem Join.references_cons_of_mem (h : join.IsHidden hidden) (joins : List Join) :
    Join.references hidden (join :: joins) =
      join.reference?.toList ++ Join.references hidden joins := by
  cases hr : join.reference? <;> simp [references, h, hr]

theorem Join.references_cons_of_not_mem (h : ¬ join.IsHidden hidden) (joins : List Join) :
    Join.references hidden (join :: joins) = Join.references hidden joins := by
  simp [references, h]

theorem Join.shown_cons_of_mem (h : join.IsHidden hidden) (joins : List Join) :
    Join.shown hidden (join :: joins) = Join.shown hidden joins := by
  simp [shown, h]

theorem Join.shown_cons_of_not_mem (h : ¬ join.IsHidden hidden) (joins : List Join) :
    Join.shown hidden (join :: joins) = join :: Join.shown hidden joins := by
  simp [shown, h]

end

variable (db) in
theorem joinFrames_left {join : Join} {table a column other otherColumn : String}
    {outer nulls : Frame σ} {frames : List (Frame σ)} {names : List String}
    (hj : join = equiJoin .left table a column (.of other otherColumn))
    (hf : ∀ frame ∈ frames, frame.names = names) (ha : a ∉ names) (ho : other ∈ names) :
    joinFrames join.kind join.table.aliasName (db.table join.table.table) nulls
        (fun frame record => Condition.holdsOption db join.on
          (.single outer (frame ++ [(join.table.aliasName, record)]))) frames =
      extendFrames a (fun frame => (Count.mk table a column column (other, otherColumn)).choices db
        ((frame.lookup other).bind (·.cell otherColumn))) frames := by
  subst hj
  exact joinFrames_count (k := ⟨table, a, column, column, (other, otherColumn)⟩) db hf ha ho

/-- Behind inner and left joins each row has what the inner ones refer to. -/
theorem isFound_of_joins : ∀ {joins : List Join} {seen aliases : List String}
    {outer nulls : Frame σ} {frames : List (Frame σ)},
      (∀ frame ∈ frames, Frame.names frame = aliases) → seen ⊆ aliases → HangsOn seen joins →
      (aliases ++ joins.map (·.table.aliasName)).Nodup →
      (∀ join ∈ joins, join.kind = .inner ∨ join.kind = .left) →
      ∀ f ∈ Join.frames db joins outer nulls frames,
        (∃ g ∈ frames, ∃ more, f = g ++ more) ∧
          ∀ join ∈ joins, join.kind = .inner → ∀ r ∈ join.reference?, r.IsFound db f
  | [], _, _, _, _, _, _, _, _, _, _, f, hf => ⟨⟨f, hf, [], (List.append_nil f).symm⟩, nofun⟩
  | join :: joins, seen, aliases, outer, nulls, frames, hnames, hseen, ⟨hj, hjs⟩, hnodup, hkinds,
      f, hf => by
    obtain ⟨hkind, hrest⟩ := List.forall_mem_cons.1 hkinds
    obtain ⟨kind, table, a, column, other, otherColumn, ho, rfl⟩ := hj
    have hnew : a ∉ aliases := fun hmem =>
      (List.nodup_append'.1 hnodup).2.2 hmem List.mem_cons_self
    have hseen' : a :: seen ⊆ aliases ++ [a] :=
      List.cons_subset.2 ⟨List.mem_append_right _ (List.mem_singleton.2 rfl),
        List.Subset.trans hseen (List.subset_append_left _ _)⟩
    have halias : (equiJoin kind table a column (.of other otherColumn)).table.aliasName = a := rfl
    rw [List.map_cons, halias, List.append_cons] at hnodup
    rw [Join.frames_cons] at hf
    rcases hkind with hkind | hkind
    · obtain rfl : kind = .inner := hkind
      rw [joinFrames_inner db rfl hnames hnew (hseen ho)] at hf
      obtain ⟨⟨g', hg', more, rfl⟩, hfound⟩ := isFound_of_joins
        (fun g hg => names_of_mem_extendFrames hnames hg) hseen' hjs hnodup hrest f hf
      obtain ⟨g, hg, record, hr, rfl⟩ := mem_extendFrames.1 hg'
      refine ⟨⟨g, hg, (a, record) :: more, by simp⟩,
        List.forall_mem_cons.2 ⟨fun _ r hrefers => ?_, hfound⟩⟩
      obtain rfl := Option.some.inj hrefers
      obtain ⟨source, hsource⟩ : ∃ source, g.lookup other = some source := by
        refine Option.ne_none_iff_exists'.1 fun hnone => Frame.lookup_eq_none.1 hnone ?_
        rw [hnames g hg]
        exact hseen ho
      rw [hsource] at hr
      have hlookup : (g ++ [(a, record)]).lookup a = some record :=
        Frame.lookup_concat (by rwa [hnames g hg]) record
      exact Reference.IsFound.append
        ⟨source, record, Frame.lookup_append_of_eq_some hsource _, hlookup, hr⟩ more
    · obtain rfl : kind = .left := hkind
      rw [joinFrames_left db rfl hnames hnew (hseen ho)] at hf
      obtain ⟨⟨g', hg', more, rfl⟩, hfound⟩ := isFound_of_joins
        (fun g hg => names_of_mem_extendFrames hnames hg) hseen' hjs hnodup hrest f hf
      obtain ⟨g, hg, record, -, rfl⟩ := mem_extendFrames.1 hg'
      exact ⟨⟨g, hg, (a, record) :: more, by simp⟩,
        List.forall_mem_cons.2 ⟨fun hinner => (by cases hinner), hfound⟩⟩

variable {hidden : List String}

theorem Led.joins : ∀ {joins : List Join} {seen aliases : List String}
    {references : List Reference} {outer outer' nulls nulls' : Frame σ}
    {full base : List (Frame σ)}, Led db hidden references aliases full base → seen ⊆ aliases →
      HangsOn seen joins → (aliases ++ joins.map (·.table.aliasName)).Nodup →
      (∀ join ∈ joins, join.Hideable db hidden) →
      Led db hidden (references ++ Join.references hidden joins)
        (aliases ++ joins.map (·.table.aliasName)) (Join.frames db joins outer nulls full)
        (Join.frames db (Join.shown hidden joins) outer' nulls' base)
  | [], _, _, _, _, _, _, _, _, _, h, _, _, _, _ => by
    simpa [Join.references, Join.shown, Join.frames] using h
  | join :: joins, seen, aliases, references, outer, outer', nulls, nulls', full, base, h, hseen,
      ⟨hj, hjs⟩, hnodup, hhide => by
    obtain ⟨hhide, hhides⟩ := List.forall_mem_cons.1 hhide
    obtain ⟨kind, table, a, column, other, otherColumn, ho, rfl⟩ := hj
    have hnew : a ∉ aliases := fun hmem =>
      (List.nodup_append'.1 hnodup).2.2 hmem List.mem_cons_self
    have hseen' : a :: seen ⊆ aliases ++ [a] :=
      List.cons_subset.2 ⟨List.mem_append_right _ (List.mem_singleton.2 rfl),
        List.Subset.trans hseen (List.subset_append_left _ _)⟩
    have halias : (equiJoin kind table a column (.of other otherColumn)).table.aliasName = a := rfl
    rw [List.map_cons, halias, List.append_cons] at hnodup ⊢
    by_cases ha : a ∈ hidden
    · obtain ⟨hkind, hkey⟩ := hhide.key ha
      obtain rfl : kind = .inner := hkind
      have hhidden : (equiJoin .inner table a column (.of other otherColumn)).IsHidden hidden := ha
      have hled := h.reference ⟨table, a, column, other, otherColumn⟩ (hkey _ rfl) ha (hseen ho)
      rw [Join.frames_cons, joinFrames_inner db rfl h.names hnew (hseen ho),
        Join.references_cons_of_mem hhidden, Join.shown_cons_of_mem hhidden,
        reference?_equiJoin, Option.toList_some, ← List.append_assoc]
      exact hled.joins hseen' hjs hnodup hhides
    · have hshown : ¬ (equiJoin kind table a column (.of other otherColumn)).IsHidden hidden := ha
      have hother : other ∉ hidden := fun hmem => ha (hhide.closed _ rfl hmem)
      have hnew' : a ∉ aliases.filter fun a => !hidden.contains a := fun hmem =>
        hnew (List.mem_of_mem_filter hmem)
      have hother' : other ∈ aliases.filter fun a => !hidden.contains a :=
        List.mem_filter.2 ⟨hseen ho, by simpa using hother⟩
      rw [Join.references_cons_of_not_mem hshown, Join.shown_cons_of_not_mem hshown,
        Join.frames_cons, Join.frames_cons]
      rcases hhide.kind with hkind | hkind
      · obtain rfl : kind = .inner := hkind
        rw [joinFrames_inner db rfl h.names hnew (hseen ho),
          joinFrames_inner db rfl h.names_base hnew' hother']
        exact (h.visible a other (fun record? => (db.table table).matching column
          (record?.bind (·.cell otherColumn))) ha hnew hother).joins hseen' hjs hnodup hhides
      · obtain rfl : kind = .left := hkind
        rw [joinFrames_left db rfl h.names hnew (hseen ho),
          joinFrames_left db rfl h.names_base hnew' hother']
        exact (h.visible a other (fun record? =>
          (Count.mk table a column column (other, otherColumn)).choices db
            (record?.bind (·.cell otherColumn))) ha hnew hother).joins hseen' hjs hnodup hhides

end SqlDialects.Sql
