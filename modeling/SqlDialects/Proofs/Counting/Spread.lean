import SqlDialects.Proofs.Counting.Firsts
import SqlDialects.Proofs.Counting.Frames

/-!
# Frames with counted collections

A join that counts a collection puts several frames in the place of one. They differ only in the
record of the joined table, and together they have all records that the join finds.
-/

namespace SqlDialects.Sql

open Entity (equiJoin countQuery HangsOn)

variable {σ : Type} [DecidableEq σ]

/-! ## Counted collections -/

/-- What is counted: the rows of a table that belong to an owner, of which another table has the
id. -/
structure Count where
  table : String
  aliasName : String
  ownerColumn : String
  memberColumn : String
  /-- Alias and id column of the owner. -/
  owner : String × String

/-- The records with a value in a column. -/
def Table.matching (table : Table σ) (column : String) (value : Option σ) : List (Record σ) :=
  table.records.filter fun record => equalCells (record.cell column) value == some true

namespace Count

def ownerId (k : Count) : Expression := .of k.owner.1 k.owner.2

def join (k : Count) : Join := equiJoin .left k.table k.aliasName k.ownerColumn k.ownerId

/-- The number of members, where they have been joined. -/
def aggregate (k : Count) : Expression :=
  .aggregate .count true (some (.of k.aliasName k.memberColumn))

/-- The number of members, by a query of its own. -/
def subquery (k : Count) : Expression := countQuery k.table k.aliasName k.ownerColumn k.ownerId

def ownerValue (k : Count) (frame : Frame σ) : Option σ :=
  (frame.lookup k.owner.1).bind (·.cell k.owner.2)

def members (k : Count) (db : Database σ) (owner : Option σ) : List (Record σ) :=
  (db.table k.table).matching k.ownerColumn owner

/-- The records that the join puts beside an owner. -/
def choices (k : Count) (db : Database σ) (owner : Option σ) : List (Record σ) :=
  if (k.members db owner).isEmpty then [(db.table k.table).nullRecord] else k.members db owner

theorem choices_ne_nil (k : Count) (db : Database σ) (owner : Option σ) :
    k.choices db owner ≠ [] := by
  unfold choices
  split
  · exact List.cons_ne_nil _ _
  · simp_all

omit [DecidableEq σ] in
theorem ownerValue_append {k : Count} {frame : Frame σ} (ho : k.owner.1 ∈ frame.names)
    (other : Frame σ) : k.ownerValue (frame ++ other) = k.ownerValue frame := by
  unfold ownerValue
  rw [Frame.lookup_append_left ho]

omit [DecidableEq σ] in
theorem ownerValue_without {k : Count} {hidden : List String} (ho : k.owner.1 ∉ hidden)
    (frame : Frame σ) : k.ownerValue (frame.without hidden) = k.ownerValue frame := by
  unfold ownerValue
  rw [Frame.lookup_without ho]

omit [DecidableEq σ] in
theorem ownerValue_append_right {k : Count} {frame : Frame σ} (ho : k.owner.1 ∉ frame.names)
    (other : Frame σ) : k.ownerValue (frame ++ other) = k.ownerValue other := by
  unfold ownerValue
  rw [Frame.lookup_append_right ho]

/-- The record that the frame has for the count is one of the records that are joined. -/
def IsJoined (k : Count) (db : Database σ) (frame : Frame σ) : Prop :=
  ∃ r ∈ k.choices db (k.ownerValue frame), frame.lookup k.aliasName = some r

namespace IsJoined

variable {k : Count} {db : Database σ} {frame other : Frame σ}

theorem append (hj : k.IsJoined db frame) (ho : k.owner.1 ∈ frame.names) :
    k.IsJoined db (frame ++ other) := by
  obtain ⟨r, hr, hl⟩ := hj
  refine ⟨r, by rwa [ownerValue_append ho], ?_⟩
  exact Frame.lookup_append_of_eq_some hl other

theorem append_right (hj : k.IsJoined db other) (ho : k.owner.1 ∉ frame.names)
    (ha : k.aliasName ∉ frame.names) : k.IsJoined db (frame ++ other) := by
  obtain ⟨r, hr, hl⟩ := hj
  refine ⟨r, by rwa [ownerValue_append_right ho], ?_⟩
  rw [Frame.lookup_append_right ha, hl]

end IsJoined

end Count

/-! ## Joins that compare columns -/

variable (db : Database σ)

theorem joinFrames_inner {join : Join} {table a column other otherColumn : String}
    {outer nulls : Frame σ} {frames : List (Frame σ)} {names : List String}
    (hj : join = equiJoin .inner table a column (.of other otherColumn))
    (hf : ∀ frame ∈ frames, frame.names = names) (ha : a ∉ names) (ho : other ∈ names) :
    joinFrames join.kind join.table.aliasName (db.table join.table.table) nulls
        (fun frame record => Condition.holdsOption db join.on
          (.single outer (frame ++ [(join.table.aliasName, record)]))) frames =
      extendFrames a (fun frame => (db.table table).matching column
        ((frame.lookup other).bind (·.cell otherColumn))) frames := by
  subst hj
  refine extendFrames_congr fun frame hframe => ?_
  refine List.filter_congr fun record _ => ?_
  exact holds_equiJoin db (by rwa [hf frame hframe]) (by rwa [hf frame hframe]) record

theorem joinFrames_count {k : Count} {outer nulls : Frame σ} {frames : List (Frame σ)}
    {names : List String} (hf : ∀ frame ∈ frames, frame.names = names)
    (ha : k.aliasName ∉ names) (ho : k.owner.1 ∈ names) :
    joinFrames k.join.kind k.join.table.aliasName (db.table k.join.table.table) nulls
        (fun frame record => Condition.holdsOption db k.join.on
          (.single outer (frame ++ [(k.join.table.aliasName, record)]))) frames =
      extendFrames k.aliasName (fun frame => k.choices db (k.ownerValue frame)) frames := by
  refine extendFrames_congr fun frame hframe => ?_
  have hfound : (db.table k.table).records.filter (fun record =>
      Condition.holdsOption db k.join.on (.single outer (frame ++ [(k.aliasName, record)]))) =
        k.members db (k.ownerValue frame) := by
    refine List.filter_congr fun record _ => ?_
    exact holds_equiJoin db (by rwa [hf frame hframe]) (by rwa [hf frame hframe]) record
  show (if (List.filter _ _).isEmpty = true then _ else _) = _
  rw [Count.choices, ← hfound]
  rfl

/-! ## Spreading -/

/-- The frames of `spread` have the tables of counted collections in addition, which are hidden in
`plain`. -/
structure Spread (hidden : List String) (counts : List Count) (aliases : List String)
    (spread plain : List (Frame σ)) : Prop where
  names : ∀ f ∈ spread, Frame.names f = aliases
  firsts : SameFirsts (spread.map (Frame.without hidden)) plain
  owners : ∀ k ∈ counts, k.owner.1 ∈ aliases ∧ k.owner.1 ∉ hidden
  chosen : ∀ f ∈ spread, ∀ k ∈ counts, k.IsJoined db f
  reached : ∀ g ∈ plain, ∀ k ∈ counts, ∀ r ∈ k.choices db (k.ownerValue g),
    ∃ f ∈ spread, f.without hidden = g ∧ f.lookup k.aliasName = some r

namespace Spread

variable {db} {hidden aliases aliases' : List String} {counts counts' : List Count}
  {spread plain spread' plain' : List (Frame σ)}

theorem start {frames : List (Frame σ)} (hf : ∀ frame ∈ frames, Frame.names frame = aliases)
    (hn : ∀ a ∈ aliases, a ∉ hidden) : Spread db hidden [] aliases frames frames where
  names := hf
  firsts := by
    have hid : frames.map (Frame.without hidden) = frames.map id :=
      List.map_congr_left fun frame hframe => Frame.without_eq_self (by rwa [hf frame hframe])
    rw [hid, List.map_id]
    exact SameFirsts.refl _
  owners := by simp
  chosen := by simp
  reached := by simp

theorem mono (hs : Spread db hidden counts aliases spread plain) (hc : counts' ⊆ counts) :
    Spread db hidden counts' aliases spread plain where
  names := hs.names
  firsts := hs.firsts
  owners k hk := hs.owners k (hc hk)
  chosen f hf k hk := hs.chosen f hf k (hc hk)
  reached g hg k hk := hs.reached g hg k (hc hk)

theorem without_mem (hs : Spread db hidden counts aliases spread plain) {f : Frame σ}
    (hf : f ∈ spread) : f.without hidden ∈ plain :=
  hs.firsts.mem_iff.1 (List.mem_map.2 ⟨f, hf, rfl⟩)

theorem exists_of_mem (hs : Spread db hidden counts aliases spread plain) {g : Frame σ}
    (hg : g ∈ plain) : ∃ f ∈ spread, f.without hidden = g :=
  List.mem_map.1 (hs.firsts.mem_iff.2 hg)

theorem owner_mem (hs : Spread db hidden counts aliases spread plain) {k : Count}
    (hk : k ∈ counts) {f : Frame σ} (hf : f ∈ spread) : k.owner.1 ∈ Frame.names f := by
  rw [hs.names f hf]
  exact (hs.owners k hk).1

theorem alias_mem (hs : Spread db hidden counts aliases spread plain) {k : Count}
    (hk : k ∈ counts) {f : Frame σ} (hf : f ∈ spread) : k.aliasName ∈ aliases := by
  obtain ⟨r, -, hl⟩ := hs.chosen f hf k hk
  by_contra hnot
  rw [← hs.names f hf] at hnot
  rw [Frame.lookup_eq_none.2 hnot] at hl
  cases hl

/-- The frames of both sides have the names that are not hidden. -/
theorem mem_names_plain (hs : Spread db hidden counts aliases spread plain) {g : Frame σ}
    (hg : g ∈ plain) {a : String} : a ∈ Frame.names g ↔ a ∈ aliases ∧ a ∉ hidden := by
  obtain ⟨f, hf, rfl⟩ := hs.exists_of_mem hg
  rw [← hs.names f hf]
  simp [Frame.names, Frame.without]

theorem names_plain (hs : Spread db hidden counts aliases spread plain) {g : Frame σ}
    (hg : g ∈ plain) : Frame.names g = aliases.filter fun a => !hidden.contains a := by
  obtain ⟨f, hf, rfl⟩ := hs.exists_of_mem hg
  rw [← hs.names f hf, Frame.names, Frame.names, Frame.without, List.filter_map]
  rfl

theorem owner_mem_plain (hs : Spread db hidden counts aliases spread plain) {k : Count}
    (hk : k ∈ counts) {g : Frame σ} (hg : g ∈ plain) : k.owner.1 ∈ Frame.names g :=
  (hs.mem_names_plain hg).2 (hs.owners k hk)

/-- The records of a counted collection are joined. -/
theorem count (hs : Spread db hidden counts aliases spread plain) {new : Count}
    (ha : new.aliasName ∈ hidden) (hn : new.aliasName ∉ aliases) (ho : new.owner.1 ∈ aliases)
    (hoh : new.owner.1 ∉ hidden) :
    Spread db hidden (counts ++ [new]) (aliases ++ [new.aliasName])
      (extendFrames new.aliasName (fun f => new.choices db (new.ownerValue f)) spread) plain where
  names f hf := names_of_mem_extendFrames hs.names hf
  firsts := by
    refine .trans ?_ hs.firsts
    unfold extendFrames
    rw [List.map_flatMap, List.map_eq_flatMap]
    refine (SameFirsts.refl spread).flatMap fun f _ => SameFirsts.of_forall_eq ?_ ?_
    · simpa using new.choices_ne_nil db (new.ownerValue f)
    · intro g hg
      simp only [List.mem_map, exists_exists_and_eq_and] at hg
      obtain ⟨r, -, rfl⟩ := hg
      exact Frame.without_concat_of_mem ha f r
  owners k hk := by
    rcases List.mem_append.1 hk with hk | hk
    · exact ⟨List.mem_append_left _ (hs.owners k hk).1, (hs.owners k hk).2⟩
    · obtain rfl := List.mem_singleton.1 hk
      exact ⟨List.mem_append_left _ ho, hoh⟩
  chosen f hf k hk := by
    obtain ⟨f, hmem, r, hr, rfl⟩ := mem_extendFrames.1 hf
    rcases List.mem_append.1 hk with hk | hk
    · exact (hs.chosen f hmem k hk).append (hs.owner_mem hk hmem)
    · obtain rfl := List.mem_singleton.1 hk
      refine ⟨r, ?_, Frame.lookup_concat (hs.names f hmem ▸ hn) r⟩
      rwa [Count.ownerValue_append (hs.names f hmem ▸ ho)]
  reached g hg k hk r hr := by
    rcases List.mem_append.1 hk with hk | hk
    · -- The frame that has the record is joined with any record of the new table.
      obtain ⟨f, hf, rfl, hl⟩ := hs.reached g hg k hk r hr
      obtain ⟨r', hr'⟩ := List.exists_mem_of_ne_nil _ (new.choices_ne_nil db (new.ownerValue f))
      exact ⟨f ++ [(new.aliasName, r')], mem_extendFrames.2 ⟨f, hf, r', hr', rfl⟩,
        Frame.without_concat_of_mem ha f r', Frame.lookup_append_of_eq_some hl _⟩
    · obtain rfl := List.mem_singleton.1 hk
      obtain ⟨f, hf, rfl⟩ := hs.exists_of_mem hg
      rw [Count.ownerValue_without hoh] at hr
      exact ⟨f ++ [(k.aliasName, r)], mem_extendFrames.2 ⟨f, hf, r, hr, rfl⟩,
        Frame.without_concat_of_mem ha f r, Frame.lookup_concat (hs.names f hf ▸ hn) r⟩

/-- Both sides are joined with a table by a column that both see. -/
theorem inner (hs : Spread db hidden counts aliases spread plain) (a other : String)
    (records : Option (Record σ) → List (Record σ)) (ha : a ∉ hidden) (hoh : other ∉ hidden) :
    Spread db hidden counts (aliases ++ [a])
      (extendFrames a (fun f => records (f.lookup other)) spread)
      (extendFrames a (fun f => records (f.lookup other)) plain) where
  names f hf := names_of_mem_extendFrames hs.names hf
  firsts := by
    have hextend : (extendFrames a (fun f => records (f.lookup other)) spread).map
        (Frame.without hidden) = extendFrames a (fun f => records (f.lookup other))
          (spread.map (Frame.without hidden)) := by
      unfold extendFrames
      rw [List.map_flatMap, List.flatMap_map]
      refine List.flatMap_congr fun f _ => ?_
      beta_reduce
      rw [Frame.lookup_without hoh, List.map_map]
      exact List.map_congr_left fun r _ => Frame.without_concat ha f r
    rw [hextend]
    exact hs.firsts.flatMap fun _ _ => SameFirsts.refl _
  owners k hk := ⟨List.mem_append_left _ (hs.owners k hk).1, (hs.owners k hk).2⟩
  chosen f hf k hk := by
    obtain ⟨f, hmem, r, -, rfl⟩ := mem_extendFrames.1 hf
    exact (hs.chosen f hmem k hk).append (hs.owner_mem hk hmem)
  reached g hg k hk r hr := by
    obtain ⟨g, hmem, r', hr', rfl⟩ := mem_extendFrames.1 hg
    rw [Count.ownerValue_append (hs.owner_mem_plain hk hmem)] at hr
    obtain ⟨f, hf, rfl, hl⟩ := hs.reached g hmem k hk r hr
    rw [Frame.lookup_without hoh] at hr'
    exact ⟨f ++ [(a, r')], mem_extendFrames.2 ⟨f, hf, r', hr', rfl⟩, Frame.without_concat ha f r',
      Frame.lookup_append_of_eq_some hl _⟩

omit [DecidableEq σ] in
theorem mem_product {l l' : List (Frame σ)} {f : Frame σ} :
    f ∈ l.flatMap (fun g => l'.map (g ++ ·)) ↔ ∃ g ∈ l, ∃ g' ∈ l', g ++ g' = f := by
  simp only [List.mem_flatMap, List.mem_map]

/-- All frames of some tables with all frames of others. -/
theorem product (hs : Spread db hidden counts aliases spread plain)
    (hs' : Spread db hidden counts' aliases' spread' plain') (hn : aliases.Disjoint aliases') :
    Spread db hidden (counts ++ counts') (aliases ++ aliases')
      (spread.flatMap fun f => spread'.map (f ++ ·))
      (plain.flatMap fun g => plain'.map (g ++ ·)) where
  names f hf := by
    obtain ⟨f, hmem, f', hf', rfl⟩ := mem_product.1 hf
    rw [Frame.names_append, hs.names f hmem, hs'.names f' hf']
  firsts := by
    have hmap : (spread.flatMap fun f => spread'.map (f ++ ·)).map (Frame.without hidden) =
        (spread.map (Frame.without hidden)).flatMap fun g =>
          (spread'.map (Frame.without hidden)).map (g ++ ·) := by
      rw [List.map_flatMap, List.flatMap_map]
      refine List.flatMap_congr fun f _ => ?_
      rw [List.map_map, List.map_map]
      exact List.map_congr_left fun f' _ => Frame.without_append hidden f f'
    rw [hmap]
    exact hs.firsts.flatMap fun g _ => hs'.firsts.map _
  owners k hk := by
    rcases List.mem_append.1 hk with hk | hk
    · exact ⟨List.mem_append_left _ (hs.owners k hk).1, (hs.owners k hk).2⟩
    · exact ⟨List.mem_append_right _ (hs'.owners k hk).1, (hs'.owners k hk).2⟩
  chosen f hf k hk := by
    obtain ⟨f, hmem, f', hf', rfl⟩ := mem_product.1 hf
    rcases List.mem_append.1 hk with hk | hk
    · exact (hs.chosen f hmem k hk).append (hs.owner_mem hk hmem)
    · refine (hs'.chosen f' hf' k hk).append_right ?_ ?_ <;> rw [hs.names f hmem]
      · exact fun ho => hn ho (hs'.owners k hk).1
      · exact fun ha => hn ha (hs'.alias_mem hk hf')
  reached g hg k hk r hr := by
    obtain ⟨g, hmem, g', hg', rfl⟩ := mem_product.1 hg
    rcases List.mem_append.1 hk with hk | hk
    · rw [Count.ownerValue_append (hs.owner_mem_plain hk hmem)] at hr
      obtain ⟨f, hf, rfl, hl⟩ := hs.reached g hmem k hk r hr
      obtain ⟨f', hf', rfl⟩ := hs'.exists_of_mem hg'
      exact ⟨f ++ f', mem_product.2 ⟨f, hf, f', hf', rfl⟩, Frame.without_append ..,
        Frame.lookup_append_of_eq_some hl f'⟩
    · have ho : k.owner.1 ∉ Frame.names g := fun ho =>
        hn ((hs.mem_names_plain hmem).1 ho).1 (hs'.owners k hk).1
      rw [Count.ownerValue_append_right ho] at hr
      obtain ⟨f', hf', rfl, hl⟩ := hs'.reached g' hg' k hk r hr
      obtain ⟨f, hf, rfl⟩ := hs.exists_of_mem hmem
      refine ⟨f ++ f', mem_product.2 ⟨f, hf, f', hf', rfl⟩, Frame.without_append .., ?_⟩
      rw [Frame.lookup_append_right, hl]
      rw [hs.names f hf]
      exact fun ha => hn ha (hs'.alias_mem hk hf')

/-- A condition that looks only at what both sides see. -/
theorem filter (hs : Spread db hidden counts aliases spread plain) {p p' : Frame σ → Bool}
    (hp : ∀ f ∈ spread, p f = p' (f.without hidden)) :
    Spread db hidden counts aliases (spread.filter p) (plain.filter p') where
  names f hf := hs.names f (List.mem_of_mem_filter hf)
  firsts := by
    have hmap : (spread.filter p).map (Frame.without hidden) =
        (spread.map (Frame.without hidden)).filter p' := by
      rw [List.filter_map]
      exact congrArg _ (List.filter_congr fun f hf => hp f hf)
    rw [hmap]
    exact hs.firsts.filter p'
  owners := hs.owners
  chosen f hf k hk := hs.chosen f (List.mem_of_mem_filter hf) k hk
  reached g hg k hk r hr := by
    obtain ⟨hg, hpg⟩ := List.mem_filter.1 hg
    obtain ⟨f, hf, rfl, hl⟩ := hs.reached g hg k hk r hr
    exact ⟨f, List.mem_filter.2 ⟨hf, (hp f hf).trans hpg⟩, rfl, hl⟩

end Spread

end SqlDialects.Sql
