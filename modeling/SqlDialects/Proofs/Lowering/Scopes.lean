import Mathlib.Data.List.Forall2
import Mathlib.Data.List.Nodup
import SqlDialects.Proofs.Lowering.Run
import SqlDialects.Proofs.Scoped

/-!
# What the scopes keep

No two tables of the open queries have the same alias, each variable and each join that a path has
added belongs to the table that it was noted for, and each join compares a column with one that
stands before it.
-/

namespace SqlDialects.Sql.FromItem

@[simp]
theorem names_extend (table : FromItem) (joins : List Join) :
    (table.extend joins).names = table.names ++ joins.map (·.table.aliasName) := by
  simp [names, extend]

end SqlDialects.Sql.FromItem

namespace SqlDialects.Entity

open Sql (FromItem)

/-! ## Aliases -/

/-- One of the aliases that are allotted from `lo` on and before `hi`. -/
def Allotted (lo hi : Nat) (a : String) : Prop :=
  ∃ i, lo ≤ i ∧ i < hi ∧ a = "t" ++ toString i

theorem toString_nat_injective {m n : Nat} (h : toString m = toString n) : m = n := by
  have hd : Nat.toDigits 10 m = Nat.toDigits 10 n := by
    rw [← Nat.toList_repr, ← Nat.toList_repr]
    exact congrArg String.toList h
  rw [← Nat.ofDigitChars_ten_toDigits (n := m), hd, Nat.ofDigitChars_ten_toDigits]

namespace Allotted

variable {lo mid hi : Nat} {a b : String}

theorem mono {lo' hi' : Nat} (h : Allotted lo hi a) (hlo : lo' ≤ lo) (hhi : hi ≤ hi') :
    Allotted lo' hi' a := by
  obtain ⟨i, h₁, h₂, rfl⟩ := h
  exact ⟨i, by omega, by omega, rfl⟩

theorem ne (h : Allotted lo mid a) (h' : Allotted mid hi b) : a ≠ b := by
  obtain ⟨i, -, hi, rfl⟩ := h
  obtain ⟨j, hj, -, rfl⟩ := h'
  intro heq
  have : i = j := toString_nat_injective (String.append_right_inj _ |>.1 heq)
  omega

end Allotted

theorem LoweringState.fresh_allotted (s : LoweringState) :
    Allotted s.nextAlias (s.nextAlias + 1) s.fresh :=
  ⟨s.nextAlias, Nat.le_refl _, Nat.lt_succ_self _, rfl⟩

/-! ## Names of the scopes -/

theorem flatMap_modify_perm {α β : Type} {f : α → List β} {g : α → α} {added : List β} :
    ∀ {l : List α} {i : Nat} {x : α}, l[i]? = some x → (f (g x)).Perm (added ++ f x) →
      ((l.modify i g).flatMap f).Perm (added ++ l.flatMap f)
  | [], _, _, h, _ => by simp at h
  | y :: l, 0, x, h, hp => by
    obtain rfl : y = x := by simpa using h
    simpa using hp.append_right (l.flatMap f)
  | y :: l, i + 1, x, h, hp => by
    have ih := flatMap_modify_perm (l := l) (i := i) (by simpa using h) hp
    simp only [List.modify_succ_cons, List.flatMap_cons]
    refine (ih.append_left (f y)).trans ?_
    rw [← List.append_assoc, ← List.append_assoc]
    exact List.perm_append_comm.append_right _

def Scope.names (scope : Scope) : List String := scope.tables.flatMap FromItem.names

def LoweringState.names (s : LoweringState) : List String := s.scopes.flatMap Scope.names

/-- The alias is one of this table and the joins that hang on it. -/
def Scope.Holds (scope : Scope) (item : Nat) (aliasName : String) : Prop :=
  ∃ table, scope.tables[item]? = some table ∧ aliasName ∈ table.names

namespace Scope

variable {scope : Scope} {item : Nat} {a : String}

theorem Holds.mem_names (h : scope.Holds item a) : a ∈ scope.names := by
  obtain ⟨table, ht, ha⟩ := h
  exact List.mem_flatMap.2 ⟨table, List.mem_of_getElem? ht, ha⟩

theorem mem_state_names {s : LoweringState} {depth : Nat} (hs : s.scopes[depth]? = some scope)
    (ha : a ∈ scope.names) : a ∈ s.names :=
  List.mem_flatMap.2 ⟨scope, List.mem_of_getElem? hs, ha⟩

theorem names_extend_perm {table : FromItem} {joins : List Sql.Join}
    (h : scope.tables[item]? = some table) :
    (scope.extend item joins).names.Perm (joins.map (·.table.aliasName) ++ scope.names) := by
  refine flatMap_modify_perm h ?_
  rw [FromItem.names_extend]
  exact List.perm_append_comm

theorem get_extend {table : FromItem} (h : scope.tables[item]? = some table)
    (joins : List Sql.Join) :
    (scope.extend item joins).tables[item]? = some (table.extend joins) := by
  simp [Scope.extend, h]

theorem Holds.extend {joins : List Sql.Join} (h : scope.Holds item a) (j : Nat) :
    (scope.extend j joins).Holds item a := by
  obtain ⟨table, ht, ha⟩ := h
  by_cases hj : j = item
  · subst hj
    exact ⟨table.extend joins, get_extend ht joins, by simp [ha]⟩
  · exact ⟨table, by simp [Scope.extend, hj, ht], ha⟩

theorem holds_extend {joins : List Sql.Join} {table : FromItem} {join : Sql.Join}
    (ht : scope.tables[item]? = some table) (hj : join ∈ joins) :
    (scope.extend item joins).Holds item join.table.aliasName :=
  ⟨table.extend joins, get_extend ht joins, by
    simp only [FromItem.names_extend, List.mem_append, List.mem_map]
    exact .inr ⟨join, hj, rfl⟩⟩

end Scope

/-! ## The invariant -/

/-- Each join compares one of its columns with a column that stands before it. -/
def HangsOn (visible : List String) : List Sql.Join → Prop
  | [] => True
  | join :: rest =>
    (∃ kind table aliasName column other otherColumn, other ∈ visible ∧
      join = equiJoin kind table aliasName column (.of other otherColumn)) ∧
      HangsOn (join.table.aliasName :: visible) rest

theorem HangsOn.mono : ∀ {joins : List Sql.Join} {visible visible' : List String},
    HangsOn visible joins → visible ⊆ visible' → HangsOn visible' joins
  | [], _, _, _, _ => trivial
  | _ :: _, _, _, ⟨⟨kind, table, a, column, other, otherColumn, ho, hj⟩, h⟩, hv =>
    ⟨⟨kind, table, a, column, other, otherColumn, hv ho, hj⟩,
      h.mono (List.cons_subset_cons _ hv)⟩

theorem HangsOn.append : ∀ {joins : List Sql.Join} {visible : List String} {added : List Sql.Join},
    HangsOn visible joins → HangsOn (joins.map (·.table.aliasName) ++ visible) added →
      HangsOn visible (joins ++ added)
  | [], _, _, _, h => h
  | join :: joins, visible, added, ⟨hj, hjs⟩, h => by
    refine ⟨hj, hjs.append (h.mono ?_)⟩
    intro a ha
    simp only [List.map_cons, List.cons_append, List.mem_cons, List.mem_append] at ha ⊢
    grind

theorem HangsOn.left : ∀ {joins : List Sql.Join} {visible : List String} {added : List Sql.Join},
    HangsOn visible (joins ++ added) → HangsOn visible joins
  | [], _, _, _ => trivial
  | _ :: _, _, _, ⟨hj, hjs⟩ => ⟨hj, hjs.left⟩

/-- What a scope keeps while the names in `outer` are seen around it. -/
structure Scope.Sound (outer : List String) (scope : Scope) : Prop where
  bindings : ∀ b ∈ scope.bindings, scope.Holds b.2.item b.2.aliasName
  pathJoins : ∀ p ∈ scope.pathJoins, ∃ item, scope.Holds item p.1.1 ∧ scope.Holds item p.2
  joins : ∀ table ∈ scope.tables, HangsOn (table.root.aliasName :: outer) table.joins
  owners : ∀ owner ∈ scope.owners, owner.1 ∈ scope.names

theorem Scope.Sound.mono {scope : Scope} {outer outer' : List String} (h : scope.Sound outer)
    (ho : outer ⊆ outer') : scope.Sound outer' :=
  ⟨h.bindings, h.pathJoins,
    fun table ht => (h.joins table ht).mono (List.cons_subset_cons _ ho), h.owners⟩

/-- Each scope is sound inside those after it. -/
def ScopesSound : List Scope → Prop
  | [] => True
  | scope :: rest => scope.Sound (rest.flatMap Scope.names) ∧ ScopesSound rest

structure LoweringState.Sound (s : LoweringState) : Prop where
  allotted : ∀ a ∈ s.names, Allotted 0 s.nextAlias a
  nodup : s.names.Nodup
  scopes : ScopesSound s.scopes

theorem ScopesSound.get : ∀ {scopes : List Scope} {depth : Nat} {scope : Scope},
    ScopesSound scopes → scopes[depth]? = some scope →
      scope.Sound ((scopes.drop (depth + 1)).flatMap Scope.names)
  | [], _, _, _, h => by simp at h
  | first :: rest, 0, scope, ⟨hf, _⟩, h => by
    obtain rfl : first = scope := by simpa using h
    exact hf
  | first :: rest, depth + 1, scope, ⟨_, hr⟩, h => hr.get (by simpa using h)

/-! ## Growth -/

/-- The names that a scope gains are allotted from `lo` on and before `hi`. The target of an update
or delete gains none. -/
structure ScopeGrows (lo hi : Nat) (scope scope' : Scope) : Prop where
  subset : scope.names ⊆ scope'.names
  gained : ∀ a ∈ scope'.names, a ∈ scope.names ∨ Allotted lo hi a
  allows : scope'.allowsPathJoins = scope.allowsPathJoins
  grouped : scope'.isGrouped = scope.isGrouped
  closed : scope.allowsPathJoins = false → scope'.names ⊆ scope.names

/-- Scopes stay open and gain only names that are new. -/
structure Grows (s t : LoweringState) : Prop where
  nextAlias : s.nextAlias ≤ t.nextAlias
  scopes : List.Forall₂ (ScopeGrows s.nextAlias t.nextAlias) s.scopes t.scopes

theorem forall₂_modify {α : Type} {R : α → α → Prop} {g : α → α} (hr : ∀ x, R x x) :
    ∀ {l : List α} {i : Nat} {x : α}, l[i]? = some x → R x (g x) →
      List.Forall₂ R l (l.modify i g)
  | [], _, _, h, _ => by simp at h
  | y :: l, 0, x, h, hg => by
    obtain rfl : y = x := by simpa using h
    exact .cons hg (List.forall₂_same.2 fun x _ => hr x)
  | y :: l, i + 1, x, h, hg => .cons (hr y) (forall₂_modify hr (by simpa using h) hg)

theorem flatMap_subset_of_forall₂ {α β : Type} {f : α → List β} {l l' : List α}
    (h : List.Forall₂ (fun x y => f x ⊆ f y) l l') : l.flatMap f ⊆ l'.flatMap f := by
  induction h with
  | nil => exact List.Subset.refl _
  | cons hxy _ ih =>
    simp only [List.flatMap_cons, List.append_subset]
    exact ⟨List.subset_append_of_subset_left _ hxy, List.subset_append_of_subset_right _ ih⟩

theorem forall₂_trans {α β γ : Type} {P : α → β → Prop} {Q : β → γ → Prop} {R : α → γ → Prop}
    (hr : ∀ x y z, P x y → Q y z → R x z) : ∀ {l : List α} {l' : List β} {l'' : List γ},
      List.Forall₂ P l l' → List.Forall₂ Q l' l'' → List.Forall₂ R l l''
  | _, _, _, .nil, .nil => .nil
  | _, _, _, .cons hp hps, .cons hq hqs => .cons (hr _ _ _ hp hq) (forall₂_trans hr hps hqs)

theorem forall₂_getElem? {α β : Type} {R : α → β → Prop} {l : List α} {l' : List β}
    (h : List.Forall₂ R l l') {i : Nat} {x : α} (hx : l[i]? = some x) :
    ∃ y, l'[i]? = some y ∧ R x y := by
  obtain ⟨hi, rfl⟩ := List.getElem?_eq_some_iff.1 hx
  have hi' : i < l'.length := h.length_eq ▸ hi
  exact ⟨l'[i], List.getElem?_eq_getElem hi', h.get hi hi'⟩

namespace ScopeGrows

variable {lo mid hi : Nat} {scope scope' scope'' : Scope}

theorem refl (scope : Scope) : ScopeGrows lo hi scope scope :=
  ⟨List.Subset.refl _, fun _ h => .inl h, rfl, rfl, fun _ => List.Subset.refl _⟩

theorem trans (h : ScopeGrows lo mid scope scope') (h' : ScopeGrows mid hi scope' scope'')
    (hlo : lo ≤ mid) (hhi : mid ≤ hi) : ScopeGrows lo hi scope scope'' where
  subset := List.Subset.trans h.subset h'.subset
  gained a ha := by
    rcases h'.gained a ha with ha | ha
    · exact (h.gained a ha).imp_right fun ha => ha.mono (Nat.le_refl _) hhi
    · exact .inr (ha.mono hlo (Nat.le_refl _))
  allows := h'.allows.trans h.allows
  grouped := h'.grouped.trans h.grouped
  closed hc := List.Subset.trans (h'.closed (h.allows.trans hc)) (h.closed hc)

end ScopeGrows

theorem mem_flatMap_of_grows {lo hi : Nat} {l l' : List Scope}
    (h : List.Forall₂ (ScopeGrows lo hi) l l') {a : String} (ha : a ∈ l'.flatMap Scope.names) :
    a ∈ l.flatMap Scope.names ∨ Allotted lo hi a := by
  induction h with
  | nil => simp at ha
  | cons hxy _ ih =>
    simp only [List.flatMap_cons, List.mem_append] at ha ⊢
    rcases ha with ha | ha
    · exact (hxy.gained a ha).imp_left .inl
    · exact (ih ha).imp_left .inr

namespace Grows

variable {s t u : LoweringState}

theorem refl (s : LoweringState) : Grows s s :=
  ⟨Nat.le_refl _, List.forall₂_same.2 fun scope _ => ScopeGrows.refl scope⟩

theorem trans (h : Grows s t) (h' : Grows t u) : Grows s u := by
  refine ⟨Nat.le_trans h.nextAlias h'.nextAlias, forall₂_trans ?_ h.scopes h'.scopes⟩
  intro _ _ _ h₁ h₂
  exact h₁.trans h₂ h.nextAlias h'.nextAlias

theorem names_subset (h : Grows s t) : s.names ⊆ t.names :=
  flatMap_subset_of_forall₂ (h.scopes.imp fun _ _ h => h.subset)

theorem mem_names (h : Grows s t) {a : String} (ha : a ∈ t.names) :
    a ∈ s.names ∨ Allotted s.nextAlias t.nextAlias a :=
  mem_flatMap_of_grows h.scopes ha

end Grows

theorem ScopesSound.modify {change : Scope → Scope} : ∀ {scopes : List Scope} {depth : Nat}
    {scope : Scope}, ScopesSound scopes → scopes[depth]? = some scope →
      scope.names ⊆ (change scope).names →
      (change scope).Sound ((scopes.drop (depth + 1)).flatMap Scope.names) →
      ScopesSound (scopes.modify depth change)
  | [], _, _, _, h, _, _ => by simp at h
  | first :: rest, 0, scope, ⟨_, hr⟩, h, _, hs => by
    obtain rfl : first = scope := by simpa using h
    exact ⟨hs, hr⟩
  | first :: rest, depth + 1, scope, ⟨hf, hr⟩, h, hn, hs => by
    have h' : rest[depth]? = some scope := by simpa using h
    refine ⟨hf.mono (flatMap_subset_of_forall₂ ?_), hr.modify h' hn hs⟩
    exact forall₂_modify (R := fun x y => x.names ⊆ y.names)
      (fun _ => List.Subset.refl _) h' hn

/-- The innermost scope is that of a query, and not that of an update or delete. -/
def LoweringState.InQuery (s : LoweringState) : Prop :=
  ∃ scope, s.scopes[0]? = some scope ∧ scope.allowsPathJoins = true

theorem Grows.inQuery {s t : LoweringState} (h : Grows s t) (hq : s.InQuery) : t.InQuery := by
  obtain ⟨scope, hd, ha⟩ := hq
  have hscopes := h.scopes
  cases hs : s.scopes with
  | nil => simp [hs] at hd
  | cons first rest =>
    obtain rfl : first = scope := by simpa [hs] using hd
    rw [hs] at hscopes
    obtain ⟨scope', rest', hgrows, -, ht⟩ := List.forall₂_cons_left_iff.1 hscopes
    exact ⟨scope', by simp [ht], hgrows.allows.trans ha⟩

/-! ## Changes to a scope -/

/-- A step leaves the scopes sound, and they gain only names that are new. -/
structure Keeps (s t : LoweringState) : Prop where
  sound : t.Sound
  grows : Grows s t

namespace Keeps

variable {s t u : LoweringState}

theorem refl (hs : s.Sound) : Keeps s s := ⟨hs, Grows.refl s⟩

theorem trans (h : Keeps s t) (h' : Keeps t u) : Keeps s u := ⟨h'.sound, h.grows.trans h'.grows⟩

/-- Aliases that no scope gets. -/
theorem skip (hs : s.Sound) {n : Nat} (hn : s.nextAlias ≤ n) :
    Keeps s { s with nextAlias := n } where
  sound := ⟨fun a ha => (hs.allotted a ha).mono (Nat.le_refl _) hn, hs.nodup, hs.scopes⟩
  grows := ⟨hn, List.forall₂_same.2 fun scope _ => ScopeGrows.refl scope⟩

/-- A change that adds tables to a scope of a query, under aliases that have been allotted. -/
theorem change (hs : s.Sound) {n depth : Nat} {scope : Scope} (change : Scope → Scope)
    (added : List String) (hd : s.scopes[depth]? = some scope)
    (hopen : scope.allowsPathJoins = true) (hchange : (change scope).allowsPathJoins = true)
    (hgrouped : (change scope).isGrouped = scope.isGrouped)
    (hn : s.nextAlias ≤ n)
    (hnodup : added.Nodup) (hnew : ∀ a ∈ added, Allotted s.nextAlias n a)
    (hperm : (change scope).names.Perm (added ++ scope.names))
    (hsound : (change scope).Sound ((s.scopes.drop (depth + 1)).flatMap Scope.names)) :
    Keeps s ⟨n, s.scopes.modify depth change⟩ := by
  have hnames : (LoweringState.mk n (s.scopes.modify depth change)).names.Perm
      (added ++ s.names) := flatMap_modify_perm hd hperm
  have hsub : scope.names ⊆ (change scope).names := fun a ha =>
    hperm.mem_iff.2 (List.mem_append_right _ ha)
  refine ⟨⟨fun a ha => ?_, hnames.nodup_iff.2 (List.nodup_append'.2 ⟨hnodup, hs.nodup, ?_⟩),
    hs.scopes.modify hd hsub hsound⟩, hn, forall₂_modify ScopeGrows.refl hd
      ⟨hsub, fun a ha => ?_, hchange.trans hopen.symm, hgrouped, by simp [hopen]⟩⟩
  · rcases List.mem_append.1 (hnames.mem_iff.1 ha) with ha | ha
    · exact (hnew a ha).mono (Nat.zero_le _) (Nat.le_refl _)
    · exact (hs.allotted a ha).mono (Nat.le_refl _) hn
  · intro a ha ha'
    exact (hs.allotted a ha').ne (hnew a ha) rfl
  · exact (List.mem_append.1 (hperm.mem_iff.1 ha)).symm.imp_right (hnew a)

end Keeps

/-! ## Entering and leaving a query -/

theorem LoweringState.Sound.start : LoweringState.Sound {} :=
  ⟨fun _ ha => absurd ha List.not_mem_nil, List.nodup_nil, trivial⟩

theorem LoweringState.Sound.enter {s : LoweringState} (hs : s.Sound) (isGrouped : Bool) :
    (s.enter isGrouped).Sound where
  allotted := hs.allotted
  nodup := hs.nodup
  scopes := by
    refine ⟨⟨?_, ?_, ?_, ?_⟩, hs.scopes⟩ <;> simp

namespace Keeps

variable {s t : LoweringState} {isGrouped : Bool} {scope : Scope}

theorem leave (h : Keeps (s.enter isGrouped) { t with scopes := scope :: t.scopes }) :
    Keeps s t := by
  obtain _ | ⟨-, hscopes⟩ := h.grows.scopes
  have hnames := (List.nodup_append'.1 h.sound.nodup).2.1
  exact ⟨⟨fun a ha => h.sound.allotted a (List.mem_append_right _ ha), hnames, h.sound.scopes.2⟩,
    h.grows.nextAlias, hscopes⟩

/-- The scope of a query that is left. -/
theorem grows_head (h : Keeps (s.enter isGrouped) { t with scopes := scope :: t.scopes }) :
    ScopeGrows s.nextAlias t.nextAlias { isGrouped } scope := by
  obtain _ | ⟨hscope, -⟩ := h.grows.scopes
  exact hscope

end Keeps

/-! ## Walking along paths -/

/-- The place is at a table of its scope. -/
def Place.StandsIn (place : Place) (s : LoweringState) : Prop :=
  ∃ scope, s.scopes[place.depth]? = some scope ∧ scope.Holds place.item place.aliasName

theorem Place.StandsIn.mem_names {place : Place} {s : LoweringState} (h : place.StandsIn s) :
    place.aliasName ∈ s.names := by
  obtain ⟨scope, hs, ha⟩ := h
  exact Scope.mem_state_names hs ha.mem_names

variable {c : LoweringContext} {s t : LoweringState}

theorem index_eq_of_nodup_flatMap {α β : Type} {f : α → List β} {l : List α} {i j : Nat} {x y : α}
    {b : β} (hn : (l.flatMap f).Nodup) (hi : l[i]? = some x) (hj : l[j]? = some y) (hx : b ∈ f x)
    (hy : b ∈ f y) : i = j := by
  have hp := (List.nodup_flatMap.1 hn).2
  obtain ⟨hil, rfl⟩ := List.getElem?_eq_some_iff.1 hi
  obtain ⟨hjl, rfl⟩ := List.getElem?_eq_some_iff.1 hj
  rcases Nat.lt_trichotomy i j with h | h | h
  · exact absurd hy (List.pairwise_iff_getElem.1 hp i j hil hjl h hx)
  · exact h
  · exact absurd hx (List.pairwise_iff_getElem.1 hp j i hjl hil h hy)

/-- An alias stands at one table only. -/
theorem Scope.Holds.unique {scope : Scope} {i j : Nat} {a : String} (hn : scope.names.Nodup)
    (hi : scope.Holds i a) (hj : scope.Holds j a) : i = j := by
  obtain ⟨_, hi, ha⟩ := hi
  obtain ⟨_, hj, ha'⟩ := hj
  exact index_eq_of_nodup_flatMap hn hi hj ha ha'

theorem LoweringState.Sound.names_nodup (hs : s.Sound) {depth : Nat} {scope : Scope}
    (h : s.scopes[depth]? = some scope) : scope.names.Nodup :=
  (List.nodup_flatMap.1 hs.nodup).1 scope (List.mem_of_getElem? h)

theorem Scope.Sound.extend {scope : Scope} {outer : List String} {item : Nat} {table : FromItem}
    (h : scope.Sound outer) (ht : scope.tables[item]? = some table) {joins : List Sql.Join}
    (hj : HangsOn (table.names ++ outer) joins) : (scope.extend item joins).Sound outer where
  bindings b hb := (h.bindings b hb).extend item
  pathJoins p hp := by
    obtain ⟨i, h₁, h₂⟩ := h.pathJoins p hp
    exact ⟨i, h₁.extend item, h₂.extend item⟩
  joins t ht' := by
    obtain ⟨i, hi⟩ := List.mem_iff_getElem?.1 ht'
    rw [Scope.extend, List.getElem?_modify] at hi
    split at hi
    case isTrue heq =>
      subst heq
      obtain rfl : t = table.extend joins := by simpa [ht, eq_comm] using hi
      refine (h.joins table (List.mem_of_getElem? ht)).append (hj.mono ?_)
      intro a ha
      simp only [FromItem.names, List.mem_append, List.mem_cons] at ha ⊢
      grind
    case isFalse =>
      exact h.joins t (List.mem_of_getElem? (by simpa using hi))
  owners owner ho :=
    (Scope.names_extend_perm ht).mem_iff.2 (List.mem_append_right _ (h.owners owner ho))

theorem joinAlong_keeps {place : Place} {association : Mapping.ToOne} {target : Mapping.Entity}
    {aliasName : String} (hs : s.Sound) (hp : place.StandsIn s)
    (h : joinAlong c place association target s = .ok (aliasName, t)) :
    Keeps s t ∧ Place.StandsIn { place with entity := target, aliasName } t := by
  obtain ⟨scope', hd', ha⟩ := hp
  obtain ⟨scope, hd, hopen, ⟨hl, rfl⟩ | ⟨-, ⟨table, ht⟩, rfl, rfl⟩⟩ := joinAlong_ok_iff.1 h
  all_goals obtain rfl : scope = scope' := by simpa [hd] using hd'
  · obtain ⟨i, h₁, h₂⟩ := (hs.scopes.get hd).pathJoins _ (mem_of_lookup hl)
    obtain rfl : place.item = i := ha.unique (hs.names_nodup hd) h₁
    exact ⟨Keeps.refl hs, scope, hd, h₂⟩
  · obtain ⟨table', ht', hmem⟩ := id ha
    obtain rfl : table = table' := by simpa [ht] using ht'
    have hold : (scope.extend place.item [associationJoin place association target s.fresh]).Sound
        ((s.scopes.drop (place.depth + 1)).flatMap Scope.names) :=
      (hs.scopes.get hd).extend ht
        ⟨⟨_, _, _, _, _, _, List.mem_append_left _ hmem, rfl⟩, trivial⟩
    have hnew : (scope.extend place.item
        [associationJoin place association target s.fresh]).Holds place.item s.fresh :=
      Scope.holds_extend ht (List.mem_singleton.2 rfl)
    refine ⟨Keeps.change hs _ [s.fresh] hd hopen hopen rfl (Nat.le_succ _)
      (List.nodup_singleton _) ?_
      (Scope.names_extend_perm ht) ⟨hold.bindings, ?_, hold.joins, hold.owners⟩, ?_⟩
    · simpa using s.fresh_allotted
    · rintro p (_ | ⟨_, hp⟩)
      · exact ⟨place.item, ha.extend _, hnew⟩
      · exact hold.pathJoins p hp
    · exact ⟨_, s.allot.get_modifyScope hd _, hnew⟩

theorem walk_keeps {path : Path} : ∀ {names : List String} {place place' : Place}
    {s t : LoweringState}, s.Sound → place.StandsIn s →
      walk c path place names s = .ok (place', t) → Keeps s t ∧ place'.StandsIn t
  | [], _, _, _, _, hs, hp, h => by
    obtain ⟨rfl, rfl⟩ := Prod.mk.inj (Lower.pure_ok_iff.1 h)
    exact ⟨Keeps.refl hs, hp⟩
  | name :: rest, _, _, _, _, hs, hp, h => by
    simp only [walk, Lower.bind_ok_iff] at h
    obtain ⟨next, _, hstep, h⟩ := h
    obtain ⟨_, _, _, -, -, hj, rfl⟩ := step_ok_iff.1 hstep
    obtain ⟨hk, hp⟩ := joinAlong_keeps hs hp hj
    obtain ⟨hk', hp⟩ := walk_keeps hk.sound hp h
    exact ⟨hk.trans hk', hp⟩

theorem navigate_keeps {path : Path} {steps : Nat} {place : Place} (hs : s.Sound)
    (h : navigate c path steps s = .ok (place, t)) : Keeps s t ∧ place.StandsIn t := by
  obtain ⟨depth, binding, hf, h⟩ := navigate_ok_iff.1 h
  obtain ⟨scope, hd, hb⟩ := mem_of_findBinding hf
  exact walk_keeps hs ⟨scope, hd, (hs.scopes.get hd).bindings _ hb⟩ h

/-! ## Values of paths -/

/-- A column of a table that is open. -/
def IsOpenColumn (s : LoweringState) (e : Sql.Expression) : Prop :=
  ∃ aliasName ∈ s.names, ∃ column, e = .of aliasName column

theorem Place.StandsIn.column {place : Place} (h : place.StandsIn s) (name : String) :
    IsOpenColumn s (place.column name) :=
  ⟨place.aliasName, h.mem_names, name, rfl⟩

theorem IsOpenColumn.mono {e : Sql.Expression} (h : IsOpenColumn s e) (hg : Grows s t) :
    IsOpenColumn t e := by
  obtain ⟨a, ha, column, rfl⟩ := h
  exact ⟨a, hg.names_subset ha, column, rfl⟩

theorem propertyColumn_keeps {path : Path} {name : String} {steps : Nat} {e : Sql.Expression}
    (hs : s.Sound) (h : propertyColumn c path name steps s = .ok (e, t)) :
    Keeps s t ∧ IsOpenColumn t e := by
  simp only [propertyColumn, Lower.bind_ok_iff, Lower.property_ok_iff] at h
  obtain ⟨place, _, hn, property, _, ⟨-, rfl⟩, h⟩ := h
  obtain ⟨hk, hp⟩ := navigate_keeps hs hn
  cases property with
  | basic a =>
    obtain ⟨rfl, rfl⟩ := Prod.mk.inj (Lower.pure_ok_iff.1 h)
    exact ⟨hk, hp.column _⟩
  | toOne association =>
    obtain ⟨rfl, rfl⟩ := Prod.mk.inj (Lower.pure_ok_iff.1 h)
    exact ⟨hk, hp.column _⟩
  | toMany collection => simp at h

theorem foreignKey?_keeps {path : Path} {owner name : String} {steps : Nat}
    {found : Option Sql.Expression} (hs : s.Sound)
    (h : foreignKey? c path owner name steps s = .ok (found, t)) :
    Keeps s t ∧ ∀ e ∈ found, IsOpenColumn t e := by
  simp only [foreignKey?, Lower.bind_ok_iff, Lower.property_ok_iff] at h
  obtain ⟨place, _, hn, property, _, ⟨-, rfl⟩, h⟩ := h
  obtain ⟨hk, hp⟩ := navigate_keeps hs hn
  cases property with
  | toOne association =>
    simp only [Lower.bind_ok_iff, Lower.entity_ok_iff] at h
    obtain ⟨target, _, ⟨-, rfl⟩, h⟩ := h
    split at h <;> obtain ⟨rfl, rfl⟩ := Prod.mk.inj (Lower.pure_ok_iff.1 h)
    · exact ⟨hk, by simpa using hp.column _⟩
    · exact ⟨hk, by simp⟩
  | basic a =>
    obtain ⟨rfl, rfl⟩ := Prod.mk.inj (Lower.pure_ok_iff.1 h)
    exact ⟨hk, by simp⟩
  | toMany collection =>
    obtain ⟨rfl, rfl⟩ := Prod.mk.inj (Lower.pure_ok_iff.1 h)
    exact ⟨hk, by simp⟩

theorem resolve_keeps {path : Path} {e : Sql.Expression} (hs : s.Sound)
    (h : resolve c path s = .ok (e, t)) : Keeps s t ∧ IsOpenColumn t e := by
  rcases hr : path.properties.reverse with _ | ⟨name, _ | ⟨owner, rest⟩⟩
  all_goals simp only [resolve, hr] at h
  · simp only [Lower.bind_ok_iff, Lower.pure_ok_iff, Prod.mk.injEq] at h
    obtain ⟨place, _, hn, rfl, rfl⟩ := h
    obtain ⟨hk, hp⟩ := navigate_keeps hs hn
    exact ⟨hk, hp.column _⟩
  · exact propertyColumn_keeps hs h
  · simp only [Lower.bind_ok_iff] at h
    obtain ⟨found, _, hf, h⟩ := h
    obtain ⟨hk, hc⟩ := foreignKey?_keeps hs hf
    cases found with
    | some column =>
      obtain ⟨rfl, rfl⟩ := Prod.mk.inj (Lower.pure_ok_iff.1 h)
      exact ⟨hk, hc _ rfl⟩
    | none =>
      obtain ⟨hk', hc'⟩ := propertyColumn_keeps hk.sound h
      exact ⟨hk.trans hk', hc'⟩

theorem entityColumns_keeps {path : Path} {columns : List Sql.Expression} (hs : s.Sound)
    (h : entityColumns c path s = .ok (columns, t)) :
    Keeps s t ∧ ∀ e ∈ columns, IsOpenColumn t e := by
  simp only [entityColumns, Lower.bind_ok_iff, Lower.pure_ok_iff, Prod.mk.injEq] at h
  obtain ⟨place, _, hn, rfl, rfl⟩ := h
  obtain ⟨hk, hp⟩ := navigate_keeps hs hn
  refine ⟨hk, ?_⟩
  simp only [List.cons_append, List.mem_cons, List.mem_append, List.mem_map]
  rintro e (rfl | ⟨a, -, rfl⟩ | ⟨a, -, rfl⟩) <;> exact hp.column _

/-! ## Roots and joins -/

/-- Joins that go out from an alias, under aliases that have just been allotted for them. -/
structure GoesOut (s t : LoweringState) (start aliasName : String) (joins : List Sql.Join) :
    Prop where
  scopes : t.scopes = s.scopes
  nextAlias : s.nextAlias ≤ t.nextAlias
  hangs : HangsOn [start] joins
  nodup : (joins.map (·.table.aliasName)).Nodup
  allotted : ∀ a ∈ joins.map (·.table.aliasName), Allotted s.nextAlias t.nextAlias a
  target : ∃ join ∈ joins, join.table.aliasName = aliasName

theorem goesOut_single {kind : JoinKind} {table column start other : String} :
    GoesOut s s.allot start s.fresh [equiJoin kind table s.fresh column (.of start other)] where
  scopes := rfl
  nextAlias := Nat.le_succ _
  hangs := ⟨⟨_, _, _, _, _, _, List.mem_singleton.2 rfl, rfl⟩, trivial⟩
  nodup := List.nodup_singleton _
  allotted := by simpa [equiJoin] using s.fresh_allotted
  target := ⟨_, List.mem_singleton.2 rfl, rfl⟩

theorem joinsTo_goesOut {join : PathJoin} {place : Place} {property : Mapping.Property}
    {entity : Mapping.Entity} {aliasName : String} {joins : List Sql.Join}
    (h : joinsTo c join place property s = .ok ((entity, aliasName, joins), t)) :
    GoesOut s t place.aliasName aliasName joins := by
  rcases joinsTo_ok h with ⟨association, -, -, rfl, rfl, rfl⟩ |
    ⟨collection, -, -, ⟨column, -, rfl, rfl, rfl⟩ |
      ⟨table, ownerColumn, elementColumn, -, rfl, rfl, rfl⟩⟩
  · exact goesOut_single
  · exact goesOut_single
  · have hlink := s.fresh_allotted
    have htarget := s.allot.fresh_allotted
    refine ⟨rfl, Nat.le_add_right _ 2, ⟨⟨_, _, _, _, _, _, List.mem_singleton.2 rfl, rfl⟩,
      ⟨_, _, _, _, _, _, List.mem_cons_self, rfl⟩, trivial⟩, ?_, ?_,
      ⟨_, List.mem_cons_of_mem _ (List.mem_singleton.2 rfl), rfl⟩⟩
    · simpa [equiJoin] using hlink.ne htarget
    · simp only [equiJoin, List.map_cons, List.map_nil, List.forall_mem_cons]
      exact ⟨hlink.mono (Nat.le_refl _) (Nat.le_succ _),
        htarget.mono (Nat.le_succ _) (Nat.le_refl _), by simp⟩

theorem Scope.Sound.bind {scope : Scope} {outer : List String} (h : scope.Sound outer)
    (name : String) {binding : Binding} (hb : scope.Holds binding.item binding.aliasName) :
    (scope.bind name binding).Sound outer where
  bindings := by
    rintro b (_ | ⟨_, hb'⟩)
    · exact hb
    · exact h.bindings b hb'
  pathJoins := h.pathJoins
  joins := h.joins
  owners := h.owners

theorem lowerJoin_keeps {join : PathJoin} (hs : s.Sound) (hq : s.InQuery)
    (h : lowerJoin c join s = .ok ((), t)) : Keeps s t := by
  rcases hp : join.path.properties with _ | ⟨name, _ | ⟨_, _⟩⟩
  all_goals simp only [lowerJoin, hp, Lower.malformed_ok_iff] at h
  simp only [Lower.bind_ok_iff, Lower.property_ok_iff, Lower.addJoins_ok_iff,
    Lower.bindVariable_ok_iff] at h
  obtain ⟨place, u, hn, property, _, ⟨-, rfl⟩, ⟨entity, aliasName, joins⟩, v, hj, _, _,
    ⟨⟨scope, table, hd, ht⟩, rfl⟩, rfl⟩ := h
  obtain ⟨hk, scope', hd', hplace⟩ := navigate_keeps hs hn
  have hj := joinsTo_goesOut hj
  rw [hj.scopes] at hd
  obtain ⟨scope₀, hd₀, hopen⟩ := hk.grows.inQuery hq
  obtain rfl : scope = scope₀ := by simpa [hd] using hd₀
  refine hk.trans ?_
  have hstart : place.aliasName ∈ table.names ++ (u.scopes.drop 1).flatMap Scope.names := by
    cases hdepth : place.depth with
    | zero =>
      obtain ⟨table', ht', ha⟩ := hplace
      rw [hdepth, hd] at hd'
      obtain rfl : scope = scope' := by simpa using hd'
      obtain rfl : table = table' := by simpa [ht] using ht'
      exact List.mem_append_left _ ha
    | succ depth =>
      rw [hdepth] at hd'
      refine List.mem_append_right _ (List.mem_flatMap.2 ⟨scope', ?_, hplace.mem_names⟩)
      exact List.mem_of_getElem? (i := depth) (by simpa [Nat.add_comm] using hd')
  have htarget : (scope.extend place.item joins).Holds place.item aliasName := by
    obtain ⟨j, hmem, rfl⟩ := hj.target
    exact Scope.holds_extend ht hmem
  rw [LoweringState.modifyScope_modifyScope, LoweringState.modifyScope, hj.scopes]
  refine Keeps.change hk.sound _ _ hd hopen hopen rfl hj.nextAlias hj.nodup hj.allotted
    (Scope.names_extend_perm ht) (Scope.Sound.bind ?_ join.aliasName htarget)
  exact (hk.sound.scopes.get hd).extend ht (hj.hangs.mono (by simpa using hstart))

theorem lowerJoins_keeps : ∀ {joins : List PathJoin} {s t : LoweringState}, s.Sound →
    s.InQuery → lowerJoins c joins s = .ok ((), t) → Keeps s t
  | [], _, _, hs, _, h => by
    obtain ⟨-, rfl⟩ := Prod.mk.inj (Lower.pure_ok_iff.1 h)
    exact Keeps.refl hs
  | join :: rest, _, _, hs, hq, h => by
    simp only [lowerJoins, Lower.bind_ok_iff] at h
    obtain ⟨_, _, hj, h⟩ := h
    have hk := lowerJoin_keeps hs hq hj
    exact hk.trans (lowerJoins_keeps hk.sound (hk.grows.inQuery hq) h)

theorem Scope.Sound.addTable {scope : Scope} {outer : List String} {table : TableReference}
    (h : scope.Sound outer) : (scope.addTable { root := table }).Sound outer := by
  have hold {item : Nat} {a : String} (ha : scope.Holds item a) :
      (scope.addTable { root := table }).Holds item a := by
    obtain ⟨t, ht, ha⟩ := ha
    exact ⟨t, (List.getElem?_append_left (List.getElem?_eq_some_iff.1 ht).1).trans ht, ha⟩
  refine ⟨fun b hb => hold (h.bindings b hb), fun p hp => ?_, fun t ht => ?_, fun o ho => ?_⟩
  · obtain ⟨item, h₁, h₂⟩ := h.pathJoins p hp
    exact ⟨item, hold h₁, hold h₂⟩
  · rcases List.mem_append.1 ht with ht | ht
    · exact h.joins t ht
    · obtain rfl := List.mem_singleton.1 ht
      trivial
  · obtain ⟨t, ht, ha⟩ := List.mem_flatMap.1 (h.owners o ho)
    exact List.mem_flatMap.2 ⟨t, List.mem_append_left _ ht, ha⟩

/-! Joins hang on tables that are there, so that a new root gets the number that it is bound to. -/

def LoweringState.sizes (s : LoweringState) : List Nat := s.scopes.map (·.tables.length)

theorem LoweringState.sizes_modifyScope {depth : Nat} {change : Scope → Scope}
    (h : ∀ scope, (change scope).tables.length = scope.tables.length) :
    (s.modifyScope depth change).sizes = s.sizes := by
  simp only [sizes, modifyScope_scopes]
  refine List.ext_getElem (by simp) fun i _ _ => ?_
  simp only [List.getElem_map, List.getElem_modify]
  split
  · exact h _
  · rfl

theorem walk_sizes {path : Path} : ∀ {names : List String} {place place' : Place}
    {s t : LoweringState}, walk c path place names s = .ok (place', t) → t.sizes = s.sizes
  | [], _, _, _, _, h => by
    obtain ⟨rfl, rfl⟩ := Prod.mk.inj (Lower.pure_ok_iff.1 h)
    rfl
  | name :: rest, _, _, s, _, h => by
    simp only [walk, Lower.bind_ok_iff] at h
    obtain ⟨next, u, hstep, h⟩ := h
    obtain ⟨_, _, _, -, -, hj, rfl⟩ := step_ok_iff.1 hstep
    obtain ⟨_, _, -, ⟨-, rfl⟩ | ⟨-, -, -, rfl⟩⟩ := joinAlong_ok_iff.1 hj
    · exact walk_sizes h
    · rw [walk_sizes h, LoweringState.sizes_modifyScope fun scope => ?_]
      · rfl
      · simp [Scope.addPathJoin, Scope.extend]

theorem lowerJoin_sizes {join : PathJoin} (h : lowerJoin c join s = .ok ((), t)) :
    t.sizes = s.sizes := by
  rcases hp : join.path.properties with _ | ⟨name, _ | ⟨_, _⟩⟩
  all_goals simp only [lowerJoin, hp, Lower.malformed_ok_iff] at h
  simp only [Lower.bind_ok_iff, Lower.property_ok_iff, Lower.addJoins_ok_iff,
    Lower.bindVariable_ok_iff] at h
  obtain ⟨place, u, hn, property, _, ⟨-, rfl⟩, ⟨entity, aliasName, joins⟩, v, hj, _, _,
    ⟨-, rfl⟩, rfl⟩ := h
  obtain ⟨_, _, -, hw⟩ := navigate_ok_iff.1 hn
  rw [LoweringState.modifyScope_modifyScope, LoweringState.sizes_modifyScope fun scope => ?_]
  · rw [← walk_sizes hw, LoweringState.sizes, (joinsTo_goesOut hj).scopes, LoweringState.sizes]
  · simp [Scope.bind, Scope.extend]

theorem lowerJoins_sizes : ∀ {joins : List PathJoin} {s t : LoweringState},
    lowerJoins c joins s = .ok ((), t) → t.sizes = s.sizes
  | [], _, _, h => by
    obtain ⟨-, rfl⟩ := Prod.mk.inj (Lower.pure_ok_iff.1 h)
    rfl
  | join :: rest, _, _, h => by
    simp only [lowerJoins, Lower.bind_ok_iff] at h
    obtain ⟨_, _, hj, h⟩ := h
    rw [lowerJoins_sizes h, lowerJoin_sizes hj]

/-- The state after a root has been added to the innermost scope. -/
def LoweringState.addRoot (s : LoweringState) (root : Root) (entity : Mapping.Entity) (item : Nat) :
    LoweringState :=
  s.allot.modifyScope 0 (Scope.bind root.aliasName ⟨entity, s.fresh, item⟩ ∘
    Scope.addTable { root := ⟨entity.table, s.fresh⟩ })

theorem addRoot_keeps (root : Root) (entity : Mapping.Entity) {item : Nat} (hs : s.Sound)
    (hq : s.InQuery) (hi : s.sizes.head? = some item) :
    Keeps s (s.addRoot root entity item) ∧
      (s.addRoot root entity item).sizes.head? = some (item + 1) := by
  obtain ⟨nextAlias, _ | ⟨scope, rest⟩⟩ := s
  · simp [LoweringState.sizes] at hi
  obtain rfl : scope.tables.length = item := by simpa [LoweringState.sizes] using hi
  refine ⟨?_, by simp [LoweringState.addRoot, LoweringState.sizes, Scope.bind, Scope.addTable]⟩
  have hd : (scope :: rest)[0]? = some scope := rfl
  have hopen : scope.allowsPathJoins = true := by simpa [LoweringState.InQuery] using hq
  refine Keeps.change hs _ [LoweringState.fresh ⟨nextAlias, scope :: rest⟩] hd hopen hopen
    rfl (Nat.le_succ _) (List.nodup_singleton _) ?_ ?_
    (hs.scopes.1.addTable.bind root.aliasName ?_)
  · exact List.forall_mem_singleton.2 (LoweringState.fresh_allotted _)
  · simp [Scope.names, Scope.bind, Scope.addTable, FromItem.names]
  · exact ⟨_, List.getElem?_concat_length, List.mem_singleton.2 rfl⟩

theorem lowerRoots_keeps : ∀ {roots : List Root} {item : Nat} {s t : LoweringState}, s.Sound →
    s.InQuery → s.sizes.head? = some item → lowerRoots c item roots s = .ok ((), t) → Keeps s t
  | [], _, _, _, hs, _, _, h => by
    obtain ⟨-, rfl⟩ := Prod.mk.inj (Lower.pure_ok_iff.1 h)
    exact Keeps.refl hs
  | root :: rest, item, s, t, hs, hq, hi, h => by
    simp only [lowerRoots, Lower.bind_ok_iff, Lower.entity_ok_iff, Lower.freshAlias_ok_iff,
      Lower.addTable_ok_iff, Lower.bindVariable_ok_iff, Prod.mk.injEq] at h
    obtain ⟨entity, _, ⟨-, rfl⟩, _, _, ⟨rfl, rfl⟩, _, _, rfl, _, _, rfl, _, u, hj, h⟩ := h
    rw [LoweringState.modifyScope_modifyScope] at hj
    obtain ⟨hk, hn⟩ := addRoot_keeps root entity hs hq hi
    have hkj : Keeps s u := hk.trans (lowerJoins_keeps hk.sound (hk.grows.inQuery hq) hj)
    have hnu : u.sizes.head? = some (item + 1) := by rw [lowerJoins_sizes hj]; exact hn
    exact hkj.trans (lowerRoots_keeps hkj.sound (hkj.grows.inQuery hq) hnu h)

/-! ## Sizes of collections -/

theorem countJoined_keeps {place : Place} {table ownerColumn memberColumn : String}
    {e : Sql.Expression} (hs : s.Sound) (hq : s.InQuery) (hp : place.StandsIn s)
    (h : countJoined c place table ownerColumn memberColumn s = .ok (e, t)) :
    Keeps s t ∧
      ∃ column, IsOpenColumn t column ∧ e = .aggregate .count true (some column) := by
  obtain ⟨scope, hd, -, hz, ⟨item, ht⟩, rfl, rfl⟩ := countJoined_ok h
  obtain ⟨scope', hd', ha⟩ := hp
  rw [hz, hd] at hd'
  obtain rfl : scope = scope' := by simpa using hd'
  obtain ⟨scope₀, hd₀, hopen⟩ := hq
  obtain rfl : scope = scope₀ := by simpa [hd] using hd₀
  obtain ⟨item', ht', hmem⟩ := id ha
  obtain rfl : item = item' := by simpa [ht] using ht'
  have hold : (scope.extend place.item [equiJoin .left table s.fresh ownerColumn place.id]).Sound
      ((s.scopes.drop 1).flatMap Scope.names) :=
    (hs.scopes.get hd).extend ht
      ⟨⟨_, _, _, _, _, _, List.mem_append_left _ hmem, rfl⟩, trivial⟩
  have howner : place.aliasName ∈
      (scope.extend place.item [equiJoin .left table s.fresh ownerColumn place.id]).names :=
    (ha.extend place.item).mem_names
  have hnew : s.fresh ∈
      (scope.extend place.item [equiJoin .left table s.fresh ownerColumn place.id]).names :=
    (Scope.holds_extend ht (List.mem_singleton.2 rfl)).mem_names
  refine ⟨Keeps.change hs _ [s.fresh] hd hopen hopen rfl (Nat.le_succ _)
      (List.nodup_singleton _) ?_
    (Scope.names_extend_perm ht) ⟨hold.bindings, hold.pathJoins, hold.joins, ?_⟩, ?_⟩
  · exact List.forall_mem_singleton.2 s.fresh_allotted
  · intro owner ho
    simp only [Scope.addCount] at ho
    split at ho
    · exact hold.owners owner ho
    · rcases List.mem_append.1 ho with ho | ho
      · exact hold.owners owner ho
      · obtain rfl := List.mem_singleton.1 ho
        exact howner
  · exact ⟨_, ⟨s.fresh, Scope.mem_state_names (s.allot.get_modifyScope hd _) hnew, _, rfl⟩, rfl⟩

end SqlDialects.Entity
