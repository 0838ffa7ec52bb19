import SqlDialects.Proofs.Lowering.Run
import SqlDialects.Proofs.Lowering.Visible

/-!
# What a step of the lowering tells

A step that goes well and one that fails with an internal error both say something of the statement
that is lowered: it fits, or it does not. Other errors say nothing of it.
-/

namespace SqlDialects.Entity

variable {α β : Type} {c : LoweringContext}

/-! ## Frames of states -/

def Binding.toVariable (binding : Binding) : Variable := ⟨binding.entity, binding.item⟩

def Scope.frame (scope : Scope) : Frame :=
  ⟨scope.bindings.map fun entry => (entry.1, entry.2.toVariable), scope.tables.length⟩

def LoweringState.frames (s : LoweringState) : List Frame := s.scopes.map Scope.frame

theorem lookup_frame (name : String) (bindings : List (String × Binding)) :
    (bindings.map fun entry => (entry.1, entry.2.toVariable)).lookup name =
      (bindings.lookup name).map Binding.toVariable := by
  induction bindings with
  | nil => rfl
  | cons entry rest ih =>
    rw [List.map_cons, List.lookup_cons, List.lookup_cons, ih]
    cases name == entry.1 <;> rfl

theorem findVariable_frames (name : String) (scopes : List Scope) :
    findVariable name (scopes.map Scope.frame) =
      (Lower.findBinding name scopes).map fun found => (found.1, found.2.toVariable) := by
  induction scopes with
  | nil => rfl
  | cons scope rest ih =>
    rw [List.map_cons, findVariable, Lower.findBinding, Scope.frame, lookup_frame, ih]
    cases scope.bindings.lookup name with
    | some binding => rfl
    | none => simp [Function.comp_def]

theorem map_modify_frame {change : Scope → Scope}
    (h : ∀ scope, (change scope).frame = scope.frame) :
    ∀ (scopes : List Scope) (depth : Nat),
      (scopes.modify depth change).map Scope.frame = scopes.map Scope.frame
  | [], _ => by simp
  | scope :: rest, 0 => by rw [List.modify_zero_cons, List.map_cons, h, List.map_cons]
  | scope :: rest, depth + 1 => by
    rw [List.modify_succ_cons, List.map_cons, map_modify_frame h, List.map_cons]

/-! ## What a step tells -/

namespace Lower

/-- From a state with the frames before, the step leads to one with the frames after and the
statement fits, or it fails. If the error is internal, the statement does not fit. -/
def Tells (before after : List Frame) (fits : Prop) (x : Lower α) : Prop :=
  ∀ s : LoweringState, s.frames = before →
    match x s with
    | .ok (_, t) => t.frames = after ∧ fits
    | .error e => e.isInternal = true → ¬ fits

variable {F G H : List Frame} {p q : Prop} {x : Lower α} {f : α → Lower β}

theorem Tells.iff (h : Tells F G p x) (hpq : p ↔ q) : Tells F G q x := propext hpq ▸ h

theorem tells_pure {a : α} (h : p) : Tells F F p (pure a) := fun _ hs => And.intro hs h

theorem tells_throw {e : DialectError} (h : e.isInternal = false) :
    Tells F G p (throw e : Lower α) :=
  fun _ _ hi => absurd hi (by simp [h])

theorem tells_malformed {reason : String} (h : ¬ p) : Tells F G p (malformed reason : Lower α) :=
  fun _ _ _ => h

theorem tells_malformed_bind {reason : String} (h : ¬ p) :
    Tells F G p ((malformed reason : Lower α) >>= f) :=
  fun _ _ _ => h

/-- What the first step tells is known in the next one. -/
theorem Tells.step (hx : Tells F G q x) (hp : p → q) (hf : q → ∀ a, Tells G H p (f a)) :
    Tells F H p (x >>= f) := by
  intro s hs
  have hx := hx s hs
  show match (x s).bind fun r => f r.1 r.2 with
    | .ok (_, t) => t.frames = H ∧ p
    | .error e => e.isInternal = true → ¬ p
  cases hr : x s with
  | error e =>
    simp only [hr] at hx
    exact fun hi h => hx hi (hp h)
  | ok r =>
    simp only [hr] at hx
    exact hf hx.2 r.1 r.2 hx.1

theorem Tells.bind (hx : Tells F G p x) (hf : ∀ a, Tells G H q (f a)) :
    Tells F H (p ∧ q) (x >>= f) :=
  hx.step And.left fun hp a => (hf a).iff (and_iff_right hp).symm

/-- A step that is no fault of the statement comes first. -/
theorem Tells.next (hx : Tells F G True x) (hf : ∀ a, Tells G H q (f a)) :
    Tells F H q (x >>= f) :=
  hx.step (fun _ => trivial) fun _ => hf

theorem tells_get_bind {f : LoweringState → Lower β}
    (h : ∀ s : LoweringState, s.frames = F → Tells F G p (f s)) : Tells F G p (get >>= f) :=
  fun s hs => h s hs s hs

theorem tells_lift_bind {x : Except DialectError α}
    (hx : ∀ e, x = .error e → e.isInternal = false) (hf : ∀ a, x = .ok a → Tells F G p (f a)) :
    Tells F G p (liftM x >>= f) := by
  cases x with
  | error e => exact fun _ _ hi => absurd hi (by simp [hx e rfl])
  | ok a => exact hf a rfl

theorem tells_lift {x : Except DialectError α} (hx : ∀ e, x = .error e → e.isInternal = false) :
    Tells F F True (liftM x : Lower α) := by
  rw [← bind_pure (liftM x : Lower α)]
  exact tells_lift_bind hx fun _ _ => tells_pure trivial

theorem tells_freshAlias : Tells F F True freshAlias := fun _ hs => And.intro hs trivial

theorem tells_modifyScope {depth : Nat} {change : Scope → Scope}
    (h : ∀ scope, (change scope).frame = scope.frame) :
    Tells F F True (modifyScope depth change) := by
  intro s hs
  exact And.intro ((map_modify_frame h s.scopes depth).trans hs) trivial

theorem tells_property_bind {entity : Mapping.Entity} {name : String}
    {f : Mapping.Property → Lower β}
    (hf : ∀ property, entity.property name = .ok property → Tells F G p (f property)) :
    Tells F G p (property entity name >>= f) := by
  refine tells_lift_bind (fun e he => ?_) hf
  unfold Mapping.Entity.property at he
  split at he <;> cases he
  rfl

theorem tells_push {scope : Scope} : Tells F (scope.frame :: F) True (push scope) :=
  fun _ hs => And.intro (congrArg (scope.frame :: ·) hs) trivial

theorem tells_pop {frame : Frame} : Tells (frame :: F) F True pop := by
  rintro ⟨nextAlias, scopes⟩ hs
  cases scopes with
  | nil => cases hs
  | cons scope rest => exact And.intro (List.cons.inj hs).2 trivial

theorem tells_current {frame : Frame} : Tells (frame :: F) (frame :: F) True current := by
  rintro ⟨nextAlias, scopes⟩ hs
  cases scopes with
  | nil => cases hs
  | cons scope rest => exact And.intro hs trivial

theorem tells_bind {frame : Frame} {name : String} {binding : Binding} :
    Tells (frame :: F)
      ({ frame with bindings := (name, binding.toVariable) :: frame.bindings } :: F) True
      (Lower.bind name binding) := by
  rintro ⟨nextAlias, scopes⟩ hs
  cases scopes with
  | nil => cases hs
  | cons scope rest =>
    obtain ⟨rfl, rfl⟩ := List.cons.inj hs
    exact And.intro rfl trivial

theorem tells_addTable {frame : Frame} {table : Sql.FromItem} :
    Tells (frame :: F) ({ frame with tables := frame.tables + 1 } :: F) True
      (addTable table) := by
  rintro ⟨nextAlias, scopes⟩ hs
  cases scopes with
  | nil => cases hs
  | cons scope rest =>
    obtain ⟨rfl, rfl⟩ := List.cons.inj hs
    exact And.intro (by simp [LoweringState.frames, Scope.frame]) trivial

/-- Joins hang on a table of a frame that is there. -/
theorem tells_addJoins {depth item : Nat} {joins : List Sql.Join} {missing : String} :
    Tells F F (∃ frame, F[depth]? = some frame ∧ item < frame.tables)
      (addJoins depth item joins missing) := by
  refine tells_get_bind fun s hs => ?_
  have hframe : ((s.scopes[depth]?.bind fun scope => scope.tables[item]?).isSome = true) ↔
      ∃ frame, F[depth]? = some frame ∧ item < frame.tables := by
    rw [← hs, LoweringState.frames, List.getElem?_map]
    cases s.scopes[depth]? with
    | none => simp
    | some scope => simp [Scope.frame]
  dsimp only
  split
  · next h =>
    refine (tells_modifyScope fun scope => ?_).iff (iff_of_true trivial (hframe.1 h))
    simp [Scope.frame]
  · next h => exact tells_malformed fun hf => h (hframe.2 hf)

/-- The variable that is found, or the fault of one that is not bound. -/
theorem tells_lookup_bind {name : String} {f : Nat × Binding → Lower β}
    (hp : p → ∃ depth v, findVariable name F = some (depth, v))
    (hf : ∀ depth binding, findVariable name F = some (depth, binding.toVariable) →
      Tells F G p (f (depth, binding))) : Tells F G p (lookup name >>= f) := by
  rw [lookup, bind_assoc]
  refine tells_get_bind fun s hs => ?_
  have hfind := findVariable_frames name s.scopes
  rw [show s.scopes.map Scope.frame = F from hs] at hfind
  cases hb : findBinding name s.scopes with
  | some found =>
    rw [hb] at hfind
    exact hf found.1 found.2 hfind
  | none =>
    rw [hb] at hfind
    refine fun t _ _ hpt => ?_
    obtain ⟨depth, v, hv⟩ := hp hpt
    rw [hfind] at hv
    cases hv

end Lower

open Lower

namespace LoweringContext

variable {F G : List Frame} {p : Prop}

theorem tells_unsupported {construct : String} :
    Tells F G p (c.unsupported construct : Lower α) :=
  tells_throw rfl

theorem tells_unsupported_bind {construct : String} {f : α → Lower β} :
    Tells F G p ((c.unsupported construct : Lower α) >>= f) :=
  fun _ _ hi => by cases hi

theorem tells_lacks {capability : Capability} {construct : String} :
    Tells F G p (c.lacks capability construct : Lower α) :=
  tells_throw rfl

theorem tells_require {capability : Capability} {construct : String} :
    Tells F F True (c.require capability construct) := by
  refine tells_lift fun e he => ?_
  unfold Dialect.require at he
  split at he <;> cases he
  rfl

theorem tells_entity_bind {name : String} {f : Mapping.Entity → Lower β}
    (hf : ∀ entity, c.model.entity name = .ok entity → Tells F G p (f entity)) :
    Tells F G p (c.entity name >>= f) := by
  refine tells_lift_bind (fun e he => ?_) hf
  unfold Mapping.Model.entity at he
  split at he <;> cases he
  rfl

end LoweringContext

open LoweringContext

variable {F G : List Frame} {p : Prop}

/-! ## Paths -/

/-- The place is at a table that one of the frames has. -/
def Place.IsIn (frames : List Frame) (place : Place) : Prop :=
  ∃ frame, frames[place.depth]? = some frame ∧ place.item < frame.tables

theorem joinAlong_tells {place : Place} {association : Mapping.ToOne} {target : Mapping.Entity}
    (hin : place.IsIn F) : Tells F F True (joinAlong c place association target) := by
  refine tells_get_bind fun s hs => ?_
  dsimp only
  split
  · exact tells_unsupported
  · split
    · exact tells_unsupported
    · split
      · exact tells_pure trivial
      · refine tells_freshAlias.next fun aliasName => ?_
        refine (tells_addJoins.iff (iff_true_intro hin)).next fun _ => ?_
        exact Tells.next (tells_modifyScope fun _ => rfl) fun _ => tells_pure trivial

/-- The walk has come along the names from a variable, whose table one of the frames has. -/
structure Place.IsAlong (model : Mapping.Model) (frames : List Frame) (start : Variable)
    (names : List String) (place : Place) : Prop where
  isIn : place.IsIn frames
  item : place.item = start.item
  reaches : Reaches model start.entity names place.entity

/-- A walk goes on at the place that it reaches, or finds a basic attribute on its way. -/
theorem walk_tells {path : Path} {f : Place → Lower β} {names : List String} {place : Place}
    (hin : place.IsIn F) (hp : p → Leads c.model place.entity names)
    (hf : ∀ next : Place, next.IsAlong c.model F ⟨place.entity, place.item⟩ names →
      Tells F G p (f next)) :
    Tells F G p (walk c path place names >>= f) := by
  induction names generalizing place with
  | nil => exact hf place ⟨hin, rfl, rfl⟩
  | cons name rest ih =>
    rw [walk, bind_assoc, step, bind_assoc]
    refine tells_property_bind fun property hproperty => ?_
    cases property with
    | basic value => exact tells_malformed_bind fun h => hp h _ hproperty
    | toMany collection => exact tells_unsupported_bind
    | toOne association =>
      rw [bind_assoc]
      refine tells_entity_bind fun target htarget => ?_
      rw [bind_assoc]
      refine (joinAlong_tells hin).next fun aliasName => ?_
      have hthere : Place.IsIn F { place with entity := target, aliasName } := hin
      refine ih hthere ?_ fun next hnext => ?_
      · exact fun h => hp h _ hproperty target htarget
      · have hr := hnext.reaches
        exact hf next ⟨hnext.isIn, hnext.item, association, target, hproperty, htarget, hr⟩

/-- The frames are those of queries, each with a table for all its variables. -/
def AreSound (frames : List Frame) : Prop := ∀ frame ∈ frames, frame.IsSound

theorem navigate_tells {path : Path} {steps : Nat} {f : Place → Lower β} (hF : AreSound F)
    (hp : p → ∃ depth start, findVariable path.start F = some (depth, start) ∧
      Leads c.model start.entity (path.properties.take steps))
    (hf : ∀ (place : Place) (depth : Nat) (start : Variable),
      findVariable path.start F = some (depth, start) →
      place.IsAlong c.model F start (path.properties.take steps) → Tells F G p (f place)) :
    Tells F G p (navigate c path steps >>= f) := by
  rw [navigate, bind_assoc]
  refine tells_lookup_bind (fun h => ?_) fun depth binding hfind => ?_
  · obtain ⟨depth, start, hfind, -⟩ := hp h
    exact ⟨depth, start, hfind⟩
  · have hin : Place.IsIn F ⟨depth, binding.item, binding.entity, binding.aliasName⟩ :=
      exists_frame_of_findVariable hF hfind
    refine walk_tells hin (fun h => ?_) fun next hnext => ?_
    · obtain ⟨depth', start, hstart, hleads⟩ := hp h
      obtain ⟨rfl, rfl⟩ := Prod.mk.inj (Option.some.inj (hfind.symm.trans hstart))
      exact hleads
    · exact hf next depth binding.toVariable hfind hnext

/-- The path is walked except for its last step. -/
theorem propertyColumn_tells {path : Path} {name : String} {steps : Nat} (hF : AreSound F)
    (hsteps : path.properties.take steps = path.properties.dropLast) :
    Tells F F (path.IsWellFormed c.model F) (propertyColumn c path name steps) := by
  refine navigate_tells hF (fun h => ?_) fun place depth start hfind hplace => ?_
  · rw [hsteps]
    exact h
  · have hpath : path.IsWellFormed c.model F :=
      ⟨depth, start, hfind, hsteps ▸ hplace.reaches.leads⟩
    refine tells_property_bind fun property _ => ?_
    cases property with
    | basic value => exact tells_pure hpath
    | toOne association => exact tells_pure hpath
    | toMany collection => exact tells_unsupported

theorem resolve_tells {path : Path} (hF : AreSound F) :
    Tells F F (path.IsWellFormed c.model F) (resolve c path) := by
  unfold resolve
  split
  · next hnil =>
    obtain hnil := List.reverse_eq_nil_iff.1 hnil
    refine navigate_tells hF (fun h => ?_) fun place depth start hfind hplace => ?_
    · simpa [hnil, Path.IsWellFormed, Leads] using h
    · exact tells_pure ⟨depth, start, hfind, by simp [hnil, Leads]⟩
  · next name hsingle =>
    obtain hsingle := List.reverse_eq_iff.1 hsingle
    exact propertyColumn_tells hF (by simp [hsingle])
  · next name owner rest hlast =>
    have hproperties : path.properties = rest.reverse ++ [owner, name] := by
      simpa using List.reverse_eq_iff.1 hlast
    have hdrop : path.properties.dropLast = rest.reverse ++ [owner] := by simp [hproperties]
    have htake : path.properties.take rest.length = rest.reverse := by simp [hproperties]
    have hcolumn : Tells F F (path.IsWellFormed c.model F)
        (propertyColumn c path name (rest.length + 1)) :=
      propertyColumn_tells hF (by simp [hproperties, List.take_append, List.take_of_length_le])
    -- All but the last two names are walked, and the last but one is only looked at.
    rw [foreignKey?, bind_assoc]
    refine navigate_tells hF (fun h => ?_) fun place depth start hfind hplace => ?_
    · obtain ⟨depth, start, hfind, hleads⟩ := h
      exact ⟨depth, start, hfind, htake ▸ (hdrop ▸ hleads).of_append⟩
    · rw [bind_assoc]
      refine tells_property_bind fun property hproperty => ?_
      cases property with
      | basic value => exact hcolumn
      | toMany collection => exact hcolumn
      | toOne association =>
        rw [bind_assoc]
        refine tells_entity_bind fun target htarget => ?_
        split
        · refine tells_pure ⟨depth, start, hfind, ?_⟩
          rw [hdrop, ← htake]
          have hlast : Reaches c.model place.entity [owner] target :=
            ⟨association, target, hproperty, htarget, rfl⟩
          exact hplace.reaches.leads_append hlast.leads
        · exact hcolumn

theorem entityColumns_tells {name : String} (hF : AreSound F) :
    Tells F F (Path.IsWellFormed c.model F ⟨name, []⟩) (entityColumns c ⟨name, []⟩) := by
  refine navigate_tells hF (fun h => h) fun place depth start hfind hplace => ?_
  exact tells_pure ⟨depth, start, hfind, trivial⟩

/-! ## Sizes -/

theorem countJoined_tells {place : Place} {table ownerColumn memberColumn : String}
    (hin : place.IsIn F) :
    Tells F F True (countJoined c place table ownerColumn memberColumn) := by
  obtain ⟨frame, hframe, hitem⟩ := hin
  cases F with
  | nil => cases hframe
  | cons first outer =>
    refine tells_current.next fun scope => ?_
    split
    · exact tells_lacks
    · split
      · exact tells_lacks
      · next hdepth =>
        have hplace : ∃ frame, (first :: outer)[0]? = some frame ∧ place.item < frame.tables :=
          ⟨frame, Decidable.of_not_not hdepth ▸ hframe, hitem⟩
        refine tells_freshAlias.next fun aliasName => ?_
        refine (tells_addJoins.iff (iff_true_intro hplace)).next fun _ => ?_
        exact Tells.next (tells_modifyScope fun _ => rfl) fun _ => tells_pure trivial

theorem lowerSize_tells {path : Path} (hF : AreSound F) :
    Tells F F (path.IsWellFormed c.model F ∧ path.EndsInCollection c.model F)
      (lowerSize c path) := by
  unfold lowerSize
  split
  · next hnone =>
    refine tells_malformed ?_
    rintro ⟨-, name, hlast, -⟩
    rw [hnone] at hlast
    cases hlast
  · next name hlast =>
    have htake : path.properties.take (path.properties.length - 1) = path.properties.dropLast :=
      List.dropLast_eq_take.symm
    refine navigate_tells hF (fun h => ?_) fun place depth start hfind hplace => ?_
    · rw [htake]
      exact h.1
    · have hr := htake ▸ hplace.reaches
      have hpath : path.IsWellFormed c.model F := ⟨depth, start, hfind, hr.leads⟩
      refine tells_property_bind fun property hproperty => ?_
      have hends := Path.endsInCollection_iff hlast hfind hr hproperty
      cases property with
      | basic value => exact tells_malformed fun h => by simpa using hends.1 h.2
      | toOne association => exact tells_malformed fun h => by simpa using hends.1 h.2
      | toMany collection =>
        have hsize : path.IsWellFormed c.model F ∧ path.EndsInCollection c.model F :=
          ⟨hpath, hends.2 ⟨collection, rfl⟩⟩
        refine tells_entity_bind fun element _ => ?_
        dsimp only
        split
        · exact (countJoined_tells hplace.isIn).iff (iff_of_true trivial hsize)
        · exact tells_freshAlias.next fun aliasName => tells_pure hsize

/-! ## Roots and joins -/

/-- The variable of a join stands for the other end of its association. -/
theorem joinsTo_tells {join : PathJoin} {place : Place} {property : Mapping.Property}
    {f : Mapping.Entity × String × List Sql.Join → Lower β}
    (hp : p → ∀ value, property ≠ .basic value)
    (hf : ∀ found, target? c.model property = some found.1 → Tells F G p (f found)) :
    Tells F G p (joinsTo c join place property >>= f) := by
  cases property with
  | basic value => exact tells_malformed_bind fun h => hp h value rfl
  | toOne association =>
    rw [joinsTo, bind_assoc]
    refine tells_entity_bind fun target htarget => ?_
    rw [bind_assoc]
    exact tells_freshAlias.next fun aliasName => hf _ (by simp [target?, htarget, Except.toOption])
  | toMany collection =>
    rw [joinsTo, bind_assoc]
    refine tells_entity_bind fun element helement => ?_
    have htarget : target? c.model (.toMany collection) = some element := by
      simp [target?, helement, Except.toOption]
    split
    · rw [bind_assoc]
      exact tells_freshAlias.next fun aliasName => hf _ htarget
    · rw [bind_assoc]
      refine tells_freshAlias.next fun link => ?_
      rw [bind_assoc]
      exact tells_freshAlias.next fun aliasName => hf _ htarget

variable {frame : Frame}

/-- What has to be true of the sources of a query: the rules, and that joins reach a table. -/
def Source.Fits (outer : List Frame) (frame : Frame) (source : Source) : Prop :=
  source.IsWellFormed outer frame ∧ source.Reaches outer frame

theorem AreSound.declare {name : String} {v : Variable} {tables : Nat}
    (hF : AreSound (frame :: F)) (ht : frame.tables ≤ tables) (hv : v.item < tables) :
    AreSound (⟨(name, v) :: frame.bindings, tables⟩ :: F) := by
  obtain ⟨hframe, hrest⟩ := List.forall_mem_cons.1 hF
  refine List.forall_mem_cons.2 ⟨List.forall_mem_cons.2 ⟨hv, fun entry he => ?_⟩, hrest⟩
  exact Nat.lt_of_lt_of_le (hframe entry he) ht

theorem lowerJoin_tells {join : PathJoin} {f : Unit → Lower β} (hF : AreSound (frame :: F))
    (hp : p → (Source.join join).Fits F frame)
    (hf : ∀ next, (Source.join join).declare? c.model F frame = some next →
      (Source.join join).Fits F frame → AreSound (next :: F) → Tells (next :: F) G p (f ())) :
    Tells (frame :: F) G p (lowerJoin c join >>= f) := by
  unfold lowerJoin
  split
  · next name hname =>
    rw [bind_assoc]
    refine navigate_tells hF (fun h => ?_) fun place depth start hfind hplace => ?_
    · obtain ⟨⟨_, depth, start, -, hfind, -⟩, -⟩ := hp h
      exact ⟨depth, start, hfind, trivial⟩
    obtain ⟨-, hitem, hreaches⟩ := hplace
    have hentity : start.entity = place.entity := hreaches
    have hwell := Source.isWellFormed_join_iff hname hfind
    have hreach := Source.reaches_join_iff hfind
    rw [bind_assoc, ← hentity]
    refine tells_property_bind fun property hproperty => ?_
    rw [bind_assoc]
    refine joinsTo_tells (fun h value hvalue => ?_) fun found hfound => ?_
    · exact hwell.1 (hp h).1 value (hvalue ▸ hproperty)
    · rw [bind_assoc]
      -- The joins go to the current query, whichever query the variable is bound in.
      have hcurrent : (∃ next, (frame :: F)[0]? = some next ∧ place.item < next.tables) ↔
          start.item < frame.tables := by simp [hitem]
      refine (tells_addJoins.iff hcurrent).step (fun h => hreach.1 (hp h).2) fun hlt _ => ?_
      have hbasic (value : Mapping.Attribute) :
          start.entity.property name ≠ .ok (.basic value) := by
        intro hvalue
        obtain rfl := Except.ok.inj (hproperty.symm.trans hvalue)
        cases hfound
      rw [hitem]
      exact tells_bind.next fun _ => hf _ (Source.declare?_join hname hfind hproperty hfound)
        ⟨hwell.2 hbasic, hreach.2 hlt⟩ (hF.declare (Nat.le_refl _) hlt)
  · next hname =>
    refine tells_malformed_bind fun h => ?_
    obtain ⟨⟨name, _, _, hsingle, -⟩, -⟩ := hp h
    exact hname name hsingle

theorem lowerJoins_tells {f : Unit → Lower β} {joins : List PathJoin}
    (hF : AreSound (frame :: F))
    (hp : p → EachSource c.model F (Source.Fits F) frame (joins.map .join))
    (hf : ∀ last, declareAll? c.model F frame (joins.map .join) = some last →
      EachSource c.model F (Source.Fits F) frame (joins.map .join) → AreSound (last :: F) →
        Tells (last :: F) G p (f ())) :
    Tells (frame :: F) G p (lowerJoins c joins >>= f) := by
  induction joins generalizing frame with
  | nil => exact hf frame rfl trivial hF
  | cons join rest ih =>
    rw [lowerJoins, bind_assoc]
    refine lowerJoin_tells hF (fun h => (hp h).1) fun next hnext hfits hsound => ?_
    refine ih hsound (fun h => (hp h).2 next hnext) fun last hlast heach hs => ?_
    refine hf last ?_ ⟨hfits, fun next' hnext' => ?_⟩ hs
    · simp [declareAll?, hnext, hlast]
    · obtain rfl := Option.some.inj (hnext.symm.trans hnext')
      exact heach

theorem lowerRoots_tells {f : Unit → Lower β} {roots : List Root}
    (hF : AreSound (frame :: F))
    (hp : p → EachSource c.model F (Source.Fits F) frame (roots.flatMap Root.sources))
    (hf : ∀ last, declareAll? c.model F frame (roots.flatMap Root.sources) = some last →
      EachSource c.model F (Source.Fits F) frame (roots.flatMap Root.sources) →
        AreSound (last :: F) → Tells (last :: F) G p (f ())) :
    Tells (frame :: F) G p (lowerRoots c frame.tables roots >>= f) := by
  induction roots generalizing frame with
  | nil => exact hf frame rfl trivial hF
  | cons root rest ih =>
    rw [lowerRoots, bind_assoc]
    refine tells_entity_bind fun entity hentity => ?_
    rw [bind_assoc]
    refine tells_freshAlias.next fun aliasName => ?_
    rw [bind_assoc]
    refine tells_addTable.next fun _ => ?_
    rw [bind_assoc]
    refine tells_bind.next fun _ => ?_
    rw [bind_assoc]
    have hroot : (Source.root root.entity root.aliasName).declare? c.model F frame =
        some ⟨(root.aliasName, ⟨entity, frame.tables⟩) :: frame.bindings, frame.tables + 1⟩ := by
      simp [Source.declare?, hentity, Except.toOption]
    have hsplit (h : p) := eachSource_append.1 ((hp h).2 _ hroot)
    have hsound : AreSound (⟨(root.aliasName, ⟨entity, frame.tables⟩) :: frame.bindings,
        frame.tables + 1⟩ :: F) := hF.declare (Nat.le_succ _) (Nat.lt_succ_self _)
    refine lowerJoins_tells hsound (fun h => (hsplit h).1) fun next hnext hjoins hs => ?_
    -- The next root gets the number of tables so far, and the joins have not changed it.
    have htables : next.tables = frame.tables + 1 := tables_eq_of_declareAll? hnext
    rw [← htables]
    refine ih hs (fun h => (hsplit h).2 next hnext) fun last hlast hrest hs => ?_
    refine hf last ?_ ⟨⟨trivial, trivial⟩, fun next' hnext' => ?_⟩ hs
    · rw [List.flatMap_cons, Root.sources, List.cons_append, declareAll?, hroot]
      exact declareAll?_append.trans (Option.bind_eq_some_iff.2 ⟨next, hnext, hlast⟩)
    · obtain rfl := Option.some.inj (hroot.symm.trans hnext')
      refine eachSource_append.2 ⟨hjoins, fun next' hnext' => ?_⟩
      obtain rfl := Option.some.inj (hnext.symm.trans hnext')
      exact hrest

end SqlDialects.Entity
