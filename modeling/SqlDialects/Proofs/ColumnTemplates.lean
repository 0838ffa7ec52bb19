import SqlDialects.Dialect.Resolve

/-!
# What the column types of a dialect are made of

A registry keeps templates as they are registered, and sizes are written in digits. So the column
types of a product have only characters that its templates have, and digits.
-/

namespace SqlDialects

theorem SortedMap.mem_insertInto {κ ν : Type} [Ord κ] {k : κ} {v : ν} {entry : κ × ν}
    {pairs : List (κ × ν)} (h : entry ∈ insertInto k v pairs) : entry = (k, v) ∨ entry ∈ pairs := by
  induction pairs with
  | nil => exact .inl (List.mem_singleton.1 h)
  | cons first rest ih =>
    unfold insertInto at h
    split at h
    · exact List.mem_cons.1 h
    · exact (List.mem_cons.1 h).imp_right (List.mem_cons_of_mem _)
    · rcases List.mem_cons.1 h with h | h
      · exact .inr (List.mem_cons.2 (.inl h))
      · exact (ih h).imp_right (List.mem_cons_of_mem _)

/-! ## Templates -/

namespace ColumnTemplate

/-- What stands between the sizes has only these characters. -/
def keepsTo (p : Char → Bool) (template : ColumnTemplate) : Bool :=
  (Template.tokens template.source).all fun token =>
    match token.kind with
    | .length | .precision | .scale => true
    | _ => token.chars.all p

theorem all_render {p : Char → Bool} {template : ColumnTemplate} (h : template.keepsTo p = true)
    (hdigit : ∀ c : Char, c.isDigit = true → p c = true) (size : ColumnSize) :
    (template.render size).toList.all p = true := by
  have hnumber (n : Nat) : (toString n).toList.all p = true := by
    rw [Nat.toString_eq_ofList_toDigits, String.toList_ofList, List.all_eq_true]
    intro c hc
    exact hdigit c (Nat.isDigit_of_mem_toDigits (by omega) (by omega) hc)
  unfold keepsTo at h
  unfold render
  rw [String.toList_ofList, List.all_flatMap]
  rw [List.all_eq_true] at h ⊢
  intro token htoken
  have h := h token htoken
  unfold ColumnSize.write
  cases hk : token.kind with
  | length | precision | scale => exact hnumber _
  | _ => simpa [hk] using h

end ColumnTemplate

/-! ## Registries -/

/-- Each template of the buckets has the property. -/
def ColumnBuckets.All (p : ColumnTemplate → Bool) (buckets : ColumnBuckets) : Prop :=
  (∀ entry ∈ buckets.sized.toList, p entry.2 = true) ∧
    ∀ template, buckets.unrestricted = some template → p template = true

variable {p : ColumnTemplate → Bool}

theorem ColumnBuckets.all_empty : All p {} := ⟨nofun, nofun⟩

theorem ColumnBuckets.All.register {buckets : ColumnBuckets} (h : buckets.All p)
    {template : ColumnTemplate} (hnew : p template = true) (maxLength : Option Nat) :
    (buckets.register maxLength template).All p := by
  cases maxLength with
  | none => exact ⟨h.1, fun _ ht => Option.some.inj ht ▸ hnew⟩
  | some bound =>
    refine ⟨fun entry hentry => ?_, h.2⟩
    rcases SortedMap.mem_insertInto hentry with rfl | hentry
    · exact hnew
    · exact h.1 entry hentry

namespace ColumnTypeRegistry

/-- Each template of the registry has the property. -/
def All (p : ColumnTemplate → Bool) (registry : ColumnTypeRegistry) : Prop :=
  ∀ code, (registry.buckets code).All p

variable {registry : ColumnTypeRegistry}

theorem all_empty : All p {} := fun _ => ColumnBuckets.all_empty

theorem All.update (h : registry.All p) {buckets : ColumnBuckets} (hnew : buckets.All p)
    (code : SqlType) : (registry.update code buckets).All p := by
  intro code'
  unfold ColumnTypeRegistry.update
  dsimp only
  split
  · exact hnew
  · exact h code'

theorem All.register (h : registry.All p) {template : String} (hnew : p ⟨template⟩ = true)
    (code : SqlType) (maxLength : Option Nat) :
    (registry.register code maxLength template).All p :=
  h.update ((h code).register hnew maxLength) code

theorem All.registerAll (h : registry.All p) {types : List (SqlType × Option Nat × String)}
    (hnew : types.all (fun t => p ⟨t.2.2⟩) = true) : (registry.registerAll types).All p := by
  induction types generalizing registry with
  | nil => exact h
  | cons t rest ih =>
    rw [List.all_cons, Bool.and_eq_true] at hnew
    exact ih (h.register hnew.1 t.1 t.2.1) hnew.2

theorem All.declareFixed (h : registry.All p)
    (hnew : Ingres.fixedTypes.all (fun t => p ⟨t.2⟩) = true) :
    (Ingres.declareFixed registry).All p := by
  have hstep {r : ColumnTypeRegistry} (hr : r.All p) {t : SqlType × String}
      (ht : p ⟨t.2⟩ = true) :
      ((r.unregister t.1).register t.1 (some Ingres.maxInlineLength) t.2).All p :=
    (hr.update ColumnBuckets.all_empty t.1).register ht t.1 _
  unfold Ingres.declareFixed
  generalize Ingres.fixedTypes = types at hnew ⊢
  induction types generalizing registry with
  | nil => exact h
  | cons t rest ih =>
    rw [List.all_cons, Bool.and_eq_true] at hnew
    exact ih (hstep h hnew.1) hnew.2

/-- A column type is written by a template of the registry. -/
theorem All.get (h : registry.All p) {code : SqlType} {size : ColumnSize} {type : String}
    (hget : registry.get code size = some type) :
    ∃ template : ColumnTemplate, p template = true ∧ type = template.render size := by
  obtain ⟨template, hlookup, rfl⟩ := Option.map_eq_some_iff.1 hget
  refine ⟨template, ?_, rfl⟩
  unfold lookup ColumnBuckets.lookup at hlookup
  split at hlookup
  · next entry hentry =>
    exact Option.some.inj hlookup ▸ (h code).1 entry (List.mem_of_find?_eq_some hentry)
  · exact (h code).2 template hlookup

end ColumnTypeRegistry

end SqlDialects
