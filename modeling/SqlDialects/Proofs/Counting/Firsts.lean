import Mathlib.Data.List.Induction
import SqlDialects.Proofs.Evaluation

/-!
# First occurrences

Groups come in the order in which their keys come first. Lists with the same first occurrences, in
the same order, can stand for one another where groups are made.
-/

namespace SqlDialects

variable {α β : Type} [BEq α] [LawfulBEq α] [BEq β] [LawfulBEq β]

/-! ## Removing later occurrences -/

theorem eraseDups_concat (l : List α) (a : α) :
    (l ++ [a]).eraseDups = if a ∈ l then l.eraseDups else l.eraseDups ++ [a] := by
  rw [List.eraseDups_append]
  split <;> simp_all [List.removeAll, List.eraseDups_cons]

theorem eraseDups_filter (p : α → Bool) (l : List α) :
    (l.filter p).eraseDups = l.eraseDups.filter p := by
  induction l using List.reverseRecOn with
  | nil => rfl
  | append_singleton l a ih =>
    rw [List.filter_append, List.filter_singleton, eraseDups_concat]
    by_cases ha : p a = true <;> by_cases hm : a ∈ l <;> simp [ha, hm, eraseDups_concat, ih]

theorem eraseDups_sublist (l : List α) : l.eraseDups.Sublist l := by
  induction l using List.reverseRecOn with
  | nil => exact List.Sublist.refl _
  | append_singleton l a ih =>
    rw [eraseDups_concat]
    split
    · exact ih.trans (List.sublist_append_left _ _)
    · exact ih.append (List.Sublist.refl _)

theorem nodup_eraseDups (l : List α) : l.eraseDups.Nodup := by
  induction l using List.reverseRecOn with
  | nil => exact List.nodup_nil
  | append_singleton l a ih =>
    rw [eraseDups_concat]
    split
    case isTrue => exact ih
    case isFalse ha =>
      rw [← List.concat_eq_append, List.nodup_concat, List.mem_eraseDups]
      exact ⟨ha, ih⟩

theorem eraseDups_of_nodup {l : List α} (h : l.Nodup) : l.eraseDups = l := by
  induction l using List.reverseRecOn with
  | nil => rfl
  | append_singleton l a ih =>
    rw [← List.concat_eq_append, List.nodup_concat] at h
    obtain ⟨ha, hl⟩ := h
    rw [eraseDups_concat, if_neg ha, ih hl]

theorem nodup_iff_length_eraseDups {l : List α} : l.Nodup ↔ l.eraseDups.length = l.length := by
  constructor
  · intro h
    rw [eraseDups_of_nodup h]
  · intro h
    rw [← (eraseDups_sublist l).eq_of_length h]
    exact nodup_eraseDups l

/-! ## Lists with the same first occurrences -/

def SameFirsts {α : Type} [BEq α] (l l' : List α) : Prop := l.eraseDups = l'.eraseDups

namespace SameFirsts

section

variable {α : Type} [BEq α] {l l' m : List α}

theorem refl (l : List α) : SameFirsts l l := rfl

theorem symm (h : SameFirsts l l') : SameFirsts l' l := Eq.symm h

theorem trans (h : SameFirsts l l') (h' : SameFirsts l' m) : SameFirsts l m := Eq.trans h h'

end

variable {l l' m m' : List α}

theorem mem_iff (h : SameFirsts l l') {a : α} : a ∈ l ↔ a ∈ l' := by
  rw [← List.mem_eraseDups, h, List.mem_eraseDups]

theorem filter (h : SameFirsts l l') (p : α → Bool) : SameFirsts (l.filter p) (l'.filter p) := by
  unfold SameFirsts
  rw [eraseDups_filter, h, eraseDups_filter]

theorem append (h : SameFirsts l l') (h' : SameFirsts m m') :
    SameFirsts (l ++ m) (l' ++ m') := by
  unfold SameFirsts
  rw [List.eraseDups_append, List.eraseDups_append, h]
  simp only [List.removeAll, eraseDups_filter]
  rw [h']
  congr 2
  funext a
  simp [h.mem_iff]

/-- What is there already adds no first occurrence. -/
theorem append_of_subset (h : m ⊆ l) : SameFirsts (l ++ m) l := by
  unfold SameFirsts
  have hnone : m.removeAll l = [] := by
    simp only [List.removeAll, List.filter_eq_nil_iff]
    intro a ha
    simp [h ha]
  rw [List.eraseDups_append, hnone, List.eraseDups_nil, List.append_nil]

theorem flatMap_eraseDups (l : List α) (f : α → List β) :
    SameFirsts (l.eraseDups.flatMap f) (l.flatMap f) := by
  induction l using List.reverseRecOn with
  | nil => rfl
  | append_singleton l a ih =>
    rw [eraseDups_concat, List.flatMap_append, List.flatMap_singleton]
    split
    case isTrue ha =>
      refine ih.trans (append_of_subset ?_).symm
      exact fun b hb => List.mem_flatMap.2 ⟨a, ha, hb⟩
    case isFalse =>
      rw [List.flatMap_append, List.flatMap_singleton]
      exact ih.append (refl _)

theorem flatMap (h : SameFirsts l l') {f g : α → List β} (hf : ∀ a ∈ l, SameFirsts (f a) (g a)) :
    SameFirsts (l.flatMap f) (l'.flatMap g) := by
  refine (flatMap_eraseDups l f).symm.trans (.trans ?_ (flatMap_eraseDups l' g))
  rw [← h]
  have hf' : ∀ a ∈ l.eraseDups, SameFirsts (f a) (g a) :=
    fun a ha => hf a (List.mem_eraseDups.1 ha)
  generalize l.eraseDups = l at hf'
  induction l with
  | nil => rfl
  | cons a l ih =>
    obtain ⟨ha, hl⟩ := List.forall_mem_cons.1 hf'
    rw [List.flatMap_cons, List.flatMap_cons]
    exact ha.append (ih hl)

theorem map (h : SameFirsts l l') (f : α → β) : SameFirsts (l.map f) (l'.map f) := by
  rw [List.map_eq_flatMap, List.map_eq_flatMap]
  exact h.flatMap fun _ _ => refl _

theorem of_forall_eq {c : α} (hl : l ≠ []) (h : ∀ a ∈ l, a = c) : SameFirsts l [c] := by
  cases l with
  | nil => exact absurd rfl hl
  | cons a l =>
    obtain ⟨rfl, h⟩ := List.forall_mem_cons.1 h
    refine append_of_subset (l := [a]) fun b hb => ?_
    exact List.mem_singleton.2 (h b hb)

end SameFirsts

/-! ## Groups -/

namespace Sql

variable {α κ κ' : Type} [BEq κ] [LawfulBEq κ] [BEq κ'] [LawfulBEq κ']

/-- Only which members have the same key matters for the groups. -/
theorem groupsBy_congr {key : α → κ} {key' : α → κ'} {l : List α}
    (h : ∀ a ∈ l, ∀ b ∈ l, key a = key b ↔ key' a = key' b) : groupsBy key l = groupsBy key' l := by
  suffices hm : ∀ m : List α, m ⊆ l →
      ((m.map key).eraseDups.map fun k => l.filter fun a => key a == k) =
        (m.map key').eraseDups.map fun k => l.filter fun a => key' a == k from
    hm l (List.Subset.refl l)
  intro m
  induction m using List.reverseRecOn with
  | nil => exact fun _ => rfl
  | append_singleton m a ih =>
    intro hm
    obtain ⟨hm, ha⟩ := List.append_subset.1 hm
    have ha : a ∈ l := ha (List.mem_singleton.2 rfl)
    have hmem : key a ∈ m.map key ↔ key' a ∈ m.map key' := by
      simp only [List.mem_map]
      constructor
      · rintro ⟨b, hb, hk⟩
        exact ⟨b, hb, (h b (hm hb) a ha).1 hk⟩
      · rintro ⟨b, hb, hk⟩
        exact ⟨b, hb, (h b (hm hb) a ha).2 hk⟩
    have hgroup : (l.filter fun b => key b == key a) = l.filter fun b => key' b == key' a := by
      refine List.filter_congr fun b hb => ?_
      simp [h b hb a ha]
    simp only [List.map_append, List.map_cons, List.map_nil, eraseDups_concat, hmem]
    split
    · exact ih hm
    · simp only [List.map_append, List.map_cons, List.map_nil, ih hm, hgroup]

omit [LawfulBEq κ] in
theorem length_groupsBy (key : α → κ) (l : List α) :
    (groupsBy key l).length = (l.map key).eraseDups.length :=
  List.length_map _

end Sql

end SqlDialects
