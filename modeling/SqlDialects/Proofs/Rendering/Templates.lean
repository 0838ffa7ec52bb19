import SqlDialects.Proofs.Literals.Vocabulary
import SqlDialects.Proofs.Rendering.Refusals

/-!
# Templates that fit their calls

A pattern that is registered for a number of arguments mentions no argument beyond them. The
products keep to this, and what they register for nodes with a form of their own, such as `format`
and `extract`, takes the arguments that such a node has.
-/

namespace SqlDialects

/-! ## Argument numbers -/

namespace Template

/-- Arguments are numbered from one. -/
theorem argument_pos {source : String} {token : Token} {n : Nat} (h : token ∈ tokens source)
    (hk : token.kind = .argument n) : 0 < n := by
  have hraw : ∀ raw : List Token, (∀ t ∈ raw, ∀ n, t.kind = .argument n → 0 < n) →
      ∀ t ∈ raw.foldr Token.pushMerged [], ∀ n, t.kind = .argument n → 0 < n := by
    intro raw hraw
    induction raw with
    | nil => simp
    | cons first rest ih =>
      obtain ⟨hfirst, hrest⟩ := List.forall_mem_cons.1 hraw
      intro t ht n hk
      rw [List.foldr_cons] at ht
      unfold Token.pushMerged at ht
      split at ht
      · split at ht
        · next chars more hmore =>
          rcases List.mem_cons.1 ht with rfl | ht
          · cases hk
          · exact ih hrest t (hmore ▸ List.mem_cons_of_mem _ ht) n hk
        · rcases List.mem_cons.1 ht with rfl | ht
          · cases hk
          · exact ih hrest t ht n hk
      · rcases List.mem_cons.1 ht with rfl | ht
        · exact hfirst n hk
        · exact ih hrest t ht n hk
  refine hraw (rawTokens source) (fun t ht n hk => ?_) token h n hk
  obtain ⟨lexeme, -, rfl⟩ := List.mem_map.1 ht
  cases lexeme with
  | argument digits =>
    simp only [Token.ofLexeme] at hk
    split at hk
    · next hn => exact TokenKind.argument.inj hk ▸ hn.1
    · cases hk
  | _ => cases hk

end Template

theorem le_foldl_max {ns : List Nat} {n start : Nat} (h : n ∈ ns ∨ n ≤ start) :
    n ≤ ns.foldl max start := by
  induction ns generalizing start with
  | nil => simpa using h
  | cons first rest ih =>
    refine ih ?_
    rcases h with h | h
    · rcases List.mem_cons.1 h with rfl | h
      · exact .inr (Nat.le_max_right _ _)
      · exact .inl h
    · exact .inr (Nat.le_trans h (Nat.le_max_left _ _))

theorem Pattern.lt_arity {pattern : Pattern} {index : Nat}
    (h : .argument index ∈ pattern.segments) : index < pattern.arity := by
  obtain ⟨token, ht, hsegment⟩ := List.mem_map.1 h
  unfold segment at hsegment
  split at hsegment
  · next n hk =>
    obtain rfl := Segment.argument.inj hsegment
    have hn : n ≤ pattern.arity :=
      le_foldl_max (.inl (List.mem_map.2 ⟨token, ht, by rw [argumentNumber, hk]⟩))
    have hpos := Template.argument_pos ht hk
    omega
  · cases hsegment

/-! ## Templates -/

/-- Each pattern mentions only arguments that it is given. -/
def FunctionRendering.fits : FunctionRendering → Bool
  | .patterns byCount => byCount.toList.all fun entry => entry.2.arity ≤ entry.1
  | _ => true

namespace FunctionTemplate

variable {template : FunctionTemplate} {count index : Nat} {segments : List Segment}

theorem lt_of_argument_mem_separated {separator : String}
    (h : .argument index ∈ Segment.separated separator count) : index < count := by
  induction count with
  | zero => simp [Segment.separated] at h
  | succ n ih =>
    cases n with
    | zero =>
      obtain rfl : index = 0 := by simpa [Segment.separated] using h
      omega
    | succ n =>
      rw [Segment.separated, List.mem_append] at h
      rcases h with h | h
      · have := ih h
        omega
      · obtain rfl : index = n + 1 := by simpa using h
        omega

/-- Every place in a call that fits has an argument. -/
theorem lt_of_argument_mem (hf : template.rendering.fits = true)
    (hs : template.expand count = .ok segments) (hi : .argument index ∈ segments) :
    index < count := by
  rcases expand_ok_cases hs with ⟨byCount, pattern, hr, hp, rfl⟩ | ⟨sqlName, -, rfl⟩ |
    ⟨operator, -, rfl⟩
  · rw [hr] at hf
    have harity := List.all_eq_true.1 hf _ (SortedMap.mem_of_get? hp)
    exact Nat.lt_of_lt_of_le (Pattern.lt_arity hi) (by simpa using harity)
  · exact lt_of_argument_mem_separated (by simpa using hi)
  · exact lt_of_argument_mem_separated (by simpa using hi)

variable {name source : String} {resultType : Option SqlType}

/-- A single pattern is registered for the number of arguments that it mentions. -/
theorem fits_pattern : (pattern name source resultType).rendering.fits = true := by
  simp [pattern, FunctionRendering.fits, SortedMap.ofList, SortedMap.empty, SortedMap.insert,
    SortedMap.insertInto]

theorem takes_pattern :
    (pattern name source resultType).takes (Pattern.arity ⟨source⟩) = true := by
  simp [takes, pattern, SortedMap.contains, SortedMap.get?, SortedMap.ofList, SortedMap.empty,
    SortedMap.insert, SortedMap.insertInto]

end FunctionTemplate

/-! ## Registries -/

namespace SortedMap

variable {κ ν : Type} [Ord κ] [Std.LawfulEqOrd κ] [BEq κ] [LawfulBEq κ] {k k' : κ} {v : ν}

theorem lookup_insertInto (pairs : List (κ × ν)) : (insertInto k v pairs).lookup k' =
    if k' == k then some v else pairs.lookup k' := by
  induction pairs with
  | nil => cases h : k' == k <;> simp [insertInto, List.lookup_cons, h]
  | cons first rest ih =>
    obtain ⟨k₁, v₁⟩ := first
    unfold insertInto
    split
    · cases h : k' == k <;> simp [List.lookup_cons, h]
    · next heq =>
      obtain rfl := Std.LawfulEqOrd.eq_of_compare heq
      cases h : k' == k <;> simp [List.lookup_cons, h]
    · next hgt =>
      have hne : k ≠ k₁ := by
        rintro rfl
        simp at hgt
      rw [List.lookup_cons, ih, List.lookup_cons]
      cases h : k' == k with
      | false => rfl
      | true =>
        obtain rfl := eq_of_beq h
        simp [beq_false_of_ne hne]

/-- The last write wins. -/
theorem get?_insert (m : SortedMap κ ν) :
    (m.insert k v).get? k' = if k' == k then some v else m.get? k' :=
  lookup_insertInto m.toList

end SortedMap

namespace FunctionRegistry

def Fits (registry : FunctionRegistry) : Prop :=
  ∀ entry ∈ registry.templates.toList, entry.2.rendering.fits = true

variable {registry : FunctionRegistry}

theorem fits_empty : Fits {} := nofun

theorem Fits.registerAll (h : registry.Fits) {templates : List FunctionTemplate}
    (hnew : ∀ template ∈ templates, template.rendering.fits = true) :
    (registry.registerAll templates).Fits := by
  intro entry hentry
  rcases mem_registerAll hentry with hentry | ⟨-, hmem⟩
  · exact h entry hentry
  · exact hnew entry.2 hmem

/-- The last template of a name takes the place of those before it. -/
theorem get?_registerAll (templates : List FunctionTemplate) (name : String) :
    (registry.registerAll templates).get? name =
      (templates.reverse.find? fun template => template.name == Text.lower name).or
        (registry.get? name) := by
  induction templates generalizing registry with
  | nil => rfl
  | cons template rest ih =>
    have hfirst : (registry.register template).get? name =
        if Text.lower name == template.name then some template else registry.get? name :=
      SortedMap.get?_insert registry.templates
    rw [registerAll, List.foldl_cons, ← registerAll, ih, hfirst, List.reverse_cons,
      List.find?_append, Option.or_assoc, List.find?_singleton, BEq.comm]
    split <;> rfl

/-- What the products start from. -/
def standard : FunctionRegistry := registerAll {} FunctionFamily.standard

theorem fits_standard : standard.Fits := fits_empty.registerAll (by decide +kernel)

/-- A format has a value and a pattern, an extraction a field and a value. Not every product has a
template for extractions. -/
def TakesNodes (registry : FunctionRegistry) : Prop :=
  (registry.get? "format").any (·.takes 2) = true ∧
    (registry.get? "extract").all (·.takes 2) = true

/-- The templates of a product that stand for nodes have their own names in small letters. -/
theorem takesNodes_registerAll {templates : List FunctionTemplate}
    (hformat : (templates.reverse.find? (·.name == "format")).any (·.takes 2) = true)
    (hextract : (templates.reverse.find? (·.name == "extract")).all (·.takes 2) = true) :
    (standard.registerAll templates).TakesNodes := by
  have hstandard : standard.get? "extract" = none := by decide
  unfold TakesNodes
  rw [get?_registerAll, get?_registerAll, hstandard, Option.or_none,
    (by decide : Text.lower "format" = "format"), (by decide : Text.lower "extract" = "extract")]
  refine ⟨?_, hextract⟩
  cases hfind : templates.reverse.find? (·.name == "format") with
  | none => simp [hfind] at hformat
  | some template => simpa [hfind] using hformat

end FunctionRegistry

/-! ## Dialects -/

namespace TimestampArithmetic

/-- The patterns of the unit take the unit and two values. -/
def fitsFor (arithmetic : TimestampArithmetic) (unit : TemporalUnit) : Bool :=
  (arithmetic.add? unit).all (fun source => Pattern.arity ⟨source⟩ == 3) &&
    (arithmetic.diff? unit).all (fun source => Pattern.arity ⟨source⟩ == 3)

def Fits (arithmetic : TimestampArithmetic) : Prop := ∀ unit, arithmetic.fitsFor unit = true

theorem fits_patterns {add diff : String} (h : (patterns add diff).fitsFor .year = true) :
    (patterns add diff).Fits := fun _ => h

theorem fits_of_all {arithmetic : TimestampArithmetic}
    (h : TemporalUnit.all.all arithmetic.fitsFor = true) : arithmetic.Fits :=
  fun unit => List.all_eq_true.1 h unit (by cases unit <;> decide)

theorem fits_interval : interval.Fits := fits_of_all (by decide +kernel)

theorem fits_julianDay : julianDay.Fits := fits_of_all (by decide +kernel)

end TimestampArithmetic

namespace Dialect

/-- Each template has an argument for each of its places, and takes what the nodes have that it is
for. -/
structure Fits (d : Dialect) : Prop where
  functions : d.functions.Fits
  nodes : d.functions.TakesNodes
  extractPattern : ∀ unit,
    (d.rules.extractPatterns unit).all (fun source => Pattern.arity ⟨source⟩ == 2) = true
  timestampArithmetic : d.rules.timestampArithmetic.Fits

open FunctionRegistry (fits_standard takesNodes_registerAll)

variable (version : Version)

theorem fits_ingres : (ofProduct .ingres version).Fits where
  functions := fits_standard.registerAll (by decide +kernel)
  nodes := takesNodes_registerAll (by decide +kernel) (by decide +kernel)
  extractPattern := UnitTexts.all_none
  timestampArithmetic := TimestampArithmetic.fits_patterns (by decide)

theorem fits_postgreSql : (ofProduct .postgreSql version).Fits where
  functions := fits_standard.registerAll (by decide +kernel)
  nodes := takesNodes_registerAll (by decide +kernel) (by decide +kernel)
  extractPattern := UnitTexts.all_set UnitTexts.all_none (by decide +kernel) .dayOfWeek
  timestampArithmetic := TimestampArithmetic.fits_interval

theorem fits_mySql : (ofProduct .mySql version).Fits where
  functions := fits_standard.registerAll (by decide +kernel)
  nodes := takesNodes_registerAll (by decide +kernel) (by decide +kernel)
  extractPattern := UnitTexts.all_setAll UnitTexts.all_none (by decide +kernel)
  timestampArithmetic := TimestampArithmetic.fits_patterns (by decide)

theorem fits_sqlite : (ofProduct .sqlite version).Fits where
  functions := fits_standard.registerAll (by decide +kernel)
  nodes := takesNodes_registerAll (by decide +kernel) (by decide +kernel)
  extractPattern := UnitTexts.all_setAll UnitTexts.all_none (by decide +kernel)
  timestampArithmetic := TimestampArithmetic.fits_julianDay

theorem fits_sqlServer : (ofProduct .sqlServer version).Fits where
  functions := fits_standard.registerAll (by
    unfold SqlServer.functions
    split <;> decide)
  nodes := by
    refine takesNodes_registerAll ?_ ?_ <;> unfold SqlServer.functions <;> split <;> decide
  extractPattern := UnitTexts.all_none
  timestampArithmetic := TimestampArithmetic.fits_patterns (by decide)

theorem fits_ofProduct (product : Product) : (ofProduct product version).Fits := by
  cases product with
  | ingres => exact fits_ingres version
  | postgreSql => exact fits_postgreSql version
  | mySql => exact fits_mySql version
  | sqlite => exact fits_sqlite version
  | sqlServer => exact fits_sqlServer version

end Dialect

end SqlDialects
