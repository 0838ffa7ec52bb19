import Mathlib.Data.List.Forall2
import SqlDialects.Proofs.Runs
import SqlDialects.Settings.Basic

/-!
# Texts of versions

A version is written as one to three numbers with points between them, with blanks around the
whole. A number is a row of digits, perhaps behind a plus sign, and has 16 bits. Reading accepts
exactly these texts, and reads what is written for a version as that version again.
-/

namespace SqlDialects

/-! ## Fields -/

namespace Text

variable {separator : Char} {piece rest : List Char}

theorem fields_ne_nil (separator : Char) (cs : List Char) : fields separator cs ≠ [] := by
  cases cs with
  | nil => simp [fields]
  | cons c cs =>
    unfold fields
    split
    · simp
    · split <;> simp

/-- The fields with separators between them are the text again. -/
theorem intercalate_fields (separator : Char) (cs : List Char) :
    [separator].intercalate (fields separator cs) = cs := by
  induction cs with
  | nil => rfl
  | cons c cs ih =>
    obtain ⟨first, more, hrest⟩ := List.exists_cons_of_ne_nil (fields_ne_nil separator cs)
    rw [hrest] at ih
    rw [fields, hrest]
    split
    · next hc =>
      rw [List.intercalate_cons_cons, ih, hc]
      rfl
    · rw [← ih]
      cases more <;> simp [List.intercalate_cons_cons]

theorem fields_of_not_mem (h : separator ∉ piece) : fields separator piece = [piece] := by
  induction piece with
  | nil => rfl
  | cons c cs ih =>
    rw [List.mem_cons, not_or] at h
    rw [fields, if_neg (Ne.symm h.1), ih h.2]

theorem fields_append (h : separator ∉ piece) :
    fields separator (piece ++ separator :: rest) = piece :: fields separator rest := by
  induction piece with
  | nil => rw [List.nil_append, fields, if_pos rfl]
  | cons c cs ih =>
    rw [List.mem_cons, not_or] at h
    rw [List.cons_append, fields, if_neg (Ne.symm h.1), ih h.2]

/-! ## Blanks -/

/-- Only blanks are taken away from a text. -/
theorem exists_blanks (cs : List Char) : ∃ before after,
    (∀ c ∈ before, isBlank c = true) ∧ (∀ c ∈ after, isBlank c = true) ∧
      cs = before ++ (trimmed cs ++ after) := by
  refine ⟨cs.takeWhile isBlank, ((cs.dropWhile isBlank).reverse.takeWhile isBlank).reverse,
    ?_, ?_, ?_⟩
  · intro c hc
    exact List.mem_takeWhile_imp hc
  · intro c hc
    rw [List.mem_reverse] at hc
    exact List.mem_takeWhile_imp hc
  · rw [trimmed, ← List.reverse_append, List.takeWhile_append_dropWhile, List.reverse_reverse,
      List.takeWhile_append_dropWhile]

theorem trimmed_between {before cs after : List Char} (hbefore : ∀ c ∈ before, isBlank c = true)
    (hafter : ∀ c ∈ after, isBlank c = true) (hne : cs ≠ [])
    (hcs : ∀ c ∈ cs, isBlank c = false) : trimmed (before ++ (cs ++ after)) = cs := by
  have hhead : ∀ c ∈ (cs ++ after).head?, isBlank c = false := by
    intro c hc
    rw [List.head?_append_of_ne_nil _ hne] at hc
    exact hcs c (List.mem_of_mem_head? hc)
  have hlast : ∀ c ∈ cs.reverse.head?, isBlank c = false :=
    fun c hc => hcs c (List.mem_reverse.1 (List.mem_of_mem_head? hc))
  have hafter' : ∀ c ∈ after.reverse, isBlank c = true :=
    fun c hc => hafter c (List.mem_reverse.1 hc)
  rw [trimmed, dropWhile_run hbefore hhead, List.reverse_append, dropWhile_run hafter' hlast,
    List.reverse_reverse]

end Text

namespace Version

/-! ## Numbers -/

/-- A row of digits with this value. -/
def IsDigits (cs : List Char) (n : UInt16) : Prop :=
  cs ≠ [] ∧ (∀ c ∈ cs, c.isDigit = true) ∧ Nat.ofDigitChars 10 cs 0 = n.toNat

/-- A plus sign may stand in front of the digits. -/
def IsNumber (cs : List Char) (n : UInt16) : Prop :=
  IsDigits cs n ∨ ∃ digits, cs = '+' :: digits ∧ IsDigits digits n

variable {cs : List Char} {n : UInt16} {v : Version} {s : String}

theorem ofDigits?_eq_some_iff {value : Nat} : Number.ofDigits? cs = some value ↔
    cs ≠ [] ∧ (∀ c ∈ cs, c.isDigit = true) ∧ Nat.ofDigitChars 10 cs 0 = value := by
  unfold Number.ofDigits?
  rw [Option.ite_none_right_eq_some, List.all_eq_true, and_assoc, Option.some_inj]
  rfl

theorem natural?_eq_some_iff {value : Nat} : Number.natural? cs = some value ↔
    Number.ofDigits? cs = some value ∨
      ∃ digits, cs = '+' :: digits ∧ Number.ofDigits? digits = some value := by
  unfold Number.natural?
  split
  · next digits =>
    have hplus : Number.ofDigits? ('+' :: digits) = none := by
      unfold Number.ofDigits?
      simp
    simp [hplus]
  · next hplus =>
    constructor
    · exact .inl
    · rintro (h | ⟨digits, rfl, -⟩)
      · exact h
      · exact (hplus digits rfl).elim

theorem isDigits_iff : IsDigits cs n ↔
    ∃ value, Number.ofDigits? cs = some value ∧ value < 65536 ∧ UInt16.ofNat value = n := by
  simp only [ofDigits?_eq_some_iff]
  constructor
  · rintro ⟨hne, hall, hvalue⟩
    exact ⟨n.toNat, ⟨hne, hall, hvalue⟩, n.toNat_lt, UInt16.ofNat_toNat⟩
  · rintro ⟨value, ⟨hne, hall, hvalue⟩, hlt, rfl⟩
    refine ⟨hne, hall, ?_⟩
    rw [hvalue, UInt16.toNat_ofNat_of_lt' hlt]

theorem component?_eq_some_iff : component? cs = some n ↔ IsNumber cs n := by
  unfold component? Number.naturalBelow? IsNumber
  simp only [Option.map_eq_some_iff, Option.filter_eq_some_iff, decide_eq_true_eq,
    natural?_eq_some_iff, isDigits_iff]
  constructor
  · rintro ⟨value, ⟨h | ⟨digits, hcs, h⟩, hlt⟩, hn⟩
    · exact .inl ⟨value, h, hlt, hn⟩
    · exact .inr ⟨digits, hcs, value, h, hlt, hn⟩
  · rintro (⟨value, h, hlt, hn⟩ | ⟨digits, hcs, value, h, hlt, hn⟩)
    · exact ⟨value, ⟨.inl h, hlt⟩, hn⟩
    · exact ⟨value, ⟨.inr ⟨digits, hcs, h⟩, hlt⟩, hn⟩

theorem IsNumber.mem (h : IsNumber cs n) : cs ≠ [] ∧ ∀ c ∈ cs, c.isDigit = true ∨ c = '+' := by
  rcases h with ⟨hne, hall, -⟩ | ⟨digits, rfl, -, hall, -⟩
  · exact ⟨hne, fun c hc => .inl (hall c hc)⟩
  · rw [List.forall_mem_cons]
    exact ⟨List.cons_ne_nil _ _, .inr rfl, fun c hc => .inl (hall c hc)⟩

/-! ## Rows of numbers -/

/-- One to three numbers with points between them. Those that are left out are zero. -/
inductive Joins (isNumber : List Char → UInt16 → Prop) : List Char → Version → Prop
  | major {a : List Char} {major : UInt16} (ha : isNumber a major) : Joins isNumber a ⟨major, 0, 0⟩
  | minor {a b : List Char} {major minor : UInt16} (ha : isNumber a major) (hb : isNumber b minor) :
    Joins isNumber (a ++ '.' :: b) ⟨major, minor, 0⟩
  | micro {a b c : List Char} {major minor micro : UInt16} (ha : isNumber a major)
    (hb : isNumber b minor) (hc : isNumber c micro) :
    Joins isNumber (a ++ '.' :: (b ++ '.' :: c)) ⟨major, minor, micro⟩

/-- The text writes the version, perhaps with blanks around it. -/
def Spells (isNumber : List Char → UInt16 → Prop) (s : String) (v : Version) : Prop :=
  ∃ before cs after, (∀ c ∈ before, Text.isBlank c = true) ∧
    (∀ c ∈ after, Text.isBlank c = true) ∧ s.toList = before ++ (cs ++ after) ∧
    Joins isNumber cs v

/-- The version with these numbers. -/
def ofNumbers? : List UInt16 → Option Version
  | [major] => some { major }
  | [major, minor] => some { major, minor }
  | [major, minor, micro] => some { major, minor, micro }
  | _ => none

theorem ofText?_eq (s : String) : ofText? s =
    ((Text.fields '.' (Text.trimmed s.toList)).mapM component?).bind ofNumbers? := by
  unfold ofText?
  cases (Text.fields '.' (Text.trimmed s.toList)).mapM component? with
  | none => rfl
  | some numbers =>
    rcases numbers with _ | ⟨major, _ | ⟨minor, _ | ⟨micro, _ | ⟨fourth, rest⟩⟩⟩⟩ <;> rfl

theorem mapM_eq_some_iff {α β : Type} {f : α → Option β} {as : List α} {bs : List β} :
    as.mapM f = some bs ↔ List.Forall₂ (fun a b => f a = some b) as bs := by
  induction as generalizing bs with
  | nil => simp [eq_comm]
  | cons a as ih =>
    rw [List.mapM_cons]
    constructor
    · intro h
      obtain ⟨b, hb, h⟩ := Option.bind_eq_some_iff.1 h
      obtain ⟨bs', hbs, h⟩ := Option.bind_eq_some_iff.1 h
      obtain rfl := Option.some.inj h
      exact .cons hb (ih.1 hbs)
    · rintro (_ | ⟨hb, hbs⟩)
      rw [hb, ih.2 hbs]
      rfl

/-- Without its blanks a text that is read is a row of numbers, and the other way round. -/
theorem joins_iff : Joins IsNumber cs v ↔
    ((Text.fields '.' cs).mapM component?).bind ofNumbers? = some v := by
  have hpoint {piece : List Char} {n : UInt16} (h : IsNumber piece n) : '.' ∉ piece := by
    intro hmem
    rcases h.mem.2 '.' hmem with hc | hc <;> cases hc
  rw [Option.bind_eq_some_iff]
  simp only [mapM_eq_some_iff, component?_eq_some_iff]
  constructor
  · rintro (ha | ⟨ha, hb⟩ | ⟨ha, hb, hc⟩)
    · rw [Text.fields_of_not_mem (hpoint ha)]
      exact ⟨_, .cons ha .nil, rfl⟩
    · rw [Text.fields_append (hpoint ha), Text.fields_of_not_mem (hpoint hb)]
      exact ⟨_, .cons ha (.cons hb .nil), rfl⟩
    · rw [Text.fields_append (hpoint ha), Text.fields_append (hpoint hb),
        Text.fields_of_not_mem (hpoint hc)]
      exact ⟨_, .cons ha (.cons hb (.cons hc .nil)), rfl⟩
  · rintro ⟨numbers, hnumbers, hv⟩
    have hcs := Text.intercalate_fields '.' cs
    generalize Text.fields '.' cs = pieces at hnumbers hcs
    unfold ofNumbers? at hv
    split at hv
    · obtain rfl := Option.some.inj hv
      rcases hnumbers with _ | ⟨ha, _ | _⟩
      rw [← hcs, List.intercalate_singleton]
      exact .major ha
    · obtain rfl := Option.some.inj hv
      rcases hnumbers with _ | ⟨ha, _ | ⟨hb, _ | _⟩⟩
      rw [← hcs, List.intercalate_cons_cons, List.intercalate_singleton, List.append_assoc]
      exact .minor ha hb
    · obtain rfl := Option.some.inj hv
      rcases hnumbers with _ | ⟨ha, _ | ⟨hb, _ | ⟨hc, _ | _⟩⟩⟩
      rw [← hcs, List.intercalate_cons_cons, List.intercalate_cons_cons,
        List.intercalate_singleton, List.append_assoc, List.append_assoc]
      exact .micro ha hb hc
    · cases hv

/-! ## Texts -/

/-- What holds of the characters of each number holds of those of a row, apart from the points. -/
theorem Joins.mem {isNumber : List Char → UInt16 → Prop} {p : Char → Prop}
    (hp : ∀ piece n, isNumber piece n → piece ≠ [] ∧ ∀ c ∈ piece, p c)
    (h : Joins isNumber cs v) : cs ≠ [] ∧ ∀ c ∈ cs, p c ∨ c = '.' := by
  have hmem {piece : List Char} {n : UInt16} (hn : isNumber piece n) : ∀ c ∈ piece, p c ∨ c = '.' :=
    fun c hc => .inl ((hp piece n hn).2 c hc)
  rcases h with ha | ⟨ha, hb⟩ | ⟨ha, hb, hc⟩
  · exact ⟨(hp _ _ ha).1, hmem ha⟩
  · rw [List.forall_mem_append, List.forall_mem_cons]
    exact ⟨by simp, hmem ha, .inr rfl, hmem hb⟩
  · rw [List.forall_mem_append, List.forall_mem_cons, List.forall_mem_append, List.forall_mem_cons]
    exact ⟨by simp, hmem ha, .inr rfl, hmem hb, .inr rfl, hmem hc⟩

theorem isBlank_eq_false {c : Char} (h : (c.isDigit = true ∨ c = '+') ∨ c = '.') :
    Text.isBlank c = false := by
  rcases h with (h | rfl) | rfl
  · unfold Char.isDigit at h
    rw [Bool.and_eq_true, decide_eq_true_eq, decide_eq_true_eq] at h
    have hlo : 48 ≤ c.toNat := UInt32.le_iff_toNat_le.1 h.1
    have hhi : c.toNat ≤ 57 := UInt32.le_iff_toNat_le.1 h.2
    unfold Text.isBlank
    simp
    omega
  · rfl
  · rfl

theorem spells_iff : Spells IsNumber s v ↔ ofText? s = some v := by
  rw [ofText?_eq, ← joins_iff]
  constructor
  · rintro ⟨before, cs, after, hbefore, hafter, hs, h⟩
    obtain ⟨hne, hmem⟩ := h.mem fun _ _ => IsNumber.mem
    rwa [hs, Text.trimmed_between hbefore hafter hne fun c hc => isBlank_eq_false (hmem c hc)]
  · intro h
    obtain ⟨before, after, hbefore, hafter, hs⟩ := Text.exists_blanks s.toList
    exact ⟨before, _, after, hbefore, hafter, hs, h⟩

theorem isNumber_toString (n : UInt16) : IsNumber (toString n.toNat).toList n := by
  rw [Nat.toString_eq_ofList_toDigits, String.toList_ofList]
  exact .inl ⟨Nat.toDigits_ne_nil,
    fun c hc => Nat.isDigit_of_mem_toDigits (by decide) (by decide) hc,
    Nat.ofDigitChars_ten_toDigits⟩

theorem joins_text (v : Version) : Joins IsNumber v.text.toList v := by
  have hmajor := isNumber_toString v.major
  have hminor := isNumber_toString v.minor
  unfold text
  split
  · next hzero =>
    have hv : v = ⟨v.major, v.minor, 0⟩ := by rw [← hzero]
    rw [hv]
    simpa using Joins.minor hmajor hminor
  · simpa using Joins.micro hmajor hminor (isNumber_toString v.micro)

theorem ofText?_text (v : Version) : ofText? v.text = some v :=
  spells_iff.1 ⟨[], v.text.toList, [], nofun, nofun, by simp, joins_text v⟩

/-- A text is read as the version that it spells, and settings with a text that spells none are
refused with this text. What is written for a version is read as this version. -/
theorem reads_spelled_texts (s : String) (settings : Settings) (product : Product) :
    let settings := { settings with version := some s }
    (∀ v, ofText? s = some v ↔ Spells IsNumber s v) ∧
      (∀ v, settings.version? product = .ok v ↔ Spells IsNumber s v) ∧
      (∀ e, settings.version? product = .error e ↔
        e = .invalidVersion s ∧ ∀ v, ¬Spells IsNumber s v) ∧
      ∀ v : Version, ofText? v.text = some v := by
  intro settings
  have hread : settings.version? product =
      (ofText? s).elim (.error (.invalidVersion s)) .ok := by
    simp only [Settings.version?, settings]
    cases ofText? s <;> rfl
  refine ⟨fun v => spells_iff.symm, fun v => ?_, fun e => ?_, ofText?_text⟩
  · rw [hread, spells_iff]
    cases ofText? s <;> simp
  · simp only [hread, spells_iff]
    cases ofText? s <;> simp [eq_comm]

/-- Where no plus sign is allowed, a version is spelled with digits, points and blanks alone. -/
theorem Spells.mem (h : Spells IsDigits s v) :
    ∀ c ∈ s.toList, Text.isBlank c = true ∨ c.isDigit = true ∨ c = '.' := by
  obtain ⟨before, cs, after, hbefore, hafter, hs, hjoins⟩ := h
  obtain ⟨-, hmem⟩ := hjoins.mem fun piece n hn => ⟨hn.1, hn.2.1⟩
  rw [hs, List.forall_mem_append, List.forall_mem_append]
  exact ⟨fun c hc => .inl (hbefore c hc), fun c hc => .inr (hmem c hc),
    fun c hc => .inl (hafter c hc)⟩

theorem plusSign_read : ofText? "+9.3" = some ⟨9, 3, 0⟩ ∧ ∀ v, ¬Spells IsDigits "+9.3" v := by
  refine ⟨by decide, fun v h => ?_⟩
  have hplus := h.mem '+' (by decide)
  simp [Text.isBlank] at hplus

end Version

end SqlDialects
