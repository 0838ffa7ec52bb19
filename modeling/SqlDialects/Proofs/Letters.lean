import SqlDialects.Text.Case

/-!
# Capitals and small letters

What holds of the capitals `A` to `Z` holds of their small letters, except that they differ. So a
name has the same small form whether its capitals are made small before or not.
-/

namespace SqlDialects.Text

theorem capital_or_toLower_eq (c : Char) : (∃ i < 26, c = Char.ofNat (65 + i)) ∨ c.toLower = c := by
  unfold Char.toLower
  split
  case isTrue h =>
    have hlo : 65 ≤ c.toNat := UInt32.le_iff_toNat_le.1 h.1
    have hhi : c.toNat ≤ 90 := UInt32.le_iff_toNat_le.1 h.2
    exact .inl ⟨c.toNat - 65, by omega, by rw [Nat.add_sub_cancel' hlo, Char.ofNat_toNat]⟩
  case isFalse => exact .inr rfl

/-- What is known of the capitals `A` to `Z` is known of their small letters. -/
theorem capital_toLower : ∀ i < 26, let c := Char.ofNat (65 + i)
    c.toLower.toLower = c.toLower ∧ isCaseIgnorable c.toLower = isCaseIgnorable c ∧
      isCased c.toLower = isCased c ∧ lowerChar c.toLower = lowerChar c ∧
      c ≠ 'Σ' ∧ c.toLower ≠ 'Σ' := by
  decide +kernel

theorem toLower_toLower (c : Char) : c.toLower.toLower = c.toLower := by
  obtain ⟨i, hi, rfl⟩ | h := capital_or_toLower_eq c
  · exact (capital_toLower i hi).1
  · rw [h, h]

/-- A character that is no letter is not made of another one, and stays as it is. -/
theorem toLower_eq_iff {e : Char} (he : e.isAlpha = false) (c : Char) : c.toLower = e ↔ c = e := by
  obtain ⟨i, hi, rfl⟩ | h := capital_or_toLower_eq c
  · obtain ⟨hcapital, hsmall⟩ : (Char.ofNat (65 + i)).isAlpha = true ∧
        (Char.ofNat (65 + i)).toLower.isAlpha = true := by
      revert i
      decide +kernel
    constructor
    · rintro rfl
      exact absurd he (by simp [hsmall])
    · rintro rfl
      exact absurd he (by simp [hcapital])
  · rw [h]

theorem toNat_lt_of_isAlpha {e : Char} (he : e.isAlpha = true) : e.toNat < 128 := by
  have hcases : (e.isUpper || e.isLower) = true := he
  rcases Bool.or_eq_true_iff.1 hcases with hupper | hlower
  · have hle : e.val ≤ 90 := (of_decide_eq_true hupper).2
    exact Nat.lt_of_le_of_lt (UInt32.le_iff_toNat_le.1 hle) (by decide)
  · have hboth : (decide (97 ≤ e.val) && decide (e.val ≤ 122)) = true := hlower
    have hle : e.val ≤ 122 := of_decide_eq_true (Bool.and_eq_true_iff.1 hboth).2
    exact Nat.lt_of_le_of_lt (UInt32.le_iff_toNat_le.1 hle) (by decide)

theorem isCaseIgnorable_toLower (c : Char) : isCaseIgnorable c.toLower = isCaseIgnorable c := by
  obtain ⟨i, hi, rfl⟩ | h := capital_or_toLower_eq c
  · exact (capital_toLower i hi).2.1
  · rw [h]

theorem isCased_toLower (c : Char) : isCased c.toLower = isCased c := by
  obtain ⟨i, hi, rfl⟩ | h := capital_or_toLower_eq c
  · exact (capital_toLower i hi).2.2.1
  · rw [h]

theorem meetsCased_map_toLower (cs : List Char) :
    meetsCased (cs.map Char.toLower) = meetsCased cs := by
  have hignored : isCaseIgnorable ∘ Char.toLower = isCaseIgnorable :=
    funext isCaseIgnorable_toLower
  simp only [meetsCased, List.dropWhile_map, hignored]
  cases cs.dropWhile isCaseIgnorable with
  | nil => rfl
  | cons c rest => exact isCased_toLower c

theorem lowerAfter_map_toLower (before cs : List Char) :
    lowerAfter (before.map Char.toLower) (cs.map Char.toLower) = lowerAfter before cs := by
  induction cs generalizing before with
  | nil => rfl
  | cons c rest ih =>
    simp only [List.map_cons, lowerAfter, meetsCased_map_toLower]
    congr 1
    · obtain ⟨i, hi, rfl⟩ | h := capital_or_toLower_eq c
      · obtain ⟨-, -, -, hl, hne, hne'⟩ := capital_toLower i hi
        rw [if_neg hne, if_neg hne', hl]
      · rw [h]
    · exact ih (c :: before)

/-- The name with small letters for `A` to `Z`. -/
def folded (s : String) : String := String.ofList (foldAscii s)

@[simp]
theorem foldAscii_folded (s : String) : foldAscii (folded s) = foldAscii s := by
  rw [folded, foldAscii, foldAscii, String.toList_ofList, List.map_map]
  exact List.map_congr_left fun c _ => toLower_toLower c

@[simp]
theorem lower_folded (s : String) : lower (folded s) = lower s := by
  simp only [lower, folded, foldAscii, String.toList_ofList]
  exact congrArg String.ofList (lowerAfter_map_toLower [] s.toList)

theorem sameName_folded (a b : String) : sameName a (folded b) = sameName a b := by
  simp [sameName]

end SqlDialects.Text
