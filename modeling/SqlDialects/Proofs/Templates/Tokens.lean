import Mathlib.Data.List.Chain
import SqlDialects.Proofs.Templates.Lexemes

/-!
# The tokens of a template

The tokens divide a template into pieces that are not empty. Neighbouring text becomes one token, so
that no two text tokens stand side by side. The other tokens are the argument marks and the marks of
sizes, and each mark of the template is one of them.
-/

namespace SqlDialects.Template

variable {t u : Token} {raw rest pre post : List Token}

/-! ## One token in front of others -/

theorem Token.chars_ofLexeme (lexeme : Lexeme) : (Token.ofLexeme lexeme).chars = lexeme.chars := by
  cases lexeme <;> rfl

theorem Token.kind_ne_text (h : t.isText = false) : t.kind ≠ .text := by
  intro hk
  rw [isText, hk] at h
  cases h

theorem pushMerged_of_mark (h : t.isText = false) (rest : List Token) :
    t.pushMerged rest = t :: rest := by
  unfold Token.pushMerged
  rw [h, if_neg Bool.false_ne_true]

theorem pushMerged_text (h : t.isText = true) (chars : List Char) (rest : List Token) :
    t.pushMerged (⟨.text, chars⟩ :: rest) = ⟨.text, t.chars ++ chars⟩ :: rest := by
  rw [Token.pushMerged, if_pos h]

theorem pushMerged_of_head (h : t.isText = true) (hrest : ∀ u ∈ rest.head?, u.kind ≠ .text) :
    t.pushMerged rest = ⟨.text, t.chars⟩ :: rest := by
  unfold Token.pushMerged
  rw [if_pos h]
  split
  · next chars more => exact absurd rfl (hrest _ rfl)
  · rfl

/-- A mark stands for itself, and text joins the text behind it, if there is any. -/
theorem pushMerged_cases (t : Token) (rest : List Token) :
    (t.isText = false ∧ t.pushMerged rest = t :: rest) ∨
    (∃ chars more, rest = ⟨.text, chars⟩ :: more ∧
      t.pushMerged rest = ⟨.text, t.chars ++ chars⟩ :: more) ∨
    ((∀ u ∈ rest.head?, u.kind ≠ .text) ∧ t.pushMerged rest = ⟨.text, t.chars⟩ :: rest) := by
  cases h : t.isText with
  | false => exact .inl ⟨rfl, pushMerged_of_mark h rest⟩
  | true =>
    right
    by_cases hrest : ∀ u ∈ rest.head?, u.kind ≠ .text
    · exact .inr ⟨hrest, pushMerged_of_head h hrest⟩
    · simp only [not_forall, not_not, exists_prop] at hrest
      obtain ⟨⟨kind, chars⟩, hu, rfl⟩ := hrest
      obtain ⟨more, rfl⟩ := List.head?_eq_some_iff.1 hu
      exact .inl ⟨chars, more, rfl, pushMerged_text h chars more⟩

theorem flatMap_pushMerged {f : Token → List Char}
    (hf : ∀ t : Token, t.isText = true → f t = t.chars) (t : Token) (rest : List Token) :
    (t.pushMerged rest).flatMap f = f t ++ rest.flatMap f := by
  have htext (chars : List Char) : f ⟨.text, chars⟩ = chars := hf ⟨.text, chars⟩ rfl
  cases ht : t.isText with
  | false => rw [pushMerged_of_mark ht, List.flatMap_cons]
  | true =>
    rcases pushMerged_cases t rest with ⟨-, h⟩ | ⟨chars, more, rfl, h⟩ | ⟨-, h⟩
    · rw [h, List.flatMap_cons]
    · rw [h, List.flatMap_cons, List.flatMap_cons, htext, htext, hf t ht, List.append_assoc]
    · rw [h, List.flatMap_cons, htext, hf t ht]

/-- A mark keeps apart what is merged before it and behind it. -/
theorem pushMerged_append (ht : t.isText = false) (u : Token) (pre post : List Token) :
    u.pushMerged (pre ++ t :: post) = u.pushMerged pre ++ t :: post := by
  cases hu : u.isText with
  | false => rw [pushMerged_of_mark hu, pushMerged_of_mark hu, List.cons_append]
  | true =>
    cases pre with
    | nil =>
      have hhead : ∀ v ∈ (t :: post).head?, v.kind ≠ .text := by
        intro v hv
        obtain rfl : t = v := Option.some.inj hv
        exact Token.kind_ne_text ht
      rw [List.nil_append, pushMerged_of_head hu hhead, pushMerged_of_head hu (by simp)]
      rfl
    | cons first pre =>
      obtain ⟨kind, chars⟩ := first
      by_cases hk : kind = .text
      · subst hk
        rw [List.cons_append, pushMerged_text hu, pushMerged_text hu, List.cons_append]
      · have hhead (more : List Token) :
            ∀ v ∈ ((⟨kind, chars⟩ : Token) :: more).head?, v.kind ≠ .text := by
          intro v hv
          obtain rfl := Option.some.inj hv
          exact hk
        rw [List.cons_append, pushMerged_of_head hu (hhead _), pushMerged_of_head hu (hhead _)]
        rfl

/-! ## Merging -/

/-- Neighbouring text tokens become one. -/
def merged (raw : List Token) : List Token := raw.foldr Token.pushMerged []

theorem merged_cons (t : Token) (raw : List Token) :
    merged (t :: raw) = t.pushMerged (merged raw) := rfl

/-- Merging is not seen by one who copies text. -/
theorem flatMap_merged {f : Token → List Char} (hf : ∀ t : Token, t.isText = true → f t = t.chars)
    (raw : List Token) : (merged raw).flatMap f = raw.flatMap f := by
  induction raw with
  | nil => rfl
  | cons t raw ih => rw [merged_cons, flatMap_pushMerged hf, ih, List.flatMap_cons]

theorem merged_append (ht : t.isText = false) (pre post : List Token) :
    merged (pre ++ t :: post) = merged pre ++ t :: merged post := by
  induction pre with
  | nil => exact pushMerged_of_mark ht _
  | cons u pre ih => rw [List.cons_append, merged_cons, ih, pushMerged_append ht, merged_cons]

/-- A mark among merged tokens was there before. -/
theorem exists_of_merged_eq (ht : t.isText = false) (h : merged raw = pre ++ t :: post) :
    ∃ pre' post', raw = pre' ++ t :: post' ∧ merged pre' = pre ∧ merged post' = post := by
  induction raw generalizing pre with
  | nil => simp [merged] at h
  | cons u raw ih =>
    have hmore :
        (∃ more, merged raw = more ++ t :: post) ∨ pre = [] ∧ u = t ∧ merged raw = post := by
      rw [merged_cons] at h
      rcases pushMerged_cases u (merged raw) with ⟨-, hu⟩ | ⟨chars, more, hraw, hu⟩ | ⟨-, hu⟩
      · rw [hu] at h
        cases pre with
        | nil => exact .inr ⟨rfl, List.cons.inj h⟩
        | cons first pre => exact .inl ⟨pre, (List.cons.inj h).2⟩
      · rw [hu] at h
        cases pre with
        | nil => exact absurd ((List.cons.inj h).1 ▸ rfl) (Token.kind_ne_text ht)
        | cons first pre =>
          refine .inl ⟨⟨.text, chars⟩ :: pre, ?_⟩
          rw [hraw, (List.cons.inj h).2]
          rfl
      · rw [hu] at h
        cases pre with
        | nil => exact absurd ((List.cons.inj h).1 ▸ rfl) (Token.kind_ne_text ht)
        | cons first pre => exact .inl ⟨pre, (List.cons.inj h).2⟩
    rcases hmore with ⟨more, hmore⟩ | ⟨rfl, rfl, rfl⟩
    · obtain ⟨pre', post', rfl, hpre, hpost⟩ := ih hmore
      refine ⟨u :: pre', post', rfl, ?_, hpost⟩
      rw [merged_cons, hmore, pushMerged_append ht] at h
      rw [merged_cons, hpre]
      exact List.append_cancel_right h
    · exact ⟨[], raw, rfl, rfl, rfl⟩

/-- No two text tokens are neighbours among merged tokens. -/
theorem isChain_merged (raw : List Token) :
    (merged raw).IsChain fun t u => ¬(t.kind = .text ∧ u.kind = .text) := by
  induction raw with
  | nil => exact .nil
  | cons t raw ih =>
    rw [merged_cons]
    rcases pushMerged_cases t (merged raw) with ⟨ht, h⟩ | ⟨chars, more, hraw, h⟩ | ⟨hhead, h⟩
    · rw [h, List.isChain_cons]
      exact ⟨fun u hu hboth => Token.kind_ne_text ht hboth.1, ih⟩
    · rw [hraw, List.isChain_cons] at ih
      rw [h, List.isChain_cons]
      exact ⟨fun u hu hboth => ih.1 u hu ⟨rfl, hboth.2⟩, ih.2⟩
    · rw [h, List.isChain_cons]
      exact ⟨fun u hu hboth => hhead u hu hboth.2, ih⟩

/-- Merged tokens are text, or were there before. -/
theorem mem_merged (h : t ∈ merged raw) : t.kind = .text ∨ t.isText = false ∧ t ∈ raw := by
  induction raw with
  | nil => cases h
  | cons u raw ih =>
    rw [merged_cons] at h
    have hmore (h : t ∈ merged raw) : t.kind = .text ∨ t.isText = false ∧ t ∈ u :: raw :=
      (ih h).imp_right fun h => ⟨h.1, List.mem_cons_of_mem _ h.2⟩
    rcases pushMerged_cases u (merged raw) with ⟨hu, hp⟩ | ⟨chars, more, hraw, hp⟩ | ⟨-, hp⟩
    · rcases List.mem_cons.1 (hp ▸ h) with rfl | h
      · exact .inr ⟨hu, List.mem_cons_self⟩
      · exact hmore h
    · rcases List.mem_cons.1 (hp ▸ h) with rfl | h
      · exact .inl rfl
      · exact hmore (hraw ▸ List.mem_cons_of_mem _ h)
    · rcases List.mem_cons.1 (hp ▸ h) with rfl | h
      · exact .inl rfl
      · exact hmore h

theorem ne_nil_of_merged (hraw : ∀ t ∈ raw, t.chars ≠ []) : ∀ t ∈ merged raw, t.chars ≠ [] := by
  induction raw with
  | nil => exact nofun
  | cons u raw ih =>
    rw [List.forall_mem_cons] at hraw
    have ih := ih hraw.2
    rw [merged_cons]
    rcases pushMerged_cases u (merged raw) with ⟨-, h⟩ | ⟨chars, more, hmore, h⟩ | ⟨-, h⟩
    · rw [h, List.forall_mem_cons]
      exact ⟨hraw.1, ih⟩
    · rw [hmore, List.forall_mem_cons] at ih
      rw [h, List.forall_mem_cons]
      exact ⟨List.append_ne_nil_of_left_ne_nil hraw.1 _, ih.2⟩
    · rw [h, List.forall_mem_cons]
      exact ⟨hraw.1, ih⟩

end SqlDialects.Template
