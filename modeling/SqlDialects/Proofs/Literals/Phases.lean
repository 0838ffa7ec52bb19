import SqlDialects.Proofs.Literals.Scan
import SqlDialects.Proofs.Rendering.Nodes

/-!
# Phases of a rendering

Between two slots of a layout a reader can only be in few places. Behind most texts that is code,
behind a node also the end of a literal or of a placeholder, and where a pattern has put an
argument into quotes it is a literal.
-/

namespace SqlDialects

/-! ## Texts -/

namespace Text

/-- A text with no apostrophe and no sign of a placeholder. -/
def isPlain (t : String) : Bool := t.toList.all fun c => c != '\x27' && !Sql.Spot.isSign c

/-- A plain text that can stand behind a placeholder. -/
def isLink (t : String) : Bool := isPlain t && t.toList.head?.any fun c => !c.isDigit

variable {t u : String}

theorem isPlain_append : isPlain (t ++ u) = (isPlain t && isPlain u) := by simp [isPlain]

theorem isLink_append (ht : isLink t = true) (hu : isPlain u = true) : isLink (t ++ u) = true := by
  obtain ⟨hplain, hhead⟩ := Bool.and_eq_true_iff.1 ht
  have hne : t.toList ≠ [] := by rintro h; simp [h] at hhead
  rw [isLink, isPlain_append, hplain, hu, String.toList_append]
  cases h : t.toList with
  | nil => contradiction
  | cons c cs => simpa [h] using hhead

/-- A name of letters, digits and underscores is plain. -/
theorem isPlain_of_identifier (h : t.toList.all (fun c => c.isAlphanum || c == '_') = true) :
    isPlain t = true := by
  rw [List.all_eq_true] at h
  refine List.all_eq_true.2 fun c hc => ?_
  have hc := h c hc
  simp only [Bool.and_eq_true, bne_iff_ne, Sql.Spot.isSign, Bool.not_eq_true', Bool.or_eq_false_iff,
    beq_eq_false_iff_ne]
  refine ⟨?_, ?_, ?_⟩ <;> rintro rfl <;> exact absurd hc (by decide)

end Text

namespace Sql

/-! ## Phases -/

inductive Phase where
  /-- In code, and not behind a placeholder. -/
  | ready
  /-- In code, perhaps right behind a literal or a placeholder. -/
  | ended
  /-- In a literal. -/
  | inside
  deriving DecidableEq, Repr

namespace Phase

def spots : Phase → List Spot
  | ready => [.code]
  | ended => [.code, .apostrophe, .placeholder]
  | inside => [.literal]

/-- A text takes a reader from each spot of the phase to one of the other phase. -/
def leads (p q : Phase) (cs : List Char) : Bool :=
  p.spots.all fun s => (cs.foldlM Spot.pass s).any fun s' => q.spots.contains s'

end Phase

namespace Rendered

/-- A reader who starts in the first phase comes out in the second one. -/
def Leads (p q : Phase) (r : Rendered) : Prop :=
  ∀ f, r = .ok f → ∀ s ∈ p.spots, ∃ s' ∈ q.spots, s.passAll f.pieces = some s'

variable {p q k : Phase} {r r' : Rendered}

@[simp]
theorem leads_error (e : DialectError) : Leads p q (.error e) := nofun

@[simp]
theorem leads_malformed (reason : String) : Leads p q (malformed reason) := nofun

@[simp]
theorem leads_refuse (c : Context) (construct : String) (minimum : Option Version) :
    Leads p q (c.refuse construct minimum) := nofun

theorem leads_ok {f : Fragment}
    (h : ∀ s ∈ p.spots, ∃ s' ∈ q.spots, s.passAll f.pieces = some s') : Leads p q (.ok f) :=
  fun _ hf => Except.ok.inj hf ▸ h

@[simp]
theorem leads_empty : Leads p p empty := leads_ok fun s hs => ⟨s, hs, rfl⟩

@[simp]
theorem leads_warning (w : TranslationWarning) : Leads p p (.warning w) :=
  leads_ok fun s hs => ⟨s, hs, rfl⟩

theorem Leads.andThen (h : Leads p q r) (h' : Leads q k r') : Leads p k (r.andThen r') := by
  intro f hf s hs
  obtain ⟨g, g', rfl, rfl, rfl⟩ := andThen_ok_iff.1 hf
  obtain ⟨t, ht, hg⟩ := h g rfl s hs
  obtain ⟨u, hu, hg'⟩ := h' g' rfl t ht
  exact ⟨u, hu, by rw [Fragment.append_pieces, Spot.passAll_append, hg]; exact hg'⟩

theorem Leads.toEnded (h : Leads p .ready r) : Leads p .ended r := by
  intro f hf s hs
  obtain ⟨s', hs', hpass⟩ := h f hf s hs
  exact ⟨s', List.mem_cons.2 (.inl (List.mem_singleton.1 hs')), hpass⟩

theorem Leads.ofReady (h : Leads .ended q r) : Leads .ready q r :=
  fun f hf s hs => h f hf s (List.mem_cons.2 (.inl (List.mem_singleton.1 hs)))

theorem leads_piece {f : Fragment} {piece : Piece} {t : String} (hf : f.pieces = [piece])
    (hp : ∀ s : Spot, s.passPiece piece = s.passText t) (h : p.leads q t.toList = true) :
    Leads p q (.ok f) := by
  refine leads_ok fun s hs => ?_
  obtain ⟨s', hs', hq⟩ := (Option.any_eq_true _ _).1 (List.all_eq_true.1 h s hs)
  refine ⟨s', List.contains_iff_mem.1 hq, ?_⟩
  rw [hf]
  exact Spot.passAll_cons_eq_some_iff.2 ⟨s', (hp s).trans hs', rfl⟩

theorem leads_text {t : String} (h : p.leads q t.toList = true) : Leads p q (.text t) :=
  leads_piece rfl (fun _ => rfl) h

end Rendered

namespace Spot

theorem passChars_of_plain {cs : List Char}
    (h : cs.all (fun c => c != '\x27' && !isSign c) = true) : cs.foldlM pass code = some code := by
  induction cs with
  | nil => rfl
  | cons c cs ih =>
    simp only [List.all_cons, Bool.and_eq_true, bne_iff_ne, Bool.not_eq_true'] at h
    obtain ⟨⟨hquote, hsign⟩, hrest⟩ := h
    refine passChars_cons.2 ⟨hsign, ?_⟩
    simpa [region, Text.Region.after, hquote, ofRegion] using ih hrest

theorem passChars_of_link {t : String} (h : Text.isLink t = true) {s : Spot}
    (hs : s ∈ Phase.ended.spots) : t.toList.foldlM pass s = some code := by
  obtain ⟨hplain, hhead⟩ := Bool.and_eq_true_iff.1 h
  unfold Text.isPlain at hplain
  cases hcs : t.toList with
  | nil => simp [hcs] at hhead
  | cons c cs =>
    simp only [hcs, List.all_cons, Bool.and_eq_true, bne_iff_ne, Bool.not_eq_true'] at hplain
    obtain ⟨⟨hquote, hsign⟩, hrest⟩ := hplain
    have hdigit : c.isDigit = false := by simpa [hcs] using hhead
    have hcode : ofRegion (s.region.after c) = code := by
      cases s <;> simp_all [Phase.spots, region, Text.Region.after, ofRegion]
    refine passChars_cons.2 ⟨?_, hcode ▸ passChars_of_plain hrest⟩
    cases s <;> simp_all [refuses]

/-- Without an apostrophe a text does not get out of a literal. -/
theorem passChars_literal {cs : List Char} (h : '\x27' ∉ cs) :
    cs.foldlM pass literal = some literal := by
  induction cs with
  | nil => rfl
  | cons c cs ih =>
    rw [List.mem_cons, not_or] at h
    refine passChars_cons.2 ⟨rfl, ?_⟩
    simpa [region, Text.Region.after, Ne.symm h.1, ofRegion] using ih h.2

end Spot

/-- A piece that can stand in a literal. -/
def Piece.IsQuiet : Piece → Prop
  | text t | name t => '\x27' ∉ t.toList
  | string _ | parameter _ => False

theorem Spot.passAll_literal {pieces : List Piece} (h : ∀ piece ∈ pieces, piece.IsQuiet) :
    literal.passAll pieces = some literal := by
  induction pieces with
  | nil => rfl
  | cons piece rest ih =>
    rw [List.forall_mem_cons] at h
    refine passAll_cons_eq_some_iff.2 ⟨literal, ?_, ih h.2⟩
    cases piece with
    | text t | name t => exact passChars_literal h.1
    | string | parameter => exact h.1.elim

theorem Phase.leads_of_plain {t : String} (h : Text.isPlain t = true) :
    Phase.leads .ready .ready t.toList = true := by
  simp [leads, spots, Spot.passChars_of_plain h]

theorem Phase.leads_of_link {t : String} (h : Text.isLink t = true) :
    Phase.leads .ended .ready t.toList = true :=
  List.all_eq_true.2 fun s hs => by simp [Spot.passChars_of_link h hs, spots]

namespace Rendered

open Phase

variable {t : String}

theorem leads_plain (h : Text.isPlain t = true) : Leads ready ready (.text t) :=
  leads_text (leads_of_plain h)

theorem leads_link (h : Text.isLink t = true) : Leads ended ready (.text t) :=
  leads_text (leads_of_link h)

theorem leads_name (h : Text.isPlain t = true) : Leads ready ready (.name t) :=
  leads_piece rfl (fun _ => rfl) (leads_of_plain h)

theorem leads_table (h : Text.isPlain t = true) : Leads ready ready (.table t) :=
  leads_piece rfl (fun _ => rfl) (leads_of_plain h)

theorem leads_string (content : String) : Leads ready ended (.string content) :=
  leads_ok fun s hs => by
    obtain rfl := List.mem_singleton.1 hs
    exact ⟨.apostrophe, by decide, rfl⟩

theorem leads_parameter (p : BindParameter) : Leads ready ended (.parameter p) :=
  leads_ok fun s hs => by
    obtain rfl := List.mem_singleton.1 hs
    exact ⟨.placeholder, by decide, rfl⟩

theorem leads_textIf {p : Phase} {isWritten : Bool} (h : Leads p p (.text t)) :
    Leads p p (.textIf isWritten t) := by
  unfold textIf
  split
  · exact h
  · exact leads_empty

theorem leads_inside {r : Rendered} (h : ∀ f, r = .ok f → ∀ piece ∈ f.pieces, piece.IsQuiet) :
    Leads inside inside r := by
  intro f hf s hs
  obtain rfl := List.mem_singleton.1 hs
  exact ⟨.literal, hs, Spot.passAll_literal (h f hf)⟩

end Rendered

/-! ## Rows of slots -/

namespace Slot

/-- A reader who starts in the first phase comes through the slots to the second one. -/
def Leads (c : Context) (p q : Phase) (slots : List Slot) : Prop := (fill c slots).Leads p q

open Phase

variable {c : Context} {p q k : Phase} {slot : Slot} {slots slots' : List Slot}

theorem leads_nil : Leads c p p [] := Rendered.leads_empty

theorem Leads.cons (h : (slot.render c).Leads p q) (hs : Leads c q k slots) :
    Leads c p k (slot :: slots) := h.andThen hs

theorem leads_single (h : (slot.render c).Leads p q) : Leads c p q [slot] := .cons h leads_nil

theorem Leads.append (h : Leads c p q slots) (h' : Leads c q k slots') :
    Leads c p k (slots ++ slots') := by
  unfold Leads
  rw [fill_append]
  exact Rendered.Leads.andThen h h'

theorem leads_fail {e : DialectError} : Leads c p q (fail e) := Rendered.leads_error e

theorem leads_malformed {reason : String} : Leads c p q (malformed reason) :=
  Rendered.leads_malformed reason

theorem Leads.toEnded (h : Leads c p ready slots) : Leads c p ended slots :=
  Rendered.Leads.toEnded h

theorem Leads.ofReady (h : Leads c ended q slots) : Leads c ready q slots :=
  Rendered.Leads.ofReady h

theorem Leads.parenthesized (h : Leads c ready ended slots) :
    Leads c ready ended (parenthesized slots) :=
  .append (.cons (Rendered.leads_plain rfl) h) (leads_single (Rendered.leads_link rfl).toEnded)

theorem leads_separated {separator : String} {rows : List (List Slot)}
    (hsep : Text.isLink separator = true) (h : ∀ row ∈ rows, Leads c ready ended row) :
    Leads c ready ended (separated separator rows) := by
  induction rows with
  | nil => exact leads_nil.toEnded
  | cons row rest ih =>
    rw [List.forall_mem_cons] at h
    cases rest with
    | nil => exact h.1
    | cons next rest => exact h.1.append (.cons (Rendered.leads_link hsep) (ih h.2))

theorem leads_clause {keyword : String} {row : Option (List Slot)}
    (hkey : Text.isLink keyword = true)
    (h : ∀ slots, row = some slots → Leads c ready ended slots) :
    Leads c ended ended (clause keyword row) := by
  cases row with
  | none => exact leads_nil
  | some slots => exact .cons (Rendered.leads_link hkey) (h slots rfl)

theorem leads_flatMap {α : Type} {items : List α} {layout : α → List Slot}
    (h : ∀ item ∈ items, Leads c p p (layout item)) : Leads c p p (items.flatMap layout) := by
  induction items with
  | nil => exact leads_nil
  | cons item rest ih =>
    rw [List.forall_mem_cons] at h
    exact h.1.append (ih h.2)

end Slot

end Sql

/-! ## Templates -/

theorem SortedMap.mem_of_get? {κ ν : Type} [BEq κ] [LawfulBEq κ] {m : SortedMap κ ν} {k : κ}
    {v : ν} (h : m.get? k = some v) : (k, v) ∈ m.toList := by
  obtain ⟨front, back, hlist, -⟩ := List.lookup_eq_some_iff.1 h
  simp [hlist]

open Sql (Phase)

/-- The numbers of the arguments that stand in a literal. -/
def Segment.quotedFrom : Text.Region → List Segment → List Nat
  | _, [] => []
  | r, .text t :: rest => quotedFrom (r.afterAll t.toList) rest
  | .literal, .argument index :: rest => index :: quotedFrom .literal rest
  | _, .argument _ :: rest => quotedFrom .code rest

/-- The template writes an argument inside of quotes. -/
def FunctionTemplate.quotes (template : FunctionTemplate) (count index : Nat) : Bool :=
  match template.expand count with
  | .ok segments => (Segment.quotedFrom .code segments).contains index
  | .error _ => false

namespace Sql.Phase

def stepText (p : Phase) (cs : List Char) : Option Phase :=
  [ready, ended, inside].find? fun q => p.leads q cs

def stepArgument : Phase → Option Phase
  | ready => some ended
  | ended => none
  | inside => some inside

def step (p : Phase) : Segment → Option Phase
  | .text t => p.stepText t.toList
  | .argument _ => p.stepArgument

def run (p : Phase) (segments : List Segment) : Option Phase := segments.foldlM step p

theorem run_cons_eq_some_iff {p q : Phase} {segment : Segment} {rest : List Segment} :
    p.run (segment :: rest) = some q ↔ ∃ k, p.step segment = some k ∧ k.run rest = some q := by
  rw [run, List.foldlM_cons]
  exact Option.bind_eq_some_iff

theorem run_append {p : Phase} {segments segments' : List Segment} :
    p.run (segments ++ segments') = (p.run segments).bind (run · segments') := List.foldlM_append

theorem step_text {p : Phase} {t : String} (h : p.leads ready t.toList = true) :
    p.step (.text t) = some ready := by simp [step, stepText, h]

theorem leads_of_step {p q : Phase} {t : String} (h : p.step (.text t) = some q) :
    p.leads q t.toList = true := List.find?_some (p := fun q => p.leads q t.toList) h

theorem run_separated {separator : String} (h : Text.isLink separator = true) (count : Nat) :
    ready.run (Segment.separated separator count) = some (if count = 0 then ready else ended) := by
  induction count with
  | zero => rfl
  | succ n ih =>
    cases n with
    | zero => rfl
    | succ n =>
      rw [Segment.separated, run_append, ih]
      refine run_cons_eq_some_iff.2 ⟨ready, step_text (leads_of_link h), rfl⟩

theorem region_of_step {p q : Phase} {t : String} {r : Text.Region}
    (hr : r ∈ p.spots.map Spot.region) (h : p.step (.text t) = some q) :
    r.afterAll t.toList ∈ q.spots.map Spot.region := by
  obtain ⟨s, hs, rfl⟩ := List.mem_map.1 hr
  obtain ⟨s', hs', hq⟩ := (Option.any_eq_true _ _).1 (List.all_eq_true.1 (leads_of_step h) s hs)
  exact List.mem_map.2 ⟨s', List.contains_iff_mem.1 hq, Spot.region_of_passChars hs'⟩

end Sql.Phase

def Sql.Phase.stepToken (p : Phase) (token : Template.Token) : Option Phase :=
  match token.kind with
  | .argument _ => p.stepArgument
  | _ => p.stepText token.chars

/-- A reader comes through the pattern and out of all of its literals. The tokens have their
characters already, so that none of them is read from a text again. -/
def Pattern.isClean (pattern : Pattern) : Bool :=
  ((Template.tokens pattern.source).foldlM Phase.stepToken .ready).any (· != .inside)

theorem Sql.Phase.step_segment (p : Phase) (token : Template.Token) :
    p.step (Pattern.segment token) = p.stepToken token := by
  unfold Pattern.segment stepToken
  cases token.kind <;> simp [step, Template.Token.text]

theorem Sql.Phase.run_segments (p : Phase) (pattern : Pattern) :
    p.run pattern.segments = (Template.tokens pattern.source).foldlM Phase.stepToken p := by
  simp only [run, Pattern.segments, List.foldlM_map, step_segment]

def FunctionRendering.isClean : FunctionRendering → Bool
  | patterns byCount => byCount.toList.all (·.2.isClean)
  | named sqlName => Text.isPlain sqlName
  | joined operator => Text.isLink operator

namespace FunctionTemplate

theorem run_call {opening separator : String} (hopen : Text.isPlain opening = true)
    (hsep : Text.isLink separator = true) (count : Nat) :
    Phase.ready.run (.text opening :: Segment.separated separator count ++ [.text ")"]) =
      some .ready := by
  rw [List.cons_append]
  refine Phase.run_cons_eq_some_iff.2 ⟨.ready, Phase.step_text (Phase.leads_of_plain hopen), ?_⟩
  rw [Phase.run_append, Phase.run_separated hsep]
  split <;> rfl

theorem run_pattern {byCount : SortedMap Nat Pattern} {count : Nat} {pattern : Pattern}
    (h : byCount.toList.all (·.2.isClean) = true) (hp : byCount.get? count = some pattern) :
    ∃ q, Phase.ready.run pattern.segments = some q ∧ q ≠ .inside := by
  have hclean := List.all_eq_true.1 h _ (SortedMap.mem_of_get? hp)
  rw [Pattern.isClean, ← Phase.run_segments] at hclean
  obtain ⟨q, hq, hne⟩ := (Option.any_eq_true _ _).1 hclean
  exact ⟨q, hq, by simpa using hne⟩

theorem run_expand {template : FunctionTemplate} (h : template.rendering.isClean = true)
    {count : Nat} {segments : List Segment} (he : template.expand count = .ok segments) :
    ∃ q, Phase.ready.run segments = some q ∧ q ≠ .inside := by
  rcases expand_ok_cases he with ⟨byCount, pattern, hr, hp, rfl⟩ | ⟨sqlName, hr, rfl⟩ |
    ⟨operator, hr, rfl⟩
  · rw [hr] at h
    exact run_pattern h hp
  · rw [hr] at h
    have h : Text.isPlain sqlName = true := h
    have hopen : Text.isPlain (sqlName ++ "(") = true := by rw [Text.isPlain_append, h]; rfl
    exact ⟨.ready, run_call hopen rfl count, by decide⟩
  · rw [hr] at h
    exact ⟨.ready, run_call rfl h count, by decide⟩

end FunctionTemplate

namespace Sql

open Phase

variable {c : Context}

theorem leads_argument {template : FunctionTemplate} {arguments : List Slot} {p q : Phase}
    {index : Nat} (h : ∀ slot, arguments[index]? = some slot → (slot.render c).Leads p q) :
    ((Context.argumentSlot template arguments (.argument index)).render c).Leads p q := by
  simp only [Context.argumentSlot]
  split
  · next slot hslot => exact h slot hslot
  · exact Rendered.leads_malformed _

theorem leads_segments {template : FunctionTemplate} {arguments : List Slot} {p q : Phase}
    {segments : List Segment} {r : Text.Region} (hr : r ∈ p.spots.map Spot.region)
    (hrun : p.run segments = some q)
    (harguments : ∀ slot ∈ arguments, (slot.render c).Leads ready ended)
    (hquoted : ∀ index ∈ Segment.quotedFrom r segments, ∀ slot, arguments[index]? = some slot →
      (slot.render c).Leads inside inside) :
    Slot.Leads c p q (segments.map (Context.argumentSlot template arguments)) := by
  induction segments generalizing p r with
  | nil =>
    obtain rfl := Option.some.inj hrun
    exact Slot.leads_nil
  | cons segment rest ih =>
    obtain ⟨k, hk, hrest⟩ := run_cons_eq_some_iff.1 hrun
    cases segment with
    | text t =>
      exact .cons (Rendered.leads_text (leads_of_step hk)) (ih (region_of_step hr hk) hrest hquoted)
    | argument index =>
      cases p with
      | ended => simp [step, stepArgument] at hk
      | ready =>
        -- The region goes along with the phase, so this argument is not among those in quotes.
        obtain rfl := Option.some.inj hk
        obtain rfl : r = .code := by simpa [spots, Spot.region] using hr
        refine .cons (leads_argument fun slot hslot => ?_) (ih (by decide) hrest hquoted)
        exact harguments slot (List.mem_of_getElem? hslot)
      | inside =>
        obtain rfl := Option.some.inj hk
        obtain rfl : r = .literal := by simpa [spots, Spot.region] using hr
        have hquoted := List.forall_mem_cons.1 hquoted
        exact .cons (leads_argument hquoted.1) (ih (by decide) hrest hquoted.2)

theorem leads_templateLayout {template : FunctionTemplate} {arguments : List Slot}
    (h : template.rendering.isClean = true)
    (harguments : ∀ slot ∈ arguments, (slot.render c).Leads ready ended)
    (hquoted : ∀ index, template.quotes arguments.length index = true →
      ∀ slot, arguments[index]? = some slot → (slot.render c).Leads inside inside) :
    Slot.Leads c ready ended (Context.templateLayout template arguments) := by
  unfold Context.templateLayout
  split
  · next segments he =>
    obtain ⟨q, hrun, hq⟩ := FunctionTemplate.run_expand h he
    have hleads : Slot.Leads c ready q
        (segments.map (Context.argumentSlot template arguments)) :=
      leads_segments (r := .code) (by decide) hrun harguments
        fun index hindex => hquoted index (by simpa [FunctionTemplate.quotes, he])
    cases q with
    | ready => exact hleads.toEnded
    | ended => exact hleads
    | inside => contradiction
  · exact Slot.leads_fail

end Sql

end SqlDialects
