import SqlDialects.Proofs.Literals.Vocabulary

/-!
# Closed calls

An expanded call is closed if it is one word, or if it is in parentheses with at most a word in
front of them. An operator beside it then takes in the whole call. On every product at every
version all calls are closed, except for `bit_length` on Ingres, which ends in a product.
-/

namespace SqlDialects

/-! ## Shapes -/

/-- The text in front of the first argument of a call, and each argument with the text behind it. -/
structure CallShape where
  opening : List Char := []
  places : List (Nat × List Char) := []
  deriving DecidableEq, Repr

namespace CallShape

def texts (shape : CallShape) : List (List Char) := shape.opening :: shape.places.map (·.2)

def addText (cs : List Char) (shape : CallShape) : CallShape :=
  { shape with opening := cs ++ shape.opening }

def addArgument (index : Nat) (shape : CallShape) : CallShape :=
  ⟨[], (index, shape.opening) :: shape.places⟩

def ofSegments : List Segment → CallShape
  | [] => {}
  | .text t :: rest => (ofSegments rest).addText t.toList
  | .argument index :: rest => (ofSegments rest).addArgument index

def ofTokens : List Template.Token → CallShape
  | [] => {}
  | token :: rest =>
    match token.kind with
    | .argument n => (ofTokens rest).addArgument (n - 1)
    | _ => (ofTokens rest).addText token.chars

theorem ofSegments_segments (pattern : Pattern) :
    ofSegments pattern.segments = ofTokens (Template.tokens pattern.source) := by
  unfold Pattern.segments
  induction Template.tokens pattern.source with
  | nil => rfl
  | cons token rest ih =>
    rw [List.map_cons, ofTokens, ← ih]
    unfold Pattern.segment
    cases token.kind <;> simp [ofSegments, Template.Token.text]

/-- `bit_length` on Ingres: eight times the bytes, which are half as many as the digits. -/
def hexLength : CallShape := ⟨"octet_length(hex(".toList, [(0, "))*4".toList)]⟩

end CallShape

/-! ## Closed texts -/

/-- How far a reader has come in a closed call. -/
inductive Reach where
  | start
  | word
  /-- In parentheses, and in so many more of them. -/
  | inside (depth : Nat)
  | closed
  deriving DecidableEq, Repr

namespace Reach

def isWordChar (c : Char) : Bool := c.isAlphanum || c == '_'

def isFlat (cs : List Char) : Bool := cs.all fun c => c != '(' && c != ')'

def step : Reach → Char → Option Reach
  | start, c | word, c =>
    if c = '(' then some (inside 0) else if isWordChar c then some word else none
  | inside depth, c =>
    if c = '(' then some (inside (depth + 1))
    else if c = ')' then some (if depth = 0 then closed else inside (depth - 1))
    else some (inside depth)
  | closed, _ => none

def readText (r : Reach) (cs : List Char) : Option Reach := cs.foldlM step r

/-- Arguments stand in parentheses. -/
def readArgument : Reach → Option Reach
  | inside depth => some (inside depth)
  | _ => none

/-- Texts with an argument in front of each. -/
def readTexts (r : Reach) (texts : List (List Char)) : Option Reach :=
  texts.foldlM (fun r cs => r.readArgument.bind (·.readText cs)) r

def isEnd : Reach → Bool
  | word | closed => true
  | _ => false

def readSegment (r : Reach) : Segment → Option Reach
  | .text t => r.readText t.toList
  | .argument _ => r.readArgument

def readSegments (r : Reach) (segments : List Segment) : Option Reach :=
  segments.foldlM readSegment r

def readToken (r : Reach) (token : Template.Token) : Option Reach :=
  match token.kind with
  | .argument _ => r.readArgument
  | _ => r.readText token.chars

variable {r q k : Reach} {cs : List Char} {segments segments' : List Segment}

theorem readText_append (cs' : List Char) :
    r.readText (cs ++ cs') = (r.readText cs).bind (·.readText cs') := List.foldlM_append

theorem readSegments_append :
    r.readSegments (segments ++ segments') =
      (r.readSegments segments).bind (·.readSegments segments') := List.foldlM_append

theorem readSegments_cons (segment : Segment) :
    r.readSegments (segment :: segments) = (r.readSegment segment).bind (·.readSegments segments) :=
  List.foldlM_cons

theorem readSegments_segments (pattern : Pattern) :
    r.readSegments pattern.segments = (Template.tokens pattern.source).foldlM readToken r := by
  have hsegment : (fun r token => readSegment r (Pattern.segment token)) = readToken := by
    funext r token
    unfold Pattern.segment readToken
    cases token.kind <;> simp [readSegment, Template.Token.text]
  rw [readSegments, Pattern.segments, List.foldlM_map, hsegment]

theorem readText_flat (h : isFlat cs = true) (depth : Nat) :
    (inside depth).readText cs = some (inside depth) := by
  induction cs with
  | nil => rfl
  | cons c cs ih =>
    simp only [isFlat, List.all_cons, Bool.and_eq_true, bne_iff_ne] at h
    have hstep : (inside depth).step c = some (inside depth) := by simp [step, h.1]
    rw [readText, List.foldlM_cons, hstep]
    exact ih h.2

/-- A reader sees the texts between the arguments, however they are cut into segments. -/
theorem readSegments_eq (r : Reach) (segments : List Segment) : r.readSegments segments =
    (r.readText (CallShape.ofSegments segments).opening).bind
      (·.readTexts ((CallShape.ofSegments segments).places.map (·.2))) := by
  induction segments generalizing r with
  | nil => rfl
  | cons segment rest ih =>
    rw [readSegments_cons]
    cases segment with
    | text t =>
      rw [CallShape.ofSegments, CallShape.addText, readText_append, Option.bind_assoc]
      exact congrArg _ (funext ih)
    | argument index =>
      rw [CallShape.ofSegments, CallShape.addArgument]
      show r.readArgument.bind _ = readTexts r (_ :: _)
      rw [readTexts, List.foldlM_cons]
      cases r.readArgument with
      | none => rfl
      | some q => exact ih q

end Reach

/-- With arguments between them, the texts are a closed call. -/
def CallShape.isClosed (texts : List (List Char)) : Bool :=
  match texts with
  | [] => false
  | opening :: rest => ((Reach.start.readText opening).bind (·.readTexts rest)).any Reach.isEnd

theorem CallShape.isClosed_ofSegments (segments : List Segment) :
    isClosed (ofSegments segments).texts = (Reach.start.readSegments segments).any Reach.isEnd := by
  rw [Reach.readSegments_eq]
  rfl

/-! ## Templates -/

def Pattern.isClosed (pattern : Pattern) : Bool :=
  ((Template.tokens pattern.source).foldlM Reach.readToken .start).any Reach.isEnd

def FunctionRendering.isClosed : FunctionRendering → Bool
  | patterns byCount => byCount.toList.all (·.2.isClosed)
  | named sqlName => Reach.start.readText sqlName.toList == some .word
  | joined operator => Reach.isFlat operator.toList

def FunctionRendering.isHexLength : FunctionRendering → Bool
  | patterns byCount => byCount.toList.all fun entry =>
    CallShape.ofTokens (Template.tokens entry.2.source) == .hexLength
  | _ => false

namespace FunctionTemplate

variable {template : FunctionTemplate} {count : Nat} {segments : List Segment}

/-- The segments of a call that has the right number of arguments. -/
def segments? (template : FunctionTemplate) (count : Nat) : Option (List Segment) :=
  match template.expand count with
  | .ok segments => some segments
  | .error _ => none

theorem segments?_eq_some_iff :
    template.segments? count = some segments ↔ template.expand count = .ok segments := by
  unfold segments?
  split <;> simp_all

theorem readSegments_separated {separator : String} (h : Reach.isFlat separator.toList = true)
    (depth : Nat) : (Reach.inside depth).readSegments (Segment.separated separator count) =
      some (.inside depth) := by
  induction count with
  | zero => rfl
  | succ n ih =>
    cases n with
    | zero => rfl
    | succ n =>
      rw [Segment.separated, Reach.readSegments_append, ih, Option.bind_some,
        Reach.readSegments_cons, Reach.readSegment, Reach.readText_flat h]
      rfl

theorem isClosed_call {opening separator : String}
    (hopen : Reach.start.readText opening.toList = some (.inside 0))
    (hsep : Reach.isFlat separator.toList = true) :
    CallShape.isClosed (CallShape.ofSegments
      (.text opening :: Segment.separated separator count ++ [.text ")"])).texts = true := by
  rw [CallShape.isClosed_ofSegments, List.cons_append, Reach.readSegments_cons, Reach.readSegment,
    hopen, Option.bind_some, Reach.readSegments_append, readSegments_separated hsep]
  rfl

theorem isClosed_expand (h : template.rendering.isClosed = true)
    (he : template.expand count = .ok segments) :
    CallShape.isClosed (CallShape.ofSegments segments).texts = true := by
  rcases expand_ok_cases he with ⟨byCount, pattern, hr, hp, rfl⟩ | ⟨sqlName, hr, rfl⟩ |
    ⟨operator, hr, rfl⟩
  · rw [hr] at h
    have hclosed := List.all_eq_true.1 h _ (SortedMap.mem_of_get? hp)
    rwa [CallShape.isClosed_ofSegments, Reach.readSegments_segments]
  · rw [hr] at h
    have hword : Reach.start.readText sqlName.toList = some .word := by
      simpa [FunctionRendering.isClosed] using h
    refine isClosed_call ?_ (by decide)
    rw [String.toList_append, Reach.readText_append, hword]
    rfl
  · rw [hr] at h
    exact isClosed_call rfl h

theorem shape_of_isHexLength (h : template.rendering.isHexLength = true)
    (he : template.expand count = .ok segments) : CallShape.ofSegments segments = .hexLength := by
  rcases expand_ok_cases he with ⟨byCount, pattern, hr, hp, rfl⟩ | ⟨sqlName, hr, rfl⟩ |
    ⟨operator, hr, rfl⟩
  · rw [hr] at h
    have hshape := List.all_eq_true.1 h _ (SortedMap.mem_of_get? hp)
    rw [CallShape.ofSegments_segments]
    exact eq_of_beq hshape
  · simp [hr, FunctionRendering.isHexLength] at h
  · simp [hr, FunctionRendering.isHexLength] at h

end FunctionTemplate

/-! ## Fields -/

/-- The field of an `extract` is a text, not an argument. -/
def Segment.withField (field : String) : Segment → Segment
  | text t => text t
  | argument 0 => text field
  | argument (index + 1) => argument index

theorem Reach.readSegments_withField {r q : Reach} {field : String} {segments : List Segment}
    (hf : isFlat field.toList = true) (h : r.readSegments segments = some q) :
    r.readSegments (segments.map (Segment.withField field)) = some q := by
  induction segments generalizing r with
  | nil => exact h
  | cons segment rest ih =>
    rw [readSegments_cons] at h
    obtain ⟨k, hk, hrest⟩ := Option.bind_eq_some_iff.1 h
    have hfirst : r.readSegment (segment.withField field) = some k := by
      match segment, hk with
      | .text t, hk => exact hk
      | .argument (_ + 1), hk => exact hk
      | .argument 0, hk =>
        cases r with
        | inside depth => exact Option.some.inj hk ▸ readText_flat hf depth
        | _ => cases hk
    rw [List.map_cons, readSegments_cons, hfirst]
    exact ih hrest

namespace Dialect

/-- The segments of an `extract`, whose only argument is the value. -/
def extractSegments? (d : Dialect) (unit : TemporalUnit) : Option (List Segment) :=
  let field := d.extractField unit
  let expanded (template : FunctionTemplate) :=
    (template.segments? 2).map fun segments => segments.map (Segment.withField field)
  match d.rules.extractPatterns unit, d.functions.get? "extract" with
  | some pattern, _ => expanded (.pattern "extract" pattern (some .integer))
  | none, some template => expanded template
  | none, none => some [.text ("extract(" ++ field ++ " from "), .argument 0, .text ")"]

end Dialect

/-! ## Products -/

/-- What a product registers besides the standard functions. -/
def Product.functions (version : Version) : Product → List FunctionTemplate
  | ingres => Ingres.functions
  | postgreSql => PostgreSql.functions
  | mySql => MySql.functions
  | sqlite => Sqlite.functions
  | sqlServer => SqlServer.functions version

/-- Only Ingres has a call that is not closed. -/
def Product.closes (product : Product) (template : FunctionTemplate) : Bool :=
  template.rendering.isClosed ||
    (product == .ingres && template.name == "bit_length" && template.rendering.isHexLength)

theorem Product.closes_functions (product : Product) (version : Version) :
    (FunctionFamily.standard ++ product.functions version).all product.closes = true := by
  cases product with
  | ingres =>
    show (FunctionFamily.standard ++ Ingres.functions).all _ = true
    decide +kernel
  | postgreSql =>
    show (FunctionFamily.standard ++ PostgreSql.functions).all _ = true
    decide +kernel
  | mySql =>
    show (FunctionFamily.standard ++ MySql.functions).all _ = true
    decide +kernel
  | sqlite =>
    show (FunctionFamily.standard ++ Sqlite.functions).all _ = true
    decide +kernel
  | sqlServer =>
    show (FunctionFamily.standard ++ SqlServer.functions version).all _ = true
    unfold SqlServer.functions
    split <;> decide +kernel

namespace Dialect

variable {product : Product} {version : Version} {unit : TemporalUnit}

theorem functions_ofProduct : (ofProduct product version).functions =
    (FunctionRegistry.registerAll {} FunctionFamily.standard).registerAll
      (product.functions version) := by
  cases product <;> rfl

theorem isClosed_or_isHexLength {name : String} {template : FunctionTemplate}
    (h : (ofProduct product version).functions.get? name = some template) :
    template.rendering.isClosed = true ∨ product = .ingres ∧ Text.lower name = "bit_length" ∧
      template.rendering.isHexLength = true := by
  have hmem := SortedMap.mem_of_get? h
  rw [functions_ofProduct] at hmem
  obtain ⟨hname, hcloses⟩ : Text.lower name = template.name ∧ product.closes template = true := by
    have hall := List.all_eq_true.1 (product.closes_functions version)
    rcases FunctionRegistry.mem_registerAll hmem with hmem | ⟨hname, ht⟩
    · rcases FunctionRegistry.mem_registerAll hmem with hmem | ⟨hname, ht⟩
      · cases hmem
      · exact ⟨hname, hall _ (List.mem_append_left _ ht)⟩
    · exact ⟨hname, hall _ (List.mem_append_right _ ht)⟩
  rw [hname]
  simpa [Product.closes, and_assoc] using hcloses

theorem isFlat_extractFields (product : Product) (version : Version) : ∀ unit,
    ((ofProduct product version).rules.extractFields unit).all (Reach.isFlat ·.toList) = true := by
  cases product with
  | ingres => exact UnitTexts.all_setAll UnitTexts.all_none (by decide +kernel)
  | postgreSql => exact UnitTexts.all_set UnitTexts.all_none (by decide +kernel) _
  | mySql | sqlite => exact UnitTexts.all_none
  | sqlServer => exact UnitTexts.all_setAll UnitTexts.all_none (by decide +kernel)

theorem isFlat_extractField (product : Product) (version : Version) (unit : TemporalUnit) :
    Reach.isFlat ((ofProduct product version).extractField unit).toList = true := by
  have hfield := isFlat_extractFields product version unit
  unfold extractField
  cases htext : (ofProduct product version).rules.extractFields unit with
  | none => cases unit <;> decide
  | some text => simpa [htext] using hfield

theorem isClosed_extractPatterns (product : Product) (version : Version) : ∀ unit,
    ((ofProduct product version).rules.extractPatterns unit).all
      (fun source => Pattern.isClosed ⟨source⟩) = true := by
  cases product with
  | ingres | sqlServer => exact UnitTexts.all_none
  | postgreSql => exact UnitTexts.all_set UnitTexts.all_none (by decide +kernel) _
  | mySql => exact UnitTexts.all_setAll UnitTexts.all_none (by decide +kernel)
  | sqlite => exact UnitTexts.all_setAll UnitTexts.all_none (by decide +kernel)

/-- An `extract` is closed on every product. -/
theorem isClosed_extract {unit : TemporalUnit} {segments : List Segment}
    (h : (ofProduct product version).extractSegments? unit = some segments) :
    CallShape.isClosed (CallShape.ofSegments segments).texts = true := by
  have hfield := isFlat_extractField product version unit
  have hexpanded {template : FunctionTemplate} (ht : template.rendering.isClosed = true)
      (hs : (template.segments? 2).map (fun segments => segments.map
        (Segment.withField ((ofProduct product version).extractField unit))) = some segments) :
      CallShape.isClosed (CallShape.ofSegments segments).texts = true := by
    obtain ⟨written, hw, rfl⟩ := Option.map_eq_some_iff.1 hs
    have hclosed :=
      FunctionTemplate.isClosed_expand ht (FunctionTemplate.segments?_eq_some_iff.1 hw)
    rw [CallShape.isClosed_ofSegments] at hclosed ⊢
    obtain ⟨q, hq, hend⟩ := (Option.any_eq_true _ _).1 hclosed
    rw [Reach.readSegments_withField hfield hq]
    exact hend
  unfold extractSegments? at h
  dsimp only at h
  split at h
  · next pattern hp =>
    have hclosed := isClosed_extractPatterns product version unit
    rw [hp] at hclosed
    have hrendering : FunctionRendering.isClosed
        (FunctionTemplate.pattern "extract" pattern (some .integer)).rendering = true :=
      Bool.and_eq_true_iff.2 ⟨hclosed, rfl⟩
    exact hexpanded hrendering h
  · next template _ ht =>
    rcases isClosed_or_isHexLength ht with hclosed | ⟨-, hname, -⟩
    · exact hexpanded hclosed h
    · exact absurd hname (by decide)
  · obtain rfl := Option.some.inj h
    rw [CallShape.isClosed_ofSegments, Reach.readSegments_cons, Reach.readSegment,
      String.toList_append, String.toList_append, Reach.readText_append, Reach.readText_append]
    have hopen : Reach.start.readText "extract(".toList = some (.inside 0) := by decide
    rw [hopen, Option.bind_some, Reach.readText_flat hfield]
    rfl

end Dialect

end SqlDialects
