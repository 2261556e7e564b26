import Routing.Proofs.Template.Slot

/-!
# The text of a template's expression

The text of a template's expression is put together segment by segment. It is that of the slots of
its required components in order, and of its levels that may be missing, each inside the one before
it; the groups are numbered in the order of the captures.

* `Slot.source`, `Slot.nestedSource` — the text of slots and of levels
* `Matcher.Extends`, `Matcher.Nests` — one state of the expression is another one with more of them
* `Matcher.ofSegments_source`, `Matcher.ofSegments_keys` — the whole text, and what its groups
  capture
-/

namespace Routing

open Regex

/-- What the group of a capture holds. -/
def grammarOf [Properties] (requirements : Dict Requirement) (grammar key : Text) : Text :=
  ((requirements.get? key).map Requirement.fragment).getD grammar

/-! ## The text of slots -/

namespace Slot

variable [Properties] (requirements : Dict Requirement)

/-- The group of a capture. -/
def groupSource (n : Nat) (key : Text) (glob : Bool) : Text :=
  "(?P<".toList ++ (Matcher.groupName n ++ (['>'] ++
    (grammarOf requirements (if glob then Matcher.globGrammar else Matcher.componentGrammar) key ++
      [')'])))

/-- The text of slots; `n` is the number of the first group. -/
def source (n : Nat) : List Slot → Text
  | [] => []
  | text t :: rest => quote t ++ source n rest
  | capture key glob :: rest => groupSource requirements n key glob ++ source (n + 1) rest

/-- The text of levels that may be missing, each inside the one before it. -/
def nestedSource (n : Nat) : List (List Slot) → Text
  | [] => []
  | level :: rest =>
    "(?:".toList ++ (source requirements n level ++
      nestedSource (n + (captures level).length) rest) ++ ")?".toList

variable {requirements}

/-- The text of slots put together is that of their parts, the groups numbered on. -/
theorem source_append (n : Nat) (a b : List Slot) :
    source requirements n (a ++ b) =
      source requirements n a ++ source requirements (n + (captures a).length) b := by
  induction a generalizing n with
  | nil => rfl
  | cons s a ih =>
    cases s with
    | text t => rw [List.cons_append, source, ih, source, captures, List.append_assoc]
    | capture key glob =>
      rw [List.cons_append, source, ih, source, captures, List.length_cons, List.append_assoc,
        Nat.add_assoc, Nat.add_comm 1]

/-- No text of slots goes on with what stands before it. -/
theorem head?_source (n : Nat) (slots : List Slot) :
    (source requirements n slots).head? ≠ some '?' := by
  induction slots with
  | nil => simp [source]
  | cons s slots ih =>
    cases s with
    | capture key glob => simp [source, groupSource]
    | text t =>
      cases t with
      | nil => exact ih
      | cons c t =>
        -- a question mark in a fixed text is escaped
        by_cases hc : isMeta c = true
        · simp [source, quote, hc]
        · have hne : c ≠ '?' := by
            rintro rfl
            exact hc rfl
          simp [source, quote, hc, hne]

theorem head?_nestedSource (n : Nat) (levels : List (List Slot)) :
    (nestedSource requirements n levels).head? ≠ some '?' := by
  cases levels <;> simp [nestedSource]

/-- What follows slots does not begin with a question mark if the text behind them does not. -/
theorem head?_source_append (n : Nat) (slots : List Slot) {t : Text} (ht : t.head? ≠ some '?') :
    (source requirements n slots ++ t).head? ≠ some '?' := by
  cases hs : source requirements n slots with
  | nil => exact ht
  | cons c s =>
    have hhead : (source requirements n slots).head? ≠ some '?' := head?_source n slots
    rwa [hs] at hhead

end Slot

/-! ## Slots of a template -/

/-- The slots of a segment capture its parameters. -/
theorem Segment.names_slots (s : Segment) : Slot.names s.slots = s.names := by
  cases s with
  | compound pieces =>
    show (Slot.captures (pieces.map Piece.slot)).map Prod.fst = pieces.filterMap Piece.name?
    induction pieces with
    | nil => rfl
    | cons p pieces ih =>
      cases p with
      | literal t => exact ih
      | capture name => exact congrArg (name :: ·) ih
  | static | capture | glob | format => rfl

namespace Level

theorem names_slots (l : Level) : Slot.names l.slots = l.names := by
  cases l with
  | component s => exact s.names_slots
  | format name => rfl

/-- The slots of levels capture their parameters. -/
theorem names_flatMap_slots (levels : List Level) :
    Slot.names (levels.flatMap slots) = levels.flatMap names := by
  induction levels with
  | nil => rfl
  | cons l levels ih =>
    rw [List.flatMap_cons, Slot.names_append, ih, names_slots, List.flatMap_cons]

end Level

namespace Matcher

def requiredSlots (segments : List Segment) : List Slot :=
  segments.flatMap fun s => .text ['/'] :: s.slots

/-- Levels of which the first one has no slash before it: it is there already. -/
def afterSlash : List (List Slot) → List (List Slot)
  | (_ :: level) :: rest => (.text [] :: level) :: rest
  | levels => levels

/-- The levels of optional components and of a format. -/
def levels (optional : List Segment) (format? : Option Text) : List Level :=
  optional.map Level.component ++ format?.toList.map Level.format

/-- The slots of a path before its optional levels. -/
def fixedSlots (required : List Segment) : List Slot :=
  if required.isEmpty then [.text ['/']] else requiredSlots required

def levelSlots (required optional : List Segment) (format? : Option Text) : List (List Slot) :=
  let all := (levels optional format?).map Level.slots
  if required.isEmpty then afterSlash all else all

/-- The fixed slots capture the parameters of the required components. -/
theorem names_fixedSlots (required : List Segment) :
    Slot.names (fixedSlots required) = segmentNames required := by
  have hall : Slot.names (requiredSlots required) = segmentNames required := by
    induction required with
    | nil => rfl
    | cons s required ih =>
      rw [requiredSlots, List.flatMap_cons, Slot.names_append, ← requiredSlots, ih]
      exact congrArg (· ++ segmentNames required) s.names_slots
  cases required with
  | nil => rfl
  | cons s required => exact hall

theorem names_levels (optional : List Segment) (format? : Option Text) :
    (levels optional format?).flatMap Level.names = segmentNames optional ++ format?.toList := by
  rw [levels, List.flatMap_append, List.flatMap_map]
  cases format? <;> rfl

/-- The slash that is left out of the first level has no name. -/
theorem names_levelSlots (required optional : List Segment) (format? : Option Text) :
    Slot.names (levelSlots required optional format?).flatten =
      segmentNames optional ++ format?.toList := by
  -- a slash that is left out is a text without a name, so the names are the same
  have hall (levels : List Level) :
      Slot.names (afterSlash (levels.map Level.slots)).flatten =
        Slot.names (levels.map Level.slots).flatten := by
    match levels with
    | [] | .component _ :: _ | .format _ :: _ => rfl
  have hnames : Slot.names ((levels optional format?).map Level.slots).flatten =
      segmentNames optional ++ format?.toList := by
    rw [← names_levels, ← Level.names_flatMap_slots]
    rfl
  rw [levelSlots]
  split
  · rw [hall, hnames]
  · exact hnames

/-! ## Steps -/

variable [Properties] {requirements : Dict Requirement} {m m' m'' : Matcher} {a b : List Slot}
  {level : List Slot} {rest : List (List Slot)}

/-- `m'` is `m` with the text of slots on the end. -/
structure Extends (requirements : Dict Requirement) (m m' : Matcher) (slots : List Slot) :
    Prop where
  source : m'.source = m.source ++ Slot.source requirements m.keys.length slots
  keys : m'.keys = m.keys ++ Slot.names slots

theorem Extends.refl (m : Matcher) : Extends requirements m m [] :=
  ⟨(List.append_nil _).symm, (List.append_nil _).symm⟩

theorem Extends.length_keys (h : Extends requirements m m' a) :
    m'.keys.length = m.keys.length + (Slot.captures a).length := by
  rw [h.keys, List.length_append, Slot.names, List.length_map]

/-- Slots are put on the end one after the other. -/
theorem Extends.trans (h : Extends requirements m m' a) (h' : Extends requirements m' m'' b) :
    Extends requirements m m'' (a ++ b) := by
  refine ⟨?_, ?_⟩
  · rw [h'.source, h.source, h.length_keys, Slot.source_append, List.append_assoc]
  · rw [h'.keys, h.keys, Slot.names_append, List.append_assoc]

theorem extends_literal (m : Matcher) (t : Text) :
    Extends requirements m (m.literal t) [.text t] :=
  ⟨by simp [literal, text, Slot.source], (List.append_nil _).symm⟩

theorem extends_slash (m : Matcher) : Extends requirements m (m.text ['/']) [.text ['/']] :=
  extends_literal m ['/']

/-- A group for a parameter. -/
theorem extends_capture (m : Matcher) (key : Text) (glob : Bool) :
    Extends requirements m
      (m.capture requirements (if glob then globGrammar else componentGrammar) key)
      [.capture key glob] :=
  ⟨by simp [capture, Slot.source, Slot.groupSource, grammarOf], rfl⟩

/-- The pieces of a component are put on the end one after the other. -/
theorem extends_pieces (m : Matcher) (pieces : List Piece) :
    Extends requirements m (pieces.foldl (piece requirements) m) (pieces.map Piece.slot) := by
  induction pieces generalizing m with
  | nil => exact .refl m
  | cons p pieces ih =>
    -- each piece is a fixed text or a group
    have hp : Extends requirements m (m.piece requirements p) [p.slot] := by
      cases p with
      | literal t => exact extends_literal m t
      | capture name => exact extends_capture m name false
    exact hp.trans (ih _)

/-- A segment other than a format. -/
theorem extends_segment (m : Matcher) {s : Segment} (hs : ∀ name, s ≠ .format name) :
    Extends requirements m (m.segment requirements s) s.slots := by
  cases s with
  | static t => exact extends_literal m t
  | capture name => exact extends_capture m name false
  | glob name => exact extends_capture m name true
  | compound pieces => exact extends_pieces m pieces
  | format name => exact absurd rfl (hs name)

/-- Required components are put on the end, each behind a slash. -/
theorem extends_required (m : Matcher) {segments : List Segment}
    (hs : ∀ s ∈ segments, ∀ name, s ≠ .format name) :
    Extends requirements m (m.required requirements none true segments)
      (requiredSlots segments) := by
  induction segments generalizing m with
  | nil => exact .refl m
  | cons s segments ih =>
    obtain ⟨hs, hsegments⟩ := List.forall_mem_cons.1 hs
    have hone : Extends requirements m ((m.text ['/']).segment requirements s)
        (.text ['/'] :: s.slots) :=
      (extends_slash m).trans (extends_segment (m.text ['/']) hs)
    have := hone.trans (ih _ hsegments)
    simpa [required, requiredSlots, format] using this

/-- A format stands behind the last of the required components when nothing else follows them. -/
theorem required_format (m : Matcher) (format? : Option Text) (segments : List Segment)
    (hne : segments ≠ []) :
    m.required requirements format? false segments =
      (m.required requirements none true segments).format requirements format? := by
  induction segments generalizing m with
  | nil => exact absurd rfl hne
  | cons s segments ih =>
    cases segments with
    | nil => rfl
    | cons s' segments => exact ih _ (by simp)

/-- When something follows the required components, no format is put behind them. -/
theorem required_followed (m : Matcher) (format? : Option Text) (segments : List Segment) :
    m.required requirements format? true segments =
      m.required requirements none true segments := by
  induction segments generalizing m with
  | nil => rfl
  | cons s segments ih =>
    rw [required, required]
    simpa using ih _

/-! ### Levels that may be missing -/

/-- `m'` is `m` with levels on the end, each inside the one before it. -/
structure Nests (requirements : Dict Requirement) (m m' : Matcher) (levels : List (List Slot)) :
    Prop where
  source : m'.source = m.source ++ Slot.nestedSource requirements m.keys.length levels
  keys : m'.keys = m.keys ++ Slot.names levels.flatten

theorem Nests.refl (m : Matcher) : Nests requirements m m [] :=
  ⟨(List.append_nil _).symm, (List.append_nil _).symm⟩

/-- A level around others. -/
theorem nests_cons (h : Extends requirements (m.text "(?:".toList) m' level)
    (hrest : Nests requirements m' m'' rest) :
    Nests requirements m (m''.text ")?".toList) (level :: rest) := by
  have hcount : m'.keys.length = m.keys.length + (Slot.captures level).length := h.length_keys
  have hkeys : m'.keys = m.keys ++ Slot.names level := h.keys
  refine ⟨?_, ?_⟩
  · show m''.source ++ ")?".toList = _
    rw [hrest.source, h.source, hcount, Slot.nestedSource]
    simp [text]
  · show m''.keys = _
    rw [hrest.keys, hkeys, List.flatten_cons, Slot.names_append, List.append_assoc]

/-- The level of an optional format. -/
theorem nests_format (m : Matcher) (format? : Option Text) :
    Nests requirements m (m.format requirements format?)
      ((format?.toList.map Level.format).map Level.slots) := by
  cases format? with
  | none => exact .refl m
  | some key =>
    have htext : (m.text "(?:".toList).literal ['.'] = m.text "(?:\\.".toList := by
      simp [text, literal, quote, isMeta]
    have hlevel : Extends requirements (m.text "(?:".toList)
        (((m.text "(?:".toList).literal ['.']).capture requirements componentGrammar key)
        [.text ['.'], .capture key false] :=
      (extends_literal _ ['.']).trans (extends_capture _ key false)
    rw [htext] at hlevel
    exact nests_cons hlevel (.refl _)

/-- The optional components, with the format inside the last one. -/
theorem nests_optional (m : Matcher) (format? : Option Text) (first : Bool)
    {segments : List Segment} (hne : segments ≠ [])
    (hs : ∀ s ∈ segments, ∃ name o, s = .capture name o) :
    Nests requirements m (m.optional requirements format? first segments)
      (if first then afterSlash ((levels segments format?).map Level.slots)
        else (levels segments format?).map Level.slots) := by
  induction segments generalizing m first with
  | nil => exact absurd rfl hne
  | cons s segments ih =>
    obtain ⟨⟨name, o, rfl⟩, hs'⟩ := List.forall_mem_cons.1 hs
    -- the first level brings no slash when no required component has one before it
    let sep : Text := if first then [] else ['/']
    have htext : m.text ("(?:".toList ++ if first then [] else ['/']) =
        (m.text "(?:".toList).literal sep := by
      cases first <;> simp [text, literal, quote, isMeta, sep]
    have hnested : (if first then
        afterSlash ((levels (.capture name o :: segments) format?).map Level.slots)
        else (levels (.capture name o :: segments) format?).map Level.slots) =
        [.text sep, .capture name false] :: (levels segments format?).map Level.slots := by
      cases first <;> rfl
    rw [hnested, optional, htext]
    refine nests_cons ((extends_literal _ sep).trans (extends_capture _ name false)) ?_
    -- the format stands inside the last level
    cases segments with
    | nil => exact nests_format _ format?
    | cons s' segments => exact ih _ false (by simp) hs'

/-! ### The whole text -/

omit [Properties] in
/-- The required components are those in front of the first that may be missing. -/
theorem takeWhile_required {required optional : List Segment}
    (hreq : ∀ s ∈ required, s.isOptional = false)
    (hopt : ∀ s ∈ optional, ∃ name, s = .capture name true) :
    (required ++ optional).takeWhile (fun s => !s.isOptional) = required ∧
      (required ++ optional).dropWhile (fun s => !s.isOptional) = optional := by
  have hreq' : ∀ s ∈ required, (!s.isOptional) = true := fun s hs => by rw [hreq s hs]; rfl
  rw [List.takeWhile_append_of_pos hreq', List.dropWhile_append_of_pos hreq']
  cases optional with
  | nil => simp
  | cons s optional =>
    obtain ⟨name, rfl⟩ := hopt s (by simp)
    simp [Segment.isOptional]

/-- The start of an expression, with the slash that no required component brings. -/
def opening (required : List Segment) : Matcher :=
  if required.isEmpty then (⟨['^'], []⟩ : Matcher).text ['/'] else ⟨['^'], []⟩

/-- The expression of a template up to its required components. -/
def upToRequired (requirements : Dict Requirement) (required : List Segment) : Matcher :=
  (opening required).required requirements none true required

/-- The expression of a template without the anchor at the end. -/
def upToTail (requirements : Dict Requirement) (required optional : List Segment)
    (format? : Option Text) : Matcher :=
  ((opening required).required requirements format? (!optional.isEmpty) required).optional
    requirements format? required.isEmpty optional

section Whole

variable {segments required optional : List Segment} {format? : Option Text}

/-- The matcher of a template, in its fixed part and its optional levels. -/
theorem ofSegments_eq (hsplit : splitFormat segments = (required ++ optional, format?))
    (hreq : ∀ s ∈ required, s.isOptional = false)
    (hopt : ∀ s ∈ optional, ∃ name, s = .capture name true) :
    ofSegments requirements segments =
      (upToTail requirements required optional format?).text ['$'] := by
  obtain ⟨htake, hdrop⟩ := takeWhile_required hreq hopt
  rw [ofSegments, hsplit]
  simp only [htake, hdrop]
  rfl

/-- The source up to the required components extends the anchor by their slots. -/
theorem extends_upToRequired (hreq : ∀ s ∈ required, s.isOptional = false) :
    Extends requirements ⟨['^'], []⟩ (upToRequired requirements required)
      (fixedSlots required) := by
  have hformat : ∀ s ∈ required, ∀ name, s ≠ .format name := by
    rintro _ hs name rfl
    exact absurd (hreq _ hs) (by simp [Segment.isOptional])
  have hrequired : Extends requirements (opening required)
      ((opening required).required requirements none true required) (requiredSlots required) :=
    extends_required (opening required) hformat
  cases required with
  | nil => exact extends_slash ⟨['^'], []⟩
  | cons s required => exact hrequired

/-- The tail of a template: its optional components with the format inside, or the format alone
after the last required component. -/
theorem nests_upToTail (hopt : ∀ s ∈ optional, ∃ name, s = .capture name true)
    (hformat : format? ≠ none → required ++ optional ≠ []) :
    Nests requirements (upToRequired requirements required)
      (upToTail requirements required optional format?)
      (levelSlots required optional format?) := by
  cases optional with
  | nil =>
    cases required with
    | nil =>
      have hnone : format? = none := by
        by_contra hne
        exact hformat hne rfl
      subst hnone
      exact .refl _
    | cons s required =>
      have htail : upToTail requirements (s :: required) [] format? =
          (upToRequired requirements (s :: required)).format requirements format? :=
        required_format _ format? _ (by simp)
      rw [htail]
      exact nests_format _ format?
  | cons s optional =>
    have htail : upToTail requirements required (s :: optional) format? =
        (upToRequired requirements required).optional requirements format? required.isEmpty
          (s :: optional) :=
      congrArg (fun m => m.optional requirements format? required.isEmpty (s :: optional))
        (required_followed (opening required) format? required)
    have hcaptures : ∀ s' ∈ s :: optional, ∃ name o, s' = .capture name o := by
      intro s' hs'
      obtain ⟨name, rfl⟩ := hopt s' hs'
      exact ⟨name, true, rfl⟩
    rw [htail]
    exact nests_optional _ format? required.isEmpty (by simp) hcaptures

/-- The text between the anchors is that of the slots. -/
theorem ofSegments_source (hsplit : splitFormat segments = (required ++ optional, format?))
    (hreq : ∀ s ∈ required, s.isOptional = false)
    (hopt : ∀ s ∈ optional, ∃ name, s = .capture name true)
    (hformat : format? ≠ none → required ++ optional ≠ []) :
    (ofSegments requirements segments).source =
      ['^'] ++ (Slot.source requirements 0 (fixedSlots required) ++
        Slot.nestedSource requirements (Slot.captures (fixedSlots required)).length
          (levelSlots required optional format?)) ++ ['$'] := by
  have hfixed : Extends requirements ⟨['^'], []⟩ (upToRequired requirements required)
      (fixedSlots required) := extends_upToRequired hreq
  have hcount : (upToRequired requirements required).keys.length =
      (Slot.captures (fixedSlots required)).length := hfixed.length_keys.trans (Nat.zero_add _)
  rw [ofSegments_eq hsplit hreq hopt]
  show (upToTail requirements required optional format?).source ++ ['$'] = _
  rw [(nests_upToTail hopt hformat).source, hfixed.source, hcount, List.append_assoc ['^']]
  rfl

/-- The groups capture the parameters of the template in order. -/
theorem ofSegments_keys (hsplit : splitFormat segments = (required ++ optional, format?))
    (hreq : ∀ s ∈ required, s.isOptional = false)
    (hopt : ∀ s ∈ optional, ∃ name, s = .capture name true)
    (hformat : format? ≠ none → required ++ optional ≠ []) :
    (ofSegments requirements segments).keys =
      segmentNames required ++ (segmentNames optional ++ format?.toList) := by
  rw [ofSegments_eq hsplit hreq hopt]
  show (upToTail requirements required optional format?).keys = _
  rw [(nests_upToTail hopt hformat).keys, (extends_upToRequired hreq).keys, names_fixedSlots,
    names_levelSlots]
  rfl

end Whole

end Matcher

end Routing
