import Mathlib.Data.List.TakeWhile
import Routing.Proofs.Steps
import Routing.Template

/-!
# The shape of a template

What reading a pattern guarantees about the segments: the required ones come first and the captures
that may be left out after them, a format stands at the very end and a glob only where nothing
follows, fixed texts are parts of the pattern without slashes, and no parameter is captured twice.

* `Component.Classified` — what a component without its suffix can be
* `Template.Shape` — the guarantees
* `Template.shape_of_read` — a template that was read has the shape
-/

namespace Routing

/-- The fixed text that a piece is, if any. -/
def Piece.literal? : Piece → Option Text
  | literal t => some t
  | capture _ => none

/-- The fixed texts of a segment. -/
def Segment.literals : Segment → List Text
  | static t => [t]
  | compound pieces => pieces.filterMap Piece.literal?
  | capture .. | glob _ | format _ => []

/-- The segment of a component, a capture being optional or not. -/
def ComponentKind.segment (optional : Bool) : ComponentKind → Segment
  | static t => .static t
  | capture name => .capture name optional
  | glob name => .glob name
  | compound pieces => .compound pieces

/-! ## Components -/

namespace Component

/-- What a component of the text `s` is like: its fixed texts are parts of `s`, not empty ones, and
one that mixes text and captures has a capture. -/
structure Sound (s : Text) (kind : ComponentKind) : Prop where
  literals : ∀ t ∈ (kind.segment false).literals, t ≠ [] ∧ ∀ c ∈ t, c ∈ s
  captures : ∀ pieces, kind = .compound pieces → ∃ name, .capture name ∈ pieces

/-- The fixed texts of a mixed component are its literal pieces. -/
theorem mem_literals {pieces : List Piece} {t : Text} :
    t ∈ (Segment.compound pieces).literals ↔ Piece.literal t ∈ pieces := by
  rw [Segment.literals, List.mem_filterMap]
  constructor
  · rintro ⟨p, hp, hpt⟩
    cases p <;> cases hpt
    exact hp
  · exact fun h => ⟨_, h, rfl⟩

/-- A fixed text is not empty, and its characters are those of the text it was cut from. -/
theorem literalPiece_sound {s t u : Text} (hs : ∀ c ∈ t, c ∈ s)
    (hu : Piece.literal u ∈ literalPiece t) : u ≠ [] ∧ ∀ c ∈ u, c ∈ s := by
  rw [literalPiece] at hu
  split at hu
  · simp at hu
  · next hne =>
    obtain rfl : u = t := by simpa using hu
    exact ⟨by simpa using hne, hs⟩

/-- The fixed pieces of a text are parts of it, and a colon in it begins a capture. -/
theorem pieces_sound {s : Text} {pieces : List Piece} (h : pieces? s = some pieces) :
    (∀ t, Piece.literal t ∈ pieces → t ≠ [] ∧ ∀ c ∈ t, c ∈ s) ∧
      (':' ∈ s → ∃ name, Piece.capture name ∈ pieces) := by
  fun_induction pieces? s generalizing pieces with
  | case1 s hs =>
    cases h
    refine ⟨fun t ht => literalPiece_sound (fun _ => id) ht, fun hc => ?_⟩
    have := List.dropWhile_eq_nil_iff.1 hs ':' hc
    simp at this
  | case2 s c after hs hid ih =>
    obtain ⟨rest, hrest, rfl⟩ := Option.map_eq_some_iff.1 h
    -- what stands behind the colon is a part of the text
    have hafter : ∀ d ∈ after, d ∈ s := by
      intro d hd
      refine (List.dropWhile_suffix (· ≠ ':') (l := s)).subset ?_
      rw [hs]
      exact List.mem_cons_of_mem c hd
    refine ⟨fun t ht => ?_, fun _ => ⟨_, List.mem_append_right _ List.mem_cons_self⟩⟩
    rcases List.mem_append.1 ht with ht | ht
    · exact literalPiece_sound (fun d hd => List.takeWhile_subset _ hd) ht
    · rcases List.mem_cons.1 ht with ht | ht
      · cases ht
      · obtain ⟨hne, hsub⟩ := (ih hrest).1 t ht
        exact ⟨hne, fun d hd => hafter d ((List.dropWhile_suffix _).subset (hsub d hd))⟩
  | case3 => cases h

/-- What a component without its suffix can be. -/
inductive Classified : Text → ComponentKind → Prop
  | glob {name : Text} (hname : isIdentifier name = true) : Classified ('*' :: name) (.glob name)
  | capture {name : Text} (hname : isIdentifier name = true) :
    Classified (':' :: name) (.capture name)
  | compound {s : Text} {pieces : List Piece} (hhead : s.head? ≠ some '*') (hcolon : ':' ∈ s)
    (hpieces : pieces? s = some pieces) : Classified s (.compound pieces)
  | static {s : Text} (hcolon : ':' ∉ s) (hstar : '*' ∉ s) : Classified s (.static s)

/-- What has no star in front is a row of pieces or a fixed text. -/
theorem classified_of_mixed {s : Text} {kind : ComponentKind} (hhead : s.head? ≠ some '*')
    (h : classify.mixed s = .ok kind) : Classified s kind := by
  unfold classify.mixed at h
  split at h
  · next hcolon =>
    split at h
    · next pieces hpieces =>
      cases h
      exact .compound hhead hcolon hpieces
    · cases h
  · next hcolon =>
    split at h
    · cases h
    · next hstar =>
      cases h
      exact .static hcolon hstar

/-- What is classified is one of four kinds. -/
theorem classified {s : Text} {kind : ComponentKind} (h : classify s = .ok kind) :
    Classified s kind := by
  unfold classify at h
  split at h
  · split at h
    · next hname =>
      cases h
      exact .glob hname
    · cases h
  · split at h
    · next hname =>
      cases h
      exact .capture hname
    · exact classified_of_mixed (by simp) h
  · next hstar _ =>
    refine classified_of_mixed (fun hhead => ?_) h
    obtain ⟨name, rfl⟩ := List.head?_eq_some_iff.1 hhead
    exact hstar name rfl

/-- What is classified is sound, if there is any text. -/
theorem classify_sound {s : Text} {kind : ComponentKind} (hs : s ≠ [])
    (h : classify s = .ok kind) : Sound s kind := by
  cases classified h with
  | glob | capture => exact ⟨by simp [ComponentKind.segment, Segment.literals], by rintro _ ⟨⟩⟩
  | compound _ hcolon hpieces =>
    obtain ⟨hlit, hcap⟩ := pieces_sound hpieces
    refine ⟨fun t ht => hlit t (mem_literals.1 ht), ?_⟩
    rintro _ ⟨⟩
    exact hcap hcolon
  | static => exact ⟨by simp [ComponentKind.segment, Segment.literals, hs], by rintro _ ⟨⟩⟩

/-- A component is what is left without its suffix, and the suffix. -/
theorem stripFormat_append (s : Text) :
    (stripFormat s).1 ++ (if (stripFormat s).2 then formatSuffix else []) = s := by
  unfold stripFormat
  split
  · next rest hrest =>
    obtain ⟨t, ht, rfl⟩ := Option.map_eq_some_iff.1 hrest
    rw [Text.afterPrefix?_eq_some_iff] at ht
    rw [if_pos rfl, ← List.reverse_reverse s, ht, List.reverse_append, List.reverse_reverse]
  · exact List.append_nil s

theorem stripFormat_subset {s : Text} {c : Char} (h : c ∈ (stripFormat s).1) : c ∈ s := by
  rw [← stripFormat_append s]
  exact List.mem_append_left _ h

/-- A component that is read is what its text without the suffix is classified as. -/
theorem read_eq_ok {last : Bool} {s : Text} {c : Component} (h : read last s = .ok c) :
    (stripFormat s).1 ≠ [] ∧ classify (stripFormat s).1 = .ok c.kind ∧
      c.format = (stripFormat s).2 ∧ (c.format = true → last = true) ∧
      ∀ name, c.kind = .glob name → last = true ∧ c.format = false := by
  unfold read at h
  split at h
  next text format hstrip =>
  rw [hstrip]
  split at h
  · cases h
  · next hlast =>
    have hformat : format = true → last = true := by
      intro hf
      by_contra hl
      exact hlast (by simp [hf, hl])
    split at h
    · cases h
    · next hne =>
      obtain ⟨kind, hkind, h⟩ := bind_eq_ok.1 h
      have hne : text ≠ [] := by simpa using hne
      cases kind with
      | glob name =>
        simp only at h
        split at h
        · cases h
        · split at h
          · cases h
          · next hl hf =>
            cases h
            exact ⟨hne, hkind, rfl, hformat, fun _ _ => ⟨by simpa using hl, by simpa using hf⟩⟩
      | static | capture | compound =>
        cases h
        exact ⟨hne, hkind, rfl, hformat, by rintro _ ⟨⟩⟩

/-- What reading a component guarantees. -/
theorem read_sound {last : Bool} {s : Text} {c : Component} (h : read last s = .ok c) :
    Sound s c.kind ∧ (c.format = true → last = true) ∧
      (∀ name, c.kind = .glob name → last = true ∧ c.format = false) := by
  obtain ⟨hne, hkind, -, hformat, hglob⟩ := read_eq_ok h
  have hsound := classify_sound hne hkind
  refine ⟨⟨fun t ht => ?_, hsound.captures⟩, hformat, hglob⟩
  obtain ⟨htne, hsub⟩ := hsound.literals t ht
  exact ⟨htne, fun d hd => stripFormat_subset (hsub d hd)⟩

end Component

namespace Template

/-! ## Rows of components -/

/-- What a row of components of some texts is like: each one is sound, and formats and globs stand
at the end. -/
inductive Row (P : Text → Prop) : List Component → Prop
  | nil : Row P []
  | cons {s c rest} (hs : P s) (hc : Component.Sound s c.kind)
    (hformat : c.format = true → rest = [])
    (hglob : ∀ name, c.kind = .glob name → rest = [] ∧ c.format = false)
    (hrest : Row P rest) : Row P (c :: rest)

/-- Names without a repetition among them are new and distinct. -/
theorem repeated?_eq_none {seen names : List Text} (h : repeated? seen names = none)
    (hseen : seen.Nodup) : (seen ++ names).Nodup := by
  induction names generalizing seen with
  | nil => simpa using hseen
  | cons name names ih =>
    rw [repeated?] at h
    split at h
    · cases h
    · next hnew =>
      have := ih h (List.nodup_append.2 ⟨hseen, by simp, by
        simpa using fun a ha (hname : a = name) => hnew (hname ▸ ha)⟩)
      simpa using this

/-- The first component that is read, and the others. -/
theorem readComponents_eq_ok {seen parts : List Text} {s : Text} {components : List Component}
    (h : readComponents seen (s :: parts) = .ok components) :
    ∃ c rest, components = c :: rest ∧ Component.read parts.isEmpty s = .ok c ∧
      repeated? seen c.names = none ∧ readComponents (seen ++ c.names) parts = .ok rest := by
  rw [readComponents] at h
  obtain ⟨c, hc, h⟩ := bind_eq_ok.1 h
  split at h
  · cases h
  · next hnew =>
    obtain ⟨rest, hrest, h⟩ := bind_eq_ok.1 h
    cases h
    exact ⟨c, rest, rfl, hc, hnew, hrest⟩

theorem Row.mono {P Q : Text → Prop} {components : List Component} (h : Row P components)
    (hPQ : ∀ s, P s → Q s) : Row Q components := by
  induction h with
  | nil => exact .nil
  | cons hs hc hformat hglob _ ih => exact .cons (hPQ _ hs) hc hformat hglob ih

/-- Components that are read form a row and capture distinct names. -/
theorem readComponents_ok {seen parts : List Text} {components : List Component}
    (h : readComponents seen parts = .ok components) (hseen : seen.Nodup) :
    Row (· ∈ parts) components ∧ (seen ++ components.flatMap Component.names).Nodup := by
  induction parts generalizing seen components with
  | nil => cases h; exact ⟨.nil, by simpa using hseen⟩
  | cons s parts ih =>
    obtain ⟨c, rest, rfl, hc, hnew, hrest⟩ := readComponents_eq_ok h
    obtain ⟨hrow, hnodup⟩ := ih hrest (repeated?_eq_none hnew hseen)
    -- a format or a glob that stands last has no component behind it
    have hempty : parts.isEmpty = true → rest = [] := by
      intro hp
      rw [List.isEmpty_iff.1 hp] at hrest
      cases hrest
      rfl
    obtain ⟨hsound, hformat, hglob⟩ := Component.read_sound hc
    refine ⟨?_, by simpa using hnodup⟩
    exact .cons List.mem_cons_self hsound (fun h => hempty (hformat h))
      (fun name h => (hglob name h).imp_left hempty) (hrow.mono fun _ => List.mem_cons_of_mem s)

/-! ## The optional tail -/

/-- The segments of a template, told apart. -/
structure Parts where
  /-- The components that a path has to have. -/
  required : List Segment
  /-- The components that may be missing. -/
  optional : List Segment
  /-- The name of the format at the end. -/
  format? : Option Text

namespace Parts

def segments (x : Parts) : List Segment :=
  x.required ++ x.optional ++ x.format?.toList.map Segment.format

/-- What the parts of a template are like. `P` holds of the components of the pattern. -/
structure Shape (P : Text → Prop) (x : Parts) : Prop where
  required : ∀ s ∈ x.required, s.isOptional = false
  optional : ∀ s ∈ x.optional, ∃ name, s = .capture name true
  literals : ∀ s ∈ x.required, ∀ t ∈ s.literals, t ≠ [] ∧ ∃ part, P part ∧ ∀ c ∈ t, c ∈ part
  captures : ∀ pieces, .compound pieces ∈ x.required → ∃ name, Piece.capture name ∈ pieces
  glob : ∀ a b name, x.required = a ++ .glob name :: b →
    b = [] ∧ x.optional = [] ∧ x.format? = none

/-- A required segment stands before the others. -/
def require (x : Parts) (s : Segment) : Parts := { x with required := s :: x.required }

/-- A required segment in front of parts that have the shape leaves it so, if a glob is the last
one. -/
theorem Shape.require {P : Text → Prop} {x : Parts} {s : Segment} (h : x.Shape P)
    (hs : s.isOptional = false)
    (hliterals : ∀ t ∈ s.literals, t ≠ [] ∧ ∃ part, P part ∧ ∀ c ∈ t, c ∈ part)
    (hcaptures : ∀ pieces, s = .compound pieces → ∃ name, Piece.capture name ∈ pieces)
    (hglob : ∀ name, s = .glob name → x.segments = []) : (x.require s).Shape P where
  required := List.forall_mem_cons.2 ⟨hs, h.required⟩
  optional := h.optional
  literals := List.forall_mem_cons.2 ⟨hliterals, h.literals⟩
  captures := by
    intro pieces hmem
    rcases List.mem_cons.1 hmem with hp | hp
    · exact hcaptures pieces hp.symm
    · exact h.captures pieces hp
  glob := by
    intro a b name heq
    cases a with
    | nil =>
      obtain ⟨hs, rfl⟩ := List.cons.inj heq
      have := hglob name hs
      simpa [segments, Parts.require, and_assoc] using this
    | cons s' a => exact h.glob a b name (List.cons.inj heq).2

/-- A capture that may be left out stands before others of its kind. -/
theorem Shape.admit {P : Text → Prop} {x : Parts} (h : x.Shape P) (hreq : x.required = [])
    (name : Text) :
    ({ x with optional := .capture name true :: x.optional } : Parts).Shape P where
  required := h.required
  optional := List.forall_mem_cons.2 ⟨⟨name, rfl⟩, h.optional⟩
  literals := h.literals
  captures := h.captures
  glob := by simp [hreq]

end Parts

/-- One more component before segments that have the shape. Its own format, if any, is among
them. -/
theorem cons_shape {P : Text → Prop} {s : Text} {kind : ComponentKind} {t : Tail} {x : Parts}
    (required : List Text) (hs : P s) (hc : Component.Sound s kind) (ht : t.segments = x.segments)
    (hx : x.Shape P) (hopt : t.optional = true → x.required = [])
    (hglob : ∀ name, kind = .glob name → x.segments = []) :
    ∃ y : Parts, (Tail.cons required ⟨kind, false⟩ t).segments = y.segments ∧ y.Shape P ∧
      y.required ++ y.optional ≠ [] ∧
      ((Tail.cons required ⟨kind, false⟩ t).optional = true → y.required = []) := by
  have hliterals : ∀ t ∈ (kind.segment false).literals,
      t ≠ [] ∧ ∃ part, P part ∧ ∀ c ∈ t, c ∈ part :=
    fun t ht => ⟨(hc.literals t ht).1, s, hs, (hc.literals t ht).2⟩
  have hsegments (s : Segment) : s :: t.segments = (x.require s).segments := by
    rw [ht]
    rfl
  cases kind with
  | static text =>
    exact ⟨x.require (.static text), hsegments _, hx.require rfl hliterals (by rintro _ ⟨⟩)
      (by rintro _ ⟨⟩), by simp [Parts.require], by rintro ⟨⟩⟩
  | glob name =>
    exact ⟨x.require (.glob name), hsegments _, hx.require rfl hliterals (by rintro _ ⟨⟩)
      (by rintro n ⟨⟩; exact hglob name rfl), by simp [Parts.require], by rintro ⟨⟩⟩
  | compound pieces =>
    refine ⟨x.require (.compound pieces), hsegments _, hx.require rfl hliterals ?_
      (by rintro _ ⟨⟩), by simp [Parts.require], by rintro ⟨⟩⟩
    rintro _ ⟨⟩
    exact hc.captures pieces rfl
  | capture name =>
    simp only [Tail.cons, Bool.false_eq_true, if_false]
    have hrequire : (x.require (.capture name false)).Shape P :=
      hx.require rfl hliterals (by rintro _ ⟨⟩) (by rintro _ ⟨⟩)
    -- a capture is required, or may be missing when everything behind it may
    by_cases hreq : name ∈ required
    · rw [if_pos hreq]
      exact ⟨_, hsegments _, hrequire, by simp [Parts.require], by rintro ⟨⟩⟩
    · rw [if_neg hreq]
      cases hadmits : t.admits name with
      | false =>
        refine ⟨_, ?_, hrequire, by simp [Parts.require], ?_⟩
        · rw [← hsegments, Tail.capture, hadmits]
        · rw [Tail.capture, hadmits]
          rintro ⟨⟩
      | true =>
        have hnil : x.required = [] := by
          apply hopt
          rw [Tail.admits, Bool.and_eq_true, Bool.and_eq_true] at hadmits
          exact hadmits.1.1
        refine ⟨_, ?_, hx.admit hnil name, by simp, fun _ => hnil⟩
        rw [Tail.capture, hadmits, ht]
        simp [Parts.segments, hnil]

/-- The segments of a row of components have the shape. A format follows a component. -/
theorem arrange_shape {P : Text → Prop} {components : List Component} (h : Row P components)
    (required : List Text) (defaults : Params) :
    ∃ x : Parts, (arrange required defaults components).segments = x.segments ∧ x.Shape P ∧
      (x.format? ≠ none → x.required ++ x.optional ≠ []) ∧
      ((arrange required defaults components).optional = true → x.required = []) := by
  induction h with
  | nil => exact ⟨⟨[], [], none⟩, rfl, by constructor <;> simp, by simp, fun _ => rfl⟩
  | @cons s c rest hs hc hformat hglob _ ih =>
    obtain ⟨kind, format⟩ := c
    obtain ⟨x, hx, hshape, -, hopt⟩ := ih
    cases format with
    | false =>
      have hnil : ∀ name, kind = .glob name → x.segments = [] := by
        intro name hname
        rw [← hx, (hglob name hname).1]
        rfl
      obtain ⟨y, hy, hyshape, hne, hyopt⟩ := cons_shape required hs hc hx hshape hopt hnil
      exact ⟨y, hy, hyshape, fun _ => hne, hyopt⟩
    | true =>
      obtain rfl : rest = [] := hformat rfl
      have hnil : ∀ name, kind = .glob name → (Parts.segments ⟨[], [], some Component.formatName⟩) = [] := by
        intro name hname
        exact absurd (hglob name hname).2 (by simp)
      obtain ⟨y, hy, hyshape, hne, hyopt⟩ := cons_shape (t := (Tail.nil defaults).format)
        (x := ⟨[], [], some Component.formatName⟩) required hs hc rfl
        (by constructor <;> simp) (fun _ => rfl) hnil
      exact ⟨y, hy, hyshape, fun _ => hne, hyopt⟩

/-- The segments capture what the components do. -/
theorem names_arrange (required : List Text) (defaults : Params) (components : List Component) :
    segmentNames (arrange required defaults components).segments =
      components.flatMap Component.names := by
  induction components with
  | nil => rfl
  | cons c components ih =>
    obtain ⟨kind, format⟩ := c
    -- the suffix adds the name of the format behind the component
    have hformat : segmentNames (if format then (arrange required defaults components).format
        else arrange required defaults components).segments =
        (if format then [Component.formatName] else []) ++
          components.flatMap Component.names := by
      cases format
      · exact ih
      · exact congrArg (Component.formatName :: ·) ih
    have hcons : segmentNames (arrange required defaults (⟨kind, format⟩ :: components)).segments =
        kind.names ++ segmentNames (if format then (arrange required defaults components).format
          else arrange required defaults components).segments := by
      cases kind with
      | static | glob | compound => rfl
      | capture name =>
        by_cases hreq : name ∈ required <;> simp [arrange, Tail.cons, hreq] <;> rfl
    rw [hcons, hformat, List.flatMap_cons, Component.names, List.append_assoc]

/-- A component leaves every default as it was, or drops one of nil. -/
theorem defaults_cons (required : List Text) (c : Component) (t : Tail) (k : Text) :
    (Tail.cons required c t).defaults.get? k = t.defaults.get? k ∨
      (Tail.cons required c t).defaults.get? k = none ∧ t.defaults.get? k = some .nil := by
  obtain ⟨kind, format⟩ := c
  have hformat : (if format then t.format else t).defaults = t.defaults := by cases format <;> rfl
  rw [← hformat]
  simp only [Tail.cons]
  generalize (if format then t.format else t) = t
  cases kind with
  | static | glob | compound => exact .inl rfl
  | capture name =>
    by_cases hreq : name ∈ required
    · exact .inl (by simp only [hreq, if_true]; rfl)
    · simp only [hreq, if_false, Tail.capture]
      split
      · next hdrop =>
        by_cases hk : name = k
        · subst hk
          exact .inr ⟨by simp, hdrop.2.2⟩
        · exact .inl (by simp [hk])
      · exact .inl rfl

/-- Only defaults of nil are dropped. -/
theorem defaults_arrange (required : List Text) (defaults : Params) (components : List Component)
    (k : Text) :
    (arrange required defaults components).defaults.get? k = defaults.get? k ∨
      (arrange required defaults components).defaults.get? k = none ∧
        defaults.get? k = some .nil := by
  induction components with
  | nil => exact .inl rfl
  | cons c components ih =>
    rcases defaults_cons required c (arrange required defaults components) k with h | ⟨h, hnil⟩
    · rw [← h] at ih
      exact ih
    · rcases ih with ih | ⟨ih, -⟩
      · exact .inr ⟨h, ih ▸ hnil⟩
      · rw [hnil] at ih
        cases ih

/-! ## The whole template -/

namespace Parts

/-- Taking off the format gives back the parts of the template. -/
theorem splitFormat_segments {P : Text → Prop} {x : Parts} (h : x.Shape P) :
    splitFormat x.segments = (x.required ++ x.optional, x.format?) := by
  have hno : ∀ s ∈ x.required ++ x.optional, ∀ name, s ≠ .format name := by
    intro s hs name
    rcases List.mem_append.1 hs with hs | hs
    · rintro rfl
      exact absurd (h.required _ hs) (by simp [Segment.isOptional])
    · obtain ⟨n, rfl⟩ := h.optional s hs
      rintro ⟨⟩
  rw [segments]
  generalize x.required ++ x.optional = components at hno
  induction components with
  | nil => cases x.format? <;> rfl
  | cons s components ih =>
    obtain ⟨hs, hno⟩ := List.forall_mem_cons.1 hno
    rw [List.cons_append, splitFormat, ih hno]
    exact fun name heq _ => hs name heq

theorem names_segments (x : Parts) : segmentNames x.segments =
    segmentNames x.required ++ (segmentNames x.optional ++ x.format?.toList) := by
  rw [segments, segmentNames, List.flatMap_append, List.flatMap_append, List.append_assoc]
  cases x.format? <;> rfl

end Parts

/-- What reading a pattern guarantees about the template. -/
theorem shape_of_read {pattern : Text} {defaults defaults' : Params} {required : List Text}
    {segments : List Segment} (h : read pattern defaults required = .ok (segments, defaults')) :
    ∃ x : Parts, segments = x.segments ∧ x.Shape (· ∈ Path.components pattern) ∧
      (x.format? ≠ none → x.required ++ x.optional ≠ []) ∧ (segmentNames segments).Nodup ∧
      ∀ k, defaults'.get? k = defaults.get? k ∨
        defaults'.get? k = none ∧ defaults.get? k = some .nil := by
  obtain ⟨comps, hc, h⟩ := bind_eq_ok.1 h
  cases h
  obtain ⟨hrow, hnodup⟩ := readComponents_ok hc .nil
  obtain ⟨x, hx, hshape, hformat, -⟩ := arrange_shape hrow required defaults
  refine ⟨x, hx, hshape, hformat, ?_, defaults_arrange required defaults comps⟩
  rw [names_arrange]
  simpa using hnodup

end Template

end Routing
