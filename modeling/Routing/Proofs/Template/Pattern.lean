import Routing.CompileError
import Routing.Declaration
import Routing.Proofs.Path
import Routing.Proofs.Template.Written

/-!
# The grammar of patterns

A pattern is a row of components, each written in one of the forms, whose captures have distinct
names. The reader accepts these patterns and no others, and printing gives back what it has read.

* `Template.Grammatical` — the patterns
* `Template.text`, `Template.Tidy` — the written form of segments, and how they are put together
* `Template.readInPlace` — the reader with the defaults changed where they are kept
* `Template.read_iff_grammatical` — what the reader accepts, what printing gives back, and what
  becomes of the defaults
-/

namespace Routing

namespace Template

/-! ## Patterns -/

/-- Rows of components that are each written in one of the forms. -/
def AllWritten (parts : List Text) : Prop :=
  ∀ before s after, parts = before ++ s :: after → Component.Written after.isEmpty s

/-- The first component and the others are each written in a form. -/
theorem allWritten_cons {s : Text} {parts : List Text} :
    AllWritten (s :: parts) ↔ Component.Written parts.isEmpty s ∧ AllWritten parts := by
  constructor
  · intro h
    exact ⟨h [] s parts rfl, fun before t after heq => h (s :: before) t after (by rw [heq]; rfl)⟩
  · rintro ⟨hs, hparts⟩ before t after heq
    cases before with
    | nil =>
      obtain ⟨rfl, rfl⟩ := List.cons.inj heq
      exact hs
    | cons u before => exact hparts before t after (List.cons.inj heq).2

/-- Patterns whose components are written in the forms and whose captures have distinct names. -/
structure Grammatical (pattern : Text) : Prop where
  written : AllWritten (Path.components pattern)
  distinct : ((Path.components pattern).flatMap Component.writtenNames).Nodup

/-- Components that are read are written in the forms, and each can be printed again. -/
theorem written_of_readComponents {seen parts : List Text} {components : List Component}
    (h : readComponents seen parts = .ok components) :
    AllWritten parts ∧ components.map Component.text = parts ∧
      components.flatMap Component.names = parts.flatMap Component.writtenNames ∧
      ∀ c ∈ components, Component.Tidy c.kind := by
  induction parts generalizing seen components with
  | nil =>
    cases h
    exact ⟨by rintro before s after heq; simp at heq, rfl, rfl, nofun⟩
  | cons s parts ih =>
    obtain ⟨c, rest, rfl, hc, -, hrest⟩ := readComponents_eq_ok h
    obtain ⟨hs, htext, hnames, htidy⟩ := Component.written_of_read hc
    obtain ⟨hparts, htexts, hnamess, htidys⟩ := ih hrest
    refine ⟨allWritten_cons.2 ⟨hs, hparts⟩, ?_, ?_, List.forall_mem_cons.2 ⟨htidy, htidys⟩⟩
    · rw [List.map_cons, htext, htexts]
    · rw [List.flatMap_cons, List.flatMap_cons, hnames, hnamess]

/-- Among distinct names none is repeated. -/
theorem repeated?_of_nodup {seen names : List Text} (h : (seen ++ names).Nodup) :
    repeated? seen names = none := by
  induction names generalizing seen with
  | nil => rfl
  | cons name names ih =>
    have hnew : name ∉ seen := fun hseen =>
      (List.nodup_append.1 h).2.2 name hseen name List.mem_cons_self rfl
    rw [repeated?, if_neg hnew]
    apply ih
    rwa [List.append_assoc]

/-- Components that are written in the forms and have distinct names are read. -/
theorem readComponents_of_written {seen parts : List Text} (h : AllWritten parts)
    (hnodup : (seen ++ parts.flatMap Component.writtenNames).Nodup) :
    ∃ components, readComponents seen parts = .ok components := by
  induction parts generalizing seen with
  | nil => exact ⟨[], rfl⟩
  | cons s parts ih =>
    obtain ⟨hs, hparts⟩ := allWritten_cons.1 h
    obtain ⟨c, hc⟩ := Component.read_of_written hs
    rw [List.flatMap_cons, ← List.append_assoc, ← (Component.written_of_read hc).2.2.1] at hnodup
    obtain ⟨rest, hrest⟩ := ih hparts hnodup
    have hnew : repeated? seen c.names = none :=
      repeated?_of_nodup (List.nodup_append.1 hnodup).1
    refine ⟨c :: rest, ?_⟩
    rw [readComponents]
    refine bind_eq_ok.2 ⟨c, hc, ?_⟩
    rw [hnew]
    exact bind_eq_ok.2 ⟨rest, hrest, rfl⟩

/-- The components of a pattern are read if the pattern is grammatical. -/
theorem components_isOk_iff {pattern : Text} :
    (∃ comps, components pattern = .ok comps) ↔ Grammatical pattern := by
  constructor
  · rintro ⟨comps, h⟩
    obtain ⟨hwritten, -, hnames, -⟩ := written_of_readComponents h
    -- what is read captures the names that are written, none of them twice
    have hnodup := (readComponents_ok h .nil).2
    rw [List.nil_append, hnames] at hnodup
    exact ⟨hwritten, hnodup⟩
  · exact fun h => readComponents_of_written h.written (by simpa using h.distinct)

/-! ## Printing -/

/-- The written form of segments: a slash between two components, a format attached. -/
def text : List Segment → Text
  | [] => []
  | s :: rest => s.text ++ rest.flatMap attached
where
  /-- What a segment adds to those before it. -/
  attached : Segment → Text
    | .format name => Segment.text (.format name)
    | s => '/' :: s.text

/-- What templates are put together from: globs and formats stand at the end alone, and pieces are
tidy. -/
structure Tidy (segments : List Segment) : Prop where
  glob : ∀ before name after, segments = before ++ .glob name :: after → after = []
  format : ∀ before name after, segments = before ++ .format name :: after → after = []
  pieces : ∀ pieces, .compound pieces ∈ segments → Piece.Tidy pieces

/-- A component adds its segment and, with the suffix, a format. -/
theorem segments_arrange_cons (required : List Text) (defaults : Params) (c : Component)
    (comps : List Component) :
    ∃ optional, (arrange required defaults (c :: comps)).segments = c.kind.segment optional ::
      ((if c.format then [.format Component.formatName] else []) ++
        (arrange required defaults comps).segments) := by
  obtain ⟨kind, format⟩ := c
  rw [show arrange required defaults (⟨kind, format⟩ :: comps) =
    Tail.cons required ⟨kind, format⟩ (arrange required defaults comps) from rfl]
  generalize arrange required defaults comps = t
  have hformat : (if format then t.format else t).segments =
      (if format then [.format Component.formatName] else []) ++ t.segments := by
    cases format <;> rfl
  rw [← hformat]
  cases kind with
  | static | glob | compound => exact ⟨false, rfl⟩
  | capture name =>
    by_cases hreq : name ∈ required
    · exact ⟨false, by simp only [Tail.cons, if_pos hreq]; rfl⟩
    · exact ⟨_, by simp only [Tail.cons, if_neg hreq]; rfl⟩

theorem segment_text (kind : ComponentKind) (optional : Bool) :
    (kind.segment optional).text = kind.text := by
  cases kind <;> rfl

/-- A component is attached with a slash. -/
theorem attached_segment (kind : ComponentKind) (optional : Bool) :
    text.attached (kind.segment optional) = '/' :: kind.text := by
  cases kind <;> rfl

/-- Segments are attached as the components they come from, with slashes before each. -/
theorem flatMap_attached (required : List Text) (defaults : Params) (comps : List Component) :
    (arrange required defaults comps).segments.flatMap text.attached =
      (comps.map Component.text).flatMap ('/' :: ·) := by
  induction comps with
  | nil => rfl
  | cons c comps ih =>
    obtain ⟨optional, hcons⟩ := segments_arrange_cons required defaults c comps
    have hformat : (if c.format then [Segment.format Component.formatName] else []).flatMap
        text.attached = if c.format then Component.formatSuffix else [] := by
      cases c.format <;> rfl
    rw [hcons, List.flatMap_cons, List.flatMap_append, attached_segment, hformat, ih,
      List.map_cons, List.flatMap_cons, Component.text]
    simp only [List.cons_append, List.append_assoc]

/-- Segments are printed as the components they come from, with slashes between. -/
theorem text_arrange (required : List Text) (defaults : Params) (comps : List Component) :
    text (arrange required defaults comps).segments =
      ['/'].intercalate (comps.map Component.text) := by
  cases comps with
  | nil => rfl
  | cons c comps =>
    have hslash : '/' :: text (arrange required defaults (c :: comps)).segments =
        (arrange required defaults (c :: comps)).segments.flatMap text.attached := by
      obtain ⟨optional, hcons⟩ := segments_arrange_cons required defaults c comps
      rw [hcons, List.flatMap_cons, attached_segment, text, segment_text, List.cons_append]
    rw [flatMap_attached, ← Path.ofComponents_eq_flatMap (by simp)] at hslash
    exact (List.cons.inj hslash).2

theorem Tidy.nil : Tidy [] where
  glob := by simp
  format := by simp
  pieces := nofun

/-- One more segment in front, which has segments after it unless it may be the last one. -/
theorem Tidy.cons {s : Segment} {segments : List Segment} (h : Tidy segments)
    (hglob : ∀ name, s = .glob name → segments = [])
    (hformat : ∀ name, s = .format name → segments = [])
    (hpieces : ∀ pieces, s = .compound pieces → Piece.Tidy pieces) : Tidy (s :: segments) where
  glob := by
    intro before name after heq
    cases before with
    | nil =>
      obtain ⟨hs, rfl⟩ := List.cons.inj heq
      exact hglob name hs
    | cons _ before => exact h.glob before name after (List.cons.inj heq).2
  format := by
    intro before name after heq
    cases before with
    | nil =>
      obtain ⟨hs, rfl⟩ := List.cons.inj heq
      exact hformat name hs
    | cons _ before => exact h.format before name after (List.cons.inj heq).2
  pieces := by
    intro pieces hmem
    rcases List.mem_cons.1 hmem with heq | hmem
    · exact hpieces pieces heq.symm
    · exact h.pieces pieces hmem

/-- The segments of a row of components are tidy. -/
theorem tidy_arrange {P : Text → Prop} {comps : List Component} (hrow : Row P comps)
    (hpieces : ∀ c ∈ comps, Component.Tidy c.kind) (required : List Text) (defaults : Params) :
    Tidy (arrange required defaults comps).segments := by
  induction hrow with
  | nil => exact .nil
  | @cons s c rest _ _ hformat hglob _ ih =>
    obtain ⟨hc, hrest⟩ := List.forall_mem_cons.1 hpieces
    obtain ⟨optional, hcons⟩ := segments_arrange_cons required defaults c rest
    have hnil : rest = [] → (arrange required defaults rest).segments = [] := by
      rintro rfl
      rfl
    -- a format follows a component only where nothing else does
    have hsuffix : Tidy ((if c.format then [.format Component.formatName] else []) ++
        (arrange required defaults rest).segments) := by
      cases hf : c.format with
      | false => exact ih hrest
      | true => exact (ih hrest).cons nofun (fun _ _ => hnil (hformat hf)) nofun
    obtain ⟨kind, format⟩ := c
    rw [hcons]
    apply hsuffix.cons
    · intro name hname
      cases kind with
      | glob =>
        obtain ⟨hlast, hf⟩ := hglob _ rfl
        rw [hnil hlast, show format = false from hf]
        rfl
      | static | capture | compound => cases hname
    · intro name hname
      cases kind <;> cases hname
    · intro pieces hpieces
      cases kind <;> cases hpieces
      exact hc pieces rfl

/-! ## Reading in place -/

/-- A component before the tail, the defaults being changed where they are kept. -/
def Tail.consInPlace (required : List Text) (c : Component) (t : Tail) : StateM Params Tail := do
  let t := Tail.cons required c { t with defaults := ← get }
  set t.defaults
  return t

/-- Reads a pattern against defaults that are changed where they are kept. -/
def readInPlace (pattern : Text) (required : List Text) :
    ExceptT TemplateFault (StateM Params) (List Segment) := do
  let comps ← ExceptT.mk (pure (components pattern))
  let tail ← (comps.foldrM (Tail.consInPlace required) (.nil .empty) : StateM Params Tail)
  return tail.segments

/-- Going through the components in place leaves the defaults that remain. -/
theorem foldrM_consInPlace (required : List Text) (defaults : Params) (comps : List Component) :
    ∃ t, (comps.foldrM (Tail.consInPlace required) (.nil .empty)).run defaults =
        (t, (arrange required defaults comps).defaults) ∧
      { t with defaults := (arrange required defaults comps).defaults } =
        arrange required defaults comps := by
  induction comps with
  | nil => exact ⟨_, rfl, rfl⟩
  | cons c comps ih =>
    obtain ⟨t, hrun, ht⟩ := ih
    refine ⟨arrange required defaults (c :: comps), ?_, rfl⟩
    rw [List.foldrM_cons, StateT.run_bind, hrun]
    show (Tail.cons required c { t with defaults := _ }, _) = _
    rw [ht]
    rfl

/-- Reading in place gives the segments and leaves the defaults that remain; a pattern that is
refused leaves all of them. -/
theorem run_readInPlace (pattern : Text) (defaults : Params) (required : List Text) :
    (readInPlace pattern required).run.run defaults =
      match read pattern defaults required with
      | .ok (segments, defaults') => (.ok segments, defaults')
      | .error fault => (.error fault, defaults) := by
  unfold readInPlace read
  cases components pattern with
  | error fault => rfl
  | ok comps =>
    obtain ⟨t, hrun, ht⟩ := foldrM_consInPlace required defaults comps
    show ((Except.ok ((comps.foldrM (Tail.consInPlace required) (.nil .empty) :
        StateM Params Tail).run defaults).1.segments : Except TemplateFault (List Segment)),
      ((comps.foldrM (Tail.consInPlace required) (.nil .empty) :
        StateM Params Tail).run defaults).2) = (Except.ok _, _)
    rw [hrun, ← ht]

/-! ## What the reader does -/

/-- Slashes alone set nothing apart. -/
theorem components_slashes {s : Text} (h : ∀ c ∈ s, c = '/') : Path.components s = [] := by
  induction s with
  | nil => rfl
  | cons c s ih =>
    obtain ⟨rfl, hs⟩ := List.forall_mem_cons.1 h
    rw [Path.components_slash, ih hs]

/-- Slashes at the beginning of a text set nothing apart. -/
theorem components_dropWhile (s : Text) :
    Path.components (s.dropWhile (· = '/')) = Path.components s := by
  induction s with
  | nil => rfl
  | cons c s ih =>
    by_cases hc : c = '/'
    · subst hc
      rw [Path.components_slash, ← ih]
      rfl
    · rw [List.dropWhile_cons_of_neg (by simpa using hc)]

/-- Slashes at both ends of a text set nothing apart. -/
theorem components_trim (s : Text) :
    Path.components (Text.trim (· = '/') s) = Path.components s := by
  have htrimEnd (s : Text) : Path.components (Text.trimEnd (· = '/') s) = Path.components s := by
    -- the slashes at the end are a row of their own behind the rest
    have hsplit : s = Text.trimEnd (· = '/') s ++ (s.reverse.takeWhile (· = '/')).reverse := by
      rw [Text.trimEnd, ← List.reverse_append, List.takeWhile_append_dropWhile,
        List.reverse_reverse]
    have hslashes : ∀ c ∈ (s.reverse.takeWhile (· = '/')).reverse, c = '/' := by
      intro c hc
      simpa using List.mem_takeWhile_imp (List.mem_reverse.1 hc)
    conv_rhs => rw [hsplit]
    generalize (s.reverse.takeWhile (· = '/')).reverse = u at hslashes
    cases u with
    | nil => rw [List.append_nil]
    | cons c u =>
      obtain ⟨rfl, hu⟩ := List.forall_mem_cons.1 hslashes
      rw [Path.components_append_slash, components_slashes hu, List.append_nil]
  rw [Text.trim, htrimEnd, components_dropWhile]

/-- The components of a pattern with a prefix are those of the prefix and those of the pattern. -/
theorem components_fullPath (d : Declaration) :
    Path.components d.fullPath =
      Path.components (d.pathPrefix.getD []) ++ Path.components d.path := by
  have htrim := components_trim (d.pathPrefix.getD [])
  unfold Declaration.fullPath
  -- an empty prefix puts no slash before the pattern
  split
  · next hnil =>
    rw [hnil] at htrim
    rw [← htrim]
    rfl
  · rw [List.append_assoc, List.singleton_append, Path.components_append_slash,
      components_dropWhile, htrim]

/-- A pattern is read if it is grammatical. Printing the segments gives its components back, what is
read and why nothing is read depend on the components alone, and the defaults are changed only when
the pattern is read. -/
theorem read_iff_grammatical (pattern : Text) (defaults : Params) (required : List Text) :
    ((∃ segments defaults', read pattern defaults required = .ok (segments, defaults')) ↔
        Grammatical pattern) ∧
      (∀ segments defaults', read pattern defaults required = .ok (segments, defaults') →
        text segments = ['/'].intercalate (Path.components pattern) ∧ Tidy segments ∧
          (readInPlace pattern required).run.run defaults = (.ok segments, defaults')) ∧
      (∀ fault, read pattern defaults required = .error fault →
        (readInPlace pattern required).run.run defaults = (.error fault, defaults)) ∧
      (∀ pattern', Path.components pattern' = Path.components pattern →
        read pattern' defaults required = read pattern defaults required) ∧
      ∀ d : Declaration, Path.components d.fullPath =
        Path.components (d.pathPrefix.getD []) ++ Path.components d.path := by
  refine ⟨?_, ?_, ?_, ?_, components_fullPath⟩
  · rw [← components_isOk_iff]
    constructor
    · rintro ⟨segments, defaults', h⟩
      obtain ⟨comps, hcomps, -⟩ := bind_eq_ok.1 h
      exact ⟨comps, hcomps⟩
    · rintro ⟨comps, hcomps⟩
      exact ⟨_, _, bind_eq_ok.2 ⟨comps, hcomps, rfl⟩⟩
  · intro segments defaults' h
    have hrun := run_readInPlace pattern defaults required
    rw [h] at hrun
    obtain ⟨comps, hcomps, h⟩ := bind_eq_ok.1 h
    cases h
    obtain ⟨-, htext, -, htidy⟩ := written_of_readComponents hcomps
    obtain ⟨hrow, -⟩ := readComponents_ok hcomps .nil
    rw [text_arrange, htext]
    exact ⟨rfl, tidy_arrange hrow htidy required defaults, hrun⟩
  · intro fault h
    rw [run_readInPlace, h]
  · intro pattern' hsame
    rw [read, read, components, components, hsame]

/-- A star inside a component is refused although no colon of it lacks a name, and the message of a
refusal shows the pattern with its slashes. -/
theorem star_inside_refused :
    Path.components "files*".toList = ["files*".toList] ∧
      ¬ Component.formatSuffix <:+ "files*".toList ∧ "files*".toList.head? ≠ some '*' ∧
      (∀ name ∈ namesAfterColons "files*".toList, IsName name) ∧
      (Component.writtenNames "files*".toList).Nodup ∧
      read "files*".toList .empty [] = .error (.globInside "files*".toList) ∧
      Path.components "/:id/:id".toList = Path.components ":id/:id".toList ∧
      (read "/:id/:id".toList .empty []).mapError (CompileError.template "/:id/:id".toList) ≠
        (read ":id/:id".toList .empty []).mapError (CompileError.template ":id/:id".toList) := by
  refine ⟨by decide, by decide, by decide, ?_, by decide, ?_, by decide, ?_⟩
  · rw [namesAfterColons_of_not_mem (by decide)]
    exact nofun
  · decide +kernel
  · decide +kernel

end Template

end Routing
