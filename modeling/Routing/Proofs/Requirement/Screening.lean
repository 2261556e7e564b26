import Routing.Proofs.Regex.Items
import Routing.Proofs.Requirement

/-!
# What the screening finds

A requirement stands in the middle of a larger expression, so its pattern is screened for assertions
about lines and the text and for flags that switch multi-line mode on. The screening looks at the
text of the pattern only: at its first and last characters, and for question marks right after
parentheses. Told of the items of the pattern, it finds an assertion that begins or ends the whole
pattern, and every switch of multi-line mode but those that extended mode lets stand behind a gap.
An assertion in a group, in another branch or behind a flag item is not found.

* `Source.items`, `Source.syntax?` — the pattern read by itself
* `enablesMultiLine_of_clear`, `isAnchored_of_start`, `isAnchored_of_end` — what is found
* `Source.Screened`, `Source.Exposed` — what may be left in a pattern, and when nothing is
* `screened_of_compile` — a requirement that is accepted has been screened
-/

namespace Routing.Requirement

open Regex

/-! ## The pattern by itself -/

/-- The reader before the pattern, under its options. -/
def Source.reader (spec : Source) : Reader.State :=
  { Reader.State.start with extended := 'x' ∈ spec.flags }

/-- Before the pattern nothing is marked. -/
theorem Source.marks_reader (spec : Source) : spec.reader.marks = [] := by
  simp [reader, Reader.State.marks, Reader.State.marks_body, Reader.State.start]

/-- The items of the pattern. -/
def Source.items (spec : Source) : List Reader.Item := Reader.items spec.reader spec.pattern

/-- The pattern as it is written. -/
def Source.syntax? (spec : Source) : Except Regex.Fault Syntax := do
  let st ← Reader.run spec.reader spec.pattern
  st.finish

/-- The assertions and the flag changes of the pattern are those of its items. -/
theorem Source.marks_syntax {spec : Source} {w : Syntax} (h : spec.syntax? = .ok w) :
    w.marks = spec.items.flatMap fun it => it.action.marks := by
  obtain ⟨st, hrun, h⟩ := bind_eq_ok.1 h
  rw [Reader.State.finish] at h
  split at h
  · next hscopes =>
    cases h
    have hmarks := Reader.marks_items hrun
    rw [spec.marks_reader, Reader.State.marks, List.isEmpty_iff.1 hscopes] at hmarks
    simpa [Source.items] using hmarks
  · cases h

/-! ## Flags -/

/-- Every flag is a letter. -/
theorem isAlpha_of_flag {c : Char} {flag : Flag} (h : Flag.ofChar? c = some flag) :
    c.isAlpha = true := by
  unfold Flag.ofChar? at h
  split at h
  all_goals first
    | rfl
    | cases h

/-- Only one letter stands for multi-line mode. -/
theorem eq_of_multiLine {c : Char} (h : Flag.ofChar? c = some .multiLine) : c = 'm' := by
  unfold Flag.ofChar? at h
  split at h
  all_goals first
    | rfl
    | cases h

/-- A list of letters that switches multi-line mode on is seen to do so. -/
theorem switchesMultiLine_of_change {u : Text} {change : FlagChange}
    (h : Reader.flagChange? (u.takeWhile fun c => c ≠ ':' && c ≠ ')') = .ok change)
    (hon : .multiLine ∈ change.on) : switchesMultiLine u = true := by
  rw [Reader.flagChange?] at h
  rw [switchesMultiLine]
  generalize (u.takeWhile fun c => c ≠ ':' && c ≠ ')') = letters at h ⊢
  split at h
  · cases h
  · split at h
    · cases h
    · next hknown =>
      cases h
      obtain ⟨c, hc, hflag⟩ := List.mem_filterMap.1 hon
      have hletter : ∀ c ∈ letters, (c.isAlpha || c = '-') = true := by
        intro c hc
        by_cases hhyphen : c = '-'
        · simp [hhyphen]
        · have hsome : (Flag.ofChar? c).isSome = true := by
            have hmem : c ∈ letters.filter (· ≠ '-') :=
              List.mem_filter.2 ⟨hc, by simpa using hhyphen⟩
            by_contra hnone
            exact hknown (List.any_eq_true.2 ⟨c, hmem, by simpa using hnone⟩)
          obtain ⟨flag, hflag⟩ := Option.isSome_iff_exists.1 hsome
          simp [isAlpha_of_flag hflag]
      rw [eq_of_multiLine hflag] at hc
      simp only [Bool.and_eq_true, List.all_eq_true, decide_eq_true_eq]
      exact ⟨hletter, hc⟩

/-- A flag item, or the head of a group, that no backslash escapes is found. -/
theorem enablesMultiLine_of_clear {odd : Bool} {s u : Text}
    (h : Reader.Clear odd s ('(' :: '?' :: u)) (hu : switchesMultiLine u = true) :
    enablesMultiLine odd s = true := by
  obtain ⟨taken, rfl, htaken⟩ := h
  -- what was taken decides whether the parenthesis is escaped, and nothing else of it matters
  induction taken generalizing odd with
  | nil =>
    obtain rfl : odd = false := htaken
    simp [enablesMultiLine, hu]
  | cons c taken ih =>
    have hrest := ih htaken
    rw [List.cons_append, enablesMultiLine.eq_def]
    split
    · next heq => cases heq
    · next heq =>
      cases heq
      simpa using hrest
    · next heq =>
      obtain ⟨rfl, hs⟩ := List.cons.inj heq
      rw [hs] at hrest
      simpa using Or.inr hrest
    · next hbackslash _ heq =>
      obtain ⟨rfl, rfl⟩ := List.cons.inj heq
      simpa [show c ≠ '\\' from hbackslash] using hrest

/-! ## Anchors -/

/-- An assertion that begins the pattern is seen, in either spelling. -/
theorem isAnchored_of_start {p rest w : Text} {kind : Anchor}
    (hkind : kind = .lineStart ∨ kind = .textStart)
    (hw : Reader.Anchor.spelling? kind = some w) (hp : p = w ++ rest) : isAnchored p = true := by
  rcases hkind with rfl | rfl
  · cases hw
    rw [hp]
    rfl
  · cases hw
    rw [hp]
    rfl

/-- Looking from the end, a backslash escapes what it does looking from the beginning. -/
theorem oddBackslashes_eq (s : Text) : oddBackslashes s = Reader.oddAfter false s.reverse := by
  induction s with
  | nil => rfl
  | cons c s ih =>
    rw [List.reverse_cons, Reader.oddAfter, List.foldl_append]
    rw [Reader.oddAfter] at ih
    rw [← ih, oddBackslashes, oddBackslashes]
    -- a run of backslashes at the end goes on, or the last character ends it
    by_cases hc : c = '\\'
    · rw [List.takeWhile_cons_of_pos (by simpa using hc)]
      rw [Bool.eq_iff_iff]
      simp [hc]
      omega
    · rw [List.takeWhile_cons_of_neg (by simpa using hc)]
      simp [hc]

/-- An assertion that ends the pattern is seen, as no backslash escapes it. -/
theorem isAnchored_of_end {p w : Text} {kind : Anchor}
    (hkind : kind = .lineEnd ∨ kind = .textEnd)
    (hw : Reader.Anchor.spelling? kind = some w) (hp : Reader.Clear false p w) :
    isAnchored p = true := by
  obtain ⟨taken, rfl, htaken⟩ := hp
  rw [← List.reverse_reverse taken, ← oddBackslashes_eq] at htaken
  rw [isAnchored.eq_def]
  rcases hkind with rfl | rfl
  · cases hw
    split
    · rfl
    · rfl
    · rw [List.reverse_append]
      simp [htaken]
  · cases hw
    split
    · rfl
    · rfl
    · rw [List.reverse_append]
      simp [htaken]

/-! ## Screened patterns -/

/-- What is left of option letters, assertions and flags in a pattern that has been screened. -/
structure Source.Screened (spec : Source) : Prop where
  /-- No option switches multi-line mode on. -/
  flags : ∀ letter ∈ spec.flags, letter = 'i' ∨ letter = 'x'
  /-- Something stands before an assertion that a line or the text starts. -/
  start : ∀ it ∈ spec.items, ∀ m ∈ it.action.marks, m.isStart = true →
    ∃ before, before ≠ [] ∧ spec.pattern = before ++ it.text
  /-- Something stands after an assertion that a line or the text ends. -/
  stop : ∀ it ∈ spec.items, ∀ m ∈ it.action.marks, m.isEnd = true → it.rest ≠ []
  /-- Multi-line mode is switched on in extended mode only, behind a gap after the parenthesis. -/
  multiLine : ∀ it ∈ spec.items, ∀ m ∈ it.action.marks, m.switchesOn .multiLine = true →
    it.extended = true ∧ ∃ c t, it.text = '(' :: c :: t ∧ (isBlank c = true ∨ c = '#')
  /-- So it is not switched on where extended mode never is. -/
  dense : 'x' ∉ spec.flags →
    (∀ it ∈ spec.items, ∀ m ∈ it.action.marks, m.switchesOn .extended = false) →
      ∀ it ∈ spec.items, ∀ m ∈ it.action.marks, m.switchesOn .multiLine = false
  /-- The pattern has no other assertions and flag changes. -/
  complete : ∀ w, spec.syntax? = .ok w → w.marks = spec.items.flatMap fun it => it.action.marks

/-- Nothing hides from the screening: assertions stand at the ends of the pattern or nowhere, and
no gap follows a parenthesis. -/
structure Source.Exposed (spec : Source) : Prop where
  start : ∀ it ∈ spec.items, ∀ m ∈ it.action.marks, m.isStart = true → it.text = spec.pattern
  stop : ∀ it ∈ spec.items, ∀ m ∈ it.action.marks, m.isEnd = true → it.rest = []
  tight : ∀ it ∈ spec.items, it.extended = true → it.text.head? = some '(' →
    it.text.tail.head?.all (fun c => !isBlank c && c ≠ '#') = true

/-- A screened pattern from which nothing hides is free of all that was looked for. -/
theorem Source.Screened.free {spec : Source} {w : Syntax} (h : spec.Screened) (hspec : spec.Exposed)
    (hw : spec.syntax? = .ok w) :
    ∀ m ∈ w.marks, m.isStart = false ∧ m.isEnd = false ∧ m.switchesOn .multiLine = false := by
  intro m hm
  rw [h.complete w hw] at hm
  obtain ⟨it, hit, hm⟩ := List.mem_flatMap.1 hm
  refine ⟨?_, ?_, ?_⟩
  · by_contra hstart
    have hstart' := (Bool.not_eq_false _).mp hstart
    obtain ⟨before, hbefore, hpattern⟩ := h.start it hit m hm hstart'
    rw [hspec.start it hit m hm hstart'] at hpattern
    exact hbefore (List.self_eq_append_left.1 hpattern)
  · by_contra hend
    have hend' := (Bool.not_eq_false _).mp hend
    exact h.stop it hit m hm hend' (hspec.stop it hit m hm hend')
  · by_contra hon
    obtain ⟨hextended, c, t, htext, hc⟩ := h.multiLine it hit m hm ((Bool.not_eq_false _).mp hon)
    have htight := hspec.tight it hit hextended (by rw [htext]; rfl)
    rw [htext] at htight
    rcases hc with hc | rfl
    · simp [hc] at htight
    · simp at htight

/-! ## Accepted requirements -/

/-- Options other than the two known ones are refused. -/
theorem letters_of_options {ignoreCase extended i x : Bool} {flags : Text}
    (h : options ignoreCase extended flags = .ok (i, x)) :
    ∀ letter ∈ flags, letter = 'i' ∨ letter = 'x' := by
  fun_induction options ignoreCase extended flags with
  | case1 => simp
  | case2 _ _ s ih | case3 _ _ s ih => simpa using ih h
  | case4 => cases h
  | case5 => cases h

/-- A requirement that is accepted is of known options, and neither look at its text found
anything. -/
theorem unmarked_of_compile [Properties] {spec : Source} {c : Requirement}
    (h : compile spec = .ok c) :
    (∀ letter ∈ spec.flags, letter = 'i' ∨ letter = 'x') ∧
      enablesMultiLine false spec.pattern = false ∧ isAnchored spec.pattern = false := by
  obtain ⟨⟨i, x⟩, hflags, h⟩ := bind_eq_ok.1 h
  refine ⟨letters_of_options hflags, ?_⟩
  simp only at h
  split at h
  · cases h
  · next hmulti =>
    split at h
    · cases h
    · next hanchored => exact ⟨Bool.eq_false_iff.2 hmulti, Bool.eq_false_iff.2 hanchored⟩

/-- A change of flags that switches multi-line mode on is found unless a gap hides it. -/
theorem gap_of_multiLine {spec : Source} (h : enablesMultiLine false spec.pattern = false)
    {it : Reader.Item} (hit : it ∈ spec.items) {change : FlagChange}
    (hchange : .change change ∈ it.action.marks) (hon : .multiLine ∈ change.on) :
    it.extended = true ∧ ∃ c t, it.text = '(' :: c :: t ∧ (isBlank c = true ∨ c = '#') := by
  obtain ⟨hclear, c, t, htext, haction⟩ := Reader.clear_items hit
  obtain ⟨rfl, u, hgap, hletters⟩ := (Reader.marks_action haction).2 change hchange
  have hswitches := switchesMultiLine_of_change hletters hon
  rcases Reader.gap_cases it.extended t with hsame | ⟨hextended, d, t', rfl, hd⟩
  · -- without a gap the question mark is next to the parenthesis
    rw [htext, ← hsame, hgap] at hclear
    rw [enablesMultiLine_of_clear hclear hswitches] at h
    cases h
  · exact ⟨hextended, d, t', htext, hd⟩

/-- A pattern in whose text neither look finds anything has been screened. -/
theorem Source.screened_of_unmarked {spec : Source}
    (hflags : ∀ letter ∈ spec.flags, letter = 'i' ∨ letter = 'x')
    (hmulti : enablesMultiLine false spec.pattern = false)
    (hanchored : isAnchored spec.pattern = false) : spec.Screened := by
  constructor
  case flags => exact hflags
  case start =>
    intro it hit m hm hstart
    obtain ⟨⟨before, hbefore, -⟩, -⟩ := Reader.clear_items hit
    refine ⟨before, ?_, hbefore⟩
    rintro rfl
    cases m with
    | change change => cases hstart
    | anchor kind =>
      have hkind : kind = .lineStart ∨ kind = .textStart := by simpa [Mark.isStart] using hstart
      -- an assertion with nothing before it would begin the pattern, and be seen there
      obtain ⟨w, hw⟩ : ∃ w, Reader.Anchor.spelling? kind = some w := by
        rcases hkind with rfl | rfl <;> exact ⟨_, rfl⟩
      rw [Reader.text_of_anchor hit hm hw] at hbefore
      rw [isAnchored_of_start hkind hw hbefore] at hanchored
      cases hanchored
  case stop =>
    intro it hit m hm hend hrest
    obtain ⟨hclear, -⟩ := Reader.clear_items hit
    cases m with
    | change change => cases hend
    | anchor kind =>
      have hkind : kind = .lineEnd ∨ kind = .textEnd := by simpa [Mark.isEnd] using hend
      -- one with nothing after it would end the pattern, unescaped
      obtain ⟨w, hw⟩ : ∃ w, Reader.Anchor.spelling? kind = some w := by
        rcases hkind with rfl | rfl <;> exact ⟨_, rfl⟩
      rw [Reader.text_of_anchor hit hm hw, hrest, List.append_nil] at hclear
      rw [isAnchored_of_end hkind hw hclear] at hanchored
      cases hanchored
  case multiLine =>
    intro it hit m hm hon
    cases m with
    | anchor kind => cases hon
    | change change => exact gap_of_multiLine hmulti hit hm (by simpa [Mark.switchesOn] using hon)
  case dense =>
    intro hx hoff it hit m hm
    have hreader : spec.reader.Dense :=
      ⟨decide_eq_false hx, by simp [Source.reader, Reader.State.start]⟩
    cases m with
    | anchor kind => rfl
    | change change =>
      by_contra hon
      have hmem : .multiLine ∈ change.on := by simpa [Mark.switchesOn] using hon
      have hextended := (gap_of_multiLine hmulti hit hm hmem).1
      rw [Reader.dense_items hreader hoff it hit] at hextended
      cases hextended
  case complete => exact fun w => Source.marks_syntax

/-- The pattern of a requirement that is accepted has been screened: no assertion that a line or the
text starts begins it, none that one ends ends it, and multi-line mode is on only where extended
mode hid the switch behind a gap. When nothing hides like that, no assertion and no such switch is
anywhere in the pattern. -/
theorem screened_of_compile [Properties] {spec : Source} {c : Requirement}
    (h : compile spec = .ok c) :
    spec.Screened ∧ (spec.Exposed → ∀ w, spec.syntax? = .ok w →
      ∀ m ∈ w.marks, m.isStart = false ∧ m.isEnd = false ∧ m.switchesOn .multiLine = false) := by
  obtain ⟨hflags, hmulti, hanchored⟩ := unmarked_of_compile h
  have hscreened := Source.screened_of_unmarked hflags hmulti hanchored
  exact ⟨hscreened, fun hexposed w hw => hscreened.free hexposed hw⟩

/-- A flag item behind a gap, and assertions in a group and in the middle of a branch. -/
def hiddenSource : Source := ⟨"( ?m)(^a)|b$c".toList, "x".toList⟩

/-- Flag items, blanks, and characters that are no assertions where they stand. -/
def exposedSource : Source := ⟨"(?i) [^$] | \\$ (b) # ^a".toList, "x".toList⟩

/-- What hides from the screening stays in the pattern; from the other pattern nothing hides. -/
theorem screened_of_compile_hidden :
    (∃ c w, compile hiddenSource = .ok c ∧ hiddenSource.Screened ∧ hiddenSource.syntax? = .ok w ∧
      w.marks = [.change ⟨[.multiLine], []⟩, .anchor .lineStart, .anchor .lineEnd]) ∧
    ∃ c w, compile exposedSource = .ok c ∧ exposedSource.Exposed ∧ exposedSource.syntax? = .ok w ∧
      w.marks = [.change ⟨[.ignoreCase], []⟩] ∧
      ∀ m ∈ w.marks, m.isStart = false ∧ m.isEnd = false ∧ m.switchesOn .multiLine = false := by
  constructor
  · have haccepted : (compile hiddenSource).toOption.isSome = true := by decide +kernel
    have hread : hiddenSource.syntax?.toOption.isSome = true := by decide +kernel
    obtain ⟨c, hc⟩ := isSome_toOption.1 haccepted
    obtain ⟨w, hw⟩ := isSome_toOption.1 hread
    obtain ⟨hscreened, -⟩ := screened_of_compile hc
    refine ⟨c, w, hc, hscreened, hw, ?_⟩
    rw [hscreened.complete w hw]
    decide +kernel
  · have haccepted : (compile exposedSource).toOption.isSome = true := by decide +kernel
    have hread : exposedSource.syntax?.toOption.isSome = true := by decide +kernel
    obtain ⟨c, hc⟩ := isSome_toOption.1 haccepted
    obtain ⟨w, hw⟩ := isSome_toOption.1 hread
    obtain ⟨hscreened, hfree⟩ := screened_of_compile hc
    have hexposed : exposedSource.Exposed := by
      constructor
      all_goals decide +kernel
    refine ⟨c, w, hc, hexposed, hw, ?_, hfree hexposed w hw⟩
    rw [hscreened.complete w hw]
    decide +kernel

end Routing.Requirement
