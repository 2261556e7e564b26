import Routing.Proofs.Regex.Closed
import Routing.Proofs.Regex.Context
import Routing.Proofs.Regex.Search
import Routing.Requirement

/-!
# What a requirement accepts

A requirement that stands alone is put between anchors, so that it accepts whole texts: those that
its fragment matches with nothing around them.

* `Regex.isSome_find_anchored` — what an expression between anchors matches
* `Requirement.accepts_iff_of_denotes` — what a requirement accepts whose fragment denotes a
  language
* `Requirement.isClosed`, `Requirement.denotes_of_closed` — a requirement that reads by itself
* `Requirement.Embeds`, `Requirement.Embeds.accepts` — what its fragment matches inside a text
-/

namespace Routing

namespace Regex

/-- What is matched between anchors, is matched as a whole text. -/
theorem anchored_iff {M : Lang} {l w r : Text} {g : Groups} :
    (((Expr.look .start).Matches.seq M).seq (Expr.look .stop).Matches) l w r g ↔
      l = [] ∧ r = [] ∧ M [] w [] g := by
  constructor
  · intro h
    obtain ⟨_, _, _, _, rfl, rfl, ⟨_, w', _, g', rfl, rfl, ⟨rfl, rfl, hl⟩, h⟩, rfl, rfl, hr⟩ := h
    obtain rfl : l = [] := by simpa [Look.holds] using hl
    obtain rfl : r = [] := by simpa [Look.holds] using hr
    exact ⟨rfl, rfl, by simpa using h⟩
  · intro h
    obtain ⟨rfl, rfl, h⟩ := h
    exact ⟨w, [], g, [], by simp, rfl, ⟨[], w, [], g, rfl, by simp, ⟨rfl, rfl, rfl⟩, h⟩, rfl, rfl,
      rfl⟩

/-- An expression between anchors matches whole texts. -/
theorem chain_anchored {es : List Expr} {l w r : Text} {g : Groups} :
    Expr.Chain (.look .start :: es ++ [.look .stop]) l w r g ↔
      l = [] ∧ r = [] ∧ Expr.Chain es [] w [] g := by
  rw [Expr.chain_append, Expr.chain_cons, Expr.chain_cons, Expr.chain_nil, Lang.seq_nil]
  exact anchored_iff

section Anchored

variable {e : Expr} {es : List Expr} {t : Text}

/-- What an expression between anchors finds in a text is a match of the whole text. -/
theorem matches_of_find_anchored (he : e.Matches = Expr.Chain (.look .start :: es ++ [.look .stop]))
    {g : Groups} (h : e.find? t = some g) : Expr.Chain es [] t [] g := by
  obtain ⟨l, w, r, rfl, hM⟩ := Expr.matches_of_find h
  rw [he, chain_anchored] at hM
  obtain ⟨rfl, rfl, hM⟩ := hM
  simpa using hM

/-- An expression between anchors is found in a text when it matches the whole of it. -/
theorem isSome_find_anchored (he : e.Matches = Expr.Chain (.look .start :: es ++ [.look .stop])) :
    (e.find? t).isSome = true ↔ ∃ g, Expr.Chain es [] t [] g := by
  constructor
  · intro h
    obtain ⟨g, hg⟩ := Option.isSome_iff_exists.1 h
    exact ⟨g, matches_of_find_anchored he hg⟩
  · rintro ⟨g, hg⟩
    have hM : e.Matches [] t [] g := by
      rw [he]
      exact chain_anchored.2 ⟨rfl, rfl, hg⟩
    simpa using Expr.isSome_find hM

end Anchored

end Regex

namespace Requirement

open Regex

/-- A list of known letters switches on the options that it names. -/
theorem options_eq_ok {ignoreCase extended i x : Bool} {flags : Text}
    (h : options ignoreCase extended flags = .ok (i, x)) :
    i = (ignoreCase || decide ('i' ∈ flags)) ∧ x = (extended || decide ('x' ∈ flags)) := by
  fun_induction options ignoreCase extended flags with
  | case1 =>
    cases h
    simp
  | case2 _ _ s ih =>
    obtain ⟨rfl, rfl⟩ := ih h
    simp
  | case3 _ _ s ih =>
    obtain ⟨rfl, rfl⟩ := ih h
    simp
  | case4 => cases h
  | case5 => cases h

variable [Properties]

/-- A requirement keeps its pattern, and the options that its letters name. -/
theorem fields_of_compile {spec : Source} {c : Requirement} (h : compile spec = .ok c) :
    c.source = spec.pattern ∧ c.ignoreCase = decide ('i' ∈ spec.flags) ∧
      c.extended = decide ('x' ∈ spec.flags) := by
  unfold compile at h
  obtain ⟨⟨i, x⟩, hflags, h⟩ := bind_eq_ok.1 h
  obtain ⟨rfl, rfl⟩ := options_eq_ok hflags
  simp only at h
  split at h
  · cases h
  · split at h
    · cases h
    · split at h
      · cases h
      · cases h
        simp

/-- A requirement accepts what its fragment matches with nothing around it. -/
theorem accepts_iff_of_denotes {c : Requirement} {M : Lang} {names : List Text}
    (h : Denotes c.fragment M names) (t : Text) : c.accepts t = true ↔ ∃ g, M [] t [] g := by
  obtain ⟨items, es, hreads, hmeans, rfl⟩ := h
  have hfragment : Denotes c.fragment (Expr.Chain es) names := ⟨items, es, hreads, hmeans, rfl⟩
  -- the expression for whole texts is the fragment between two anchors
  have hwhole := ((Denotes.of_spells .lineStart).append hfragment (by simp [fragment, fragmentOf])).append
    (.of_spells .lineEnd) (by decide)
  have hparsed := c.whole.parsed
  rw [c.whole_source] at hparsed
  obtain ⟨-, hM⟩ := hwhole.parse hparsed
  rw [← Expr.chain_append, ← Expr.chain_append] at hM
  exact isSome_find_anchored hM

/-! ## Requirements that read by themselves -/

/-- What stands in the group of the fragment. -/
def body (c : Requirement) : Text := c.source ++ if c.extended then ['\n'] else []

/-- Whether the requirement reads by itself: its text closes the groups that it opens, and no
others. -/
def isClosed (c : Requirement) : Bool :=
  match Reader.run { Reader.State.start with extended := c.extended } c.body with
  | .ok st => st.scopes.isEmpty
  | .error _ => false

/-- What opens the group of the fragment. -/
def opening (c : Requirement) : Text :=
  "(?".toList ++ (if c.ignoreCase then ['i'] else []) ++ (if c.extended then ['x'] else []) ++ [':']

/-- The options of the fragment. -/
def change (c : Requirement) : FlagChange :=
  ⟨(if c.ignoreCase then [.ignoreCase] else []) ++ if c.extended then [.extended] else [], []⟩

/-- The fragment is what opens its group, the pattern, and a parenthesis. -/
theorem fragment_eq (c : Requirement) : c.fragment = c.opening ++ c.body ++ [')'] := by
  simp [fragment, fragmentOf, opening, body]

/-- Behind what opens the group, reading goes on inside it under the options. -/
theorem run_opening (c : Requirement) {st : Reader.State} (hx : st.extended = false) (s : Text) :
    Reader.run st (c.opening ++ s) =
      Reader.run { Reads.inside st (.flagged c.change) [] with extended := c.extended } s := by
  have hstep : Reader.step st '(' (c.opening.tail ++ s) =
      .ok ({ Reads.inside st (.flagged c.change) [] with extended := c.extended }, s) := by
    rw [opening, change]
    cases c.ignoreCase <;> cases c.extended <;>
      simp [Reader.step, Reader.groupHead, Reader.groupFlags, Reader.flagChange?, Reader.gap, hx,
        Reader.State.openGroup, Reads.inside, bind, Except.bind, pure, Except.pure,
        FlagChange.apply, Flag.ofChar?]
  have hopen : c.opening ++ s = '(' :: (c.opening.tail ++ s) := rfl
  rw [hopen, Reader.run_cons hx, hstep]
  rfl

/-- The expression for whole texts is read to its end, where all groups are closed. -/
theorem run_whole (c : Requirement) :
    ∃ stop, Reader.run (Reader.State.start.add [.anchor .lineStart] [])
      (c.opening ++ c.body ++ [')', '$']) = .ok stop ∧ stop.scopes = [] := by
  have hparsed := c.whole.parsed
  rw [c.whole_source] at hparsed
  obtain ⟨stop, _, hrun, hclosed, -⟩ := parse_eq_ok.1 hparsed
  change Reader.run .start (['^'] ++ c.fragment ++ ['$']) = .ok stop at hrun
  rw [fragment_eq, List.append_assoc, Written.lineStart .start rfl List.nodup_nil (by simp) _
    (by simp [opening]), List.append_assoc] at hrun
  exact ⟨stop, hrun, hclosed⟩

/-- The fragment of a requirement that reads by itself is read as one group. -/
theorem reads_of_closed {c : Requirement} {st : Reader.State}
    (halone : Reader.run { Reader.State.start with extended := c.extended } c.body = .ok st)
    (hscopes : st.scopes = []) :
    Reads c.fragment [.group (.flagged c.change) st.body] st.names.reverse := by
  obtain ⟨stop, hrun, hclosed⟩ := c.run_whole
  rw [fragment_eq]
  exact Reader.reads_group (fun st s hx => c.run_opening hx s) halone hscopes rfl
    (u := ['$']) (by decide) hrun hclosed

/-- A fragment that is read as one group stands between anchors in the expression for whole
texts. -/
theorem meaning_of_reads {c : Requirement} {body : Syntax} {names : List Text}
    (h : Reads c.fragment [.group (.flagged c.change) body] names) :
    (Syntax.group (.flagged c.change) body).depth ≤ Syntax.depthLimit ∧
      ∃ e, (Syntax.group (.flagged c.change) body).meaning {} = .ok (e, {}) ∧
        c.whole.expr = .concat [.look .start, e, .look .stop] := by
  have hparsed := c.whole.parsed
  rw [c.whole_source] at hparsed
  have hwhole := ((Reads.of_written .lineStart).append h
    (by simp [fragment_eq, opening])).append (.of_written .lineEnd) (by decide)
  obtain ⟨-, hdepth, f, hmeaning⟩ := hwhole.parse hparsed
  change (Syntax.seq [.anchor .lineStart, .group (.flagged c.change) body,
    .anchor .lineEnd]).meaning {} = _ at hmeaning
  change (Syntax.seq [.anchor .lineStart, .group (.flagged c.change) body,
    .anchor .lineEnd]).depth ≤ _ at hdepth
  rw [Syntax.meaning] at hmeaning
  obtain ⟨⟨es, f'⟩, hmeanings, hmeaning⟩ := bind_eq_ok.1 hmeaning
  have hexpr : c.whole.expr = .concat es := (congrArg Prod.fst (Except.ok.inj hmeaning)).symm
  -- the group is the middle one of its three parts
  obtain ⟨_, _, _, hstart, hgroups, rfl⟩ := Syntax.meanings_cons.1 hmeanings
  rw [Syntax.meaning] at hstart
  cases hstart
  obtain ⟨e, f, _, hgroup, hlast, rfl⟩ := Syntax.meanings_cons.1 hgroups
  have hflags : f = {} := by
    rw [Syntax.meaning] at hgroup
    obtain ⟨_, -, hgroup⟩ := bind_eq_ok.1 hgroup
    exact (congrArg Prod.snd (Except.ok.inj hgroup)).symm
  subst hflags
  obtain ⟨_, hstop, rfl⟩ := Syntax.meanings_singleton.1 hlast
  rw [Syntax.meaning] at hstop
  cases hstop
  refine ⟨?_, e, hgroup, hexpr⟩
  simp only [Syntax.depth, Syntax.depths] at hdepth ⊢
  omega

/-- A requirement that reads by itself is read to its end, with no group left open. -/
theorem run_of_closed {c : Requirement} (h : c.isClosed = true) :
    ∃ st, Reader.run { Reader.State.start with extended := c.extended } c.body = .ok st ∧
      st.scopes = [] := by
  rw [isClosed] at h
  split at h
  · next st halone => exact ⟨st, halone, List.isEmpty_iff.1 h⟩
  · cases h

/-- The fragment of a requirement that reads by itself means the same wherever it stands. -/
theorem denotes_of_closed {c : Requirement} (h : c.isClosed = true) :
    ∃ e names, Denotes c.fragment (Expr.Matches e) names ∧ (Expr.Matches e).Binds names ∧
      c.whole.expr.seesWords = e.seesWords := by
  obtain ⟨st, halone, hscopes⟩ := run_of_closed h
  have hreads := reads_of_closed halone hscopes
  obtain ⟨-, e, hgroup, hexpr⟩ := meaning_of_reads hreads
  refine ⟨e, st.names.reverse, ?_, ?_, ?_⟩
  · refine ⟨_, [e], hreads, Syntax.meanings_singleton.2 ⟨e, hgroup, rfl⟩, ?_⟩
    exact Lang.seq_nil _
  -- the reader has recorded every name that the body binds
  · apply (Syntax.binds_meaning hgroup).mono
    intro n hn
    exact List.mem_reverse.2 ((Reader.recorded_run halone (Reader.recorded_start _)).body n hn)
  · rw [hexpr, Expr.seesWords_concat]
    simp [Expr.seesWords, Look.seesWords]

/-! ## Requirements inside other expressions -/

/-- Whether the expression compares two characters as parts of words. -/
def seesWords (c : Requirement) : Bool := c.whole.expr.seesWords

/-- The fragment matches this language wherever it stands. What stands around a match does not
matter, unless it is compared with the characters of a word. -/
structure Embeds (c : Requirement) (M : Lang) (names : List Text) : Prop where
  denotes : Denotes c.fragment M names
  binds : M.Binds names
  shrinks : ∀ a b : Text, c.seesWords = false ∨ Look.Apart a.getLast? ∧ Look.Apart b.head? →
    M.Shrinks a b

/-- A requirement that reads by itself can stand inside other expressions. -/
theorem embeds_of_closed {c : Requirement} (h : c.isClosed = true) :
    ∃ M names, c.Embeds M names := by
  obtain ⟨e, names, hdenotes, hbinds, hwords⟩ := denotes_of_closed h
  refine ⟨e.Matches, names, hdenotes, hbinds, fun a b hab => ?_⟩
  rw [seesWords, hwords] at hab
  exact Expr.matches_shrink hab

/-- What the fragment matches inside a text, the requirement accepts. -/
theorem Embeds.accepts {c : Requirement} {M : Lang} {names : List Text} (h : c.Embeds M names)
    {l t r : Text} {g : Groups} (hM : M l t r g)
    (hwords : c.seesWords = false ∨ Look.Apart l.getLast? ∧ Look.Apart r.head?) :
    c.accepts t = true := by
  refine (accepts_iff_of_denotes h.denotes t).2 ⟨g, h.shrinks l r hwords [] t [] g ?_⟩
  simpa using hM

end Requirement

end Routing
