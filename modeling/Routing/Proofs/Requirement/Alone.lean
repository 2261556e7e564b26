import Routing.Proofs.Regex.Inside
import Routing.Proofs.Regex.Reduced
import Routing.Proofs.Requirement

/-!
# What a pattern means by itself

The expression that checks a requirement is made by putting text around its pattern, which is not
looked at alone. It accepts nevertheless what the pattern, read by itself under its options, matches
as a whole, unless the pattern closes the group that is put around it; and in extended mode, where a
line feed is put after it, unless it makes that line feed a part of itself.

* `Source.alone` — the meaning of a pattern by itself
* `closed_or_unopened` — a requirement that was accepted reads by itself, unless it closes a group
  that it does not open
* `accepts_iff_of_closed` — what a requirement accepts that reads by itself
* `accepts_iff_alone` — what a requirement accepts, told of its pattern
-/

namespace Routing.Requirement

open Regex

/-! ## The pattern -/

section

variable [Properties]

/-- The meaning of the pattern by itself, under its options. -/
def Source.alone (spec : Source) : Except Regex.Fault Expr :=
  parseUnder ('i' ∈ spec.flags) ('x' ∈ spec.flags) spec.pattern

/-- What is put after the pattern, so that it does not end in a comment. -/
def Source.lineFeed (spec : Source) : Text := if 'x' ∈ spec.flags then ['\n'] else []

/-- Whether extended mode, once its option is given, is still on where the pattern ends. -/
def Source.endsExtended (spec : Source) : Bool :=
  match Reader.run { Reader.State.start with extended := 'x' ∈ spec.flags } spec.pattern with
  | .ok st => st.extended
  | .error _ => true

/-! ## The body of the fragment -/

/-- The body of a requirement reads by itself, unless it closes a group that it does not open. -/
theorem closed_or_unopened (c : Requirement) :
    c.isClosed = true ∨
      Reader.Unopened { Reader.State.start with extended := c.extended } c.body := by
  obtain ⟨stop, hrun, hclosed⟩ := c.run_whole
  let start : Reader.State := { Reader.State.start with extended := c.extended }
  let scope : Reader.Scope := ⟨.flagged c.change, [.anchor .lineStart], [], false⟩
  have hover : Reader.run (start.over [scope] []) (c.body ++ [')', '$']) = .ok stop := by
    rwa [List.append_assoc, c.run_opening rfl] at hrun
  have hclosing : Reader.Closing [')', '$'] := by simp [Reader.Closing, Reader.closers]
  -- what is left closes the group of the fragment and all groups that the body has left open
  have hcount {st : Reader.State} {w : Text} (hw : w <:+ [')', '$'])
      (hrest : Reader.run (st.over [scope] []) w = .ok stop) : st.scopes.length < w.count ')' := by
    have hscopes := Reader.scopes_run_closing (hclosing.of_suffix hw) hrest
    rw [hclosed, Reader.State.over, eq_comm, List.drop_eq_nil_iff, List.length_append] at hscopes
    exact hscopes
  -- the body closes a group of its surroundings, reads alone, or is cut short by what follows it
  cases Reader.run_restrict hclosing hover with
  | unopened h => exact .inr h
  | read st w h hw hrest =>
    left
    have hlt := hcount hw hrest
    have hle : w.count ')' ≤ 1 := hw.count_le ')'
    rw [isClosed, h, List.isEmpty_iff]
    exact List.eq_nil_of_length_eq_zero (by omega)
  | escape st h hrest => exact absurd (hcount (List.tail_suffix _) hrest) (Nat.not_lt_zero _)
  | flags st w h hw hrest =>
    have hlt := hcount ((List.suffix_cons _ _).trans hw) hrest
    have hle : (')' :: w).count ')' ≤ 1 := hw.count_le ')'
    rw [List.count_cons_self] at hle
    omega

/-- A requirement that reads by itself means what its body means, under its options. -/
theorem accepts_iff_of_closed {c : Requirement} (h : c.isClosed = true) :
    ∃ e, parseUnder c.ignoreCase c.extended c.body = .ok e ∧
      ∀ v, c.accepts v = true ↔ ∃ g, e.Matches [] v [] g := by
  obtain ⟨st, halone, hscopes⟩ := run_of_closed h
  have hreads := reads_of_closed halone hscopes
  obtain ⟨hdepth, e, hgroup, hexpr⟩ := meaning_of_reads hreads
  refine ⟨e, ?_, ?_⟩
  · have hflags : Flags.change {} c.change = { ignoreCase := c.ignoreCase } := by
      rw [change]
      cases c.ignoreCase <;> cases c.extended <;> rfl
    rw [Syntax.meaning, GroupKind.flags, hflags] at hgroup
    obtain ⟨⟨e', f⟩, hmeaning, hgroup⟩ := bind_eq_ok.1 hgroup
    cases hgroup
    -- the expression is not larger than the one for whole texts, which fits
    have hfits : e'.fits = true := by
      obtain ⟨-, -, -, -, -, -, hwhole⟩ := parse_eq_ok.1 c.whole.parsed
      rw [hexpr] at hwhole
      exact Expr.fits_of_anchored (Syntax.reduced_meaning hmeaning) hwhole
    refine parseUnder_eq_ok.2 ⟨st, f, halone, hscopes, ?_, hmeaning, hfits⟩
    rw [Syntax.depth] at hdepth
    omega
  · have hdenotes : Denotes c.fragment e.Matches st.names.reverse :=
      ⟨_, [e], hreads, Syntax.meanings_singleton.2 ⟨e, hgroup, rfl⟩, Lang.seq_nil _⟩
    exact accepts_iff_of_denotes hdenotes

/-! ## The pattern and the line feed -/

/-- A pattern that cannot be read means nothing, for the same reason. -/
theorem Source.alone_eq_error {spec : Source} {f : Regex.Fault}
    (h : Reader.run { Reader.State.start with extended := 'x' ∈ spec.flags } spec.pattern =
      .error f) : spec.alone = .error f :=
  bind_eq_error.2 (.inl h)

omit [Properties] in
/-- What is put after the pattern closes no group. -/
theorem Source.closing_lineFeed (spec : Source) :
    Reader.Closing spec.lineFeed ∧ ')' ∉ spec.lineFeed := by
  unfold lineFeed
  split <;> simp [Reader.Closing, Reader.closers]

/-- A pattern means alone what it means before the line feed, unless it ends in a backslash that
escapes the line feed, or outside extended mode, where the line feed stands for itself. -/
theorem Source.alone_of_lineFeed {spec : Source} {e : Expr}
    (h : parseUnder ('i' ∈ spec.flags) ('x' ∈ spec.flags) (spec.pattern ++ spec.lineFeed) = .ok e)
    (hopen : spec.alone ≠ .error .groupUnopened)
    (hx : 'x' ∈ spec.flags → spec.alone ≠ .error .escape ∧ spec.endsExtended = true) :
    spec.alone = .ok e := by
  by_cases hflag : 'x' ∈ spec.flags
  · obtain ⟨hescape, hends⟩ := hx hflag
    obtain ⟨st, f, hrun, hscopes, hdepth, hmeaning, hfits⟩ := parseUnder_eq_ok.1 h
    rw [← Reader.State.over_nil { Reader.State.start with extended := 'x' ∈ spec.flags }] at hrun
    have ⟨hclosing, hparen⟩ := spec.closing_lineFeed
    cases Reader.run_restrict hclosing hrun with
    | unopened halone => exact absurd (alone_eq_error halone.run_eq) hopen
    | read st' w halone hw hrest =>
      have hst : st'.extended = true := by
        rwa [endsExtended, halone] at hends
      rw [lineFeed, if_pos hflag, List.suffix_cons_iff, List.suffix_nil] at hw
      -- extended mode skips the line feed
      have hgap : Reader.gap st'.extended w = [] := by
        rw [hst]
        rcases hw with rfl | rfl <;> rfl
      rw [Reader.State.over_nil, Reader.run_of_gap_nil hgap] at hrest
      cases hrest
      exact parseUnder_eq_ok.2 ⟨_, f, halone, hscopes, hdepth, hmeaning, hfits⟩
    | escape st' halone hrest => exact absurd (alone_eq_error halone) hescape
    | flags st' w halone hw hrest => exact absurd (hw.subset List.mem_cons_self) hparen
  · rwa [lineFeed, if_neg hflag, List.append_nil] at h

/-- A requirement accepts what its pattern matches as a whole, with the line feed after it. That is
what the pattern matches by itself, but for the two ways in which the line feed becomes a part of
it; and it is told of every pattern that closes only groups of its own. -/
theorem accepts_iff_alone {spec : Source} {c : Requirement} (h : compile spec = .ok c)
    (hopen : spec.alone ≠ .error .groupUnopened) :
    ∃ e, parseUnder ('i' ∈ spec.flags) ('x' ∈ spec.flags) (spec.pattern ++ spec.lineFeed) = .ok e ∧
      (∀ v, c.accepts v = true ↔ ∃ g, e.Matches [] v [] g) ∧
        (('x' ∈ spec.flags → spec.alone ≠ .error .escape ∧ spec.endsExtended = true) →
          spec.alone = .ok e) := by
  obtain ⟨hsource, hcase, hext⟩ := fields_of_compile h
  have hbody : c.body = spec.pattern ++ spec.lineFeed := by
    rw [body, hsource, hext, Source.lineFeed]
    simp
  obtain ⟨hclosing, hparen⟩ := spec.closing_lineFeed
  have hclosed : c.isClosed = true := by
    refine (closed_or_unopened c).resolve_right fun hunopened => hopen ?_
    rw [hbody, hext] at hunopened
    exact Source.alone_eq_error (hunopened.restrict hclosing hparen).run_eq
  obtain ⟨e, hparse, haccepts⟩ := accepts_iff_of_closed hclosed
  rw [hcase, hext, hbody] at hparse
  exact ⟨e, hparse, haccepts, Source.alone_of_lineFeed hparse hopen⟩

end

/-- Two names, with a comment. -/
def nameSource : Source := ⟨"(david|jamis) # names".toList, "x".toList⟩

/-- The comment does not take in the end of the group. -/
theorem accepts_iff_alone_name :
    ∃ c e, compile nameSource = .ok c ∧ nameSource.alone = .ok e ∧
      (∀ v, c.accepts v = true ↔ ∃ g, e.Matches [] v [] g) ∧
        c.accepts "jamis".toList = true ∧ c.accepts "jamis ".toList = false := by
  have haccepts : (compile nameSource).toOption.any (fun c =>
      c.accepts "jamis".toList && !c.accepts "jamis ".toList) = true := by
    decide +kernel
  have hparse : nameSource.alone.toOption.isSome = true := by decide +kernel
  have halone (f : Regex.Fault) : nameSource.alone ≠ .error f := by
    intro hf
    rw [hf] at hparse
    cases hparse
  cases hc : compile nameSource with
  | error f =>
    rw [hc] at haccepts
    cases haccepts
  | ok c =>
    rw [hc] at haccepts
    obtain ⟨e, -, hiff, he⟩ := accepts_iff_alone hc (halone _)
    refine ⟨c, e, rfl, he fun _ => ⟨halone _, by decide +kernel⟩, hiff, ?_⟩
    simpa [Except.toOption] using haccepts

/-- Names of letters and digits in every script, but no name with a digit at its end. -/
example : ((compile (.plain "[\\pL\\d]*\\p\x7bLetter\x7d".toList)).toOption.any fun c =>
    c.accepts "né".toList && c.accepts "2é".toList && !c.accepts "é2".toList) = true := by
  decide +kernel

end Routing.Requirement
