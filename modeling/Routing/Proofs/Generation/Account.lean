import Routing.Proofs.Generation.Intent
import Routing.Proofs.Generation.Link

/-!
# What becomes of an option

A link says what was asked for in one of four ways: an option is left over, it stands in the path,
it has the value of its default, or it is the action `index` where no other one is the default. Two
kinds of options get lost: the action `index`, when it is not in the path and the default is another
action; and a value without a path form, when the default has none either.

* `Route.Accounted`, `Route.Loses` — an option shows in a link, or gets lost
* `Table.accounted_iff` — an option shows in a link unless it gets lost
-/

namespace Routing

open Intent

namespace Route

variable [Properties] {r : Route} {options recalled : Params} {l : Link} {k : Text} {v : Value}
  {shown used : Nat} {σ : Text → Text}

/-- The option shows in the link: left over, in the path, as a default, or as the action that is
meant when none is named. -/
def Accounted (r : Route) (l : Link) (m : Nat) (σ : Text → Text) (k : Text) (v : Value) : Prop :=
  l.extras.get? k = some v ∨
  (k ∈ (r.shown m).flatMap Level.names ∧
    ∃ raw, v.param? = some raw ∧ σ k = Rendering.escaped k v raw) ∨
  (∃ raw, v.param? = some raw ∧ Value.paramOf? (r.defaults.get? k) = some raw) ∨
  asksIndex k v ∧ (r.defaults.get? k).all Value.isNil = true

/-- The option gets lost: it is the action `index` and neither in the path nor the default, though
there is one; or neither it nor its default has a path form. -/
def Loses (r : Route) (m : Nat) (k : Text) (v : Value) : Prop :=
  (asksIndex k v ∧ k ∉ (r.shown m).flatMap Level.names ∧
    ∃ d, r.defaults.get? k = some d ∧ d.isNil = false ∧ d.param? ≠ some indexAction) ∨
  v.param? = none ∧ ∃ d, r.defaults.get? k = some d ∧ d.param? = none

/-- Nothing is lost of an option that has a path form, unless it is the action `index`. -/
theorem not_loses_of_param? (hask : ¬ asksIndex k v) {raw : Text} (hraw : v.param? = some raw) :
    ¬ r.Loses shown k v := by
  rintro (⟨h, -⟩ | ⟨h, -⟩)
  · exact hask h
  · rw [hraw] at h
    cases h

/-- What becomes of an option other than the action `index`. -/
theorem accounted_iff_of_option (h : r.Linked options recalled l shown used)
    (hmerged : (recalled.overlay options).get? k = some v) (hoption : options.get? k = some v)
    (hv : v.isTruthy = true) (hask : ¬ asksIndex k v) :
    r.Accounted l shown (r.rendering options recalled).text k v ↔ ¬ r.Loses shown k v := by
  -- what the path consumes is in it or repeats its default; the rest is left over unless it repeats
  -- its default
  by_cases hk : k ∈ (r.shown used).flatMap Level.names
  · obtain ⟨raw, hraw, htext, hshown⟩ := h.consumed hmerged hv hk
    refine iff_of_true ?_ (not_loses_of_param? hask hraw)
    rcases hshown with hshown | hdefault
    · exact .inr (.inl ⟨hshown, raw, hraw, htext⟩)
    · exact .inr (.inr (.inl ⟨raw, hraw, hdefault⟩))
  · have hextras := h.extras k
    rw [if_neg hk, hoption, Option.filter_some, hv, Bool.true_and] at hextras
    cases hd : r.defaults.get? k with
    | none =>
      rw [hd] at hextras
      refine iff_of_true (.inl hextras) ?_
      rintro (⟨hindex, -⟩ | ⟨-, d, hd', -⟩)
      · exact hask hindex
      · rw [hd] at hd'
        cases hd'
    | some d =>
      rw [hd, Option.all_some, Value.sameParam] at hextras
      by_cases hsame : d.param? = v.param?
      · cases hparam : v.param? with
        | some raw =>
          refine iff_of_true (.inr (.inr (.inl ⟨raw, hparam, ?_⟩))) (not_loses_of_param? hask hparam)
          rw [hd]
          exact hsame.trans hparam
        | none =>
          -- with no path form on either side the option counts as a repeated default
          refine iff_of_false ?_ (not_not.2 (.inr ⟨hparam, d, hd, hsame.trans hparam⟩))
          rintro (ha | ⟨-, raw, hraw, -⟩ | ⟨raw, hraw, -⟩ | ⟨hindex, -⟩)
          · rw [hextras, hsame] at ha
            simp at ha
          · rw [hparam] at hraw
            cases hraw
          · rw [hparam] at hraw
            cases hraw
          · exact hask hindex
      · refine iff_of_true (.inl ?_) ?_
        · rw [hextras]
          simp [hsame]
        · rintro (⟨hindex, -⟩ | ⟨hnone, d', hd', hnone'⟩)
          · exact hask hindex
          · rw [hd] at hd'
            cases hd'
            exact hsame (hnone'.trans hnone.symm)

/-- What becomes of the action `index`, which is recalled rather than asked for. -/
theorem accounted_iff_of_index (h : r.Linked options recalled l shown used)
    (hmerged : (recalled.overlay options).get? k = some v) (hoption : options.get? k = none)
    (hv : v.isTruthy = true) (hask : asksIndex k v) :
    r.Accounted l shown (r.rendering options recalled).text k v ↔ ¬ r.Loses shown k v := by
  have hextras : l.extras.get? k = none := by
    rw [h.extras, hoption]
    split <;> rfl
  -- a recalled action is never left over, so it has to be in the path or be the default
  by_cases hk : k ∈ (r.shown shown).flatMap Level.names
  · obtain ⟨level, hlevel, hname⟩ := List.mem_flatMap.1 hk
    obtain ⟨raw, hraw, htext, -⟩ := h.consumed hmerged hv
      (List.mem_flatMap.2 ⟨level, shown_subset h.cut.shown_le hlevel, hname⟩)
    refine iff_of_true (.inr (.inl ⟨hk, raw, hraw, htext⟩)) ?_
    rintro (⟨-, hk', -⟩ | ⟨hnone, -⟩)
    · exact hk' hk
    · rw [hraw] at hnone
      cases hnone
  · have hloses : r.Loses shown k v ↔
        ∃ d, r.defaults.get? k = some d ∧ d.isNil = false ∧ d.param? ≠ some indexAction := by
      constructor
      · rintro (⟨-, -, hd⟩ | ⟨hnone, -⟩)
        · exact hd
        · rw [hask.2] at hnone
          cases hnone
      · exact fun hd => .inl ⟨hask, hk, hd⟩
    rw [hloses, Accounted, hextras]
    cases hd : r.defaults.get? k with
    | none => simp [hask]
    | some d =>
      by_cases hnil : d.isNil = true
      · simp [hask, hnil]
      · constructor
        · rintro (ha | ⟨hk', -⟩ | ⟨raw, hraw, hdefault⟩ | ⟨-, hall⟩)
          · cases ha
          · exact absurd hk' hk
          · rw [hask.2] at hraw
            cases hraw
            rintro ⟨d', hd', -, hne⟩
            cases hd'
            exact hne hdefault
          · exact absurd hall hnil
        · intro hnot
          refine .inr (.inr (.inl ⟨indexAction, hask.2, ?_⟩))
          by_contra hne
          exact hnot ⟨d, rfl, by simpa using hnil, hne⟩

end Route

namespace Table

section

variable [Properties] {t : Table} {options : Params} {l : Link}

/-- Without recalled parameters and a selected route, an option that counts as given shows in the
link unless it gets lost. -/
theorem accounted_iff (hselector : Params.givenParam? options Reserved.useRoute = none)
    (h : t.generate options .empty = .ok l) :
    ∃ before r after, t.routes = before ++ r :: after ∧
      (∀ r' ∈ before, r'.isSignificant = true →
        r'.link? (normalize none ⟨Reserved.strip options, .empty⟩).options
          (normalize none ⟨Reserved.strip options, .empty⟩).recalled = none) ∧
      r.isSignificant = true ∧
      r.link? (normalize none ⟨Reserved.strip options, .empty⟩).options
        (normalize none ⟨Reserved.strip options, .empty⟩).recalled = some l ∧
      ∃ m ≤ r.levels.length, ∃ σ, l.path = Level.path σ (r.shown m) ∧
        ∀ k v, options.get? k = some v → v.isTruthy = true → k ∉ Reserved.keys →
          (r.Accounted l m σ k (asked k v) ↔ ¬ r.Loses m k (asked k v)) := by
  rw [generate, hselector] at h
  simp only [generateAny] at h
  split at h
  · next l' hl =>
    cases h
    obtain ⟨before, r, after, hroutes, hbefore, hsig, hlink⟩ := firstLink?_eq_some hl
    obtain ⟨shown, used, hlinked⟩ := Route.linked_of_link? hlink
    refine ⟨before, r, after, hroutes, hbefore, hsig, hlink, shown,
      hlinked.cut.shown_le.trans hlinked.cut.used_le, _, hlinked.path, fun k v hk hv hreserved => ?_⟩
    have hstrip : (Reserved.strip options).get? k = some v := by
      rw [Reserved.strip, Dict.get?_filter, hk, Option.filter_some, if_pos (by simpa using hreserved)]
    have hmerged := get?_merged hstrip hv
    have htruthy := isTruthy_asked hv k
    -- the action `index` is recalled, and every other option is asked for
    by_cases hask : asksIndex k v
    · exact Route.accounted_iff_of_index hlinked hmerged ((get?_options hstrip hv).trans (if_pos hask))
        htruthy (asksIndex_asked.2 hask)
    · exact Route.accounted_iff_of_option hlinked hmerged
        ((get?_options hstrip hv).trans (if_neg hask)) htruthy (mt asksIndex_asked.1 hask)
  · cases h

end

/-- Actions of a controller, `show` unless one is named. -/
def showTable : Table :=
  (empty.add { Declaration.blank with
    path := ":controller/:action".toList
    defaults := .ofList [(actionKey, .str "show".toList)] }).2

/-- The link to the action `index` is the one to the action `show`. -/
theorem accounted_iff_showTable :
    let options : Params :=
      .ofList [(controllerKey, .str "c".toList), (actionKey, .str indexAction)]
    showTable.generate options .empty = .ok ⟨"/c".toList, .empty⟩ ∧
      ∃ r ∈ showTable.routes, ∃ m σ, "/c".toList = Level.path σ (r.shown m) ∧
        ¬ r.Accounted ⟨"/c".toList, .empty⟩ m σ actionKey (.str indexAction) := by
  intro options
  have hgenerate : showTable.generate options .empty = .ok ⟨"/c".toList, .empty⟩ := by
    decide +kernel
  refine ⟨hgenerate, ?_⟩
  obtain ⟨before, r, after, hroutes, -, -, -, m, hm, σ, hpath, hall⟩ :=
    accounted_iff (by decide +kernel) hgenerate
  have hr : r ∈ showTable.routes := by rw [hroutes]; simp
  have hroutes : (showTable.routes.all fun r => r.required = [.capture controllerKey false] ∧
      r.levels = [.component (.capture actionKey true)] ∧
      r.defaults.get? actionKey = some (.str "show".toList)) = true := by decide +kernel
  obtain ⟨hrequired, hlevels, hdefault⟩ := of_decide_eq_true (List.all_eq_true.1 hroutes r hr)
  refine ⟨r, hr, m, σ, hpath, fun haccounted => ?_⟩
  refine (hall actionKey (.str indexAction) (by decide +kernel) rfl (by decide)).1 haccounted ?_
  refine .inl ⟨⟨rfl, rfl⟩, ?_, _, hdefault, rfl, by decide⟩
  -- with the action the path would have two slashes
  rw [hlevels] at hm
  rw [Route.shown, hrequired, hlevels] at hpath ⊢
  obtain rfl | rfl : m = 0 ∨ m = 1 := Nat.le_one_iff_eq_zero_or_eq_one.1 hm
  · decide
  · have hcount := congrArg (List.count '/') hpath
    simp [Level.path, Level.spell, Level.slots, Segment.slots, Slot.spell] at hcount

end Table

end Routing
