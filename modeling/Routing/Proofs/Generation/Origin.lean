import Routing.Proofs.Generation.Intent
import Routing.Proofs.Generation.Link

/-!
# Where the parameters of a link come from

On the way to the common form of an intent recalled parameters become options, before any route is
chosen. So what a link leaves over need not have been asked for: it can be the controller, the
action or the id of the current request. Nothing else is left over that the options do not name.

* `Intent.Traced` — every option was asked for, or stayed of the current request, or is `index`
* `Traced.stickOne`, `Traced.stickAll` — a recalled parameter that stays, and all that do
* `Intent.origin_normalize` — where the options of the common form come from
* `Table.extras_origin` — where the parameters come from that a link leaves over
-/

namespace Routing

namespace Intent

/-- The parameters whose recalled values can stay. -/
def stickyKeys : List Text := [controllerKey, actionKey, idKey]

/-- The text without one leading slash. -/
def dropSlash : Text → Text
  | '/' :: t => t
  | t => t

/-- What a controller can become: it may be taken relative to the current one, and it may lose a
leading slash. -/
def controllerForms (recalled : Params) (t : Text) : List Text :=
  let forms := t :: (Params.givenParam? recalled controllerKey).toList.map (relativeTo · t)
  forms ++ forms.map dropSlash

/-- Whether `v` says of the parameter what `w` says: it has the same path form, and a controller
may have become another text. -/
def Restates (recalled : Params) (name : Text) (w v : Value) : Prop :=
  v.param? = w.param? ∨
    name = controllerKey ∧ ∃ t, w.param? = some t ∧ ∃ u ∈ controllerForms recalled t,
      v.param? = some u

variable [Properties]

/-- How a parameter with a path form came to be an option. -/
inductive Origin (options recalled : Params) (selected : Option Route) (name : Text) :
    Option Text → Prop where
  | asked {w : Value} (get : options.get? name = some w) :
    Origin options recalled selected name w.param?
  /-- A controller without an action implies the action `index`. -/
  | implied (action : name = actionKey) :
    Origin options recalled selected name (some indexAction)
  | stayed {w : Value} (absent : options.get? name = none) (sticky : name ∈ stickyKeys)
    (captured : ∀ r, selected = some r → name ∈ r.keys)
    (given : Params.given? recalled name = some w) :
    Origin options recalled selected name w.param?

/-- Every option of `x` has an origin, no option was lost, and what `x` recalls was recalled before
or is the action `index`. -/
structure Traced (options recalled : Params) (selected : Option Route) (x : Intent) : Prop where
  origin : ∀ k v, x.options.get? k = some v → Origin options recalled selected k v.param?
  present : ∀ k, x.options.get? k = none → options.get? k = none
  recalled : ∀ k w, Params.given? x.recalled k = some w →
    Params.given? recalled k = some w ∨ k = actionKey ∧ w.param? = some indexAction

variable {options recalled : Params} {selected : Option Route} {x y : Intent} {k name : Text}
  {v w : Value}

/-! ## Up to the parameters that stay -/

theorem traced_self : Traced options recalled selected ⟨options, recalled⟩ where
  origin _ _ h := .asked h
  present _ h := h
  recalled _ _ h := .inl h

/-- An option that is set anew, to a value with an origin. -/
theorem Traced.insert (h : Traced options recalled selected x)
    (hv : Origin options recalled selected name v.param?) :
    Traced options recalled selected { x with options := x.options.insert name v } where
  origin := by
    intro k v' hk
    rw [Dict.get?_insert] at hk
    split at hk
    · next hname =>
      subst hname
      cases hk
      exact hv
    · exact h.origin k v' hk
  present := by
    intro k hk
    rw [Dict.get?_insert] at hk
    split at hk
    · cases hk
    · exact h.present k hk
  recalled := h.recalled

/-- The action that is recalled with a controller is the index. -/
theorem Traced.completeRecall (h : Traced options recalled selected x) :
    Traced options recalled selected x.completeRecall := by
  rw [Intent.completeRecall]
  split
  · refine ⟨h.origin, h.present, ?_⟩
    intro k w hw
    rw [Params.given?, Dict.get?_insert] at hw
    by_cases hk : actionKey = k
    · subst hk
      rw [if_pos rfl] at hw
      cases hw
      exact .inr ⟨rfl, rfl⟩
    · rw [if_neg hk] at hw
      exact h.recalled k w hw
  · exact h

omit [Properties] in
theorem get?_of_given? {p : Params} (h : Params.given? p k = some v) :
    p.get? k = some v ∧ v.isTruthy = true :=
  Option.filter_eq_some_iff.1 h

/-- A text stands for the option that it was made of. -/
theorem Traced.textOption (h : Traced options recalled selected x) (name : Text) :
    Traced options recalled selected { x with options := textOption x.options name } := by
  rw [Intent.textOption]
  split
  · next t ht =>
    obtain ⟨w, hw, hform⟩ := Option.bind_eq_some_iff.1 ht
    refine h.insert (v := .str t) ?_
    have := h.origin name w (get?_of_given? hw).1
    rwa [hform] at this
  · exact h

/-- The options keep their origin when they are completed. -/
theorem Traced.completeOptions (h : Traced options recalled selected x) :
    Traced options recalled selected x.completeOptions := by
  have hindex : Traced options recalled selected { x with
      options := if (Params.givenParam? x.options controllerKey).isSome ∧
          (Params.given? x.options actionKey).isNone then
        x.options.insert actionKey (.str indexAction) else x.options } := by
    split
    · exact h.insert (v := .str indexAction) (.implied rfl)
    · exact h
  exact (hindex.textOption controllerKey).textOption actionKey

/-- A parameter stays when it is recalled, not asked for otherwise and captured by the selected
route. -/
theorem stickOne_eq_some (h : x.stickOne selected name = some y) :
    ∃ kept, Params.given? x.recalled name = some kept ∧
      (∀ v, x.options.get? name = some v → v.param? = kept.param?) ∧
      (∀ r, selected = some r → name ∈ r.keys) ∧
      y = ⟨x.options.insert name kept, x.recalled.erase name⟩ := by
  rw [stickOne] at h
  obtain ⟨kept, hkept, h⟩ := Option.bind_eq_some_iff.1 h
  split at h
  · cases h
  · next hstop =>
    cases h
    rw [not_or] at hstop
    refine ⟨kept, hkept, ?_, ?_, rfl⟩
    · intro v hv
      simpa [hv, Value.sameParam] using hstop.1
    · intro r hr
      simpa [hr] using hstop.2

/-- A recalled parameter that stays. -/
theorem Traced.stickOne (h : Traced options recalled selected x) (hsticky : name ∈ stickyKeys)
    (hy : x.stickOne selected name = some y) : Traced options recalled selected y := by
  obtain ⟨kept, hkept, hsame, hcaptured, rfl⟩ := stickOne_eq_some hy
  -- it has the value asked for, or else was not asked for
  have horigin : Origin options recalled selected name kept.param? := by
    cases hget : x.options.get? name with
    | some v =>
      rw [← hsame v hget]
      exact h.origin name v hget
    | none =>
      rcases h.recalled name kept hkept with hgiven | ⟨rfl, hform⟩
      · exact .stayed (h.present name hget) hsticky hcaptured hgiven
      · rw [hform]
        exact .implied rfl
  have hinsert := h.insert horigin
  refine ⟨hinsert.origin, hinsert.present, ?_⟩
  intro k w hw
  rw [Params.given?, Dict.get?_erase] at hw
  split at hw
  · cases hw
  · exact h.recalled k w hw

/-- The recalled parameters that stay, up to the first that does not. -/
theorem Traced.stickAll {names : List Text} (h : Traced options recalled selected x)
    (hsticky : ∀ name ∈ names, name ∈ stickyKeys) :
    Traced options recalled selected (x.stickAll selected names) := by
  induction names generalizing x with
  | nil => exact h
  | cons name names ih =>
    obtain ⟨hname, hnames⟩ := List.forall_mem_cons.1 hsticky
    rw [Intent.stickAll]
    cases hy : x.stickOne selected name with
    | none => exact h
    | some y => exact ih (h.stickOne hname hy) hnames

theorem traced_stick (options recalled : Params) (selected : Option Route) :
    Traced options recalled selected
      ((completeRecall ⟨options, recalled⟩).completeOptions.stick selected) :=
  traced_self.completeRecall.completeOptions.stickAll fun _ h => h

/-! ## The controller -/

omit [Properties] in
/-- A controller may stand for one relative to the recalled controller. -/
theorem relativeTo_mem_controllerForms {current t : Text}
    (h : Params.givenParam? recalled controllerKey = some current) :
    relativeTo current t ∈ controllerForms recalled t := by
  rw [controllerForms, h]
  exact List.mem_append_left _ (List.mem_cons_of_mem _ List.mem_cons_self)

omit [Properties] in
/-- A leading slash is dropped from a text of either kind. -/
theorem dropSlash_mem_controllerForms {t u : Text}
    (h : u = t ∨ ∃ current, Params.givenParam? recalled controllerKey = some current ∧
      u = relativeTo current t) : dropSlash u ∈ controllerForms recalled t := by
  refine List.mem_append_right _ (List.mem_map_of_mem ?_)
  rcases h with rfl | ⟨current, hcurrent, rfl⟩
  · exact List.mem_cons_self
  · rw [hcurrent]
    exact List.mem_cons_of_mem _ List.mem_cons_self

omit [Properties] in
theorem get?_resolve_of_ne (x : Intent) (h : k ≠ controllerKey) :
    x.resolve.options.get? k = x.options.get? k := by
  rw [resolve]
  split
  · split
    · rfl
    · exact (Dict.get?_insert ..).trans (if_neg (Ne.symm h))
  · rfl

omit [Properties] in
/-- A controller is resolved or stays as it is. -/
theorem get?_resolve_controller (h : x.resolve.options.get? controllerKey = some v) :
    x.options.get? controllerKey = some v ∨
      ∃ w current t, x.options.get? controllerKey = some w ∧ w.param? = some t ∧
        Params.givenParam? x.recalled controllerKey = some current ∧
        v = .str (relativeTo current t) := by
  rw [resolve] at h
  -- the controller is left alone when it is absolute or nothing is recalled
  split at h
  · next current t hcurrent ht =>
    split at h
    · exact .inl h
    · rw [Dict.get?_insert, if_pos rfl] at h
      cases h
      obtain ⟨w, hw, hform⟩ := Option.bind_eq_some_iff.1 ht
      exact .inr ⟨w, current, t, (get?_of_given? hw).1, hform, hcurrent, rfl⟩
  · exact .inl h

omit [Properties] in
/-- A leading slash of the controller is dropped. -/
theorem param?_stripSlash_controller (h : x.stripSlash.options.get? controllerKey = some v) :
    ∃ w, x.options.get? controllerKey = some w ∧
      (v.param? = w.param? ∨ ∃ u, w.param? = some u ∧ v.param? = some (dropSlash u)) := by
  rw [stripSlash] at h
  split at h
  · next t ht =>
    rw [Dict.get?_insert, if_pos rfl] at h
    cases h
    exact ⟨_, ht, .inr ⟨_, rfl, rfl⟩⟩
  · exact ⟨v, h, .inl rfl⟩

/-! ## The common form -/

/-- What the controller is before it is resolved, it still says afterwards. -/
theorem restates_controller {selected : Option Route}
    (hrecalled : ∀ current, Params.givenParam? x.recalled controllerKey = some current →
      Params.givenParam? recalled controllerKey = some current)
    (h : (if selected.isNone then x.resolve else x).stripSlash.options.get? controllerKey =
      some v) :
    ∃ w, x.options.get? controllerKey = some w ∧ Restates recalled controllerKey w v := by
  obtain ⟨w, hw, hform⟩ := param?_stripSlash_controller h
  have hresolved : x.options.get? controllerKey = some w ∨
      ∃ w' current t, x.options.get? controllerKey = some w' ∧ w'.param? = some t ∧
        Params.givenParam? recalled controllerKey = some current ∧
        w = .str (relativeTo current t) := by
    split at hw
    · rcases get?_resolve_controller hw with hw | ⟨w', current, t, hw', ht, hcurrent, heq⟩
      · exact .inl hw
      · exact .inr ⟨w', current, t, hw', ht, hrecalled current hcurrent, heq⟩
    · exact .inl hw
  -- resolved or not, the slash in front may have been taken off after that
  rcases hresolved with hw | ⟨w', current, t, hw', ht, hcurrent, rfl⟩
  · refine ⟨w, hw, ?_⟩
    rcases hform with hform | ⟨u, hu, hv⟩
    · exact .inl hform
    · exact .inr ⟨rfl, u, hu, _, dropSlash_mem_controllerForms (.inl rfl), hv⟩
  · refine ⟨w', hw', .inr ⟨rfl, t, ht, ?_⟩⟩
    rcases hform with hform | ⟨u, hu, hv⟩
    · exact ⟨_, relativeTo_mem_controllerForms hcurrent, hform⟩
    · cases hu
      exact ⟨_, dropSlash_mem_controllerForms (.inr ⟨current, hcurrent, rfl⟩), hv⟩

omit [Properties] in
/-- The action `index` is no option of the common form. -/
theorem get?_recallIndex_action (h : x.nameIndex.recallIndex.options.get? actionKey = some v) :
    x.options.get? actionKey = some v ∧ v.param? ≠ some indexAction := by
  rw [recallIndex] at h
  -- an index is moved to the recall, so any action left was not it
  split at h
  · next action haction =>
    split at h
    · rw [Dict.get?_erase, if_pos rfl] at h
      cases h
    · next hindex =>
      rw [haction] at h
      cases h
      refine ⟨?_, hindex⟩
      rw [nameIndex] at haction
      split at haction
      · rw [Dict.get?_insert, if_pos rfl] at haction
        cases haction
        exact absurd rfl hindex
      · exact haction
  · next hnone =>
    rw [hnone] at h
    cases h

/-- An option of the common form says what the options ask for, or what stayed. -/
theorem origin_normalize (h : (normalize selected ⟨options, recalled⟩).options.get? k = some v) :
    (∃ w, options.get? k = some w ∧ Restates recalled k w v) ∨
      options.get? k = none ∧ k ∈ stickyKeys ∧ (∀ r, selected = some r → k ∈ r.keys) ∧
        ∃ w, Params.given? recalled k = some w ∧ Restates recalled k w v := by
  have htraced := traced_stick options recalled selected
  rw [normalize] at h
  generalize (completeRecall ⟨options, recalled⟩).completeOptions.stick selected = x at *
  have hrecalled : ∀ current, Params.givenParam? x.recalled controllerKey = some current →
      Params.givenParam? recalled controllerKey = some current := by
    intro current hcurrent
    obtain ⟨w, hw, hform⟩ := Option.bind_eq_some_iff.1 hcurrent
    rcases htraced.recalled controllerKey w hw with hw | ⟨heq, -⟩
    · exact Option.bind_eq_some_iff.2 ⟨w, hw, hform⟩
    · exact absurd heq.symm action_ne_controller
  -- before the controller was resolved the option had the path form of its origin
  have hbefore : ∃ w, x.options.get? k = some w ∧ Restates recalled k w v ∧
      (k = actionKey → w.param? ≠ some indexAction) := by
    by_cases hc : k = controllerKey
    · subst hc
      have hne := action_ne_controller.symm
      rw [(get?_recallIndex_of_ne _ hne).1, get?_nameIndex_of_ne _ hne] at h
      obtain ⟨w, hw, hsays⟩ := restates_controller hrecalled h
      exact ⟨w, hw, hsays, fun heq => absurd heq hne⟩
    · have hget : (if selected.isNone then x.resolve else x).stripSlash.options.get? k =
          x.options.get? k := by
        rw [get?_stripSlash_of_ne _ hc]
        split
        · exact get?_resolve_of_ne x hc
        · rfl
      by_cases ha : k = actionKey
      · subst ha
        obtain ⟨hv, hindex⟩ := get?_recallIndex_action h
        exact ⟨v, hget.symm.trans hv, .inl rfl, fun _ => hindex⟩
      · rw [(get?_recallIndex_of_ne _ ha).1, get?_nameIndex_of_ne _ ha, hget] at h
        exact ⟨v, h, .inl rfl, fun heq => absurd heq ha⟩
  obtain ⟨w, hw, hsays, hindex⟩ := hbefore
  have horigin := htraced.origin k w hw
  generalize hform : w.param? = form at horigin
  have hcongr : ∀ w' : Value, w'.param? = form → Restates recalled k w' v := by
    intro w' hw'
    rcases hsays with hv | ⟨hk, t, ht, hforms⟩
    · exact .inl (hv.trans (hform.trans hw'.symm))
    · exact .inr ⟨hk, t, hw'.trans (hform.symm.trans ht), hforms⟩
  -- asked for, implied or taken over; an implied action is the index, which is not left
  cases horigin with
  | asked hget => exact .inl ⟨_, hget, hcongr _ rfl⟩
  | implied haction => exact absurd hform (hindex haction)
  | stayed habsent hsticky hcaptured hgiven =>
    exact .inr ⟨habsent, hsticky, hcaptured, _, hgiven, hcongr _ rfl⟩

end Intent

namespace Table

open Intent

section

variable [Properties] {t : Table} {options recalled : Params} {l : Link} {k : Text} {v : Value}

/-- The link for options and recalled parameters under the route that a selector names. -/
theorem link_of_generate {selector : Option Text}
    (h : (selector = Params.givenParam? options Reserved.useRoute ∧
        t.generate options recalled = .ok l) ∨
      ∃ name, selector = some name ∧ t.generateNamed name options recalled = .ok l) :
    ∃ (r : Route) (selected : Option Route) (lower : Params), selected = selector.bind t.named? ∧
      r.link? (normalize selected ⟨Reserved.strip options, recalled⟩).options lower = some l := by
  have hselected (name : Text)
      (h : t.generateSelected name (Reserved.strip options) recalled = .ok l) :
      ∃ (r : Route) (selected : Option Route) (lower : Params),
        selected = (some name).bind t.named? ∧
        r.link? (normalize selected ⟨Reserved.strip options, recalled⟩).options lower = some l := by
    obtain ⟨r, hr, lower, hlink⟩ := generateSelected_eq_ok h
    exact ⟨r, some r, lower, hr.symm, hlink⟩
  rcases h with ⟨rfl, h⟩ | ⟨name, rfl, h⟩
  · rw [generate] at h
    split at h
    · next name hname =>
      rw [hname]
      exact hselected name h
    · next hnone =>
      rw [hnone]
      obtain ⟨r, -, lower, hlink⟩ := generateAny_eq_ok h
      exact ⟨r, none, lower, rfl, hlink⟩
  · exact hselected name h

/-- What a link leaves over counts as given and is not reserved. It says what the options ask for;
or it says what is recalled of a controller, an action or an id that the options do not name, and
a route that was selected captures it. -/
theorem extras_origin {selector : Option Text}
    (h : (selector = Params.givenParam? options Reserved.useRoute ∧
        t.generate options recalled = .ok l) ∨
      ∃ name, selector = some name ∧ t.generateNamed name options recalled = .ok l)
    (hk : l.extras.get? k = some v) :
    k ∉ Reserved.keys ∧ v.isTruthy = true ∧
      ((∃ w, options.get? k = some w ∧ Restates recalled k w v) ∨
        options.get? k = none ∧ k ∈ stickyKeys ∧
          (∀ name r, selector = some name → t.named? name = some r → k ∈ r.keys) ∧
          ∃ w, Params.given? recalled k = some w ∧ Restates recalled k w v) := by
  obtain ⟨r, selected, lower, hselected, hlink⟩ := link_of_generate h
  obtain ⟨shown, used, hlinked⟩ := Route.linked_of_link? hlink
  have hextras := hlinked.extras k
  rw [hk] at hextras
  split at hextras
  · cases hextras
  obtain ⟨hoption, hall⟩ := Option.filter_eq_some_iff.1 hextras.symm
  rw [Bool.and_eq_true] at hall
  -- the parameters that stay are no reserved keys
  have hsticky : ∀ name ∈ stickyKeys, name ∉ Reserved.keys := by decide
  rcases origin_normalize hoption with ⟨w, hw, hsays⟩ | ⟨hnone, hmem, hcaptured, w, hw, hsays⟩
  · rw [Reserved.get?_strip] at hw
    split at hw
    · cases hw
    · next hreserved => exact ⟨hreserved, hall.1, .inl ⟨w, hw, hsays⟩⟩
  · have hreserved := hsticky k hmem
    rw [Reserved.get?_strip, if_neg hreserved] at hnone
    refine ⟨hreserved, hall.1, .inr ⟨hnone, hmem, ?_, w, hw, hsays⟩⟩
    intro name r' hname hr'
    apply hcaptured
    rw [hselected, hname]
    exact hr'

end

/-- Actions of a controller. -/
def actionTable : Table :=
  (empty.add { Declaration.blank with path := ":controller/:action".toList }).2

/-- An id that no route captures and nobody asked for is left over. -/
theorem extras_origin_actionTable :
    let recalled : Params := .ofList [(controllerKey, .str "a".toList),
      (actionKey, .str "show".toList), (idKey, .str "5".toList)]
    actionTable.generate .empty recalled =
        .ok ⟨"/a/show".toList, .ofList [(idKey, .str "5".toList)]⟩ ∧
      ∃ w, Params.given? recalled idKey = some w ∧ Restates recalled idKey w (.str "5".toList) := by
  intro recalled
  have hgenerate : actionTable.generate .empty recalled =
      .ok ⟨"/a/show".toList, .ofList [(idKey, .str "5".toList)]⟩ := by decide +kernel
  refine ⟨hgenerate, ?_⟩
  have hselector : none = Params.givenParam? .empty Reserved.useRoute := rfl
  have horigin := extras_origin (k := idKey) (.inl ⟨hselector, hgenerate⟩) rfl
  -- it is no option
  obtain ⟨-, -, ⟨w, hw, -⟩ | ⟨-, -, -, hrecalled⟩⟩ := horigin
  · cases hw
  · exact hrecalled

end Table

end Routing
