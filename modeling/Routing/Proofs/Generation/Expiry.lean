import Routing.Proofs.Generation.Agreement
import Routing.Proofs.Generation.Origin

/-!
# What expires with the controller

A changed controller ends what stays of the current request. Two runs that differ only in what they
recall are compared: their intents are alike in the options and in every other recalled parameter,
and a route gives the same link for both when it consults no parameter in which they differ. The
recalled action never makes a difference, as the options then have one of their own; the recalled id
does only where a route consults it.

* `Intent.Alike` — intents that differ in some recalled parameters
* `Table.firstLink?_congr` — only what the routes consult decides about the link
* `Table.generate_of_changed` — what a changed controller makes of the recalled action and id
-/

namespace Routing

/-! ## Intents that recall alike -/

namespace Intent

/-- The options are the same, and so are the recalled parameters but for some names. -/
structure Alike (names : List Text) (x y : Intent) : Prop where
  options : x.options = y.options
  recalled : ∀ k, k ∉ names → x.recalled.get? k = y.recalled.get? k

variable {names : List Text} {x y : Intent} {name : Text}

/-- Intents are alike but for the names that are taken out of the recall. -/
theorem alike_erase (options recalled : Params) (names : List Text) :
    Alike names ⟨options, recalled⟩ ⟨options, Rendering.without recalled names⟩ where
  options := rfl
  recalled := by
    intro k hk
    rw [Rendering.get?_without, if_neg hk]

theorem Alike.given? (h : Alike names x y) (hname : name ∉ names) :
    Params.given? x.recalled name = Params.given? y.recalled name := by
  rw [Params.given?, Params.given?, h.recalled name hname]

theorem Alike.givenParam? (h : Alike names x y) (hname : name ∉ names) :
    Params.givenParam? x.recalled name = Params.givenParam? y.recalled name := by
  rw [Params.givenParam?, Params.givenParam?, h.given? hname]

theorem Alike.of_eq {o p : Params} (h : Alike names x y) (he : o = p) :
    Alike names ⟨o, x.recalled⟩ ⟨p, y.recalled⟩ where
  options := he
  recalled := h.recalled

/-- What is recalled of the action is not compared. -/
theorem get?_completeRecall_of_ne (x : Intent) {k : Text} (h : k ≠ actionKey) :
    x.completeRecall.recalled.get? k = x.recalled.get? k := by
  rw [completeRecall]
  split
  · exact (Dict.get?_insert ..).trans (if_neg (Ne.symm h))
  · rfl

theorem options_completeRecall (x : Intent) : x.completeRecall.options = x.options := by
  rw [completeRecall]
  split <;> rfl

/-- Intents stay alike when an action is recalled, which is one of the names. -/
theorem Alike.completeRecall (h : Alike names x y) (haction : actionKey ∈ names) :
    Alike names x.completeRecall y.completeRecall where
  options := by
    rw [options_completeRecall, options_completeRecall]
    exact h.options
  recalled := by
    intro k hk
    have hne : k ≠ actionKey := fun heq => hk (heq ▸ haction)
    rw [get?_completeRecall_of_ne x hne, get?_completeRecall_of_ne y hne]
    exact h.recalled k hk

theorem Alike.completeOptions (h : Alike names x y) :
    Alike names x.completeOptions y.completeOptions := by
  rw [Intent.completeOptions, Intent.completeOptions, h.options]
  exact h.of_eq rfl

/-- Intents stay alike when the controller is resolved against the one recalled. -/
theorem Alike.resolve (h : Alike names x y) (hcontroller : controllerKey ∉ names) :
    Alike names x.resolve y.resolve := by
  rw [Intent.resolve, Intent.resolve, ← h.givenParam? hcontroller, ← h.options]
  split
  · split
    · exact h
    · exact h.of_eq rfl
  · exact h

theorem Alike.stripSlash (h : Alike names x y) : Alike names x.stripSlash y.stripSlash := by
  rw [Intent.stripSlash, Intent.stripSlash, ← h.options]
  split
  · exact h.of_eq rfl
  · exact h

theorem Alike.nameIndex (h : Alike names x y) : Alike names x.nameIndex y.nameIndex := by
  rw [Intent.nameIndex, Intent.nameIndex, ← h.options]
  split
  · exact h.of_eq rfl
  · exact h

/-- Intents stay alike when the index is moved to the recall. -/
theorem Alike.recallIndex (h : Alike names x y) : Alike names x.recallIndex y.recallIndex := by
  rw [Intent.recallIndex, Intent.recallIndex, ← h.options]
  split
  · next action _ =>
    split
    · refine ⟨rfl, ?_⟩
      intro k hk
      rw [Dict.get?_insert, Dict.get?_insert, h.recalled k hk]
    · exact h
  · exact h

/-- The action `index` says the same as an option and recalled. -/
theorem overlay_recallIndex (x : Intent) :
    x.recallIndex.recalled.overlay x.recallIndex.options = x.recalled.overlay x.options := by
  rw [recallIndex]
  split
  · next action haction =>
    split
    · apply Dict.ext_get?
      intro k
      rw [Dict.get?_overlay, Dict.get?_overlay, Dict.get?_erase, Dict.get?_insert]
      -- the action is the same, in whichever of the two it stands
      by_cases hk : actionKey = k
      · subst hk
        rw [if_pos rfl, if_pos rfl, haction]
        rfl
      · rw [if_neg hk, if_neg hk]
    · rfl
  · rfl

/-- The options name a controller, and it is not the current one. -/
structure Changed (x : Intent) (controller : Text) : Prop where
  asked : Params.givenParam? x.options controllerKey = some controller
  other : Params.givenParam? x.recalled controllerKey ≠ some controller

variable {controller : Text}

/-- The controller is a changed one whenever the same are asked for and recalled. -/
theorem Changed.congr (h : x.Changed controller)
    (hoptions : Params.givenParam? y.options controllerKey =
      Params.givenParam? x.options controllerKey)
    (hrecalled : Params.givenParam? y.recalled controllerKey =
      Params.givenParam? x.recalled controllerKey) : y.Changed controller :=
  ⟨hoptions.trans h.asked, hrecalled ▸ h.other⟩

/-- Completing the recall keeps a changed controller. -/
theorem Changed.completeRecall (h : x.Changed controller) :
    x.completeRecall.Changed controller := by
  apply h.congr
  · rw [options_completeRecall]
  · rw [Params.givenParam?, Params.given?,
      get?_completeRecall_of_ne x (Ne.symm action_ne_controller)]
    rfl

/-- An explicit controller makes the action explicit. -/
theorem Changed.completeOptions (h : x.Changed controller) :
    x.completeOptions.Changed controller ∧ x.completeOptions.options.contains actionKey = true := by
  constructor
  · refine h.congr ?_ rfl
    rw [Params.givenParam?, Params.given?, get?_completeOptions_controller, Option.filter_map,
      Option.bind_map]
    simp only [Function.comp_def, Value.isTruthy_textual, Value.param?_textual]
    rfl
  · rw [Dict.contains, get?_completeOptions_action, h.asked]
    split
    · rfl
    · next hgiven =>
      rw [Params.given?] at hgiven
      cases haction : x.options.get? actionKey with
      | none =>
        rw [haction] at hgiven
        exact absurd ⟨rfl, rfl⟩ hgiven
      | some v => rfl

/-- Nothing recalled becomes an option. -/
theorem Changed.stick [Properties] (h : x.Changed controller) : x.stick none = x := by
  obtain ⟨v, hv, hform⟩ := Option.bind_eq_some_iff.1 h.asked
  have hget := (Option.filter_eq_some_iff.1 hv).1
  -- the controller comes first and does not stay, and nothing after it does then
  have hstop : x.stickOne none controllerKey = none := by
    rw [stickOne]
    cases hkept : Params.given? x.recalled controllerKey with
    | none => rfl
    | some kept =>
      have hother : kept.param? ≠ some controller := by
        intro heq
        apply h.other
        rw [Params.givenParam?, hkept]
        exact heq
      have hdiffers : v.sameParam kept = false := by
        rw [Value.sameParam, decide_eq_false_iff_not, hform]
        exact Ne.symm hother
      rw [Option.bind_eq_bind, Option.bind_some, if_pos]
      left
      rw [hget, Option.any_some, hdiffers]
      rfl
  rw [Intent.stick, stickAll, hstop]

/-- A parameter makes no difference that is recalled alike or named by the options. -/
theorem Alike.overlay (h : Alike names x y) {k : Text}
    (hk : k ∈ names → x.options.contains k = true) :
    (x.recalled.overlay x.options).get? k = (y.recalled.overlay y.options).get? k := by
  rw [Dict.get?_overlay, Dict.get?_overlay, ← h.options]
  by_cases hmem : k ∈ names
  · obtain ⟨v, hv⟩ := Option.isSome_iff_exists.1 (hk hmem)
    rw [hv]
    rfl
  · rw [h.recalled k hmem]

/-- Options other than the controller are named also when the controller has been resolved. -/
theorem contains_resolved {k : Text} (hc : k ≠ controllerKey)
    (h : x.options.contains k = true) :
    x.resolve.stripSlash.nameIndex.options.contains k = true := by
  have hstrip : x.resolve.stripSlash.options.contains k = true := by
    rw [Dict.contains, get?_stripSlash_of_ne _ hc, get?_resolve_of_ne _ hc]
    exact h
  rw [nameIndex]
  split
  · rw [Dict.contains, Dict.get?_insert]
    split
    · rfl
    · exact hstrip
  · exact hstrip

/-- The common forms of intents that recall alike, with a changed controller: they have the same
options, and the same parameters in all, but for those that the one of them recalls and the other
does not, unless it is the action or the options name it. -/
theorem Alike.normalize [Properties] (h : Alike names x y) (hx : x.Changed controller)
    (haction : actionKey ∈ names) (hcontroller : controllerKey ∉ names) :
    (normalize none x).options = (normalize none y).options ∧
      ∀ k, (k ∈ names → k = actionKey ∨ x.options.contains k = true) →
        ((normalize none x).recalled.overlay (normalize none x).options).get? k =
          ((normalize none y).recalled.overlay (normalize none y).options).get? k := by
  have hy : y.Changed controller := by
    apply hx.congr
    · rw [h.options]
    · rw [h.givenParam? hcontroller]
  obtain ⟨hx', hxaction⟩ := hx.completeRecall.completeOptions
  obtain ⟨hy', -⟩ := hy.completeRecall.completeOptions
  -- nothing stays, and every other step changes the options of both in the same way
  have halike := (((h.completeRecall haction).completeOptions.resolve hcontroller).stripSlash).nameIndex
  rw [Intent.normalize, Intent.normalize, hx'.stick, hy'.stick]
  refine ⟨halike.recallIndex.options, ?_⟩
  intro k hk
  simp only [Option.isNone_none, if_true]
  rw [overlay_recallIndex, overlay_recallIndex]
  apply halike.overlay
  intro hmem
  have hne : k ≠ controllerKey := fun heq => hcontroller (heq ▸ hmem)
  apply contains_resolved hne
  by_cases ha : k = actionKey
  · rw [ha]
    exact hxaction
  · have hget : x.completeRecall.completeOptions.options.get? k =
        x.completeRecall.options.get? k := get?_completeOptions_of_ne hne ha
    rw [Dict.contains, hget, options_completeRecall]
    exact (hk hmem).resolve_left ha

end Intent

/-! ## Links -/

namespace Table

open Intent

section

variable [Properties] {t : Table} {options recalled : Params} {controller : Text}

/-- Intents that agree in what the routes consult have the same link. -/
theorem firstLink?_congr {x y : Intent} (routes : List Route) (hoptions : x.options = y.options)
    (h : ∀ r ∈ routes, r.isSignificant = true → ∀ name ∈ r.consulted x.options,
      (x.recalled.overlay x.options).get? name = (y.recalled.overlay y.options).get? name) :
    firstLink? x routes = firstLink? y routes := by
  -- on the routes, each of which makes the same link of both or none
  induction routes with
  | nil => rfl
  | cons r rest ih =>
    obtain ⟨hr, hrest⟩ := List.forall_mem_cons.1 h
    rw [firstLink?, firstLink?, ih hrest]
    split
    · next hsig =>
      have hlink : r.link? x.options x.recalled = r.link? y.options y.recalled := by
        rw [← hoptions] at hr ⊢
        exact Route.link?_congr (hr hsig)
      rw [hlink]
    · rfl

/-- With a changed controller it makes no difference that parameters are recalled which the options
name or which no route consults; nor that the action is. -/
theorem generateAny_of_changed (h : Changed ⟨options, recalled⟩ controller) (names : List Text)
    (haction : actionKey ∈ names) (hcontroller : controllerKey ∉ names)
    (hnames : ∀ name ∈ names, name = actionKey ∨ options.contains name = true ∨
      ∀ r ∈ t.routes, r.isSignificant = true →
        name ∉ r.consulted (normalize none ⟨options, recalled⟩).options) :
    t.generateAny options recalled =
      t.generateAny options (Rendering.without recalled names) := by
  have halike := alike_erase options recalled names
  obtain ⟨hoptions, hmerged⟩ := halike.normalize h haction hcontroller
  have hlink := firstLink?_congr t.routes hoptions fun r hr hsig name hname => by
    apply hmerged
    intro hmem
    rcases hnames name hmem with heq | hcontains | hnone
    · exact .inl heq
    · exact .inr hcontains
    · exact absurd hname (hnone r hr hsig)
  rw [generateAny, generateAny, hlink]

/-- With a changed controller the recalled action makes no difference; and neither does the recalled
id, unless the options leave it out and a route consults it. -/
theorem generate_of_changed (hselector : Params.givenParam? options Reserved.useRoute = none)
    (hasked : Params.givenParam? options controllerKey = some controller)
    (hother : Params.givenParam? recalled controllerKey ≠ some controller) :
    t.generate options recalled = t.generate options (recalled.erase actionKey) ∧
      (options.contains idKey = true ∨ (∀ r ∈ t.routes, r.isSignificant = true →
          idKey ∉ r.consulted (normalize none ⟨Reserved.strip options, recalled⟩).options) →
        t.generate options recalled =
          t.generate options ((recalled.erase actionKey).erase idKey)) := by
  have hchanged : Changed ⟨Reserved.strip options, recalled⟩ controller := by
    refine ⟨?_, hother⟩
    rw [Params.givenParam?, Params.given?, Reserved.get?_strip, if_neg (by decide)]
    exact hasked
  rw [generate, generate, generate, hselector]
  constructor
  · apply generateAny_of_changed hchanged [actionKey] List.mem_cons_self
    · decide
    · intro name hname
      exact .inl (List.mem_singleton.1 hname)
  -- the id is named by the options, or no route consults it
  · intro hid
    apply generateAny_of_changed hchanged [actionKey, idKey] List.mem_cons_self
    · decide
    · intro name hname
      rcases List.mem_cons.1 hname with hname | hname
      · exact .inl hname
      · rw [List.mem_singleton.1 hname, Dict.contains, Reserved.get?_strip, if_neg (by decide)]
        exact .inr hid

end

/-- Actions of a controller on a member with a number. -/
def memberTable : Table :=
  (empty.add { Declaration.blank with
    path := ":controller/:action/:id".toList
    requirements := .ofList [(idKey, ⟨"\\d+".toList, []⟩)] }).2

/-- The recalled id makes no difference beside one that is asked for; without one it is taken over
to the other controller. -/
theorem generate_of_changed_memberTable :
    let options : Params :=
      .ofList [(controllerKey, .str "b".toList), (actionKey, .str "show".toList)]
    let recalled : Params := .ofList [(controllerKey, .str "a".toList),
      (actionKey, .str "show".toList), (idKey, .str "5".toList)]
    let expired := (recalled.erase actionKey).erase idKey
    (∀ id, memberTable.generate (options.insert idKey id) recalled =
        memberTable.generate (options.insert idKey id) expired) ∧
      memberTable.generate options recalled = .ok ⟨"/b/show/5".toList, .empty⟩ ∧
      memberTable.generate options expired = .error (.noRoute options) := by
  intro options recalled expired
  refine ⟨?_, by decide +kernel, by decide +kernel⟩
  intro id
  have hasked : Params.givenParam? (options.insert idKey id) controllerKey = some "b".toList := by
    rw [Params.givenParam?, Params.given?, Dict.get?_insert, if_neg (by decide)]
    rfl
  have hselector : Params.givenParam? (options.insert idKey id) Reserved.useRoute = none := by
    rw [Params.givenParam?, Params.given?, Dict.get?_insert, if_neg (by decide)]
    rfl
  have hother : Params.givenParam? recalled controllerKey ≠ some "b".toList := by decide
  apply (generate_of_changed hselector hasked hother).2
  left
  rw [Dict.contains, Dict.get?_insert, if_pos rfl]
  rfl

end Table

end Routing
