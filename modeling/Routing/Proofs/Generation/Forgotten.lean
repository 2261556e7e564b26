import Routing.Proofs.Generation.Expiry

/-!
# What is forgotten

An option of nil has a parameter forgotten: what is recalled of it does not become an option, as nil
is another value, and where a route asks for the parameter it finds nil. So two runs are compared
that differ only in what they recall of such a parameter, and every step to the common form of their
intents keeps them alike.

* `Intent.Forgets` — intents that differ in a recalled parameter which their options set to nil
* `Forgets.stickOne`, `Forgets.stickAll` — the parameters that stay are the same for both
* `Forgets.normalize` — so are their common forms, but for that parameter
* `Table.generate_of_forgotten` — what is recalled of a forgotten parameter makes no difference
-/

namespace Routing

namespace Intent

/-- The intents are alike but for what they recall of a parameter, which the options set to nil.
What is recalled of it has a path form where it counts as given. -/
structure Forgets (name : Text) (x y : Intent) : Prop extends Alike [name] x y where
  nil : x.options.get? name = some .nil
  left : ∀ v, Params.given? x.recalled name = some v → v.param? ≠ none
  right : ∀ v, Params.given? y.recalled name = some v → v.param? ≠ none

variable [Properties] {name k : Text} {x y : Intent} {selected : Option Route}

/-! ## Up to the parameters that stay -/

omit [Properties] in
/-- A parameter stays forgotten when an action is recalled. -/
theorem Forgets.completeRecall (h : Forgets name x y) (hc : name ≠ controllerKey)
    (ha : name ≠ actionKey) : Forgets name x.completeRecall y.completeRecall := by
  have hcontroller : Params.given? x.recalled controllerKey = _ :=
    h.given? (by simpa using Ne.symm hc)
  have haction : Params.given? x.recalled actionKey = _ := h.given? (by simpa using Ne.symm ha)
  have hgiven (z : Intent) :
      Params.given? z.completeRecall.recalled name = Params.given? z.recalled name := by
    rw [Params.given?, get?_completeRecall_of_ne z ha]
    rfl
  constructor
  case toAlike =>
    refine ⟨?_, fun j hj => ?_⟩
    · rw [options_completeRecall, options_completeRecall]
      exact h.options
    · rw [Intent.completeRecall, Intent.completeRecall, ← hcontroller, ← haction]
      -- both recall an action or neither does
      split
      · rw [Dict.get?_insert, Dict.get?_insert, h.recalled j hj]
      · exact h.recalled j hj
  case nil =>
    rw [options_completeRecall]
    exact h.nil
  case left =>
    rw [hgiven]
    exact h.left
  case right =>
    rw [hgiven]
    exact h.right

omit [Properties] in
/-- A parameter stays forgotten when the options are completed. -/
theorem Forgets.completeOptions (h : Forgets name x y) (hc : name ≠ controllerKey)
    (ha : name ≠ actionKey) : Forgets name x.completeOptions y.completeOptions where
  toAlike := h.toAlike.completeOptions
  nil := (get?_completeOptions_of_ne hc ha).trans h.nil
  left := h.left
  right := h.right

/-- A parameter that the options set to nil does not stay. -/
theorem stickOne_of_nil (hnil : x.options.get? name = some .nil)
    (hgiven : ∀ v, Params.given? x.recalled name = some v → v.param? ≠ none) :
    x.stickOne selected name = none := by
  cases hstick : x.stickOne selected name with
  | none => rfl
  | some z =>
    obtain ⟨kept, hkept, hsame, -⟩ := stickOne_eq_some hstick
    have hnone : kept.param? = none := (hsame .nil hnil).symm
    exact absurd hnone (hgiven kept hkept)

omit [Properties] in
theorem given?_erase (p : Params) (hk : k ≠ name) :
    Params.given? (p.erase k) name = Params.given? p name := by
  rw [Params.given?, Dict.get?_erase, if_neg hk]
  rfl

/-- Another parameter stays of both or of neither. -/
theorem Forgets.stickOne (h : Forgets name x y) (selected : Option Route) (hk : k ≠ name) :
    (x.stickOne selected k = none ∧ y.stickOne selected k = none) ∨
      ∃ x' y', x.stickOne selected k = some x' ∧ y.stickOne selected k = some y' ∧
        Forgets name x' y' := by
  have hgiven : Params.given? x.recalled k = _ := h.given? (by simpa using hk)
  rw [Intent.stickOne, Intent.stickOne, ← hgiven, ← h.options]
  cases Params.given? x.recalled k with
  | none => exact .inl ⟨rfl, rfl⟩
  | some kept =>
    simp only [Option.bind_eq_bind, Option.bind_some]
    -- both take the value over or neither does
    split
    · exact .inl ⟨rfl, rfl⟩
    · refine .inr ⟨_, _, rfl, rfl, ?_⟩
      constructor
      case toAlike =>
        refine ⟨rfl, fun j hj => ?_⟩
        rw [Dict.get?_erase, Dict.get?_erase, h.recalled j hj]
      case nil => rw [Dict.get?_insert, if_neg hk, h.nil]
      case left =>
        rw [given?_erase _ hk]
        exact h.left
      case right =>
        rw [given?_erase _ hk]
        exact h.right

/-- The parameters that stay are the same for both. -/
theorem Forgets.stickAll (h : Forgets name x y) (selected : Option Route) (keys : List Text) :
    Forgets name (x.stickAll selected keys) (y.stickAll selected keys) := by
  -- on the keys; the forgotten one does not stay, which ends the run in both
  induction keys generalizing x y with
  | nil => exact h
  | cons k keys ih =>
    by_cases hk : k = name
    · subst hk
      have hnil : y.options.get? k = some .nil := by rw [← h.options, h.nil]
      rw [Intent.stickAll, Intent.stickAll, stickOne_of_nil h.nil h.left,
        stickOne_of_nil hnil h.right]
      exact h
    · rw [Intent.stickAll, Intent.stickAll]
      rcases h.stickOne selected hk with ⟨hx, hy⟩ | ⟨x', y', hx, hy, h'⟩
      · rw [hx, hy]
        exact h
      · rw [hx, hy]
        exact ih h'

/-! ## The common form -/

/-- The common forms of the intents are alike, and the options still name the parameter. -/
theorem Forgets.normalize (h : Forgets name x y) (hc : name ≠ controllerKey)
    (ha : name ≠ actionKey) (selected : Option Route) :
    Alike [name] (normalize selected x) (normalize selected y) ∧
      (normalize selected x).options.contains name = true := by
  have hstick := ((h.completeRecall hc ha).completeOptions hc ha).stickAll selected
    [controllerKey, actionKey, idKey]
  have hcontroller : controllerKey ∉ [name] := by simpa using Ne.symm hc
  rw [Intent.normalize, Intent.normalize]
  rw [← stick, ← stick] at hstick
  generalize x.completeRecall.completeOptions.stick selected = x' at hstick ⊢
  generalize y.completeRecall.completeOptions.stick selected = y' at hstick ⊢
  -- a controller that is resolved is no nil
  have hresolved : Alike [name] (if selected.isNone then x'.resolve else x')
      (if selected.isNone then y'.resolve else y') ∧
      (if selected.isNone then x'.resolve else x').options.get? name = some .nil := by
    split
    · exact ⟨hstick.toAlike.resolve hcontroller, by rw [get?_resolve_of_ne _ hc, hstick.nil]⟩
    · exact ⟨hstick.toAlike, hstick.nil⟩
  obtain ⟨halike, hnil⟩ := hresolved
  refine ⟨halike.stripSlash.nameIndex.recallIndex, ?_⟩
  rw [Dict.contains, (get?_recallIndex_of_ne _ ha).1, get?_nameIndex_of_ne _ ha,
    get?_stripSlash_of_ne _ hc, hnil]
  rfl

omit [Properties] in
/-- Intents stay alike when the same defaults are laid under what they recall. -/
theorem Alike.overDefaults {names : List Text} (h : Alike names x y) (defaults : Params) :
    Alike names ⟨x.options, defaults.overlay x.recalled⟩ ⟨y.options, defaults.overlay y.recalled⟩
    where
  options := h.options
  recalled := by
    intro k hk
    rw [Dict.get?_overlay, Dict.get?_overlay, h.recalled k hk]

/-- A parameter that the options name makes no difference to a route. -/
theorem Alike.link? (h : Alike [name] x y) (hname : x.options.contains name = true) (r : Route) :
    r.link? x.options x.recalled = r.link? y.options y.recalled := by
  have hmerged (k : Text) :
      (x.recalled.overlay x.options).get? k = (y.recalled.overlay y.options).get? k := by
    apply h.overlay
    intro hk
    rwa [List.mem_singleton.1 hk]
  rw [← h.options] at hmerged ⊢
  exact Route.link?_congr fun k _ => hmerged k

end Intent

/-! ## Links -/

namespace Table

open Intent

section

variable [Properties] {t : Table} {options recalled : Params} {name : Text}

/-- Intents that are alike but for a parameter that the options name find the same link. -/
theorem firstLink?_of_alike {x y : Intent} (h : Alike [name] x y)
    (hname : x.options.contains name = true) (routes : List Route) :
    firstLink? x routes = firstLink? y routes := by
  induction routes with
  | nil => rfl
  | cons r rest ih => rw [firstLink?, firstLink?, h.link? hname r, ih]

/-- Without a selected route a forgotten parameter makes no difference. -/
theorem generateAny_of_forgets (h : Forgets name ⟨options, recalled⟩ ⟨options, recalled.erase name⟩)
    (hc : name ≠ controllerKey) (ha : name ≠ actionKey) :
    t.generateAny options recalled = t.generateAny options (recalled.erase name) := by
  obtain ⟨halike, hname⟩ := h.normalize hc ha none
  rw [generateAny, generateAny, firstLink?_of_alike halike hname]

/-- With a selected route a forgotten parameter makes no difference. -/
theorem generateSelected_of_forgets
    (h : Forgets name ⟨options, recalled⟩ ⟨options, recalled.erase name⟩)
    (hc : name ≠ controllerKey) (ha : name ≠ actionKey) (selected : Text) :
    t.generateSelected selected options recalled =
      t.generateSelected selected options (recalled.erase name) := by
  rw [generateSelected, generateSelected]
  cases t.named? selected with
  | none => rfl
  | some r =>
    obtain ⟨halike, hname⟩ := h.normalize hc ha (some r)
    have hlink := (halike.overDefaults r.defaults).link? hname r
    simp only at hlink ⊢
    rw [hlink]

/-- What is recalled of a parameter makes no difference when the options set it to nil, whether a
route is selected or not, unless it is the controller or the action. -/
theorem generate_of_forgotten (hc : name ≠ controllerKey) (ha : name ≠ actionKey)
    (hreserved : name ∉ Reserved.keys) (hnil : options.get? name = some .nil)
    (hmap : ∀ entries, recalled.get? name ≠ some (.map entries)) :
    t.generate options recalled = t.generate options (recalled.erase name) ∧
      ∀ selected, t.generateNamed selected options recalled =
        t.generateNamed selected options (recalled.erase name) := by
  have hforgets :
      Forgets name ⟨Reserved.strip options, recalled⟩
        ⟨Reserved.strip options, recalled.erase name⟩ := by
    constructor
    case toAlike => exact alike_erase _ _ [name]
    case nil => rw [Reserved.get?_strip, if_neg hreserved, hnil]
    case left =>
      intro v hv hform
      obtain ⟨hget, htruthy⟩ := get?_of_given? hv
      -- every value that counts has a path form, but for a map
      cases v with
      | map entries => exact hmap entries hget
      | nil => cases htruthy
      | bool | int | str | symbol | list => cases hform
    case right =>
      intro v hv
      rw [Params.given?, Dict.get?_erase, if_pos rfl] at hv
      cases hv
  refine ⟨?_, fun selected => generateSelected_of_forgets hforgets hc ha selected⟩
  rw [generate, generate]
  split
  · exact generateSelected_of_forgets hforgets hc ha _
  · exact generateAny_of_forgets hforgets hc ha

end

/-- The pages of a day, of a month and of a year. -/
def pagesTable : Table :=
  (empty.add { Declaration.blank with
    path := "pages/:year/:month/:day".toList
    defaults := .ofList [(controllerKey, .str "content".toList),
      (actionKey, .str "list_pages".toList), ("month".toList, .nil), ("day".toList, .nil)] }).2

/-- Whatever day is recalled, it is not taken over; with a nil for the month as well, neither is the
month. -/
theorem generate_of_forgotten_pagesTable :
    let day := "day".toList
    let options : Params := .ofList [(day, .nil)]
    let recalled : Params := .ofList [(controllerKey, .str "content".toList),
      (actionKey, .str "list_pages".toList), ("year".toList, .str "2005".toList),
      ("month".toList, .str "6".toList)]
    (∀ t, pagesTable.generate options (recalled.insert day (.str t)) =
        pagesTable.generate options ((recalled.insert day (.str t)).erase day)) ∧
      pagesTable.generate options (recalled.insert day (.str "12".toList)) =
        .ok ⟨"/pages/2005/6".toList, .empty⟩ ∧
      pagesTable.generate (options.insert "month".toList .nil)
          (recalled.insert day (.str "12".toList)) =
        .ok ⟨"/pages/2005".toList, .empty⟩ := by
  intro day options recalled
  refine ⟨?_, by decide +kernel, by decide +kernel⟩
  intro t
  apply (generate_of_forgotten (by decide) (by decide) (by decide) (by decide) _).1
  intro entries
  rw [Dict.get?_insert, if_pos rfl]
  rintro ⟨⟩

end Table

end Routing
