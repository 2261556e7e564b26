import Routing.Generation

/-!
# What is asked for

Without recalled parameters the common form of an intent is simple: the options stay as they are,
but that controller and action become texts, a leading slash of the controller is dropped, and the
action `index` moves to the recalled parameters.

* `Intent.asked` — the value in which an option is read
* `Intent.get?_merged` — every option that counts as given is read in this way
-/

namespace Routing

namespace Value

/-- The value as a text, when it has a path form. -/
def asText (v : Value) : Value := (v.param?.map .str).getD v

/-- The value without one leading slash, when it is a text. -/
def dropSlash : Value → Value
  | .str ('/' :: t) => .str t
  | v => v

theorem asText_of_param? {v : Value} {t : Text} (h : v.param? = some t) : v.asText = .str t := by
  rw [asText, h]
  rfl

theorem asText_of_none {v : Value} (h : v.param? = none) : v.asText = v := by
  rw [asText, h]
  rfl

theorem param?_asText (v : Value) : v.asText.param? = v.param? := by
  cases h : v.param? with
  | none => rw [asText_of_none h, h]
  | some t => rw [asText_of_param? h, param?]

theorem isTruthy_asText {v : Value} (h : v.isTruthy = true) : v.asText.isTruthy = true := by
  cases hp : v.param? with
  | none => rwa [asText_of_none hp]
  | some t =>
    rw [asText_of_param? hp]
    rfl

/-- The value as a text, when it counts as given and has a path form. -/
def textual (v : Value) : Value := if v.isTruthy then v.asText else v

theorem textual_of_isTruthy {v : Value} (h : v.isTruthy = true) : v.textual = v.asText := if_pos h

theorem param?_textual (v : Value) : v.textual.param? = v.param? := by
  rw [textual]
  split
  · exact param?_asText v
  · rfl

theorem isTruthy_textual (v : Value) : v.textual.isTruthy = v.isTruthy := by
  rw [textual]
  split
  · next h => rw [isTruthy_asText h, h]
  · rfl

theorem dropSlash_str {s : Text} (hs : s.head? ≠ some '/') : (str s).dropSlash = .str s := by
  unfold dropSlash
  split
  · next heq =>
    cases heq
    exact absurd rfl hs
  · rfl

theorem isTruthy_dropSlash {v : Value} (h : v.isTruthy = true) : v.dropSlash.isTruthy = true := by
  unfold dropSlash
  split
  · rfl
  · exact h

end Value

namespace Reserved

/-- Stripped options have no reserved keys. -/
theorem get?_strip (options : Params) (k : Text) :
    (strip options).get? k = if k ∈ keys then none else options.get? k := by
  rw [strip, Dict.get?_filter]
  cases options.get? k with
  | none => simp
  | some v => simp [Option.filter]

variable {options : Params}

theorem strip_eq_self (h : ∀ k ∈ keys, options.get? k = none) : strip options = options := by
  apply Dict.ext_get?
  intro k
  rw [get?_strip]
  split
  · next hk => exact (h k hk).symm
  · rfl

theorem givenParam?_eq_none {k : Text} (h : ∀ k ∈ keys, options.get? k = none) (hk : k ∈ keys) :
    Params.givenParam? options k = none := by
  rw [Params.givenParam?, Params.given?, h k hk]
  rfl

end Reserved

/-- Options without reserved names select no route, and none of them is dropped. -/
theorem Table.generate_eq_generateAny [Properties] {options : Params}
    (h : ∀ k ∈ Reserved.keys, options.get? k = none) (t : Table) (recalled : Params) :
    t.generate options recalled = t.generateAny options recalled := by
  rw [generate, Reserved.givenParam?_eq_none h (by decide), Reserved.strip_eq_self h]

namespace Intent

/-- The value in which an option is read: controller and action as texts, and the controller without
a leading slash. -/
def asked (name : Text) (v : Value) : Value :=
  if name = controllerKey then v.asText.dropSlash
  else if name = actionKey then v.asText
  else v

/-- The action is `index`. -/
def asksIndex (name : Text) (v : Value) : Prop :=
  name = actionKey ∧ v.param? = some indexAction

instance (name : Text) (v : Value) : Decidable (asksIndex name v) :=
  inferInstanceAs (Decidable (_ ∧ _))

variable {options : Params} {k : Text} {v : Value}

theorem action_ne_controller : actionKey ≠ controllerKey := by decide

/-- What is asked for counts when the option does. -/
theorem isTruthy_asked (h : v.isTruthy = true) (name : Text) : (asked name v).isTruthy = true := by
  unfold asked
  split
  · exact Value.isTruthy_dropSlash (Value.isTruthy_asText h)
  · split
    · exact Value.isTruthy_asText h
    · exact h

theorem asked_controller (v : Value) : asked controllerKey v = v.asText.dropSlash := if_pos rfl

theorem asked_action (v : Value) : asked actionKey v = v.asText :=
  (if_neg action_ne_controller).trans (if_pos rfl)

theorem asked_of_ne (hc : k ≠ controllerKey) (ha : k ≠ actionKey) (v : Value) : asked k v = v :=
  (if_neg hc).trans (if_neg ha)

/-- What is asked for and the recalled parameters, in their common form. Where nothing is recalled
it makes no difference that a route is selected. -/
theorem normalize_empty [Properties] (selected : Option Route) (options : Params) :
    normalize selected ⟨options, .empty⟩ =
      (completeOptions ⟨options, .empty⟩).stripSlash.nameIndex.recallIndex := by
  cases selected <;> rfl

theorem asked_str {s : Text} (hs : s.head? ≠ some '/') : asked k (.str s) = .str s := by
  unfold asked
  split
  · exact Value.dropSlash_str hs
  · split <;> rfl

theorem given?_of_isTruthy (h : options.get? k = some v) (hv : v.isTruthy = true) :
    Params.given? options k = some v := by
  rw [Params.given?, h, Option.filter_some, if_pos hv]

/-- One option is made textual, the others stay. -/
theorem get?_textOption (options : Params) (name k : Text) :
    (textOption options name).get? k =
      if name = k then (options.get? k).map Value.textual else options.get? k := by
  rw [textOption]
  split
  · next t ht =>
    obtain ⟨v, hv, hform⟩ := Option.bind_eq_some_iff.1 ht
    obtain ⟨hget, htruthy⟩ := Option.filter_eq_some_iff.1 hv
    rw [Dict.get?_insert]
    split
    · next hk =>
      rw [← hk, hget, Option.map_some, Value.textual_of_isTruthy htruthy,
        Value.asText_of_param? hform]
    · rfl
  -- an option without a path form is textual already
  · next hnone =>
    split
    · next hk =>
      subst hk
      cases hget : options.get? name with
      | none => rfl
      | some v =>
        have hsame : v.textual = v := by
          rw [Value.textual]
          split
          · next htruthy =>
            rw [Params.givenParam?, given?_of_isTruthy hget htruthy] at hnone
            exact Value.asText_of_none hnone
          · rfl
        rw [Option.map_some, hsame]
    · rfl

/-- Completing the options touches the controller and the action alone. -/
theorem get?_completeOptions_of_ne (hc : k ≠ controllerKey) (ha : k ≠ actionKey) :
    (completeOptions ⟨options, .empty⟩).options.get? k = options.get? k := by
  rw [completeOptions]
  simp only
  rw [get?_textOption, if_neg (Ne.symm ha), get?_textOption, if_neg (Ne.symm hc)]
  split
  · rw [Dict.get?_insert, if_neg (Ne.symm ha)]
  · rfl

/-- Completing the options makes the controller textual. -/
theorem get?_completeOptions_controller (x : Intent) :
    x.completeOptions.options.get? controllerKey =
      (x.options.get? controllerKey).map Value.textual := by
  have hne := action_ne_controller
  rw [completeOptions]
  simp only
  rw [get?_textOption, if_neg hne, get?_textOption, if_pos rfl]
  split
  · rw [Dict.get?_insert, if_neg hne]
  · rfl

/-- Completing the options makes the action textual, and names the index when there is a controller
without an action. -/
theorem get?_completeOptions_action (x : Intent) :
    x.completeOptions.options.get? actionKey =
      if (Params.givenParam? x.options controllerKey).isSome ∧
          (Params.given? x.options actionKey).isNone then some (.str indexAction)
      else (x.options.get? actionKey).map Value.textual := by
  rw [completeOptions]
  simp only
  rw [get?_textOption, if_pos rfl, get?_textOption, if_neg action_ne_controller.symm]
  split
  · rw [Dict.get?_insert, if_pos rfl]
    rfl
  · rfl

/-- Stripping a slash touches the controller alone. -/
theorem get?_stripSlash_of_ne (x : Intent) (h : k ≠ controllerKey) :
    x.stripSlash.options.get? k = x.options.get? k := by
  rw [stripSlash]
  split
  · exact (Dict.get?_insert ..).trans (if_neg (Ne.symm h))
  · rfl

/-- The controller without its slash. -/
theorem get?_stripSlash_controller (x : Intent) (h : x.options.get? controllerKey = some v) :
    x.stripSlash.options.get? controllerKey = some v.dropSlash := by
  rw [stripSlash, h]
  split
  · next heq =>
    cases heq
    exact (Dict.get?_insert ..).trans (if_pos rfl)
  · next hne =>
    have hdrop : v.dropSlash = v := by
      unfold Value.dropSlash
      split
      · exact absurd rfl (hne _)
      · rfl
    rw [hdrop]
    exact h

theorem recalled_stripSlash (x : Intent) : x.stripSlash.recalled = x.recalled := by
  rw [stripSlash]
  split <;> rfl

/-- Naming the index touches the action alone. -/
theorem get?_nameIndex_of_ne (x : Intent) (h : k ≠ actionKey) :
    x.nameIndex.options.get? k = x.options.get? k := by
  rw [nameIndex]
  split
  · exact (Dict.get?_insert ..).trans (if_neg (Ne.symm h))
  · rfl

theorem recalled_nameIndex (x : Intent) : x.nameIndex.recalled = x.recalled := by
  rw [nameIndex]
  split <;> rfl

/-- Moving the index to the recall touches the action alone. -/
theorem get?_recallIndex_of_ne (x : Intent) (h : k ≠ actionKey) :
    x.recallIndex.options.get? k = x.options.get? k ∧
      x.recallIndex.recalled.get? k = x.recalled.get? k := by
  rw [recallIndex]
  split
  · split
    · exact ⟨(Dict.get?_erase ..).trans (if_neg (Ne.symm h)),
        (Dict.get?_insert ..).trans (if_neg (Ne.symm h))⟩
    · exact ⟨rfl, rfl⟩
  · exact ⟨rfl, rfl⟩

/-! ## The common form -/

/-- Options that are neither controller nor action stay as they are. -/
theorem get?_options_of_ne [Properties] (hc : k ≠ controllerKey) (ha : k ≠ actionKey) :
    (normalize none ⟨options, .empty⟩).options.get? k = options.get? k := by
  rw [normalize_empty, (get?_recallIndex_of_ne _ ha).1, get?_nameIndex_of_ne _ ha,
    get?_stripSlash_of_ne _ hc, get?_completeOptions_of_ne hc ha]

/-- Nothing but the action is recalled. -/
theorem get?_recalled_of_ne [Properties] (ha : k ≠ actionKey) :
    (normalize none ⟨options, .empty⟩).recalled.get? k = none := by
  rw [normalize_empty, (get?_recallIndex_of_ne _ ha).2, recalled_nameIndex, recalled_stripSlash]
  rfl

/-- The controller of the options after normalising. -/
theorem get?_options_controller [Properties] (h : options.get? controllerKey = some v)
    (hv : v.isTruthy = true) :
    (normalize none ⟨options, .empty⟩).options.get? controllerKey =
      some (asked controllerKey v) := by
  have hne := action_ne_controller.symm
  have hget : (completeOptions ⟨options, .empty⟩).options.get? controllerKey = some v.asText := by
    rw [get?_completeOptions_controller, h, Option.map_some, Value.textual_of_isTruthy hv]
  rw [normalize_empty, (get?_recallIndex_of_ne _ hne).1, get?_nameIndex_of_ne _ hne,
    get?_stripSlash_controller _ hget, asked_controller]

/-- The action `index` is recalled, and any other one stays. -/
theorem get?_action [Properties] (h : options.get? actionKey = some v) (hv : v.isTruthy = true) :
    (normalize none ⟨options, .empty⟩).options.get? actionKey =
        (if asksIndex actionKey v then none else some (asked actionKey v)) ∧
      (normalize none ⟨options, .empty⟩).recalled.get? actionKey =
        if asksIndex actionKey v then some (asked actionKey v) else none := by
  have hget : (completeOptions ⟨options, .empty⟩).options.get? actionKey = some v.asText := by
    have hgiven := given?_of_isTruthy h hv
    rw [get?_completeOptions_action, if_neg (by simp [hgiven]), h, Option.map_some,
      Value.textual_of_isTruthy hv]
  rw [← get?_stripSlash_of_ne _ action_ne_controller] at hget
  have hrecalled := recalled_stripSlash (completeOptions ⟨options, .empty⟩)
  rw [normalize_empty, asked_action]
  generalize (completeOptions ⟨options, .empty⟩).stripSlash = x at hget hrecalled
  -- an action that counts is not nil, so the index is not named
  have hindex : x.nameIndex = x := by
    rw [nameIndex, if_neg]
    rw [hget]
    rintro heq
    have := Value.isTruthy_asText hv
    rw [Option.some.inj heq] at this
    cases this
  rw [hindex, recallIndex, hget]
  simp only [Value.param?_asText]
  by_cases hask : v.param? = some indexAction
  · rw [if_pos hask, if_pos ⟨rfl, hask⟩, if_pos ⟨rfl, hask⟩, Dict.get?_erase, if_pos rfl,
      Dict.get?_insert, if_pos rfl]
    exact ⟨rfl, rfl⟩
  · rw [if_neg hask, if_neg fun h => hask h.2, if_neg fun h => hask h.2, hrecalled]
    exact ⟨hget, rfl⟩

theorem asksIndex_asked : asksIndex k (asked k v) ↔ asksIndex k v := by
  rw [asksIndex, asksIndex]
  refine and_congr_right fun hk => ?_
  rw [hk, asked_action, Value.param?_asText]

/-- An option that counts as given, in the common form. -/
theorem get?_options [Properties] (h : options.get? k = some v) (hv : v.isTruthy = true) :
    (normalize none ⟨options, .empty⟩).options.get? k =
      if asksIndex k v then none else some (asked k v) := by
  by_cases ha : k = actionKey
  · subst ha
    exact (get?_action h hv).1
  · rw [if_neg fun hask => ha hask.1]
    by_cases hc : k = controllerKey
    · subst hc
      exact get?_options_controller h hv
    · rw [get?_options_of_ne hc ha, h, asked_of_ne hc ha]

/-- Every option that counts as given is read in its common form. -/
theorem get?_merged [Properties] (h : options.get? k = some v) (hv : v.isTruthy = true) :
    ((normalize none ⟨options, .empty⟩).recalled.overlay
      (normalize none ⟨options, .empty⟩).options).get? k = some (asked k v) := by
  rw [Dict.get?_overlay, get?_options h hv]
  split
  · next hask =>
    have ha := hask.1
    subst ha
    rw [(get?_action h hv).2, if_pos hask]
    rfl
  · rfl

end Intent

end Routing
